import Overlay.Text.Split
import Overlay.World

/-!
This module contains trees of files, and what paths lead to from their top. A path goes through its
names from left to right: every name but the last must be that of a directory, a dot stays in a
directory and two dots leave it. Outside of the tree there are no files.
-/

namespace Overlay

/--
A tree of files: the names that lead to each node, and the contents of a file or `none` for a
directory. The directories above a node need not be listed.
-/
structure FileTree where
  nodes : List (List String × Option (List UInt8))

namespace FileTree

def names (path : String) : List String :=
  (Text.split ['/'] path.toList).map String.ofList

def stays (name : String) : Bool :=
  name = "" || name = "."

/--
The nodes that are made for a file with contents whose names are given from a directory on. If the
last name stays in its directory, that directory is made and no file.
-/
def made (contents : List UInt8) (here : List String) :
    List String → List (List String × Option (List UInt8))
  | [] => [(here, none)]
  | name :: rest =>
    if stays name then made contents here rest
    else if name = ".." then (here, none) :: made contents here.dropLast rest
    else if rest.isEmpty then [(here ++ [name], some contents)]
    else made contents (here ++ [name]) rest

/--
The tree of paths with contents. A path that ends in a slash is that of a directory, whose contents
do not count.
-/
def ofList (files : List (String × List UInt8)) : FileTree :=
  ⟨files.flatMap fun (path, contents) => made contents [] (names path)⟩

def node (t : FileTree) (path : List String) : FileState :=
  match t.nodes.reverse.find? (fun entry => entry.1 = path) with
  | some (_, some contents) => .file contents
  | some (_, none) => .directory
  | none =>
    if path.isEmpty || t.nodes.any (fun entry => path.isPrefixOf entry.1) then
      .directory
    else
      .absent

def maxNameOctets : Nat := 255

def maxPathOctets : Nat := 4095

/--
What names lead to from a directory: one of the tree, or if there is none given, one outside of it.
-/
def walk (t : FileTree) : Option (List String) → List String → FileState
  | _, [] => .directory
  | here, name :: rest =>
    if stays name then
      walk t here rest
    else if name = ".." then
      walk t (here.bind fun path => if path.isEmpty then none else some path.dropLast) rest
    else if maxNameOctets < name.utf8ByteSize then
      .tooLong
    else
      match here with
      | none => .absent
      | some path =>
        match t.node (path ++ [name]) with
        | .directory => walk t (some (path ++ [name])) rest
        | .file contents => if rest.isEmpty then .file contents else .belowFile
        | state => state

/--
What a path leads to. An empty path leads nowhere, and an absolute path starts outside of the tree.
-/
def look (t : FileTree) (path : String) : FileState :=
  if path.isEmpty then
    .absent
  else if path.toList.contains '\x00' then
    .notPath
  else if maxPathOctets < path.utf8ByteSize then
    .tooLong
  else
    walk t (if "/".isPrefixOf path then none else some []) (names path)

end FileTree
end Overlay
