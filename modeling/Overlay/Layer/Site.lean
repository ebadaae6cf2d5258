import Overlay.Expansion
import Overlay.Layer.Source
import Overlay.Property
import Overlay.Text.Split

/-!
This module contains the search for the site's layer: the directories to search, and the first file
of a name in them.
-/

namespace Overlay
namespace Site

/--
The directories that a comma separated list names. Blanks around a name do not belong to it, and the
placeholders of each name are expanded on their own.
-/
def directories (look : String → Option String) (raw : String) : Except ConfigError (List String) :=
  let names := (Text.split [','] raw.toList).map Text.trim |>.filter (fun cs => !cs.isEmpty)
  names.mapM fun cs => (Expansion.resolve look (String.ofList cs)).1

def searchPath (defaults : Layer) (above : List Layer) : Except ConfigError (List String) :=
  let visible := Layer.merge (defaults :: above)
  match visible.get? Property.siteConfDir with
  | none => .ok []
  | some raw => directories visible.get? raw

/--
The path of a file in a directory. An absolute name is a path of its own.
-/
def inDirectory (directory fileName : String) : String :=
  if "/".isPrefixOf fileName || directory.isEmpty then
    fileName
  else if directory.toList.getLast? == some '/' then
    directory ++ fileName
  else
    directory ++ "/" ++ fileName

def find (w : World) (fileName : String) : List String → Except ConfigError (Option Layer)
  | [] => .ok none
  | directory :: rest =>
    let path := inDirectory directory fileName
    match w.look path with
    | .file _ => (Layer.ofFile w path .site).map some
    | _ => find w fileName rest

end Site
end Overlay
