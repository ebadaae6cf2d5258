import Overlay.Dictionary
import Overlay.Toml.DateTime

/-!
This module contains the values of TOML documents and their flattening: every value that is no table
becomes a property, whose name is the path of keys that leads to it, joined with dots.
-/

namespace Overlay
namespace Toml

/--
A value of a TOML document. The entries of a table are in ascending order of the keys.
-/
inductive Value where
  | string (s : String)
  | integer (n : Int)
  | float (x : Number.Binary)
  | boolean (b : Bool)
  | dateTime (t : DateTime)
  | array (items : List Value)
  | table (entries : List (String × Value))
deriving Repr

/--
The path to a key of the table at `path`. The path to a top-level key is the key, and so is the path
to a key of a table whose own path is empty.
-/
def extend (path key : String) : String :=
  if path.isEmpty then key else path ++ "." ++ key

mutual

/--
The text of a value. The items of an array are joined with commas. A table inside of an array is
flattened and its properties are written as assignments joined with commas.
-/
def Value.text : Value → String
  | .string s => s
  | .integer n => Number.printInteger n
  | .float x => Number.binary64.print x
  | .boolean b => if b then "true" else "false"
  | .dateTime t => String.ofList t.text
  | .array items => String.intercalate "," (texts items)
  | .table entries =>
    String.intercalate ","
      ((Dictionary.ofList (leaves "" entries)).toList.map fun entry => entry.1 ++ "=" ++ entry.2)

def texts : List Value → List String
  | [] => []
  | v :: vs => v.text :: texts vs

def leaves (path : String) : List (String × Value) → List (String × String)
  | [] => []
  | (key, v) :: rest => v.leavesAt (extend path key) ++ leaves path rest

def Value.leavesAt (path : String) : Value → List (String × String)
  | .table entries => leaves path entries
  | .string s => [(path, s)]
  | .integer n => [(path, Number.printInteger n)]
  | .float x => [(path, Number.binary64.print x)]
  | .boolean b => [(path, if b then "true" else "false")]
  | .dateTime t => [(path, String.ofList t.text)]
  | .array items => [(path, String.intercalate "," (texts items))]

end

def flatten (entries : List (String × Value)) : Properties :=
  .ofList (leaves "" entries)

end Toml
end Overlay
