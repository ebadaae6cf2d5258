import Overlay.Toml.Value

/-!
This module contains the second way to write a date or time in a TOML document: a table whose first
entry is the date key is the date or time that the entry's string writes.
-/

namespace Overlay
namespace Toml

def dateKey : String := "$__toml_private_datetime"

def dated? : List (String × Value) → Option Value
  | [] => none
  | (key, v) :: _ => if key = dateKey then some v else none

def Value.toDate? : Value → Option Value
  | .string s => (DateTime.read? s.toList).map .dateTime
  | _ => none

mutual

/--
A value with dates in place of the tables with the date key. It has no meaning if a date key comes
with anything but the text of a date.
-/
def Value.settle? : Value → Option Value
  | .array items => (settleItems? items).map .array
  | .table entries =>
    match dated? entries with
    | some v => v.toDate?
    | none => (settleEntries? entries).map .table
  | .string s => some (.string s)
  | .integer n => some (.integer n)
  | .float x => some (.float x)
  | .boolean b => some (.boolean b)
  | .dateTime t => some (.dateTime t)

def settleItems? : List Value → Option (List Value)
  | [] => some []
  | v :: vs => do some ((← v.settle?) :: (← settleItems? vs))

def settleEntries? : List (String × Value) → Option (List (String × Value))
  | [] => some []
  | (key, v) :: rest => do some ((key, ← v.settle?) :: (← settleEntries? rest))

end

end Toml
end Overlay
