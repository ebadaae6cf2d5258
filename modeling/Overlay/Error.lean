/-!
This module contains the ways in which configuration can fail, each with its cause, and their
wording.
-/

namespace Overlay

inductive ValueKind where
  | integer
  | long
  | double
  | float
  | boolean
  | bytes
deriving DecidableEq, Repr

def ValueKind.phrase : ValueKind → String
  | integer => "an integer"
  | long => "a long"
  | double => "a double"
  | float => "a float"
  | boolean => "a boolean"
  | bytes => "a byte size"

inductive ConfigError where
  /-- A key without a value was read. -/
  | keyNotFound (key : String)
  /-- The expanded value of a key is not of the kind asked for. -/
  | typeMismatch (key : String) (kind : ValueKind)
  /-- The expanded value of a key names no variant. -/
  | unknownVariant (key value : String)
  /-- The expanded value of a key names no registered implementation. -/
  | notRegistered (name : String)
  /-- The names of `chain` refer to each other in order, and the last one occurs before. -/
  | cyclicReference (chain : List String)
  /-- A name with a value is reached through `limit` names. -/
  | referenceTooDeep (name : String) (limit : Nat)
  /-- A pair without a key was set. -/
  | emptyKey (key value : String)
  /-- A list was read with an empty delimiter. -/
  | emptyDelimiter
  /-- A rule does not hold of the value of `field`. -/
  | invalid (field reason : String)
  /-- A source of properties is no well-formed document. -/
  | malformedSource (name : String)
  /-- A key in a source of properties has too many parts. -/
  | keyTooDeep (name : String)
  /-- A source of properties cannot be read. -/
  | unreadableSource (path reason : String)
deriving DecidableEq, Repr

def notRegisteredMessage (name : String) : String :=
  "no implementation registered under '" ++ name ++ "'"

/--
The wording of an error. That of a malformed source ends before the parser's explanation.
-/
def ConfigError.message : ConfigError → String
  | keyNotFound key => "invalid configuration key: " ++ key
  | typeMismatch key kind => "configuration value of " ++ key ++ " is not " ++ kind.phrase
  | unknownVariant key value => "no variant of " ++ key ++ " matches '" ++ value ++ "'"
  | notRegistered name => "requested class could not be loaded: " ++ name
  | cyclicReference chain => "cyclic placeholder reference: " ++ String.intercalate " -> " chain
  | referenceTooDeep name limit =>
    "placeholder " ++ name ++ " nested deeper than " ++ limit.repr ++ " references"
  | emptyKey key value =>
    "invalid argument: the key value pair (" ++ key ++ ", " ++ value ++ ") cannot have an empty key"
  | emptyDelimiter => "invalid argument: illegal separator for keel properties as list"
  | invalid field reason => "config validation failed: " ++ field ++ ": " ++ reason
  | malformedSource name => "config error: failed to parse " ++ name
  | keyTooDeep name => "config error: failed to parse " ++ name ++ ": recursion limit\n"
  | unreadableSource path reason => "config error: cannot read " ++ path ++ ": " ++ reason

end Overlay
