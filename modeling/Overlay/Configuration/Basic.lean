import Overlay.Layer.Basic
import Overlay.Rule

/-!
This module contains configurations: properties, the rules that are checked after every change, and
a summary of the layers that the properties come from.
-/

namespace Overlay

structure LayerSummary where
  name : String
  origin : Origin
  path : Option String
  keys : Nat
deriving DecidableEq, Repr

def Layer.summary (l : Layer) : LayerSummary :=
  ⟨l.name, l.origin, l.path, l.properties.size⟩

structure Configuration where
  properties : Properties
  rules : List Rule
  layers : List LayerSummary

namespace Configuration

def empty : Configuration :=
  ⟨.empty, Rule.builtin, []⟩

def withRule (conf : Configuration) (rule : Rule) : Configuration :=
  { conf with rules := conf.rules ++ [rule] }

def validate (conf : Configuration) : Logged Unit :=
  Rule.checkAll conf.rules conf.properties

/--
Give a property a value, which stays also if a rule is broken then.
-/
def set (conf : Configuration) (key value : String) : Configuration × Except ConfigError Unit :=
  if key.isEmpty then
    (conf, .error (.emptyKey key value))
  else
    let conf := { conf with properties := conf.properties.insert key value }
    (conf, conf.validate.result)

def merge (conf : Configuration) (pairs : List (String × String)) :
    Configuration × Except ConfigError Unit :=
  let conf := { conf with properties := conf.properties.insertAll pairs }
  (conf, conf.validate.result)

end Configuration
end Overlay
