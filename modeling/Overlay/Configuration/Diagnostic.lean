import Overlay.Configuration.Basic
import Overlay.Text.Quoted

/-!
This module contains the one line text that shows a configuration in diagnostics.
-/

namespace Overlay

def Origin.diagnostic : Origin → String
  | defaults => "Defaults"
  | site => "Site"
  | process => "Process"
  | runtime => "Runtime"

def diagnosticList (items : List String) : String :=
  "[" ++ String.intercalate ", " items ++ "]"

def LayerSummary.diagnostic (l : LayerSummary) : String :=
  let path := match l.path with
    | none => "None"
    | some path => "Some(" ++ Text.quote Text.diagnosticEscape path ++ ")"
  "LayerInfo \x7b name: " ++ Text.quote Text.diagnosticEscape l.name ++ ", origin: "
    ++ l.origin.diagnostic ++ ", path: " ++ path ++ ", keys: " ++ l.keys.repr ++ " \x7d"

def Configuration.diagnostic (conf : Configuration) : String :=
  "Configuration \x7b keys: " ++ conf.properties.size.repr ++ ", rules: "
    ++ diagnosticList (conf.rules.map fun rule => Text.quote Text.diagnosticEscape rule.name)
    ++ ", layers: " ++ diagnosticList (conf.layers.map LayerSummary.diagnostic) ++ " \x7d"

end Overlay
