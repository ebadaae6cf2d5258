import Overlay.Configuration.Layered
import Overlay.Layer.Defaults
import Overlay.Layer.Site
import Overlay.Layer.Source

/-!
This module contains the loading of a configuration from the machine: the defaults, the site's file,
the environment and overrides, each above the one before. Where the site's file is looked for
depends on all layers but the site's own.
-/

namespace Overlay

structure LoadOptions where
  siteFile : Option String
  environment : Bool
  overrides : Properties

namespace LoadOptions

def standard : LoadOptions := ⟨some "keel-site.toml", true, .empty⟩

def minimal : LoadOptions := ⟨none, false, .empty⟩

def override (o : LoadOptions) (pairs : List (String × String)) : LoadOptions :=
  { o with overrides := o.overrides.insertAll pairs }

def processLayers (o : LoadOptions) (w : World) : List Layer :=
  let environment := if o.environment then [Environment.layer w.environment] else []
  let overrides :=
    if o.overrides.size = 0 then [] else [(⟨"overrides", .process, none, o.overrides⟩ : Layer)]
  environment ++ overrides

def siteDirectories (o : LoadOptions) (w : World) : Except ConfigError (List String) :=
  Site.searchPath (Defaults.layer w) (o.processLayers w)

def siteLayer (o : LoadOptions) (w : World) : Except ConfigError (Option Layer) :=
  match o.siteFile with
  | none => .ok none
  | some fileName => do Site.find w fileName (← o.siteDirectories w)

def sitePaths (o : LoadOptions) (w : World) : List String :=
  match o.siteFile, o.siteDirectories w with
  | some fileName, .ok directories => directories.map (Site.inDirectory · fileName)
  | _, _ => []

end LoadOptions

namespace Configuration

def load (w : World) (options : LoadOptions) : Except ConfigError Configuration := do
  let site ← options.siteLayer w
  ofLayers Rule.builtin (Defaults.layer w :: site.toList ++ options.processLayers w)

end Configuration
end Overlay
