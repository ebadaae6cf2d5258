import Overlay.Proofs.Command.Choice
import Overlay.Proofs.Configuration.Layered
import Overlay.Proofs.Layer
import Overlay.Proofs.Layer.Environment

/-!
This module contains where the values of a loaded configuration come from. Definitions on the
command line come first, then the switch for the site's directories, the environment, the site's
file and the defaults. The site's file is searched for without its own help, and the search ends at
the first file that is found.
-/

namespace Overlay
namespace Command

variable {w : World} {s : Settings} {c : Choice} {conf : Configuration} {key : String}

/--
The value that the command line or the environment gives a key, in this order.
-/
def processValue? (w : World) (c : Choice) (key : String) : Option String :=
  (Dictionary.lastValue? key c.defines).or
    ((if key = Property.siteConfDir then c.siteDir else none).or
      (if c.noEnvironment then none else Environment.lastSetting? w.environment key))

/--
The value of a key, for which the site's file is asked after the process and before the defaults.
-/
def sourceValue? (w : World) (c : Choice) (site : Option Properties) (key : String) :
    Option String :=
  (processValue? w c key).or ((site.bind fun p => p.get? key).or (Defaults.value? w key))

theorem get?_overrides :
    s.loadOptions.overrides.get? key
      =
    (Dictionary.lastValue? key s.defines).or
      (if key = Property.siteConfDir then s.siteDir else none) := by
  unfold Settings.loadOptions LoadOptions.override
  rw [Dictionary.get?_insertAll, Dictionary.get?_empty, Option.or_none,
    Dictionary.lastValue?_append]
  cases s.siteDir with
  | none => simp [Dictionary.lastValue?_nil]
  | some dirs => simp [Dictionary.lastValue?_singleton]

theorem topmost_processLayers :
    Layer.topmost (s.loadOptions.processLayers w) key = processValue? w s.choice key := by
  have hoverrides : Layer.topmost
      (if s.loadOptions.overrides.size = 0 then []
        else [(⟨"overrides", .process, none, s.loadOptions.overrides⟩ : Layer)]) key
      = s.loadOptions.overrides.get? key := by
    split
    . next hempty => rw [Dictionary.get?_eq_none_of_size_eq_zero hempty, Layer.topmost_nil]
    . rw [Layer.topmost_singleton]
  have henvironment : Layer.topmost
      (if s.loadOptions.environment then [Environment.layer w.environment] else []) key
      = if s.environment then Environment.lastSetting? w.environment key else none := by
    change Layer.topmost (if s.environment then _ else _) key = _
    split
    . rw [Layer.topmost_singleton, Environment.get?_layer]
    . rfl
  unfold LoadOptions.processLayers
  rw [Layer.topmost_append, hoverrides, henvironment, get?_overrides, Option.or_assoc,
    processValue?]
  cases henv : s.environment <;> simp [Settings.choice, henv]

theorem get?_visible :
    (Layer.merge (Defaults.layer w :: s.loadOptions.processLayers w)).get? key
      =
    sourceValue? w s.choice none key := by
  rw [Layer.get?_merge, Layer.topmost_cons, topmost_processLayers, Defaults.get?_layer]
  rfl

theorem topmost_sources (site : Option Layer) :
    Layer.topmost (Defaults.layer w :: site.toList ++ s.loadOptions.processLayers w) key
      =
    sourceValue? w s.choice (site.map Layer.properties) key := by
  rw [Layer.topmost_append, Layer.topmost_cons, topmost_processLayers, Defaults.get?_layer,
    sourceValue?]
  cases site with
  | none => rfl
  | some l => simp

theorem load_eq_ok_iff {options : LoadOptions} :
    Configuration.load w options = .ok conf
      ↔
    ∃ site, options.siteLayer w = .ok site
      ∧ Configuration.ofLayers Rule.builtin
          (Defaults.layer w :: site.toList ++ options.processLayers w) = .ok conf := by
  unfold Configuration.load
  exact bind_eq_ok_iff

/--
The directories in which the site's file is searched for. Their list is made from all sources but
the site's file.
-/
def SearchPath (w : World) (c : Choice) (directories : List String) : Prop :=
  (sourceValue? w c none Property.siteConfDir = none ∧ directories = [])
    ∨ ∃ raw segs, sourceValue? w c none Property.siteConfDir = some raw
      ∧ raw.toList = Text.join [','] segs ∧ Site.Named (sourceValue? w c none) segs directories

theorem searchPath_of_siteDirectories {directories : List String}
    (h : s.loadOptions.siteDirectories w = .ok directories) :
    SearchPath w s.choice directories := by
  have hvisible : (Layer.merge (Defaults.layer w :: s.loadOptions.processLayers w)).get?
      = sourceValue? w s.choice none := funext fun _ => get?_visible
  simp only [LoadOptions.siteDirectories, Site.searchPath, hvisible] at h
  split at h
  . next hnone =>
    injection h with h
    exact .inl ⟨hnone, h.symm⟩
  . next raw hraw =>
    obtain ⟨segs, hsegs, hnamed⟩ := Site.exists_named_of_directories h
    exact .inr ⟨raw, segs, hraw, hsegs, hnamed⟩

/--
Where everything in a configuration loaded under settings comes from: the site's file, which writes
`site`, is the first one in `directories`, and `n` is the number of workers on a host that decides
about their ports.
-/
structure Loaded (w : World) (s : Settings) (c : Choice) (directories : List String)
    (site : Option Properties) (n : Int) (conf : Configuration) : Prop where
  searchPath : c.noSite = false → SearchPath w c directories
  chosen : c.noSite = false → Site.Chosen w "keel-site.toml" directories site
  skipped : c.noSite = true → site = none
  workers : ∃ p : Properties, (p.int Property.workersPerHostMax).result = .ok n
    ∧ p.get? Property.masterAddress = conf.properties.get? Property.masterAddress
    ∧ ∀ key, key ≠ Property.masterAddress → p.get? key = sourceValue? w c site key
  ports : ∀ key ∈ Property.workerPorts,
    conf.properties.get? key = if 1 < n then some "0" else sourceValue? w c site key
  others : ∀ key, key ≠ Property.masterAddress → key ∉ Property.workerPorts →
    conf.properties.get? key = sourceValue? w c site key
  unaffected : ∀ before directory after look, directories = before ++ directory :: after →
    Site.Holds w directory "keel-site.toml" →
    (∀ d ∈ before ++ [directory], ∀ path, Site.PathIn "keel-site.toml" d path →
      look path = w.look path) →
    Configuration.load { w with look := look } s.loadOptions = .ok conf

theorem siteLayer_of_siteFile (h : s.siteFile = true) :
    s.loadOptions.siteLayer w
      =
    s.loadOptions.siteDirectories w >>= Site.find w "keel-site.toml" := by
  unfold LoadOptions.siteLayer Settings.loadOptions
  rw [h]
  rfl

theorem siteLayer_of_not_siteFile (h : s.siteFile = false) :
    s.loadOptions.siteLayer w = .ok none := by
  unfold LoadOptions.siteLayer Settings.loadOptions
  rw [h]
  rfl

theorem exists_of_siteLayer {site : Option Layer} (h : s.loadOptions.siteLayer w = .ok site) :
    ∃ directories,
      (s.siteFile = true → s.loadOptions.siteDirectories w = .ok directories
        ∧ Site.find w "keel-site.toml" directories = .ok site)
      ∧ (s.siteFile = false → site = none) := by
  by_cases hfile : s.siteFile = true
  . rw [siteLayer_of_siteFile hfile, bind_eq_ok_iff] at h
    obtain ⟨directories, hdirectories, hfind⟩ := h
    refine ⟨directories, fun _ => ⟨hdirectories, hfind⟩, ?_⟩
    simp [hfile]
  . rw [Bool.not_eq_true] at hfile
    rw [siteLayer_of_not_siteFile hfile] at h
    injection h with h
    refine ⟨[], ?_, fun _ => h.symm⟩
    simp [hfile]

-- The layers of the process and the defaults do not depend on the files, so the same directories
-- are searched.
theorem siteLayer_congr {before after : List String} {directory : String}
    {look : String → FileState}
    (hdirectories : s.siteFile = true →
      s.loadOptions.siteDirectories w = .ok (before ++ directory :: after))
    (hholds : Site.Holds w directory "keel-site.toml")
    (hlook : ∀ d ∈ before ++ [directory], ∀ path, Site.PathIn "keel-site.toml" d path →
      look path = w.look path) :
    s.loadOptions.siteLayer { w with look := look } = s.loadOptions.siteLayer w := by
  by_cases hfile : s.siteFile = true
  . have hsame : s.loadOptions.siteDirectories { w with look := look }
        = s.loadOptions.siteDirectories w := rfl
    rw [siteLayer_of_siteFile hfile, siteLayer_of_siteFile hfile, hsame, hdirectories hfile]
    apply Site.find_congr hholds
    intro d hd
    exact hlook d hd _ (Site.pathIn_inDirectory d _)
  . rw [Bool.not_eq_true] at hfile
    rw [siteLayer_of_not_siteFile hfile, siteLayer_of_not_siteFile hfile]

theorem loaded_of_load (h : Configuration.load w s.loadOptions = .ok conf) :
    ∃ directories site n, Loaded w s s.choice directories site n conf := by
  obtain ⟨site, hsite, hlayers⟩ := load_eq_ok_iff.1 h
  obtain ⟨directories, hsearched, hskipped⟩ := exists_of_siteLayer hsite
  obtain ⟨p, q, hp, _, hq, rfl⟩ := Configuration.ofLayers_eq_ok_iff.1 hlayers
  obtain ⟨n, hn, _⟩ := Configuration.releaseWorkerPorts_eq_ok_iff.1 hq
  have hreleased := Configuration.get?_of_releaseWorkerPorts hn hq
  have hsources : ∀ key, key ≠ Property.masterAddress →
      p.get? key = sourceValue? w s.choice (site.map Layer.properties) key := by
    intro key hkey
    obtain ⟨host, port, b, _, _, _, rfl⟩ := Configuration.deriveMasterAddress_eq_ok_iff.1 hp
    rw [Dictionary.get?_insert_of_ne _ _ hkey, Layer.get?_merge, topmost_sources]
  have hsiteFile : s.choice.noSite = false → s.siteFile = true := by simp [Settings.choice]
  refine ⟨directories, site.map Layer.properties, n, ?_⟩
  constructor
  case searchPath =>
    intro hsome
    exact searchPath_of_siteDirectories (hsearched (hsiteFile hsome)).1
  case chosen =>
    intro hsome
    exact Site.chosen_of_find (hsearched (hsiteFile hsome)).2
  case skipped =>
    intro hnone
    rw [hskipped (by simpa [Settings.choice] using hnone)]
    rfl
  case workers =>
    refine ⟨p, hn, ?_, hsources⟩
    rw [hreleased, if_neg]
    rintro ⟨_, hmem⟩
    exact Configuration.workerPorts_ne_masterAddress _ hmem rfl
  case ports =>
    intro key hkey
    rw [hreleased, hsources key (Configuration.workerPorts_ne_masterAddress key hkey)]
    simp [hkey]
  case others =>
    intro key hne hkey
    rw [hreleased, hsources key hne]
    simp [hkey]
  case unaffected =>
    rintro before directory after look rfl hholds hlook
    rw [load_eq_ok_iff, siteLayer_congr (fun hfile => (hsearched hfile).1) hholds hlook]
    exact ⟨site, hsite, hlayers⟩

theorem load_layered {before after : Arguments} (hchoice : c.MadeBy before after)
    (h : Configuration.load w (Settings.ofArguments before after).loadOptions = .ok conf) :
    ∃ directories site n,
      Loaded w (Settings.ofArguments before after) c directories site n conf := by
  obtain ⟨directories, site, n, hloaded⟩ := loaded_of_load h
  rw [hchoice.choice_ofArguments] at hloaded
  exact ⟨directories, site, n, hloaded⟩

/--
A machine on which two variables and the site's file give a value to one key, and a variable names
the directory with this file. In front of it is a directory without the file, and behind it one in
which the file cannot be read.
-/
def machine : World where
  hostName := some "node7".toUTF8.toList
  environment := [("HOME", "/home/keel"), ("KEEL_RACK", "r1"), ("KEEL_HERE", "conf/"),
    ("KEEL_Rack", "r2")]
  accountHome := none
  look := fun path =>
    if path = "conf/keel-site.toml" then
      .file "keel.rack = \"r0\"\nkeel.zone = \"z0\"\n[keel.worker]\nport = 29000".toUTF8.toList
    else if path = "late/keel-site.toml" then
      .file [0xff]
    else
      .absent

def givenBefore : Arguments :=
  ⟨[(.define, "keel.zone=z1"), (.siteDir, "etc, ,\t$\x7bkeel.here\x7d ,late")], [], .nothing⟩

def givenAfter : Arguments :=
  ⟨[(.define, "keel.zone=z2"), (.define, "keel.zone=a=b")], [], .nothing⟩

def chosenAround : Choice :=
  ⟨[("keel.zone", "z2"), ("keel.zone", "a=b")], some "etc, ,\t$\x7bkeel.here\x7d ,late", false,
    false⟩

theorem load_layered_machine :
    chosenAround.MadeBy givenBefore givenAfter
      ∧ ∃ conf, Configuration.load machine (Settings.ofArguments givenBefore givenAfter).loadOptions
          = .ok conf
        ∧ ∃ directories site n,
            Loaded machine (Settings.ofArguments givenBefore givenAfter) chosenAround directories
              site n conf := by
  have hchoice : chosenAround.MadeBy givenBefore givenAfter := by
    constructor
    case keys => decide
    case defines => exact counts_iff.2 (by decide)
    case siteDir => exact counts_iff.2 (by decide)
    case noEnvironment =>
      rw [← has_iff_exists]
      decide
    case noSite =>
      rw [← has_iff_exists]
      decide
  obtain ⟨conf, hconf⟩ : ∃ conf,
      Configuration.load machine (Settings.ofArguments givenBefore givenAfter).loadOptions
        = .ok conf := by
    apply exists_of_isOk
    decide +kernel
  exact ⟨hchoice, conf, hconf, load_layered hchoice hconf⟩

end Command
end Overlay
