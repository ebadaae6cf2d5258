import Overlay.Layer.Defaults
import Overlay.Layer.Site
import Overlay.Proofs.Dictionary
import Overlay.Proofs.Expansion.Meaning
import Overlay.Proofs.Items

/-!
This module contains what the layers hold that are read from the machine: what the defaults are,
which directories a list names, and which file is the site's.
-/

namespace Overlay
namespace Defaults

variable {w : World} {key : String}

def userHome? (w : World) : Option String :=
  match w.env? "HOME" with
  | some home => if home = "" then w.accountHome else some home
  | none => w.accountHome

def value? (w : World) (key : String) : Option String :=
  if key = Property.masterHostname then some (Host.name w)
  else if key = Property.workerChannel ∨ key = Property.userChannel then some "EPOLL"
  else if key = Property.userHome then userHome? w
  else Dictionary.lastValue? key fixed

theorem ofWorld_eq (w : World) :
    ofWorld w
      =
    [(Property.masterHostname, Host.name w), (Property.workerChannel, "EPOLL"),
      (Property.userChannel, "EPOLL")]
        ++ ((userHome? w).map fun home => (Property.userHome, home)).toList := by
  have hhome : ((w.env? "HOME").filter (· != "") <|> w.accountHome) = userHome? w := by
    unfold userHome?
    cases w.env? "HOME" with
    | none => rfl
    | some home => by_cases hempty : home = "" <;> simp [Option.filter, hempty]
  rw [← hhome]
  rfl

theorem lastValue?_ofWorld :
    Dictionary.lastValue? key (ofWorld w)
      =
    if key = Property.masterHostname then some (Host.name w)
    else if key = Property.workerChannel ∨ key = Property.userChannel then some "EPOLL"
    else if key = Property.userHome then userHome? w
    else none := by
  have hhome : Dictionary.lastValue? key
        ((userHome? w).map fun home => (Property.userHome, home)).toList
      = if key = Property.userHome then userHome? w else none := by
    cases userHome? w with
    | none => simp [Dictionary.lastValue?_nil]
    | some home => exact Dictionary.lastValue?_singleton _ _
  have hmaster : Property.userHome ≠ Property.masterHostname := by decide
  have hworker : Property.userHome ≠ Property.workerChannel := by decide
  have huser : Property.userHome ≠ Property.userChannel := by decide
  have hchannel : Property.userChannel ≠ Property.masterHostname := by decide
  have hchannel' : Property.workerChannel ≠ Property.masterHostname := by decide
  rw [ofWorld_eq, Dictionary.lastValue?_append, hhome]
  simp only [Dictionary.lastValue?_cons, Dictionary.lastValue?_nil]
  grind

theorem get?_layer (w : World) (key : String) : (layer w).properties.get? key = value? w key := by
  -- without a directory of the user, the table is asked for it, which has none
  have hfixed : Dictionary.lastValue? Property.userHome fixed = none := by decide +kernel
  unfold layer Layer.insertAll Layer.new value?
  rw [Dictionary.get?_insertAll, Dictionary.get?_empty, Option.or_none,
    Dictionary.lastValue?_append, lastValue?_ofWorld]
  grind

end Defaults

namespace Site

variable {w : World} {fileName : String} {directories : List String}

section Directories

variable {look : String → Option String} {segs : List (List Char)}

/--
The directories that the segments of a list name, where `look` gives the values of placeholders. A
segment of blanks names none, and blanks around a name do not belong to it. What a name is expanded
to is not looked into again.
-/
inductive Named (look : String → Option String) : List (List Char) → List String → Prop where
  | nil : Named look [] []
  | blank {seg : List Char} {segs : List (List Char)} {directories : List String} :
      (∀ c ∈ seg, Text.isBlank c = true) → Named look segs directories →
      Named look (seg :: segs) directories
  | name {left name right : List Char} {segs : List (List Char)} {directory : String}
      {directories : List String} :
      (∀ c ∈ left, Text.isBlank c = true) → Text.Clean [','] name →
      (∀ c ∈ right, Text.isBlank c = true) → Expansion.Expands look name directory.toList →
      Named look segs directories →
      Named look ((left ++ name ++ right) :: segs) (directory :: directories)

-- Only segments with a name are expanded, so the segments are gone through and not what is expanded.
theorem named_of_mapM (hclean : ∀ name ∈ Text.kept segs, Text.Clean [','] name)
    (h : (Text.kept segs).mapM (fun cs => (Expansion.resolve look (String.ofList cs)).1)
      = .ok directories) : Named look segs directories := by
  induction segs generalizing directories with
  | nil =>
    injection h with h
    subst h
    exact .nil
  | cons seg segs ih =>
    obtain ⟨left, right, hleft, hright, hseg⟩ := Text.exists_pad seg
    by_cases hblank : Text.trim seg = []
    . rw [Text.kept_cons_of_blank hblank] at h hclean
      apply Named.blank _ (ih hclean h)
      rw [hseg, hblank, List.append_nil, List.forall_mem_append]
      exact ⟨hleft, hright⟩
    . rw [Text.kept_cons rfl hblank] at h hclean
      rw [List.mapM_cons, bind_eq_ok_iff] at h
      obtain ⟨directory, hdirectory, h⟩ := h
      obtain ⟨rest, hrest, h⟩ := bind_eq_ok_iff.1 h
      injection h with h
      subst h
      have hexpands := (Expansion.expands_iff_of_expand_fresh hdirectory _).2 rfl
      rw [String.toList_ofList] at hexpands
      rw [List.forall_mem_cons] at hclean
      rw [hseg]
      exact .name hleft hclean.1 hright hexpands (ih hclean.2 hrest)

theorem exists_named_of_directories {raw : String}
    (h : Site.directories look raw = .ok directories) :
    ∃ segs, raw.toList = Text.join [','] segs ∧ Named look segs directories := by
  refine ⟨Text.split [','] raw.toList, (Text.join_split_singleton _).symm, ?_⟩
  apply named_of_mapM _ h
  intro name hname
  exact Text.clean_of_mem_fields (List.cons_ne_nil _ _) hname

end Directories

/--
The path of a file in a directory. A name that is absolute is a path of its own.
-/
inductive PathIn (fileName : String) : String → String → Prop where
  | absolute {directory : String} : "/".isPrefixOf fileName = true →
      PathIn fileName directory fileName
  | here : PathIn fileName "" fileName
  | slash {parent : String} : "/".isPrefixOf fileName = false →
      PathIn fileName (parent ++ "/") (parent ++ "/" ++ fileName)
  | below {directory : String} : "/".isPrefixOf fileName = false → directory ≠ "" →
      (∀ parent, directory ≠ parent ++ "/") →
      PathIn fileName directory (directory ++ "/" ++ fileName)

theorem getLast?_eq_slash_iff {directory : String} :
    directory.toList.getLast? = some '/' ↔ ∃ parent, directory = parent ++ "/" := by
  rw [List.getLast?_eq_some_iff]
  constructor
  . rintro ⟨cs, hcs⟩
    refine ⟨String.ofList cs, ?_⟩
    rw [← String.toList_inj, hcs]
    simp
  . rintro ⟨parent, rfl⟩
    exact ⟨parent.toList, by simp⟩

theorem pathIn_inDirectory (directory fileName : String) :
    PathIn fileName directory (inDirectory directory fileName) := by
  unfold inDirectory
  by_cases habsolute : "/".isPrefixOf fileName = true
  . simpa [habsolute] using PathIn.absolute habsolute
  . rw [Bool.not_eq_true] at habsolute
    by_cases hempty : directory = ""
    . subst hempty
      simpa using PathIn.here
    . by_cases hslash : ∃ parent, directory = parent ++ "/"
      . have hlast := getLast?_eq_slash_iff.2 hslash
        obtain ⟨parent, rfl⟩ := hslash
        simpa [habsolute, hempty, hlast] using PathIn.slash habsolute
      . have hlast := mt getLast?_eq_slash_iff.1 hslash
        rw [not_exists] at hslash
        simpa [habsolute, hempty, hlast] using PathIn.below habsolute hempty hslash

theorem pathIn_iff {directory path : String} :
    PathIn fileName directory path ↔ path = inDirectory directory fileName := by
  constructor
  . intro h
    unfold inDirectory
    cases h with
    | absolute habsolute => simp [habsolute]
    | here => simp
    | slash habsolute => simp [habsolute]
    | below habsolute hempty hslash =>
      have hlast := mt getLast?_eq_slash_iff.1 (not_exists.2 hslash)
      simp [habsolute, hempty, hlast]
  . rintro rfl
    exact pathIn_inDirectory directory fileName

def Holds (w : World) (directory fileName : String) : Prop :=
  ∃ path contents, PathIn fileName directory path ∧ w.look path = .file contents

theorem holds_iff {directory : String} :
    Holds w directory fileName
      ↔
    ∃ contents, w.look (inDirectory directory fileName) = .file contents := by
  simp [Holds, pathIn_iff]

/--
What the first file of a name in a list of directories writes, if there is a file of this name in
one of them.
-/
inductive Chosen (w : World) (fileName : String) : List String → Option Properties → Prop where
  | nowhere {directories : List String} :
      (∀ directory ∈ directories, ¬Holds w directory fileName) → Chosen w fileName directories none
  | first {before after : List String} {directory path : String} {contents : List UInt8}
      {text : List Char} {entries : List (String × Toml.Value)} :
      (∀ earlier ∈ before, ¬Holds w earlier fileName) →
      PathIn fileName directory path → w.look path = .file contents →
      Text.Utf8.decode? contents = some text → Toml.read (String.ofList text) = .ok entries →
      Chosen w fileName (before ++ directory :: after) (some (Toml.flatten entries))

theorem exists_of_ofFile {path : String} {origin : Origin} {l : Layer}
    (h : Layer.ofFile w path origin = .ok l) :
    ∃ contents text entries, w.look path = .file contents
      ∧ Text.Utf8.decode? contents = some text
      ∧ Toml.read (String.ofList text) = .ok entries
      ∧ l.properties = Toml.flatten entries := by
  unfold Layer.ofFile at h
  cases hlook : w.look path with
  | file contents =>
    rw [hlook] at h
    dsimp only at h
    cases htext : Text.Utf8.decode? contents with
    | none =>
      rw [htext] at h
      contradiction
    | some text =>
      rw [htext] at h
      obtain ⟨read, hread, hl⟩ := bind_eq_ok_iff.1 h
      injection hl with hl
      subst hl
      unfold Layer.ofText at hread
      split at hread
      . contradiction
      . contradiction
      . next entries hentries =>
        injection hread with hread
        subst hread
        exact ⟨contents, text, entries, rfl, htext, hentries, rfl⟩
  | _ =>
    rw [hlook] at h
    contradiction

theorem chosen_cons_of_not_holds {directory : String} {site : Option Properties}
    (hnot : ¬Holds w directory fileName) (h : Chosen w fileName directories site) :
    Chosen w fileName (directory :: directories) site := by
  cases h with
  | nowhere hall =>
    apply Chosen.nowhere
    rw [List.forall_mem_cons]
    exact ⟨hnot, hall⟩
  | @first before after found path contents text entries hbefore hpath hlook htext hentries =>
    have hbefore' : ∀ earlier ∈ directory :: before, ¬Holds w earlier fileName := by
      rw [List.forall_mem_cons]
      exact ⟨hnot, hbefore⟩
    exact Chosen.first hbefore' hpath hlook htext hentries

theorem find_cons_of_holds {directory : String} (h : Holds w directory fileName) :
    find w fileName (directory :: directories)
      =
    (Layer.ofFile w (inDirectory directory fileName) .site).map some := by
  obtain ⟨contents, hlook⟩ := holds_iff.1 h
  simp only [find, hlook]

theorem find_cons_of_not_holds {directory : String} (h : ¬Holds w directory fileName) :
    find w fileName (directory :: directories) = find w fileName directories := by
  rw [find]
  split
  . next contents hlook => exact absurd (holds_iff.2 ⟨contents, hlook⟩) h
  . rfl

theorem chosen_of_find {site : Option Layer} (h : find w fileName directories = .ok site) :
    Chosen w fileName directories (site.map Layer.properties) := by
  induction directories with
  | nil =>
    injection h with h
    subst h
    exact .nowhere (by simp)
  | cons directory directories ih =>
    by_cases hholds : Holds w directory fileName
    . rw [find_cons_of_holds hholds] at h
      cases hfile : Layer.ofFile w (inDirectory directory fileName) .site with
      | error e =>
        rw [hfile] at h
        contradiction
      | ok l =>
        rw [hfile] at h
        injection h with h
        subst h
        obtain ⟨contents, text, entries, hlook, htext, hentries, hl⟩ := exists_of_ofFile hfile
        have hbefore : ∀ earlier ∈ [], ¬Holds w earlier fileName := by simp
        rw [Option.map_some, hl]
        exact .first hbefore (pathIn_iff.2 rfl) hlook htext hentries
    . rw [find_cons_of_not_holds hholds] at h
      exact chosen_cons_of_not_holds hholds (ih h)

theorem holds_congr {w' : World} {directory : String}
    (h : w'.look (inDirectory directory fileName) = w.look (inDirectory directory fileName)) :
    Holds w' directory fileName ↔ Holds w directory fileName := by
  rw [holds_iff, holds_iff, h]

theorem ofFile_congr {w' : World} {path : String} {origin : Origin}
    (h : w'.look path = w.look path) :
    Layer.ofFile w' path origin = Layer.ofFile w path origin := by
  unfold Layer.ofFile
  rw [h]

-- The search ends at the first file, so nothing behind it is looked at.
theorem find_congr {w' : World} {before after : List String} {directory : String}
    (hholds : Holds w directory fileName)
    (hlook : ∀ d ∈ before ++ [directory],
      w'.look (inDirectory d fileName) = w.look (inDirectory d fileName)) :
    find w' fileName (before ++ directory :: after)
      =
    find w fileName (before ++ directory :: after) := by
  induction before with
  | nil =>
    have hsame := hlook directory (by simp)
    have hholds' := (holds_congr hsame).2 hholds
    rw [List.nil_append, find_cons_of_holds hholds, find_cons_of_holds hholds', ofFile_congr hsame]
  | cons d before ih =>
    have hsame := hlook d (by simp)
    rw [List.cons_append]
    by_cases hd : Holds w d fileName
    . have hd' := (holds_congr hsame).2 hd
      rw [find_cons_of_holds hd, find_cons_of_holds hd', ofFile_congr hsame]
    . have hd' : ¬Holds w' d fileName := fun h => hd ((holds_congr hsame).1 h)
      rw [find_cons_of_not_holds hd, find_cons_of_not_holds hd']
      apply ih
      intro e he
      exact hlook e (List.mem_cons_of_mem d he)

end Site
end Overlay
