import Overlay.Command.Invocation
import Overlay.Proofs.Command.Arguments

/-!
This module contains what a command line says about the sources of a configuration: the keys that it
defines, the directories of the site's file, and which of the sources are left out. Every command
line that can be read says this.
-/

namespace Overlay
namespace Command

variable {texts : List String} {s : Switch} {before after : Arguments}

inductive GivenWith (s : Switch) : List (Switch × String) → List String → Prop where
  | nil : GivenWith s [] []
  | same {text : String} {given : List (Switch × String)} {texts : List String} :
      GivenWith s given texts → GivenWith s ((s, text) :: given) (text :: texts)
  | other {t : Switch} {text : String} {given : List (Switch × String)} {texts : List String} :
      t ≠ s → GivenWith s given texts → GivenWith s ((t, text) :: given) texts

/--
The texts of a switch that count on a command line. Those in front of the verb only count if the
switch is not given after it.
-/
inductive Counts (before after : Arguments) (s : Switch) : List String → Prop where
  | behind {text : String} {texts : List String} :
      GivenWith s after.given (text :: texts) → Counts before after s (text :: texts)
  | front {texts : List String} :
      GivenWith s after.given [] → GivenWith s before.given texts → Counts before after s texts

theorem givenWith_iff {a : Arguments} : GivenWith s a.given texts ↔ a.values s = texts := by
  unfold Arguments.values
  constructor
  . intro h
    generalize a.given = given at h
    induction h with
    | nil => rfl
    | same _ ih => simp [ih]
    | other hne _ ih => simp [hne, ih]
  . rintro rfl
    induction a.given with
    | nil => exact .nil
    | cons entry given ih =>
      obtain ⟨t, text⟩ := entry
      by_cases hsame : t = s
      . subst hsame
        simpa using GivenWith.same ih
      . simpa [hsame] using GivenWith.other hsame ih

theorem counts_iff : Counts before after s texts ↔ values before after s = texts := by
  unfold values
  constructor
  . intro h
    cases h with
    | behind hbehind =>
      rw [givenWith_iff] at hbehind
      rw [if_pos (Arguments.has_iff.2 (by simp [hbehind])), hbehind]
    | front hnone hfront =>
      rw [givenWith_iff] at hnone hfront
      rw [if_neg (by simp [Arguments.has_iff, hnone]), hfront]
  . intro h
    split at h
    . next hhas =>
      obtain ⟨text, rest, hvalues⟩ := List.exists_cons_of_ne_nil (Arguments.has_iff.1 hhas)
      rw [hvalues] at h
      rw [← h]
      exact .behind (givenWith_iff.2 hvalues)
    . next hhas =>
      rw [Arguments.has_iff, Decidable.not_not] at hhas
      exact .front (givenWith_iff.2 hhas) (givenWith_iff.2 h)

theorem has_iff_exists :
    has before after s = true ↔ ∃ text, (s, text) ∈ before.given ++ after.given := by
  simp only [has, Arguments.has, Bool.or_eq_true, List.any_eq_true, decide_eq_true_eq,
    List.mem_append]
  constructor
  . rintro (⟨⟨_, text⟩, hmem, rfl⟩ | ⟨⟨_, text⟩, hmem, rfl⟩)
    . exact ⟨text, .inl hmem⟩
    . exact ⟨text, .inr hmem⟩
  . rintro ⟨text, hmem | hmem⟩
    . exact .inl ⟨_, hmem, rfl⟩
    . exact .inr ⟨_, hmem, rfl⟩

structure Choice where
  defines : List (String × String)
  siteDir : Option String
  noEnvironment : Bool
  noSite : Bool

/--
The choice that the arguments around a verb make. The key of a definition has no equals sign, but
its value can have some.
-/
structure Choice.MadeBy (c : Choice) (before after : Arguments) : Prop where
  keys : ∀ pair ∈ c.defines, '=' ∉ pair.1.toList
  defines : Counts before after .define (c.defines.map fun pair => pair.1 ++ "=" ++ pair.2)
  siteDir : Counts before after .siteDir c.siteDir.toList
  noEnvironment : c.noEnvironment = true
    ↔ ∃ text, (Switch.noEnvironment, text) ∈ before.given ++ after.given
  noSite : c.noSite = true ↔ ∃ text, (Switch.noSite, text) ∈ before.given ++ after.given

def Settings.choice (s : Settings) : Choice :=
  ⟨s.defines, s.siteDir, !s.environment, !s.siteFile⟩

theorem map_definition {defines : List (String × String)}
    (h : ∀ pair ∈ defines, '=' ∉ pair.1.toList) :
    (defines.map fun pair => pair.1 ++ "=" ++ pair.2).map definition = defines := by
  induction defines with
  | nil => rfl
  | cons pair defines ih =>
    rw [List.forall_mem_cons] at h
    rw [List.map_cons, List.map_cons, definition_eq h.1, ih h.2]

theorem Choice.MadeBy.choice_ofArguments {c : Choice} (h : c.MadeBy before after) :
    (Settings.ofArguments before after).choice = c := by
  obtain ⟨defines, siteDir, noEnvironment, noSite⟩ := c
  have hdefines := counts_iff.1 h.defines
  have hsiteDir := counts_iff.1 h.siteDir
  have henvironment := h.noEnvironment
  have hsite := h.noSite
  rw [← has_iff_exists, Bool.coe_iff_coe] at henvironment hsite
  dsimp only at hdefines hsiteDir henvironment hsite
  unfold Settings.choice Settings.ofArguments
  rw [hdefines, map_definition h.keys, hsiteDir, henvironment, hsite]
  simp

theorem accepts_of_mem_values {text : String} (hbefore : before.Sound) (hafter : after.Sound)
    (h : text ∈ values before after s) : s.accepts text = true := by
  have haccepts : ∀ {a : Arguments}, a.Sound → text ∈ a.values s → s.accepts text = true := by
    intro a ha hmem
    simp only [Arguments.values, List.mem_map, List.mem_filter, decide_eq_true_eq] at hmem
    obtain ⟨entry, ⟨hentry, rfl⟩, rfl⟩ := hmem
    exact ha.accepted entry hentry
  unfold values at h
  split at h
  . exact haccepts hafter h
  . exact haccepts hbefore h

theorem length_values_le (hbefore : before.Sound) (hafter : after.Sound)
    (h : s.repeats = false) : (values before after s).length ≤ 1 := by
  unfold values
  split
  . exact hafter.single s h
  . exact hbefore.single s h

theorem definition_of_mem {text : String} (h : '=' ∈ text.toList) :
    '=' ∉ (definition text).1.toList
      ∧ (definition text).1 ++ "=" ++ (definition text).2 = text := by
  obtain ⟨key, value, hsplit, hkey⟩ := List.eq_append_cons_of_mem h
  have htext : text = String.ofList key ++ "=" ++ String.ofList value := by
    rw [← String.toList_inj, hsplit]
    simp
  have hkey' : '=' ∉ (String.ofList key).toList := by rwa [String.toList_ofList]
  rw [htext, definition_eq hkey']
  exact ⟨hkey', rfl⟩

theorem madeBy_choice (hbefore : before.Sound) (hafter : after.Sound) :
    (Settings.ofArguments before after).choice.MadeBy before after := by
  have hdefine : ∀ text ∈ values before after .define, '=' ∈ text.toList := by
    intro text htext
    have haccepts := accepts_of_mem_values hbefore hafter htext
    rwa [Switch.accepts, List.contains_iff_mem] at haccepts
  have hsingle : (values before after .siteDir).length ≤ 1 :=
    length_values_le hbefore hafter rfl
  constructor
  case keys =>
    intro pair hpair
    obtain ⟨text, htext, rfl⟩ := List.mem_map.1 hpair
    exact (definition_of_mem (hdefine text htext)).1
  case defines =>
    rw [counts_iff, Settings.choice, Settings.ofArguments, List.map_map, List.map_congr_left,
      List.map_id]
    intro text htext
    exact (definition_of_mem (hdefine text htext)).2
  case siteDir =>
    rw [counts_iff, Settings.choice, Settings.ofArguments]
    generalize values before after .siteDir = texts at hsingle
    match texts with
    | [] => rfl
    | [_] => rfl
  case noEnvironment =>
    rw [← has_iff_exists]
    simp [Settings.choice, Settings.ofArguments]
  case noSite =>
    rw [← has_iff_exists]
    simp [Settings.choice, Settings.ofArguments]

theorem exists_madeBy_of_ofWords {words : List String} {i : Invocation}
    (h : Invocation.ofWords words = .ok i) :
    ∃ before after, i.settings = .ofArguments before after
      ∧ i.settings.choice.MadeBy before after := by
  obtain ⟨⟨before, rest⟩, hread, h⟩ := bind_eq_ok_iff.1 h
  have hbefore := Arguments.sound_of_readAll Arguments.sound_empty hread
  cases rest with
  | none => contradiction
  | some entry =>
    obtain ⟨verb, words⟩ := entry
    obtain ⟨⟨after, rest⟩, hread', h⟩ := bind_eq_ok_iff.1 h
    have hafter := Arguments.sound_of_readAll Arguments.sound_empty hread'
    obtain ⟨after', hcomplete', h⟩ := bind_eq_ok_iff.1 h
    obtain ⟨before', hcomplete, h⟩ := bind_eq_ok_iff.1 h
    have hchoice := madeBy_choice (Arguments.sound_of_complete hbefore hcomplete)
      (Arguments.sound_of_complete hafter hcomplete')
    split at h
    . contradiction
    . injection h with h
      subst h
      exact ⟨before', after', rfl, hchoice⟩

end Command
end Overlay
