import Overlay.Configuration.Basic
import Overlay.Proofs.Dictionary
import Overlay.Proofs.Rule

/-!
This module contains what becomes of a configuration that is changed again and again. A change is
written also if a rule is broken then, so the properties after a run of changes are determined by
the pairs that the changes write, and the answer to a change only by the rules and the properties
right after it.
-/

namespace Overlay

inductive Change where
  | set (key value : String)
  | merge (pairs : List (String × String))

namespace Change

/--
The pairs that a change writes. A change that sets the empty key writes nothing.
-/
def written : Change → List (String × String)
  | set key value => if key.isEmpty then [] else [(key, value)]
  | merge pairs => pairs

def SetsEmptyKey : Change → Prop
  | set key _ => key = ""
  | merge _ => False

end Change

namespace Configuration

variable {conf : Configuration} {change : Change} {changes : List Change}

def apply (conf : Configuration) : Change → Configuration × Except ConfigError Unit
  | .set key value => conf.set key value
  | .merge pairs => conf.merge pairs

def run (conf : Configuration) (changes : List Change) : Configuration :=
  changes.foldl (fun conf change => (conf.apply change).1) conf

theorem set_empty (value : String) : conf.set "" value = (conf, .error (.emptyKey "" value)) := rfl

theorem apply_fst :
    (conf.apply change).1
      =
    { conf with properties := conf.properties.insertAll change.written } := by
  cases change with
  | set key value =>
    simp only [apply, set, Change.written]
    split
    . rfl
    . rfl
  | merge pairs => rfl

theorem apply_snd (h : ¬change.SetsEmptyKey) :
    (conf.apply change).2 = (conf.apply change).1.validate.result := by
  cases change with
  | set key value =>
    have hkey : ¬key.isEmpty = true := by simpa [Change.SetsEmptyKey] using h
    simp only [apply, set, if_neg hkey]
  | merge pairs => rfl

theorem run_append (changes' : List Change) :
    conf.run (changes ++ changes') = (conf.run changes).run changes' :=
  List.foldl_append

theorem run_eq :
    conf.run changes
      =
    { conf with properties := conf.properties.insertAll (changes.flatMap Change.written) } := by
  induction changes generalizing conf with
  | nil => rfl
  | cons change changes ih =>
    have hstep : conf.run (change :: changes) = (conf.apply change).1.run changes := rfl
    rw [hstep, ih, apply_fst, List.flatMap_cons, Dictionary.insertAll_append]

theorem get?_run (key : String) :
    (conf.run changes).properties.get? key
      =
    (Dictionary.lastValue? key (changes.flatMap Change.written)).or (conf.properties.get? key) := by
  rw [run_eq]
  exact Dictionary.get?_insertAll _ _

theorem run_sets {pairs : List (String × String)} (h : ∀ pair ∈ pairs, pair.1 ≠ "") :
    conf.run (pairs.map fun pair => .set pair.1 pair.2) = (conf.merge pairs).1 := by
  have hwritten : (pairs.map fun pair => Change.set pair.1 pair.2).flatMap Change.written
      = pairs := by
    induction pairs with
    | nil => rfl
    | cons pair pairs ih =>
      rw [List.forall_mem_cons] at h
      rw [List.map_cons, List.flatMap_cons, ih h.2]
      simp [Change.written, h.1]
  rw [run_eq, hwritten]
  rfl

-- The properties right after a merge are those right after the last of the sets, and so are the
-- answers.
theorem snd_merge_append {before : List (String × String)} {key value : String}
    (h : ∀ pair ∈ before ++ [(key, value)], pair.1 ≠ "") :
    (conf.merge (before ++ [(key, value)])).2
      =
    ((conf.run (before.map fun pair => .set pair.1 pair.2)).set key value).2 := by
  have hkey : ¬(Change.set key value).SetsEmptyKey := h (key, value) (by simp)
  have hmerge : ¬(Change.merge (before ++ [(key, value)])).SetsEmptyKey := id
  have hsets : _ = (conf.merge (before ++ [(key, value)])).1 := run_sets h
  rw [List.map_append, run_append] at hsets
  change (conf.apply (.merge (before ++ [(key, value)]))).2
    = ((conf.run (before.map fun pair => .set pair.1 pair.2)).apply (.set key value)).2
  rw [apply_snd hmerge, apply_snd hkey]
  exact congrArg (fun conf => conf.validate.result) hsets.symm

theorem merge_merge (pairs : List (String × String)) :
    (conf.merge pairs).1.merge pairs = conf.merge pairs := by
  simp only [merge, Dictionary.insertAll_insertAll_self]

/--
What is true of a configuration after changes and of the answer to the next change.
-/
structure Followed (start : Configuration) (changes : List Change) : Prop where
  overwritten : ∀ key, (start.run changes).properties.get? key
    = (Dictionary.lastValue? key (changes.flatMap Change.written)).or (start.properties.get? key)
  kept : ∀ key, start.properties.contains key → (start.run changes).properties.contains key
  rules : (start.run changes).rules = start.rules
  layers : (start.run changes).layers = start.layers
  refuses : ∀ value,
    (start.run changes).set "" value = (start.run changes, .error (.emptyKey "" value))
  accepts_iff : ∀ change : Change, ¬change.SetsEmptyKey →
    (((start.run changes).apply change).2 = .ok ()
      ↔ ∀ rule ∈ start.rules,
          (rule.check (start.run (changes ++ [change])).properties).result = .ok ())
  fails_iff : ∀ change : Change, ¬change.SetsEmptyKey → ∀ e,
    (((start.run changes).apply change).2 = .error e
      ↔ Rule.FirstFails start.rules (start.run (changes ++ [change])).properties e)
  merged : ∀ pairs : List (String × String), (∀ pair ∈ pairs, pair.1 ≠ "") →
    ((start.run changes).merge pairs).1
        = (start.run changes).run (pairs.map fun pair => .set pair.1 pair.2)
      ∧ ∀ before key value, pairs = before ++ [(key, value)] →
          ((start.run changes).merge pairs).2
            = (((start.run changes).run (before.map fun pair => .set pair.1 pair.2)).set key
                value).2
  repeated : ∀ pairs,
    ((start.run changes).merge pairs).1.merge pairs = (start.run changes).merge pairs

theorem answer_run (h : ¬change.SetsEmptyKey) :
    ((conf.run changes).apply change).2
      =
    (Rule.checkAll conf.rules (conf.run (changes ++ [change])).properties).result := by
  have hstep : conf.run (changes ++ [change]) = ((conf.run changes).apply change).1 :=
    run_append [change]
  have hrules : (conf.run (changes ++ [change])).rules = conf.rules := by
    rw [run_eq]
  rw [apply_snd h, ← hstep, validate, hrules]

theorem run_followed (start : Configuration) (changes : List Change) : Followed start changes := by
  constructor
  case overwritten => exact get?_run
  case kept =>
    intro key hkey
    unfold Dictionary.contains at hkey ⊢
    rw [get?_run, Option.isSome_or, hkey, Bool.or_true]
  case rules => rw [run_eq]
  case layers => rw [run_eq]
  case refuses => exact set_empty
  case accepts_iff =>
    intro change hchange
    rw [answer_run hchange, Rule.result_checkAll_eq_ok_iff]
  case fails_iff =>
    intro change hchange e
    rw [answer_run hchange, Rule.result_checkAll_eq_error_iff]
  case merged =>
    intro pairs hpairs
    refine ⟨(run_sets hpairs).symm, ?_⟩
    rintro before key value rfl
    exact snd_merge_append hpairs
  case repeated => exact merge_merge

end Configuration
end Overlay
