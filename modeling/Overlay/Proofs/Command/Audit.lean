import Overlay.Command.Report
import Overlay.Proofs.Dictionary
import Overlay.Proofs.Expansion.Outcome
import Overlay.Proofs.Items
import Overlay.Proofs.Text.Octets

/-!
This module contains why an audit misses no key whose expansion fails or meets an undefined name. A
token whose name is undefined is kept, and so is every text that holds it, so it shows in the
expansion of each key that leads to it. What an audit lists are the keys whose shown value has the
beginning of a token or of an error, and whether a key is listed depends on no other key.
-/

namespace Overlay

open Relation

namespace Text

variable {d cs : List Char}

theorem one_lt_length_split_iff (hd : d ≠ []) : 1 < (split d cs).length ↔ d <:+: cs := by
  induction cs with
  | nil => simpa using hd
  | cons c cs ih =>
    by_cases hstarts : d <+: c :: cs
    . obtain ⟨rest, hrest⟩ := hstarts
      have hne : split d rest ≠ [] := splitAfter_ne_nil 0 rest
      have hpos := List.length_pos_iff.2 hne
      rw [← hrest, split_delimiter_append hd, List.length_cons]
      constructor
      . intro _
        exact (List.prefix_append d rest).isInfix
      . intro _
        omega
    . obtain ⟨seg, segs, hsplit⟩ := exists_split_eq d cs
      rw [hsplit] at ih
      rw [split_cons_of_not_starts hstarts, hsplit, consHead, List.infix_cons_iff, ← ih]
      simp [hstarts]

end Text

namespace Expansion

open Placeholder

variable {look : String → Option String} {cs out : List Char}

-- A token that is kept shows in all that it is put into: the induction follows the expansion.
theorem Expands.isSome_of_not_infix (h : Expands look cs out) (hout : ¬['$', '{'] <:+: out) :
    ∀ n, Mentions cs n → ∀ m, ReflTransGen (Refers look) n m → (look m).isSome := by
  induction h with
  | nil =>
    intro n hn
    exact absurd hn not_mentions_nil
  | char hc _ ih =>
    intro n hn
    apply ih
    . intro hsub
      exact hout (hsub.trans (List.suffix_cons _ _).isInfix)
    . exact (mentions_char hc).1 hn
  | @undefined inner rest out hinner _ _ _ =>
    exact absurd ⟨[], inner ++ '}' :: out, by simp [Piece.text]⟩ hout
  | @defined inner rest value out raw hinner hlook _ _ ihvalue ih =>
    intro n hn
    rcases (mentions_token hinner).1 hn with rfl | hn
    . intro m hreach
      rcases hreach.cases_head with rfl | ⟨k, hk, hreach⟩
      . rw [hlook]
        rfl
      . apply ihvalue _ k ((refers_iff hlook).1 hk) m hreach
        intro hsub
        exact hout (hsub.trans (List.prefix_append _ _).isInfix)
    . apply ih _ n hn
      intro hsub
      exact hout (hsub.trans (List.suffix_append _ _).isInfix)

end Expansion

namespace Command
namespace Entry

variable {p : Properties} {key : String}

/--
A text that does not look like the value of a key whose expansion is complete: a token begins in it,
or it begins like an error.
-/
def Suspect (text : String) : Prop :=
  ['$', '{'] <:+: text.toList ∨ text.toList.head? = some '<'

theorem isUnresolved_iff {e : Entry} : e.isUnresolved = true ↔ Suspect e.shown := by
  rw [isUnresolved, Bool.or_eq_true, decide_eq_true_iff, decide_eq_true_iff, Suspect]
  rw [Text.one_lt_length_split_iff (by simp)]

theorem suspect_textOf_error (e : ConfigError) : Suspect (textOf (.error e)) := by
  right
  simp [textOf]

theorem all_expanded (p : Properties) : all p false "" = p.keys.map (ofExpanded p) := by
  simp [all, Dictionary.toList, Dictionary.keys]

theorem isUnresolved_ofExpanded_iff :
    (ofExpanded p key).isUnresolved = true
      ↔
    (∃ e, (p.value key).result = .error e)
      ∨ ∃ text, (p.value key).result = .ok text ∧ Suspect text := by
  rw [isUnresolved_iff, ofExpanded]
  cases hresult : (p.value key).result with
  | error e => simp [suspect_textOf_error e]
  | ok text => simp [textOf]

-- All that expansion meets are the names that references lead to from the key.
theorem isSome_of_not_suspect {text : String} (htext : (p.value key).result = .ok text)
    (hsuspect : ¬Suspect text) :
    ∀ n, TransGen (Expansion.Refers p.get?) key n → (p.get? n).isSome := by
  intro n hreach
  obtain ⟨raw, hraw, hexpand⟩ := Properties.result_value_eq_ok_iff.1 htext
  have hexpands := (Expansion.expands_iff_of_expand_fresh hexpand _).2 rfl
  obtain ⟨m, hm, hreach⟩ := TransGen.head'_iff.1 hreach
  apply hexpands.isSome_of_not_infix _ m ((Expansion.refers_iff hraw).1 hm) n hreach
  intro hsub
  exact hsuspect (.inl hsub)

end Entry

namespace Report

variable {conf : Configuration}

def heading (conf : Configuration) : String :=
  "🩺 Keel Check — Configuration Audit\n\n" ++ String.join (conf.layers.map layerLine)

def listing (conf : Configuration) (listed : List String) : String :=
  "\n" ++ String.join (listed.map fun key =>
      "  ⚠️  " ++ key ++ ": value still contains unresolved placeholders\n")
    ++ "  ✅ " ++ conf.properties.size.repr ++ " properties, " ++ conf.layers.length.repr
    ++ " layers, validation passed, ⚠️  " ++ listed.length.repr ++ " unresolved\n"

/--
What an audit says that lists keys. It lists those of which something is wrong, and of the others
nothing is.
-/
structure Audited (conf : Configuration) (listed : List String) : Prop where
  printed : (check conf).printed = heading conf ++ listing conf listed
  ascending : listed.Pairwise fun a b => Text.octets a < Text.octets b
  once : listed.Nodup
  listed_iff : ∀ key, key ∈ listed ↔ key ∈ conf.properties.keys ∧
    ((∃ e, (conf.properties.value key).result = .error e)
      ∨ ∃ text, (conf.properties.value key).result = .ok text ∧ Entry.Suspect text)
  complete : ∀ key ∈ conf.properties.keys, key ∉ listed →
    ∃ text, (conf.properties.value key).result = .ok text
      ∧ ∀ n, TransGen (Expansion.Refers conf.properties.get?) key n →
          (conf.properties.get? n).isSome
  failing : ∀ key ∈ conf.properties.keys, ∀ e,
    (conf.properties.value key).result = .error e → key ∈ listed
  dangling : ∀ key ∈ conf.properties.keys, ∀ n,
    TransGen (Expansion.Refers conf.properties.get?) key n → conf.properties.get? n = none →
    key ∈ listed

def unresolvedKeys (conf : Configuration) : List String :=
  conf.properties.keys.filter fun key => (Entry.ofExpanded conf.properties key).isUnresolved

theorem failure_check_eq_none_iff :
    (check conf).failure = none ↔ conf.validate.result = .ok () := by
  unfold check
  split
  . next e he => simp [he]
  . next hok => simp [hok]

theorem unresolvedLines_map {p : Properties} {keys : List String} :
    unresolvedLines conf (keys.map (Entry.ofExpanded p)) = listing conf keys := by
  simp only [unresolvedLines, listing, List.map_map, List.length_map, Function.comp_def,
    Entry.ofExpanded]

theorem printed_check (h : conf.validate.result = .ok ()) :
    (check conf).printed = heading conf ++ listing conf (unresolvedKeys conf) := by
  have hentries : (Entry.all conf.properties false "").filter Entry.isUnresolved
      = (unresolvedKeys conf).map (Entry.ofExpanded conf.properties) := by
    rw [Entry.all_expanded, List.filter_map]
    rfl
  unfold check
  split
  . next e he =>
    rw [h] at he
    contradiction
  . rw [← unresolvedLines_map (p := conf.properties), ← hentries]
    rfl

theorem mem_unresolvedKeys_iff {key : String} :
    key ∈ unresolvedKeys conf
      ↔
    key ∈ conf.properties.keys ∧
      ((∃ e, (conf.properties.value key).result = .error e)
        ∨ ∃ text, (conf.properties.value key).result = .ok text ∧ Entry.Suspect text) := by
  rw [unresolvedKeys, List.mem_filter, Entry.isUnresolved_ofExpanded_iff]

theorem check_audited (conf : Configuration) :
    ((check conf).failure = none ↔ conf.validate.result = .ok ())
    ∧ ((check conf).failure = none → ∃ listed, Audited conf listed) := by
  refine ⟨failure_check_eq_none_iff, ?_⟩
  intro hsuccess
  have hcomplete : ∀ key ∈ conf.properties.keys, key ∉ unresolvedKeys conf →
      ∃ text, (conf.properties.value key).result = .ok text
        ∧ ∀ n, TransGen (Expansion.Refers conf.properties.get?) key n →
            (conf.properties.get? n).isSome := by
    intro key hkey hunlisted
    rw [mem_unresolvedKeys_iff] at hunlisted
    cases hresult : (conf.properties.value key).result with
    | error e => exact absurd ⟨hkey, .inl ⟨e, hresult⟩⟩ hunlisted
    | ok text =>
      refine ⟨text, rfl, Entry.isSome_of_not_suspect hresult ?_⟩
      intro hsuspect
      exact hunlisted ⟨hkey, .inr ⟨text, hresult, hsuspect⟩⟩
  refine ⟨unresolvedKeys conf, ?_⟩
  constructor
  case printed => exact printed_check (failure_check_eq_none_iff.1 hsuccess)
  case ascending => exact (conf.properties.ascending_keys.imp Text.octets_lt).filter _
  case once => exact conf.properties.nodup_keys.filter _
  case listed_iff =>
    intro key
    exact mem_unresolvedKeys_iff
  case complete => exact hcomplete
  case failing =>
    intro key hkey e he
    exact mem_unresolvedKeys_iff.2 ⟨hkey, .inl ⟨e, he⟩⟩
  case dangling =>
    intro key hkey n hreach hnone
    by_contra hunlisted
    obtain ⟨_, _, hdefined⟩ := hcomplete key hkey hunlisted
    have hsome := hdefined n hreach
    rw [hnone] at hsome
    contradiction

/--
A configuration in which two keys refer to each other, an undefined name is met behind two others,
and another key has a value that is complete.
-/
def tangled : Configuration where
  properties := .ofList [("a", "${b}"), ("b", "x${ a }"), ("c", "${d}/${f}"), ("d", "${ e }"),
    ("e", "${z}"), ("f", "1"), ("g", "${f}${ f }"), ("h", "<${f}>")]
  rules := Rule.builtin
  layers := [⟨"site", .site, none, 8⟩]

theorem check_audited_tangled :
    (check tangled).failure = none
    ∧ TransGen (Expansion.Refers tangled.properties.get?) "c" "z"
    ∧ tangled.properties.get? "z" = none
    ∧ ∃ listed, Audited tangled listed ∧ "a" ∈ listed ∧ "c" ∈ listed ∧ "g" ∉ listed := by
  have hsuccess : (check tangled).failure = none := by decide +kernel
  have hreach : TransGen (Expansion.Refers tangled.properties.get?) "c" "z" := by
    apply TransGen.head (b := "d") _ (TransGen.head (b := "e") _ (.single _))
    all_goals
      rw [← Expansion.mem_references_iff]
      decide +kernel
  have hundefined : tangled.properties.get? "z" = none := by decide +kernel
  obtain ⟨listed, h⟩ := (check_audited tangled).2 hsuccess
  refine ⟨hsuccess, hreach, hundefined, listed, h, ?_, ?_, ?_⟩
  . exact h.failing "a" (by decide +kernel) (.cyclicReference ["a", "b", "a"]) (by decide +kernel)
  . exact h.dangling "c" (by decide +kernel) "z" hreach hundefined
  . intro hlisted
    have hsuspect := Entry.isUnresolved_ofExpanded_iff.2 ((h.listed_iff "g").1 hlisted).2
    have hclean : ¬(Entry.ofExpanded tangled.properties "g").isUnresolved := by decide +kernel
    exact hclean hsuspect

end Report
end Command
end Overlay
