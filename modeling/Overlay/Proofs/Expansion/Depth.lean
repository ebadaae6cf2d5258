import Overlay.Proofs.Dictionary
import Overlay.Proofs.Expansion.Evidence
import Overlay.Proofs.Expansion.Memo

/-!
This module contains which texts nest too deep. What was expanded once is not gone into again, so a
long chain of references only counts if it is the leftmost way to its last name.
-/

namespace Overlay
namespace Expansion

open Placeholder
open Relation

/--
A path of references leads from the names of a list to `n` by the leftmost way: no name that stands
before one of its own names leads to `n`.
-/
inductive Leftmost (look : String → Option String) (n : String) :
    List String → List String → Prop where
  | last {before after : List String} : (∀ k ∈ before, ¬ReflTransGen (Refers look) k n) →
      Leftmost look n (before ++ n :: after) [n]
  | step {before after path : List String} {m : String} :
      (∀ k ∈ before, ¬ReflTransGen (Refers look) k n) → Leftmost look n (references look m) path →
      Leftmost look n (before ++ m :: after) (m :: path)

/--
A path of more than 64 defined names that is the leftmost way from a text to its last name.
-/
structure Overlong (look : String → Option String) (raw : String) (path : List String)
    (n : String) : Prop where
  chain : Chain look (Mentions raw.toList) path
  defined : ∀ m ∈ path, (look m).isSome
  long : 64 < path.length
  leftmost : Leftmost look n (names raw.toList) path

variable {look : String → Option String} {active path before after l : List String}
variable {cs out : List Char} {room : Nat} {m n : String} {p p' q : Pass}

namespace Leftmost

theorem chain (h : Leftmost look n l path) : Chain look (· ∈ l) path := by
  induction h with
  | last _ => exact .singleton (by simp)
  | step _ _ ih =>
    constructor
    . simp
    . apply List.isChain_cons.2
      refine ⟨?_, ih.refers⟩
      intro k hk
      exact mem_references_iff.1 (ih.head k hk)

theorem leads (h : Leftmost look n (references look m) path) : ReflTransGen (Refers look) m n := by
  generalize hl : references look m = l at h
  induction h generalizing m with
  | last _ =>
    have hn : n ∈ references look m := by simp [hl]
    exact .single (mem_references_iff.1 hn)
  | @step _ _ _ m' _ _ ih =>
    have hm' : m' ∈ references look m := by simp [hl]
    exact .head (mem_references_iff.1 hm') (ih rfl)

-- For where a path begins only the names matter that stand before it there.
theorem rebase (h : Leftmost look n l (m :: path))
    (hbefore : ∀ k ∈ before, ¬ReflTransGen (Refers look) k n) :
    Leftmost look n (before ++ m :: after) (m :: path) := by
  cases h with
  | last _ => exact .last hbefore
  | step _ hrest => exact .step hbefore hrest

end Leftmost

-- Only the names before it have taught the run anything when it comes to a name.
theorem Runs.exists_runs_of_leads (h : Runs (expandName look room active) cs p out p')
    (hnames : names cs = before ++ m :: after) (hclosed : p.Closed look) (hn : ¬p.Knows n)
    (hbefore : ∀ k ∈ before, ¬ReflTransGen (Refers look) k n) (hm : ReflTransGen (Refers look) m n)
    (hdefined : (look m).isSome) :
    ∃ less raw q out q', room = less + 1 ∧ look m = some raw
      ∧ Runs (expandName look less (active ++ [m])) raw.toList q out q'
      ∧ q.Closed look ∧ ¬q.Knows n := by
  obtain ⟨value, q, q', ⟨_, hlearnt⟩, hconsult⟩ :=
    h.exists_consult (expandName_teaches room active) before m after hnames
  have hqclosed := hlearnt.closed hclosed
  have hqn : ¬q.Knows n := by
    intro hknows
    rcases hlearnt.gains n hknows with hknows | ⟨k, hk, hreach⟩
    . exact hn hknows
    . exact hbefore k hk hreach
  have hqm : ¬q.Knows m := fun hknows => hqn (hqclosed.knows_of_reachable hknows hm)
  rcases consult_eq_ok_iff.1 hconsult with ⟨hknown, _⟩ | ⟨_, r, hfind, _⟩
  . rw [Pass.not_knows_iff.1 hqm] at hknown
    contradiction
  . obtain ⟨_, ⟨hnone, _⟩ | ⟨raw, less, out, hlook, hroom, _, hinner⟩⟩ :=
      expandName_eq_ok_iff.1 hfind
    . rw [hnone] at hdefined
      contradiction
    . exact ⟨less, raw, q.ask m, out, r, hroom, hlook, runs_of_substitute hinner, hqclosed, hqn⟩

theorem Leftmost.length_le (h : Leftmost look n l path) (hnames : names cs = l)
    (hrun : Runs (expandName look room active) cs p out p') (hclosed : p.Closed look)
    (hn : ¬p.Knows n) (hdefined : ∀ m ∈ path, (look m).isSome) : path.length ≤ room := by
  induction h generalizing cs active room p out p' with
  | last hbefore =>
    obtain ⟨less, _, _, _, _, rfl, _⟩ := hrun.exists_runs_of_leads hnames hclosed hn hbefore .refl
      (hdefined n List.mem_cons_self)
    simp
  | @step _ _ path m hbefore hrest ih =>
    obtain ⟨less, raw, q, _, _, rfl, hraw, hinner, hqclosed, hqn⟩ :=
      hrun.exists_runs_of_leads hnames hclosed hn hbefore hrest.leads
        (hdefined m List.mem_cons_self)
    have hlength := ih (references_eq_names hraw).symm hinner hqclosed hqn
      fun k hk => hdefined k (List.mem_cons_of_mem m hk)
    simpa using hlength

/--
A run that ends at `p'` because `n` is nested too deep leaves what it knew as it was, and came to
`n` by the leftmost way, which took all the room there was.
-/
structure Descended (look : String → Option String) (room : Nat) (m n : String) (p p' : Pass)
    (path : List String) : Prop where
  keeps : ∀ k, p.Knows k → p'.Knows k
  unknown : ¬p'.Knows n
  defined : ∀ k ∈ m :: path, (look k).isSome
  length : path.length = room
  leftmost : ∀ before after, (∀ k ∈ before, ¬ReflTransGen (Refers look) k n) →
    Leftmost look n (before ++ m :: after) (m :: path)

-- Names before those of the path lead nowhere near `n`, as all they lead to is known by then.
theorem Stops.exists_descended {limit : Nat} (hteach : Teaches look find)
    (hstop : Stops find cs p (.referenceTooDeep n limit) p') (hclosed : p.Closed look)
    (hfind : ∀ m q, q.Closed look → ¬q.Knows m →
      find m q = (.error (.referenceTooDeep n limit), p') →
      ∃ path, Descended look room m n q p' path) :
    ∃ m path, Leftmost look n (names cs) (m :: path) ∧ (∀ k ∈ m :: path, (look k).isSome)
      ∧ path.length = room ∧ (∀ k, p.Knows k → p'.Knows k) ∧ ¬p'.Knows n := by
  obtain ⟨before, m, q, ⟨⟨after, hnames⟩, hlearnt⟩, hconsult⟩ := hstop.exists_consult hteach
  obtain ⟨hunknown, herror⟩ := consult_eq_error_iff.1 hconsult
  have hqclosed := hlearnt.closed hclosed
  obtain ⟨path, hdescended⟩ := hfind m q hqclosed (Pass.not_knows_iff.2 hunknown) herror
  refine ⟨m, path, ?_, hdescended.defined, hdescended.length, ?_, hdescended.unknown⟩
  . rw [hnames]
    apply hdescended.leftmost
    intro k hk hreach
    have hknows := hqclosed.knows_of_reachable (hlearnt.meets k hk) hreach
    exact hdescended.unknown (hdescended.keeps n hknows)
  . intro k hk
    exact hdescended.keeps k (hlearnt.keeps k hk)

theorem expandName_descended {limit : Nat} (hclosed : q.Closed look) (hm : ¬q.Knows m)
    (h : expandName look room active m q = (.error (.referenceTooDeep n limit), p')) :
    ∃ path, Descended look room m n q p' path := by
  induction room generalizing active m q with
  | zero =>
    rcases expandName_eq_error_iff.1 h with
      ⟨_, herror, _⟩ | ⟨_, raw, hlook, ⟨_, herror, rfl⟩ | ⟨less, hless, _⟩⟩
    . contradiction
    . injection herror with hn _
      subst hn
      refine ⟨[], ?_⟩
      constructor
      case keeps => exact fun _ hk => hk
      case unknown => exact hm
      case defined => simp [hlook]
      case length => rfl
      case leftmost => exact fun _ _ hbefore => .last hbefore
    . contradiction
  | succ room ih =>
    rcases expandName_eq_error_iff.1 h with
      ⟨_, herror, _⟩ | ⟨_, raw, hlook, ⟨hzero, _, _⟩ | ⟨less, hless, hrun⟩⟩
    . contradiction
    . contradiction
    . injection hless with hless
      subst hless
      obtain ⟨m', path, hleftmost, hdefined, hlength, hkeeps, hunknown⟩ :=
        (stops_of_substitute hrun).exists_descended (expandName_teaches _ _)
          (hclosed.congr fun _ => Iff.rfl) fun _ _ hq hm' h' => ih hq hm' h'
      rw [← references_eq_names hlook] at hleftmost
      refine ⟨m' :: path, ?_⟩
      constructor
      case keeps => exact hkeeps
      case unknown => exact hunknown
      case defined =>
        rw [List.forall_mem_cons]
        exact ⟨by simp [hlook], hdefined⟩
      case length => simpa using hlength
      case leftmost => exact fun _ _ hbefore => .step hbefore hleftmost

theorem exists_overlong_of_resolve {raw : String} {limit : Nat}
    (h : (resolve look raw).1 = .error (.referenceTooDeep n limit)) :
    ∃ path, Overlong look raw path n := by
  obtain ⟨_, _, hstop⟩ := exists_stops_of_expand h
  obtain ⟨m, path, hleftmost, hdefined, hlength, _⟩ := hstop.exists_descended
    (expandName_teaches _ _) Pass.closed_fresh fun _ _ hq hm h' => expandName_descended hq hm h'
  refine ⟨m :: path, ?_⟩
  constructor
  case chain =>
    have hmem := hleftmost.chain
    exact ⟨fun k hk => mem_names_iff.1 (hmem.head k hk), hmem.refers⟩
  case defined => exact hdefined
  case long =>
    rw [List.length_cons, hlength]
    decide
  case leftmost => exact hleftmost

namespace Overlong

variable {raw raw' s : String}

theorem not_ok (h : Overlong look raw path n) : (resolve look raw).1 ≠ .ok s := by
  intro hok
  obtain ⟨_, _, hrun⟩ := exists_runs_of_expand hok
  have hfresh : ¬Pass.fresh.Knows n := by simp [Pass.Knows]
  have hle := h.leftmost.length_le rfl hrun Pass.closed_fresh hfresh h.defined
  have hlong := h.long
  simp only [maxDepth, List.length_nil] at hle
  omega

theorem rebase (h : Overlong look raw (m :: path) n)
    (hnames : names raw'.toList = before ++ m :: after)
    (hbefore : ∀ k ∈ before, ¬ReflTransGen (Refers look) k n) :
    Overlong look raw' (m :: path) n := by
  have hm : Mentions raw'.toList m := by
    rw [← mem_names_iff, hnames]
    simp
  constructor
  case chain => exact ⟨by simpa using hm, h.chain.refers⟩
  case defined => exact h.defined
  case long => exact h.long
  case leftmost =>
    rw [hnames]
    exact h.leftmost.rebase hbefore

end Overlong

theorem tooDeep_iff_overlong (hfree : ∀ m, ¬TransGen (Refers look) m m) (raw : String) :
    ((∃ n, (resolve look raw).1 = .error (.referenceTooDeep n 64))
      ↔ ∃ path n, Overlong look raw path n)
    ∧ (∀ m path n, Overlong look raw (m :: path) n → ∀ raw' s, (resolve look raw').1 = .ok s →
      ∀ before after, names raw'.toList = before ++ m :: after →
        ∃ k ∈ before, ReflTransGen (Refers look) k n) := by
  refine ⟨⟨?_, ?_⟩, ?_⟩
  . rintro ⟨n, h⟩
    obtain ⟨path, hpath⟩ := exists_overlong_of_resolve h
    exact ⟨path, n, hpath⟩
  . rintro ⟨path, n, hpath⟩
    cases hresult : (resolve look raw).1 with
    | ok s => exact absurd hresult hpath.not_ok
    | error e =>
      cases resolve_blamed hresult with
      | cycle hchain _ hmem _ => exact absurd (hchain.leads hmem) (hfree _)
      | @depth _ n _ _ _ _ => exact ⟨n, rfl⟩
  . intro m path n hpath raw' s hok before after hnames
    by_contra hnone
    have hbefore : ∀ k ∈ before, ¬ReflTransGen (Refers look) k n := by
      intro k hk hreach
      exact hnone ⟨k, hk, hreach⟩
    exact (hpath.rebase hnames hbefore).not_ok hok

theorem refers_ladder_lt (h : Refers ladder.get? n m) : n < m := by
  have hentries : ∀ entry ∈ ladder.entries, ∀ m ∈ names entry.2.toList, entry.1 < m := by
    decide +kernel
  obtain ⟨raw, hraw, hm⟩ := h
  exact hentries _ (Dictionary.mem_of_assoc? hraw) m (mem_names_iff.2 hm)

theorem ladder_acyclic (m : String) : ¬TransGen (Refers ladder.get?) m m := by
  have hlt : ∀ k, TransGen (Refers ladder.get?) m k → m < k := by
    intro k h
    induction h with
    | single h => exact refers_ladder_lt h
    | tail _ h ih => exact String.lt_trans ih (refers_ladder_lt h)
  intro h
  exact String.lt_irrefl m (hlt m h)

-- The middle of the ladder is expanded before its beginning.
theorem resolve_ladder : (resolve ladder.get? "${X}${0}").1 = .ok "endend" := by
  decide +kernel

theorem long_chain_not_tooDeep :
    ¬∀ (props : Properties) raw, (∀ m, ¬TransGen (Refers props.get?) m m) →
      (∃ chain, Chain props.get? (Mentions raw.toList) chain
        ∧ (∀ m ∈ chain, (props.get? m).isSome) ∧ 64 < chain.length) →
      ∃ n limit, (resolve props.get? raw).1 = .error (.referenceTooDeep n limit) := by
  intro h
  have hdefined : ∀ m ∈ (List.range 65).map rung, (ladder.get? m).isSome := by decide +kernel
  have hrefers : ((List.range 65).map rung).IsChain (Refers ladder.get?) := by decide +kernel
  have hhead : Mentions "${X}${0}".toList (rung 0) := mem_names_iff.1 (by decide +kernel)
  have hchain : Chain ladder.get? (Mentions "${X}${0}".toList) ((List.range 65).map rung) := by
    refine ⟨?_, hrefers⟩
    intro m hm
    have hfirst : ((List.range 65).map rung).head? = some (rung 0) := rfl
    rw [hfirst, Option.mem_some_iff] at hm
    rw [← hm]
    exact hhead
  obtain ⟨n, limit, herror⟩ := h ladder "${X}${0}" ladder_acyclic ⟨_, hchain, hdefined, by simp⟩
  rw [resolve_ladder] at herror
  simp at herror

theorem tooDeep_iff_overlong_ladder :
    (∀ m, ¬TransGen (Refers ladder.get?) m m)
    ∧ (∃ path n, Overlong ladder.get? "${0}${X}" path n)
    ∧ ¬(∃ path n, Overlong ladder.get? "${X}${0}" path n) := by
  refine ⟨ladder_acyclic, ?_, ?_⟩
  . apply (tooDeep_iff_overlong ladder_acyclic "${0}${X}").1.1
    exact ⟨rung 64, by decide +kernel⟩
  . rw [← (tooDeep_iff_overlong ladder_acyclic "${X}${0}").1]
    rw [resolve_ladder]
    simp

end Expansion
end Overlay
