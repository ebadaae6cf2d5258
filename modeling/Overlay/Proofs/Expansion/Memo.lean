import Overlay.Proofs.Expansion.Meaning
import Overlay.Proofs.Expansion.Reference

/-!
This module contains what a run that succeeds knows afterwards, and that knowing more never hurts: a
run that succeeds also does so with more room and a larger memo, and in place of another chain of
active names, as long as references do not lead back to these.
-/

namespace Overlay
namespace Expansion

open Placeholder
open Relation

variable {look : String → Option String} {find find' : String → Step (Option String)}
variable {start start' : String → Prop} {n m : String} {p p' q q' : Pass}

namespace Pass

def Knows (p : Pass) (n : String) : Prop :=
  (p.known? n).isSome

/--
A name that is known is known together with all names that its value refers to.
-/
def Closed (look : String → Option String) (p : Pass) : Prop :=
  ∀ n m, p.Knows n → Refers look n m → p.Knows m

@[simp]
theorem knows_ask : (p.ask m).Knows n ↔ p.Knows n := Iff.rfl

@[simp]
theorem knows_replace : p.replace.Knows n ↔ p.Knows n := Iff.rfl

theorem knows_learn {value : Option String} : (p.learn m value).Knows n ↔ n = m ∨ p.Knows n := by
  unfold Knows
  rw [known?_learn]
  split
  . next heq => simp [heq]
  . next hne => simp [hne]

theorem not_knows_iff : ¬p.Knows n ↔ p.known? n = none := by
  simp [Knows]

theorem Closed.congr (h : p.Closed look) (heq : ∀ n, p.Knows n ↔ q.Knows n) : q.Closed look := by
  intro n m hn hm
  exact (heq m).1 (h n m ((heq n).2 hn) hm)

theorem closed_fresh : fresh.Closed look := by
  intro n m h
  simp [Knows] at h

theorem Closed.knows_of_reachable (h : p.Closed look) (hn : p.Knows n)
    (hreach : ReflTransGen (Refers look) n m) : p.Knows m := by
  induction hreach with
  | refl => exact hn
  | tail _ hstep ih => exact h _ _ ih hstep

end Pass

/--
What is learnt between two passes: the starting names and what references lead to from them, and
nothing that is not.
-/
structure Learnt (look : String → Option String) (start : String → Prop) (p p' : Pass) : Prop where
  keeps : ∀ n, p.Knows n → p'.Knows n
  meets : ∀ n, start n → p'.Knows n
  gains : ∀ n, p'.Knows n → p.Knows n ∨ ∃ m, start m ∧ ReflTransGen (Refers look) m n
  closed : p.Closed look → p'.Closed look

namespace Learnt

theorem trans (h : Learnt look start p q) (h' : Learnt look start' q p') :
    Learnt look (fun n => start n ∨ start' n) p p' := by
  constructor
  case keeps =>
    intro n hn
    exact h'.keeps n (h.keeps n hn)
  case meets =>
    intro n hn
    cases hn with
    | inl hn => exact h'.keeps n (h.meets n hn)
    | inr hn => exact h'.meets n hn
  case gains =>
    intro n hn
    cases h'.gains n hn with
    | inl hn =>
      cases h.gains n hn with
      | inl hn => exact .inl hn
      | inr hreach =>
        obtain ⟨m, hm, hreach⟩ := hreach
        exact .inr ⟨m, .inl hm, hreach⟩
    | inr hreach =>
      obtain ⟨m, hm, hreach⟩ := hreach
      exact .inr ⟨m, .inr hm, hreach⟩
  case closed =>
    intro hp
    exact h'.closed (h.closed hp)

theorem congr (h : Learnt look start p p') (hstart : ∀ n, start n ↔ start' n) :
    Learnt look start' p p' := by
  have heq : start = start' := funext fun n => propext (hstart n)
  exact heq ▸ h

theorem none (h : ∀ n, ¬start n) : Learnt look start p p := by
  constructor
  case keeps => exact fun _ hn => hn
  case meets => exact fun n hn => absurd hn (h n)
  case gains => exact fun _ hn => .inl hn
  case closed => exact id

theorem of_knows_iff (h : Learnt look start q p') (hq : ∀ n, q.Knows n ↔ p.Knows n) :
    Learnt look start p p' := by
  constructor
  case keeps =>
    intro n hn
    exact h.keeps n ((hq n).2 hn)
  case meets => exact h.meets
  case gains =>
    intro n hn
    rw [← hq n]
    exact h.gains n hn
  case closed =>
    intro hp
    exact h.closed (hp.congr fun n => (hq n).symm)

-- What a run learns that knows less is learnt by a run that knows more, or known to it before.
theorem knows (h : Learnt look start p q) (h' : Learnt look start p' q')
    (hle : ∀ n, p.Knows n → p'.Knows n) (hclosed : p'.Closed look) (n : String) (hn : q.Knows n) :
    q'.Knows n := by
  cases h.gains n hn with
  | inl hn => exact h'.keeps n (hle n hn)
  | inr hreach =>
    obtain ⟨m, hm, hreach⟩ := hreach
    exact (h'.closed hclosed).knows_of_reachable (h'.meets m hm) hreach

end Learnt

/--
Finding a name teaches what its value refers to. The name itself is learnt afterwards.
-/
def Teaches (look : String → Option String) (find : String → Step (Option String)) : Prop :=
  ∀ n value p p', find n p = (.ok value, p') → Learnt look (Refers look n) p p'

theorem consult_learnt {value : Option String} (hfind : Teaches look find)
    (h : consult find n p = (.ok value, p')) : Learnt look (· = n) p p' := by
  rcases consult_eq_ok_iff.1 h with ⟨hknown, rfl⟩ | ⟨_, q, hq, rfl⟩
  . have hn : p'.Knows n := by
      rw [Pass.Knows, hknown]
      rfl
    exact {
      keeps := fun _ hm => hm
      meets := fun _ hm => hm ▸ hn
      gains := fun _ hm => .inl hm
      closed := id }
  . have hlearnt := hfind n value p q hq
    constructor
    case keeps =>
      intro m hm
      exact Pass.knows_learn.2 (.inr (hlearnt.keeps m hm))
    case meets =>
      intro m hm
      exact Pass.knows_learn.2 (.inl hm)
    case gains =>
      intro m hm
      rcases Pass.knows_learn.1 hm with rfl | hm
      . exact .inr ⟨_, rfl, .refl⟩
      . cases hlearnt.gains m hm with
        | inl hm => exact .inl hm
        | inr hreach =>
          obtain ⟨k, hk, hreach⟩ := hreach
          exact .inr ⟨n, rfl, .head hk hreach⟩
    case closed =>
      intro hp k m hk hm
      apply Pass.knows_learn.2
      rcases Pass.knows_learn.1 hk with rfl | hk
      . exact .inr (hlearnt.meets m hm)
      . exact .inr (hlearnt.closed hp k m hk hm)

-- For what a run knows it makes no difference whether a token is replaced.
@[elab_as_elim]
theorem Runs.knowledge_induction {motive : List Char → Pass → Pass → Prop}
    (nil : ∀ p, motive [] p p)
    (char : ∀ c cs p p', Tokenless (c :: cs) → motive cs p p' → motive (c :: cs) p p')
    (token : ∀ inner rest value p q r p', BraceFree inner →
      consult find (name inner) p = (.ok value, q) → (∀ m, r.Knows m ↔ q.Knows m) →
      motive rest r p' → motive ((Piece.token inner).text ++ rest) p p')
    {cs out : List Char} (h : Runs find cs p out p') : motive cs p p' := by
  induction h with
  | nil => exact nil _
  | char hc _ ih => exact char _ _ _ _ hc ih
  | kept hinner hconsult _ ih => exact token _ _ _ _ _ _ _ hinner hconsult (fun _ => Iff.rfl) ih
  | replaced hinner hconsult _ ih =>
    exact token _ _ _ _ _ _ _ hinner hconsult (fun _ => Pass.knows_replace) ih

theorem Runs.learnt {cs out : List Char} (hfind : Teaches look find)
    (h : Runs find cs p out p') : Learnt look (Mentions cs) p p' := by
  refine h.knowledge_induction ?nil ?char ?token
  case nil =>
    intro p
    exact .none fun _ => not_mentions_nil
  case char =>
    intro c cs p p' hc ih
    exact ih.congr fun n => (mentions_char hc).symm
  case token =>
    intro inner rest value p q r p' hinner hconsult hr ih
    have hlearnt := (consult_learnt hfind hconsult).trans (ih.of_knows_iff hr)
    exact hlearnt.congr fun n => (mentions_token hinner).symm

/--
A run over a text that begins with `p` comes to the name `n` with `q`, when it has learnt the names
before.
-/
structure ComesTo (look : String → Option String) (cs : List Char) (before : List String)
    (n : String) (p q : Pass) : Prop where
  place : ∃ after, names cs = before ++ n :: after
  learnt : Learnt look (· ∈ before) p q

namespace ComesTo

variable {c : Char} {cs inner rest : List Char} {before : List String} {value : Option String}

theorem here (hinner : BraceFree inner) :
    ComesTo look ((Piece.token inner).text ++ rest) [] (name inner) p p :=
  ⟨⟨names rest, names_token hinner⟩, .none (by simp)⟩

theorem char (hc : Tokenless (c :: cs)) (h : ComesTo look cs before n p q) :
    ComesTo look (c :: cs) before n p q := by
  refine ⟨?_, h.learnt⟩
  rw [names_char hc]
  exact h.place

theorem token (hfind : Teaches look find) (hinner : BraceFree inner)
    (hconsult : consult find (name inner) p = (.ok value, q)) (hq : ∀ m, p'.Knows m ↔ q.Knows m)
    (h : ComesTo look rest before n p' q') :
    ComesTo look ((Piece.token inner).text ++ rest) (name inner :: before) n p q' := by
  obtain ⟨⟨after, hafter⟩, hlearnt⟩ := h
  have htrans := (consult_learnt hfind hconsult).trans (hlearnt.of_knows_iff hq)
  refine ⟨⟨after, ?_⟩, htrans.congr fun m => List.mem_cons.symm⟩
  rw [names_token hinner, hafter]
  rfl

end ComesTo

-- A run that succeeds comes to every name of the text.
theorem Runs.exists_consult {cs out : List Char} (hfind : Teaches look find)
    (h : Runs find cs p out p') : ∀ before n after, names cs = before ++ n :: after →
      ∃ value q q', ComesTo look cs before n p q ∧ consult find n q = (.ok value, q') := by
  refine h.knowledge_induction ?nil ?char ?token
  case nil =>
    intro p before n after hnames
    simp [names] at hnames
  case char =>
    intro c cs p p' hc ih before n after hnames
    rw [names_char hc] at hnames
    obtain ⟨value, q, q', hcomes, hconsult⟩ := ih before n after hnames
    exact ⟨value, q, q', hcomes.char hc, hconsult⟩
  case token =>
    intro inner rest value p q r p' hinner hconsult hr ih before n after hnames
    rw [names_token hinner] at hnames
    cases before with
    | nil =>
      injection hnames with hn _
      subst hn
      exact ⟨value, p, q, .here hinner, hconsult⟩
    | cons b before =>
      injection hnames with hb hnames
      subst hb
      obtain ⟨value', s, s', hcomes, hconsult'⟩ := ih before n after hnames
      exact ⟨value', s, s', hcomes.token hfind hinner hconsult hr, hconsult'⟩

-- A run that fails comes to the name at which it fails.
theorem Stops.exists_consult {cs : List Char} {e : ConfigError} (hfind : Teaches look find)
    (h : Stops find cs p e p') :
    ∃ before n q, ComesTo look cs before n p q ∧ consult find n q = (.error e, p') := by
  induction h with
  | here hinner hconsult => exact ⟨[], _, _, .here hinner, hconsult⟩
  | char hc _ ih =>
    obtain ⟨before, n, q, hcomes, hconsult⟩ := ih
    exact ⟨before, n, q, hcomes.char hc, hconsult⟩
  | kept hinner hconsult _ ih =>
    obtain ⟨before, n, q, hcomes, hconsult'⟩ := ih
    exact ⟨_, n, q, hcomes.token hfind hinner hconsult fun _ => Iff.rfl, hconsult'⟩
  | replaced hinner hconsult _ ih =>
    obtain ⟨before, n, q, hcomes, hconsult'⟩ := ih
    exact ⟨_, n, q, hcomes.token hfind hinner hconsult fun _ => Pass.knows_replace, hconsult'⟩

theorem expandName_teaches (room : Nat) (active : List String) :
    Teaches look (expandName look room active) := by
  induction room generalizing active with
  | zero =>
    intro n value p p' h
    obtain ⟨_, ⟨hlook, _, rfl⟩ | ⟨_, less, _, _, hroom, _⟩⟩ := expandName_eq_ok_iff.1 h
    . exact (Learnt.none fun m => not_refers_of_eq_none hlook).of_knows_iff fun _ => Pass.knows_ask
    . contradiction
  | succ room ih =>
    intro n value p p' h
    obtain ⟨_, ⟨hlook, _, rfl⟩ | ⟨raw, less, out, hlook, hroom, _, hrun⟩⟩ :=
      expandName_eq_ok_iff.1 h
    . exact (Learnt.none fun m => not_refers_of_eq_none hlook).of_knows_iff fun _ => Pass.knows_ask
    . injection hroom with hroom
      subst hroom
      have hlearnt := (runs_of_substitute hrun).learnt (ih (active ++ [n]))
      have hasked := hlearnt.of_knows_iff fun _ => Pass.knows_ask
      exact hasked.congr fun m => (refers_iff hlook).symm

/--
If finding the name succeeds, it also succeeds where as much or more is known.
-/
def Transfers (look : String → Option String) (find find' : String → Step (Option String))
    (n : String) : Prop :=
  ∀ value p p' q, find n p = (.ok value, q) → (∀ m, p.Knows m → p'.Knows m) → p'.Closed look →
    ∃ value' q', find' n p' = (.ok value', q')

theorem consult_transfers (h : Transfers look find find' n) :
    Transfers look (consult find) (consult find') n := by
  intro value p p' q hconsult hle hclosed
  by_cases hknows : p'.Knows n
  . obtain ⟨value', hvalue'⟩ := Option.isSome_iff_exists.1 hknows
    exact ⟨value', p', consult_eq_ok_iff.2 (.inl ⟨hvalue', rfl⟩)⟩
  . have hunknown : ¬p.Knows n := fun hn => hknows (hle n hn)
    rcases consult_eq_ok_iff.1 hconsult with ⟨hknown, _⟩ | ⟨_, r, hfind, _⟩
    . rw [Pass.not_knows_iff.1 hunknown] at hknown
      contradiction
    . obtain ⟨value', r', hfind'⟩ := h value p p' r hfind hle hclosed
      exact ⟨value', r'.learn n value',
        consult_eq_ok_iff.2 (.inr ⟨Pass.not_knows_iff.1 hknows, r', hfind', rfl⟩)⟩

theorem Runs.exists_of_consult {inner rest : List Char} {value : Option String}
    (hinner : BraceFree inner) (hconsult : consult find (name inner) p = (.ok value, q))
    (hrest : ∀ r, (∀ m, r.Knows m ↔ q.Knows m) → ∃ out r', Runs find rest r out r') :
    ∃ out p', Runs find ((Piece.token inner).text ++ rest) p out p' := by
  cases value with
  | none =>
    obtain ⟨out, p', hrun⟩ := hrest q fun _ => Iff.rfl
    exact ⟨_, p', .kept hinner hconsult hrun⟩
  | some text =>
    obtain ⟨out, p', hrun⟩ := hrest q.replace fun _ => Pass.knows_replace
    exact ⟨_, p', .replaced hinner hconsult hrun⟩

-- The two runs go over the text side by side. After each token the second one knows as much as the
-- first one or more, because what is known is closed.
theorem Runs.transfer {cs out : List Char} (hteach : Teaches look find)
    (hteach' : Teaches look find') (h : Runs find cs p out q) :
    (∀ n, Mentions cs n → Transfers look find find' n) →
      ∀ p', (∀ m, p.Knows m → p'.Knows m) → p'.Closed look →
        ∃ out' q', Runs find' cs p' out' q' := by
  refine h.knowledge_induction ?nil ?char ?token
  case nil =>
    intro p _ p' _ _
    exact ⟨[], p', .nil⟩
  case char =>
    intro c cs p q hc ih htransfer p' hle hclosed
    obtain ⟨out', q', hrun⟩ :=
      ih (fun n hn => htransfer n ((mentions_char hc).2 hn)) p' hle hclosed
    exact ⟨_, q', .char hc hrun⟩
  case token =>
    intro inner rest value p r s q hinner hconsult hs ih htransfer p' hle hclosed
    have hname := htransfer (name inner) ((mentions_token hinner).2 (.inl rfl))
    obtain ⟨value', r', hconsult'⟩ := consult_transfers hname value p p' r hconsult hle hclosed
    have hlearnt := consult_learnt hteach hconsult
    have hlearnt' := consult_learnt hteach' hconsult'
    apply Runs.exists_of_consult hinner hconsult'
    intro s' hs'
    apply ih fun n hn => htransfer n ((mentions_token hinner).2 (.inr hn))
    . intro m hm
      exact (hs' m).2 (hlearnt.knows hlearnt' hle hclosed m ((hs m).1 hm))
    . exact (hlearnt'.closed hclosed).congr fun m => (hs' m).symm

def Clear (look : String → Option String) (active active' : List String) (n : String) : Prop :=
  ∀ m ∈ active', m ∈ active ∨ ¬ReflTransGen (Refers look) n m

variable {active active' : List String}

theorem Clear.not_mem (h : Clear look active active' n) (hn : n ∉ active) : n ∉ active' := by
  intro hmem
  cases h n hmem with
  | inl hmem => exact hn hmem
  | inr hfar => exact hfar .refl

theorem Clear.snoc (h : Clear look active active' n) (hm : Refers look n m) :
    Clear look (active ++ [n]) (active' ++ [n]) m := by
  intro k hk
  rcases List.mem_append.1 hk with hk | hk
  . cases h k hk with
    | inl hk => exact .inl (List.mem_append_left [n] hk)
    | inr hfar => exact .inr fun hreach => hfar (.head hm hreach)
  . exact .inl (List.mem_append_right active hk)

theorem expandName_transfers {room room' : Nat} (hroom : room ≤ room')
    (hclear : Clear look active active' n) :
    Transfers look (expandName look room active) (expandName look room' active') n := by
  induction room generalizing room' active active' n with
  | zero =>
    intro value p p' q h _ _
    obtain ⟨hn, ⟨hlook, _, _⟩ | ⟨_, less, _, _, hless, _⟩⟩ := expandName_eq_ok_iff.1 h
    . exact ⟨none, p'.ask n, expandName_eq_ok_iff.2 ⟨hclear.not_mem hn, .inl ⟨hlook, rfl, rfl⟩⟩⟩
    . contradiction
  | succ room ih =>
    intro value p p' q h hle hclosed
    obtain ⟨hn, ⟨hlook, _, _⟩ | ⟨raw, less, out, hlook, hless, _, hrun⟩⟩ :=
      expandName_eq_ok_iff.1 h
    . exact ⟨none, p'.ask n, expandName_eq_ok_iff.2 ⟨hclear.not_mem hn, .inl ⟨hlook, rfl, rfl⟩⟩⟩
    . injection hless with hless
      subst hless
      obtain ⟨less', rfl⟩ : ∃ less', room' = less' + 1 := ⟨room' - 1, by omega⟩
      have hinner : ∀ m, Mentions raw.toList m → Transfers look
          (expandName look room (active ++ [n])) (expandName look less' (active' ++ [n])) m := by
        intro m hm
        exact ih (by omega) (hclear.snoc ((refers_iff hlook).2 hm))
      obtain ⟨out', q', hrun'⟩ := (runs_of_substitute hrun).transfer (expandName_teaches _ _)
        (expandName_teaches _ _) hinner (p'.ask n) hle hclosed
      exact ⟨some (String.ofList out'), q', expandName_eq_ok_iff.2 ⟨hclear.not_mem hn,
        .inr ⟨raw, less', out', hlook, rfl, rfl, substitute_of_runs hrun'⟩⟩⟩

end Expansion
end Overlay
