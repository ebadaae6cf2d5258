import Overlay.Proofs.Expansion.Idempotence

/-!
This module contains where the tokens of a text stand, and that expansion copies what stands between
them and loses nothing. Each token is searched for from the end of the one before. No token is
missed that way, because none begins inside of another, so a text of which no name is defined comes
out as it is.
-/

namespace Overlay
namespace Placeholder

structure Token where
  start : Nat
  inner : List Char
deriving DecidableEq

namespace Token

def text (t : Token) : List Char :=
  (Piece.token t.inner).text

def name (t : Token) : String :=
  Placeholder.name t.inner

def stop (t : Token) : Nat :=
  t.start + t.text.length

def StandsIn (t : Token) (cs : List Char) : Prop :=
  BraceFree t.inner ∧ ∃ before after, before.length = t.start ∧ cs = before ++ (t.text ++ after)

def shift (t : Token) (distance : Nat) : Token :=
  { t with start := t.start + distance }

end Token

def locate : Nat → List Piece → List Token
  | _, [] => []
  | place, .char _ :: pieces => locate (place + 1) pieces
  | place, .token inner :: pieces =>
    ⟨place, inner⟩ :: locate (Token.stop ⟨place, inner⟩) pieces

def tokens (cs : List Char) : List Token :=
  locate 0 (scan cs)

/--
Searching a text from a place on finds these tokens. The first one is the leftmost that starts at
the place or behind it, and the others are what is found from its end on.
-/
inductive Finds (cs : List Char) : Nat → List Token → Prop where
  | none {place : Nat} : (∀ t : Token, t.StandsIn cs → t.start < place) → Finds cs place []
  | next {place : Nat} {t : Token} {found : List Token} : t.StandsIn cs → place ≤ t.start →
      (∀ t' : Token, t'.StandsIn cs → place ≤ t'.start → t.start ≤ t'.start) →
      Finds cs t.stop found → Finds cs place (t :: found)

def assemble (cs : List Char) : Nat → List (Token × List Char) → List Char
  | last, [] => cs.drop last
  | last, (t, value) :: rest =>
    cs.extract last t.start ++ (value ++ assemble cs t.stop rest)

variable {c : Char} {cs inner rest : List Char} {t t' : Token} {found found' : List Token}
variable {place last : Nat} {pieces : List Piece}

namespace Token

theorem start_lt_stop (t : Token) : t.start < t.stop := by
  simp [stop, text, Piece.text]

theorem shift_zero : t.shift 0 = t := rfl

theorem shift_shift (distance distance' : Nat) :
    (t.shift distance).shift distance' = t.shift (distance' + distance) := by
  simp only [shift, mk.injEq, and_true]
  omega

end Token

theorem not_standsIn_nil : ¬t.StandsIn [] := by
  rintro ⟨_, before, after, _, heq⟩
  simp [Token.text, Piece.text] at heq

theorem standsIn_append (before : List Char) (h : t.StandsIn cs) :
    (t.shift before.length).StandsIn (before ++ cs) := by
  obtain ⟨hinner, before', after, hplace, rfl⟩ := h
  refine ⟨hinner, before ++ before', after, ?_, by simp [Token.shift, Token.text]⟩
  rw [List.length_append, hplace, Token.shift]
  exact Nat.add_comm _ _

theorem standsIn_char (hc : Tokenless (c :: cs)) :
    t.StandsIn (c :: cs) ↔ ∃ t' : Token, t'.StandsIn cs ∧ t = t'.shift 1 := by
  constructor
  . rintro ⟨hinner, before, after, hplace, heq⟩
    cases before with
    | nil => exact absurd heq (hc _ after hinner)
    | cons b before =>
      refine ⟨⟨before.length, t.inner⟩, ⟨hinner, before, after, rfl, (List.cons.inj heq).2⟩, ?_⟩
      rw [Token.shift, ← List.length_cons, hplace]
  . rintro ⟨t', h, rfl⟩
    exact standsIn_append [c] h

-- Another token starts behind this one, as its opening brace cannot be inside of it.
theorem standsIn_token (hinner : BraceFree inner) :
    t.StandsIn ((Piece.token inner).text ++ rest)
      ↔
    t = ⟨0, inner⟩
      ∨ ∃ t' : Token, t'.StandsIn rest ∧ t = t'.shift (Piece.token inner).text.length := by
  constructor
  . rintro ⟨hinner', before, after, hplace, heq⟩
    by_cases hbefore : before = []
    . subst hbefore
      obtain ⟨rfl, _⟩ := text_append_inj hinner hinner' heq
      left
      rw [← List.length_nil, hplace]
    . right
      have hopen : (Piece.token inner).text ++ rest
          = before ++ '$' :: '{' :: (t.inner ++ '}' :: after) := by
        simpa [Token.text, Piece.text] using heq
      obtain ⟨before', hrest⟩ := exists_of_text_append_eq hinner hbefore hopen
      have hstands : rest = before' ++ (t.text ++ after) := by
        simpa [Token.text, Piece.text] using hrest
      refine ⟨⟨before'.length, t.inner⟩, ⟨hinner', before', after, rfl, hstands⟩, ?_⟩
      have hlength := congrArg List.length heq
      rw [hstands] at hlength
      simp only [List.length_append] at hlength
      have hstart : t.start = before'.length + (Piece.token inner).text.length := by omega
      rw [Token.shift, ← hstart]
  . rintro (rfl | ⟨t', h, rfl⟩)
    . exact ⟨hinner, [], rest, rfl, rfl⟩
    . exact standsIn_append _ h

theorem eq_of_start_eq (h : t.StandsIn cs) (h' : t'.StandsIn cs) (hstart : t.start = t'.start) :
    t = t' := by
  obtain ⟨hinner, before, after, hplace, rfl⟩ := h
  obtain ⟨hinner', before', after', hplace', heq⟩ := h'
  have hlength : before.length = before'.length := by rw [hplace, hplace', hstart]
  obtain ⟨_, htext⟩ := List.append_inj heq hlength
  obtain ⟨hsame, _⟩ := text_append_inj hinner hinner' htext
  rw [Token.mk.injEq]
  exact ⟨hstart, hsame⟩

theorem mem_locate_iff :
    t ∈ locate place (scan cs) ↔ ∃ t' : Token, t'.StandsIn cs ∧ t = t'.shift place := by
  induction cs using scan_induction generalizing place with
  | nil => simp [locate, not_standsIn_nil]
  | char c cs hc ih =>
    rw [scan_char hc, locate, ih]
    simp only [standsIn_char hc]
    constructor
    . rintro ⟨t', h, rfl⟩
      exact ⟨_, ⟨t', h, rfl⟩, (Token.shift_shift ..).symm⟩
    . rintro ⟨_, ⟨t', h, rfl⟩, rfl⟩
      exact ⟨t', h, Token.shift_shift ..⟩
  | token inner rest hinner ih =>
    rw [scan_token hinner, locate, List.mem_cons, ih]
    simp only [standsIn_token hinner]
    constructor
    . rintro (rfl | ⟨t', h, rfl⟩)
      . exact ⟨_, .inl rfl, by simp [Token.shift]⟩
      . exact ⟨_, .inr ⟨t', h, rfl⟩, (Token.shift_shift ..).symm⟩
    . rintro ⟨_, rfl | ⟨t', h, rfl⟩, rfl⟩
      . left
        simp [Token.shift]
      . exact .inr ⟨t', h, Token.shift_shift ..⟩

theorem mem_tokens_iff : t ∈ tokens cs ↔ t.StandsIn cs := by
  rw [tokens, mem_locate_iff]
  simp [Token.shift_zero]

theorem exists_mem_tokens {n : String} (h : Mentions cs n) : ∃ t ∈ tokens cs, t.name = n := by
  obtain ⟨before, inner, after, hinner, hcs, hname⟩ := h
  exact ⟨⟨before.length, inner⟩, mem_tokens_iff.2 ⟨hinner, before, after, rfl, hcs⟩, hname⟩

theorem le_start_of_mem_locate (h : t ∈ locate place pieces) : place ≤ t.start := by
  induction pieces generalizing place with
  | nil => simp [locate] at h
  | cons piece pieces ih =>
    cases piece with
    | char c => exact Nat.le_of_succ_le (ih h)
    | token inner =>
      rcases List.mem_cons.1 h with rfl | h
      . exact Nat.le_refl place
      . exact Nat.le_trans (Nat.le_of_lt (Token.start_lt_stop ⟨place, inner⟩)) (ih h)

theorem pairwise_locate : (locate place pieces).Pairwise fun t t' => t.stop ≤ t'.start := by
  induction pieces generalizing place with
  | nil => exact .nil
  | cons piece pieces ih =>
    cases piece with
    | char c => exact ih
    | token inner => exact .cons (fun t' ht' => le_start_of_mem_locate ht') ih

theorem pairwise_tokens : (tokens cs).Pairwise fun t t' => t.stop ≤ t'.start :=
  pairwise_locate

namespace Finds

theorem unique (h : Finds cs place found) (h' : Finds cs place found') : found = found' := by
  induction h generalizing found' with
  | none hnone =>
    cases h' with
    | none _ => rfl
    | next ht hplace _ _ => exact absurd hplace (Nat.not_le_of_lt (hnone _ ht))
  | next ht hplace hleast _ ih =>
    cases h' with
    | none hnone => exact absurd hplace (Nat.not_le_of_lt (hnone _ ht))
    | next ht' hplace' hleast' hrest' =>
      have hstart := Nat.le_antisymm (hleast _ ht' hplace') (hleast' _ ht hplace)
      have heq := eq_of_start_eq ht ht' hstart
      subst heq
      rw [ih hrest']

-- If the tokens are in order and none is missing, a search from the end of one misses none of the
-- others.
theorem of_complete (hmem : ∀ t : Token, t ∈ found ↔ t.StandsIn cs ∧ place ≤ t.start)
    (hpairwise : found.Pairwise fun t t' => t.stop ≤ t'.start) : Finds cs place found := by
  induction found generalizing place with
  | nil =>
    apply none
    intro t ht
    by_contra hlt
    simpa using (hmem t).2 ⟨ht, Nat.le_of_not_lt hlt⟩
  | cons t found ih =>
    obtain ⟨hafter, hrest⟩ := List.pairwise_cons.1 hpairwise
    obtain ⟨ht, hplace⟩ := (hmem t).1 List.mem_cons_self
    apply next ht hplace
    . intro t' ht' hplace'
      rcases List.mem_cons.1 ((hmem t').2 ⟨ht', hplace'⟩) with rfl | hmem'
      . exact Nat.le_refl _
      . exact Nat.le_trans (Nat.le_of_lt t.start_lt_stop) (hafter t' hmem')
    . apply ih _ hrest
      intro t'
      constructor
      . intro hmem'
        exact ⟨((hmem t').1 (List.mem_cons_of_mem t hmem')).1, hafter t' hmem'⟩
      . rintro ⟨ht', hstop⟩
        have hlt := Nat.lt_of_lt_of_le t.start_lt_stop hstop
        have hmem' := (hmem t').2 ⟨ht', Nat.le_trans hplace (Nat.le_of_lt hlt)⟩
        rcases List.mem_cons.1 hmem' with rfl | hmem'
        . exact absurd hlt (Nat.lt_irrefl _)
        . exact hmem'

end Finds

theorem finds_iff : Finds cs 0 found ↔ found = tokens cs := by
  have htokens : Finds cs 0 (tokens cs) := by
    apply Finds.of_complete _ pairwise_tokens
    intro t
    simp [mem_tokens_iff]
  constructor
  . intro h
    exact h.unique htokens
  . rintro rfl
    exact htokens

theorem assemble_text (hstands : ∀ t ∈ found, t.StandsIn cs)
    (hpairwise : found.Pairwise fun t t' => t.stop ≤ t'.start)
    (hlast : ∀ t ∈ found, last ≤ t.start) :
    assemble cs last (found.map fun t => (t, t.text)) = cs.drop last := by
  induction found generalizing last with
  | nil => rfl
  | cons t found ih =>
    obtain ⟨hafter, hrest⟩ := List.pairwise_cons.1 hpairwise
    obtain ⟨hstand, hstands⟩ := List.forall_mem_cons.1 hstands
    obtain ⟨_, before, after, hplace, rfl⟩ := hstand
    have hstart : last ≤ before.length := hplace ▸ hlast t List.mem_cons_self
    have hstop : (before ++ (t.text ++ after)).drop t.stop = after := by
      rw [Token.stop, ← hplace, ← List.append_assoc, ← List.length_append, List.drop_left]
    rw [List.map_cons, assemble, ih hstands hrest hafter, hstop, List.extract, ← hplace,
      List.drop_append_of_le_length hstart, ← List.length_drop, List.take_left]

end Placeholder

namespace Expansion

open Placeholder

/--
The tokens of a list, one after the other, with the texts that stand for them. A token stands for
itself if its name stands for nothing.
-/
def consultAll (find : String → Step (Option String)) : List Token → Step (List (Token × List Char))
  | [], p => (.ok [], p)
  | t :: found, p =>
    match consult find t.name p with
    | (.error e, p) => (.error e, p)
    | (.ok none, p) => mapOk ((t, t.text) :: ·) (consultAll find found p)
    | (.ok (some value), p) => mapOk ((t, value.toList) :: ·) (consultAll find found p.replace)

variable {find : String → Step (Option String)} {look : String → Option String}
variable {cs before full value : List Char} {last : Nat} {t : Token} {raw : String} {p : Pass}

theorem map_fst_of_consultAll {found : List Token} {parts : List (Token × List Char)} {q : Pass}
    (h : consultAll find found p = (.ok parts, q)) : parts.map Prod.fst = found := by
  induction found generalizing p parts with
  | nil =>
    obtain ⟨rfl, _⟩ : parts = [] ∧ q = p := by simpa [consultAll, eq_comm] using h
    rfl
  | cons t found ih =>
    rw [consultAll] at h
    rcases hconsult : consult find t.name p with ⟨_ | _ | value, r⟩
    . rw [hconsult] at h
      simp at h
    . rw [hconsult] at h
      obtain ⟨rest, hrest, rfl⟩ := mapOk_eq_ok_iff.1 h
      rw [List.map_cons, ih hrest]
    . rw [hconsult] at h
      obtain ⟨rest, hrest, rfl⟩ := mapOk_eq_ok_iff.1 h
      rw [List.map_cons, ih hrest]

theorem mapOk_assemble_cons {outcome : Except ConfigError (List (Token × List Char)) × Pass}
    {outcome' : Except ConfigError (List Char) × Pass}
    (hbefore : full.extract last t.start = before)
    (h : mapOk (assemble full t.stop) outcome = mapOk ([] ++ ·) outcome') :
    mapOk (assemble full last) (mapOk ((t, value) :: ·) outcome)
      =
    mapOk (before ++ ·) (mapOk (value ++ ·) outcome') := by
  have happend := congrArg (mapOk fun out => before ++ (value ++ out)) h
  rw [mapOk_mapOk, mapOk_mapOk] at happend
  rw [mapOk_mapOk, mapOk_mapOk]
  simpa only [assemble, hbefore, List.nil_append] using happend

-- The cursor `last` is the end of the last token, and `before` is what has been passed since then.
theorem mapOk_consultAll_locate (hfull : full.drop last = before ++ cs) (p : Pass) :
    mapOk (assemble full last) (consultAll find (locate (last + before.length) (scan cs)) p)
      =
    mapOk (before ++ ·) (substitute find (scan cs) p) := by
  induction cs using scan_induction generalizing before last p with
  | nil => simp [consultAll, locate, substitute, mapOk, Except.map, assemble, hfull]
  | char c cs hc ih =>
    have hbefore : full.drop last = (before ++ [c]) ++ cs := by simpa using hfull
    have hrest := ih hbefore p
    rw [List.length_append, List.length_singleton, ← Nat.add_assoc] at hrest
    rw [scan_char hc, locate, hrest, substitute_char, mapOk_mapOk]
    simp only [List.append_assoc, List.singleton_append]
  | token inner rest hinner ih =>
    have hbefore : full.extract last (last + before.length) = before := by
      rw [List.extract, hfull, Nat.add_sub_cancel_left, List.take_left]
    have hstop : full.drop (Token.stop ⟨last + before.length, inner⟩) = [] ++ rest := by
      rw [Token.stop, Nat.add_assoc, ← List.drop_drop, hfull, ← List.append_assoc,
        ← List.length_append]
      exact List.drop_left
    rw [scan_token hinner, locate, consultAll, substitute_token, Token.name]
    rcases consult find (name inner) p with ⟨_ | _ | value, q⟩
    . rfl
    . exact mapOk_assemble_cons hbefore (ih hstop q)
    . exact mapOk_assemble_cons hbefore (ih hstop q.replace)

theorem substitute_eq_consultAll :
    substitute find (scan cs) p = mapOk (assemble cs 0) (consultAll find (tokens cs) p) := by
  have hloop : mapOk (assemble cs 0) (consultAll find (tokens cs) p)
      = mapOk ([] ++ ·) (substitute find (scan cs) p) :=
    @mapOk_consultAll_locate find cs [] cs 0 rfl p
  rw [hloop]
  rcases substitute find (scan cs) p with ⟨_ | out, q⟩ <;> rfl

theorem expand_eq_consultAll {active : List String} :
    expand look active raw p
      =
    mapOk (fun parts => String.ofList (assemble raw.toList 0 parts))
      (consultAll (expandName look (maxDepth - active.length) active) (tokens raw.toList) p) := by
  rw [expand_eq_mapOk, substitute_eq_consultAll, mapOk_mapOk]

structure Lossless (raw : String) (found : List Token) : Prop where
  complete : ∀ t : Token, t ∈ found ↔ t.StandsIn raw.toList
  apart : found.Pairwise fun t t' => t.stop ≤ t'.start
  visited : ∀ look active p, expand look active raw p
    = mapOk (fun parts => String.ofList (assemble raw.toList 0 parts))
        (consultAll (expandName look (maxDepth - active.length) active) found p)
  replaced : ∀ find p parts q, consultAll find found p = (.ok parts, q) → parts.map Prod.fst = found
  restored : assemble raw.toList 0 (found.map fun t => (t, t.text)) = raw.toList
  unchanged : ∀ look, (∀ t ∈ found, look t.name = none) → (resolve look raw).1 = .ok raw

theorem scanning_lossless (raw : String) :
    (∃ found, Finds raw.toList 0 found)
    ∧ ∀ found, Finds raw.toList 0 found → Lossless raw found := by
  refine ⟨⟨_, finds_iff.2 rfl⟩, ?_⟩
  intro found hfound
  rw [finds_iff.1 hfound]
  constructor
  case complete =>
    intro t
    exact mem_tokens_iff
  case apart => exact pairwise_tokens
  case visited =>
    intro look active p
    exact expand_eq_consultAll
  case replaced =>
    intro find p parts q h
    exact map_fst_of_consultAll h
  case restored =>
    exact assemble_text (fun t ht => mem_tokens_iff.1 ht) pairwise_tokens fun t _ => Nat.zero_le _
  case unchanged =>
    intro look hlook
    apply resolve_of_undefined
    intro n hn
    obtain ⟨t, ht, rfl⟩ := exists_mem_tokens hn
    exact hlook t ht

/--
A text with failed starts of tokens, braces that belong to none, a token over two lines and one
without a name.
-/
def tangle : String :=
  "$${x}$\x7b\x7bb\x7d\x7d$\x7bc$\x7b é\n\x7d\x7d${}$\x7ba"

def tangleTokens : List Token :=
  [⟨1, ['x']⟩, ⟨14, [' ', 'é', '\n']⟩, ⟨21, []⟩]

theorem scanning_lossless_tangle :
    Finds tangle.toList 0 tangleTokens
    ∧ assemble tangle.toList 0 (tangleTokens.map fun t => (t, t.text)) = tangle.toList
    ∧ (∀ t ∈ tangleTokens, diamond.get? t.name = none)
    ∧ (resolve diamond.get? tangle).1 = .ok tangle := by
  have hfound : Finds tangle.toList 0 tangleTokens := finds_iff.2 (by decide +kernel)
  have hundefined : ∀ t ∈ tangleTokens, diamond.get? t.name = none := by decide +kernel
  have hlossless := (scanning_lossless tangle).2 _ hfound
  exact ⟨hfound, hlossless.restored, hundefined, hlossless.unchanged _ hundefined⟩

end Expansion
end Overlay
