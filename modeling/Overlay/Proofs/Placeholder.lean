import Overlay.Placeholder

/-!
This module contains the theory of scanning: where a text has a token, the pieces that `scan` cuts
off at its front, the fact that the names of `scan` are those of all tokens that occur anywhere in
the text, and when two texts can be joined without a new token. That is always so if every opening
brace belongs to a token.
-/

namespace Overlay
namespace Placeholder

variable {c : Char} {cs inner rest : List Char} {n : String}

def BraceFree (inner : List Char) : Prop :=
  ∀ c ∈ inner, c ≠ '{' ∧ c ≠ '}'

/--
The text has a token of this name, somewhere.
-/
def Mentions (cs : List Char) (n : String) : Prop :=
  ∃ before inner after,
    BraceFree inner ∧ cs = before ++ ((Piece.token inner).text ++ after) ∧ name inner = n

/--
No token begins at the front of the text.
-/
def Tokenless (cs : List Char) : Prop :=
  ∀ inner rest, BraceFree inner → cs ≠ (Piece.token inner).text ++ rest

theorem isInner_iff : isInner c = true ↔ c ≠ '{' ∧ c ≠ '}' := by
  simp [isInner]

theorem token?_text_append (h : BraceFree inner) (rest : List Char) :
    token? ((Piece.token inner).text ++ rest) = some inner := by
  have hinner : ∀ c ∈ inner, isInner c = true := by
    intro c hc
    exact isInner_iff.2 (h c hc)
  have htext : (Piece.token inner).text ++ rest = '$' :: '{' :: (inner ++ '}' :: rest) := by
    simp [Piece.text]
  have hstop : ¬isInner '}' = true := by decide
  rw [htext, token?]
  rw [List.dropWhile_append_of_pos hinner, List.takeWhile_append_of_pos hinner]
  rw [List.dropWhile_cons_of_neg hstop, List.takeWhile_cons_of_neg hstop]
  simp

theorem braceFree_of_token? (h : token? cs = some inner) : BraceFree inner := by
  intro c hc
  exact isInner_iff.1 (isInner_of_token? h c hc)

theorem token?_eq_none_iff : token? cs = none ↔ Tokenless cs := by
  constructor
  . intro h inner rest hinner heq
    rw [heq, token?_text_append hinner] at h
    contradiction
  . intro h
    cases htoken : token? cs with
    | none => rfl
    | some inner => exact absurd (eq_of_token? htoken) (h inner _ (braceFree_of_token? htoken))

theorem text_append_inj {inner' rest' : List Char} (h : BraceFree inner) (h' : BraceFree inner')
    (heq : (Piece.token inner).text ++ rest = (Piece.token inner').text ++ rest') :
    inner = inner' ∧ rest = rest' := by
  have hinner : some inner = some inner' := by
    rw [← token?_text_append h rest, ← token?_text_append h' rest', heq]
  injection hinner with hinner
  subst hinner
  exact ⟨rfl, List.append_cancel_left heq⟩

@[simp]
theorem scan_nil : scan [] = [] := rfl

theorem scan_char (h : Tokenless (c :: cs)) : scan (c :: cs) = .char c :: scan cs := by
  rw [scan, scanAfter, token?_eq_none_iff.2 h, scan]

theorem scan_token (h : BraceFree inner) :
    scan ((Piece.token inner).text ++ rest) = .token inner :: scan rest := by
  have htoken := token?_text_append h rest
  have htext : (Piece.token inner).text ++ rest = '$' :: ('{' :: inner ++ '}' :: rest) := by
    simp [Piece.text]
  rw [htext] at htoken ⊢
  rw [scan, scanAfter, htoken]
  dsimp only
  rw [scanAfter_eq_drop]
  simp

/--
A text is empty, or goes on after a character at which no token begins, or goes on after a token.
-/
@[elab_as_elim]
theorem scan_induction {motive : List Char → Prop} (nil : motive [])
    (char : ∀ c cs, Tokenless (c :: cs) → motive cs → motive (c :: cs))
    (token : ∀ inner rest, BraceFree inner → motive rest →
      motive ((Piece.token inner).text ++ rest))
    (cs : List Char) : motive cs := by
  generalize hlen : cs.length = len
  induction len using Nat.strongRecOn generalizing cs with
  | ind len ih =>
    cases htoken : token? cs with
    | some inner =>
      have heq := eq_of_token? htoken
      rw [heq]
      apply token _ _ (braceFree_of_token? htoken)
      -- a token has at least its three signs, so what follows it is shorter than the text
      apply ih (cs.drop (inner.length + 3)).length
      . rw [← hlen, heq]
        simp [Piece.text]
        omega
      . rfl
    | none =>
      cases cs with
      | nil => exact nil
      | cons c cs =>
        apply char _ _ (token?_eq_none_iff.1 htoken)
        apply ih cs.length
        . rw [← hlen]
          simp
        . rfl

theorem names_char (h : Tokenless (c :: cs)) : names (c :: cs) = names cs := by
  simp [names, scan_char h]

theorem names_token (h : BraceFree inner) :
    names ((Piece.token inner).text ++ rest) = name inner :: names rest := by
  simp [names, scan_token h]

theorem mentions_of_mem_names (h : n ∈ names cs) : Mentions cs n := by
  induction cs using scan_induction with
  | nil => simp [names] at h
  | char c cs hc ih =>
    rw [names_char hc] at h
    obtain ⟨before, inner, after, hinner, heq, hname⟩ := ih h
    exact ⟨c :: before, inner, after, hinner, by simp [heq], hname⟩
  | token inner rest hinner ih =>
    rw [names_token hinner] at h
    cases List.mem_cons.1 h with
    | inl h => exact ⟨[], inner, rest, hinner, by simp, h.symm⟩
    | inr h =>
      obtain ⟨before, inner', after, hinner', heq, hname⟩ := ih h
      exact ⟨(Piece.token inner).text ++ before, inner', after, hinner', by simp [heq], hname⟩

-- A later token lies behind the closing brace, as its opening brace cannot be inside of the token.
theorem exists_of_inner_append_eq {before tail : List Char} (h : BraceFree inner)
    (heq : inner ++ '}' :: rest = before ++ '$' :: '{' :: tail) :
    ∃ before', rest = before' ++ '$' :: '{' :: tail := by
  induction inner generalizing before with
  | nil =>
    cases before with
    | nil => simp at heq
    | cons b before => exact ⟨before, by simpa using (List.cons.inj heq).2⟩
  | cons c inner ih =>
    have hinner : BraceFree inner := by
      intro d hd
      exact h d (List.mem_cons_of_mem c hd)
    cases before with
    | nil =>
      have hopen : inner ++ '}' :: rest = '{' :: tail := (List.cons.inj heq).2
      cases inner with
      | nil => simp at hopen
      | cons d inner =>
        have hd : d = '{' := (List.cons.inj hopen).1
        exact absurd hd (hinner d List.mem_cons_self).1
    | cons b before => exact ih hinner (List.cons.inj heq).2

theorem exists_of_text_append_eq {before tail : List Char} (h : BraceFree inner)
    (hbefore : before ≠ [])
    (heq : (Piece.token inner).text ++ rest = before ++ '$' :: '{' :: tail) :
    ∃ before', rest = before' ++ '$' :: '{' :: tail := by
  have heq : '$' :: '{' :: (inner ++ '}' :: rest) = before ++ '$' :: '{' :: tail := by
    simpa [Piece.text] using heq
  cases before with
  | nil => contradiction
  | cons b before =>
    have hinner : '{' :: (inner ++ '}' :: rest) = before ++ '$' :: '{' :: tail :=
      (List.cons.inj heq).2
    cases before with
    | nil => simp at hinner
    | cons b' before => exact exists_of_inner_append_eq h (List.cons.inj hinner).2

theorem mem_names_of_mentions (h : Mentions cs n) : n ∈ names cs := by
  obtain ⟨before, inner, after, hinner, heq, hname⟩ := h
  induction cs using scan_induction generalizing before with
  | nil =>
    have := congrArg List.length heq
    simp [Piece.text] at this
  | char c cs hc ih =>
    rw [names_char hc]
    cases before with
    | nil => exact absurd heq (hc inner after hinner)
    | cons b before => exact ih before (by simpa using (List.cons.inj heq).2)
  | token inner' rest hinner' ih =>
    rw [names_token hinner']
    by_cases hbefore : before = []
    . subst hbefore
      obtain ⟨hinner, _⟩ := text_append_inj hinner' hinner (by simpa using heq)
      simp [hinner, hname]
    . have heq' : (Piece.token inner').text ++ rest
          = before ++ '$' :: '{' :: (inner ++ '}' :: after) := by
        simpa [Piece.text] using heq
      obtain ⟨before', hrest⟩ := exists_of_text_append_eq hinner' hbefore heq'
      apply List.mem_cons_of_mem
      apply ih before'
      simpa [Piece.text] using hrest

theorem mem_names_iff : n ∈ names cs ↔ Mentions cs n :=
  ⟨mentions_of_mem_names, mem_names_of_mentions⟩

theorem Mentions.trim_toList (h : Mentions cs n) : Text.trim n.toList = n.toList := by
  obtain ⟨_, inner, _, _, _, rfl⟩ := h
  rw [name, String.toList_ofList, Text.trim_trim]

theorem Mentions.braceFree_toList (h : Mentions cs n) : BraceFree n.toList := by
  obtain ⟨_, inner, _, hinner, _, rfl⟩ := h
  intro c hc
  rw [name, String.toList_ofList] at hc
  exact hinner c (Text.mem_of_mem_trim hc)

theorem Mentions.append_left (h : Mentions cs n) (after : List Char) :
    Mentions (cs ++ after) n := by
  obtain ⟨before, inner, rest, hinner, rfl, hname⟩ := h
  exact ⟨before, inner, rest ++ after, hinner, by simp, hname⟩

theorem Mentions.append_right (h : Mentions cs n) (before : List Char) :
    Mentions (before ++ cs) n := by
  obtain ⟨before', inner, rest, hinner, rfl, hname⟩ := h
  exact ⟨before ++ before', inner, rest, hinner, by simp, hname⟩

theorem not_mentions_nil : ¬Mentions [] n := by
  rw [← mem_names_iff]
  simp [names]

theorem infix_of_mentions (h : Mentions cs n) : ['$', '{'] <:+: cs := by
  obtain ⟨before, inner, after, -, rfl, -⟩ := h
  refine ⟨before, inner ++ '}' :: after, ?_⟩
  simp [Piece.text]

theorem mentions_char (h : Tokenless (c :: cs)) : Mentions (c :: cs) n ↔ Mentions cs n := by
  rw [← mem_names_iff, ← mem_names_iff, names_char h]

theorem mentions_token (h : BraceFree inner) :
    Mentions ((Piece.token inner).text ++ rest) n ↔ n = name inner ∨ Mentions rest n := by
  rw [← mem_names_iff, ← mem_names_iff, names_token h, List.mem_cons]

def EndsOpen (cs : List Char) : Prop :=
  ∃ before inner, BraceFree inner ∧ cs = before ++ '$' :: '{' :: inner

theorem tokenless_of_ne (h : c ≠ '$') : Tokenless (c :: cs) := by
  intro inner rest _ heq
  exact h (List.cons.inj heq).1

theorem not_endsOpen_of_append {before : List Char} (h : ¬EndsOpen (before ++ cs)) :
    ¬EndsOpen cs := by
  rintro ⟨before', inner, hinner, rfl⟩
  exact h ⟨before ++ before', inner, hinner, by simp⟩

theorem not_endsOpen_of_brace : ¬EndsOpen (cs ++ ['}']) := by
  rintro ⟨before, inner, hinner, heq⟩
  have hreverse : '}' :: cs.reverse = inner.reverse ++ '{' :: '$' :: before.reverse := by
    simpa using congrArg List.reverse heq
  cases hlast : inner.reverse with
  | nil =>
    rw [hlast] at hreverse
    simp at hreverse
  | cons d rest =>
    have hmem : d ∈ inner := by
      rw [← List.mem_reverse, hlast]
      exact List.mem_cons_self
    rw [hlast] at hreverse
    exact (hinner d hmem).2 (List.cons.inj hreverse).1.symm

-- A token that begins in the first text either lies in it or leaves it open at its end.
theorem tokenless_append {cs' : List Char} (h : Tokenless (c :: cs)) (hopen : ¬EndsOpen (c :: cs))
    (hhead : cs'.head? ≠ some '{') : Tokenless (c :: (cs ++ cs')) := by
  intro inner rest hinner heq
  have htext : c :: (cs ++ cs') = '$' :: '{' :: (inner ++ '}' :: rest) := by
    simpa [Piece.text] using heq
  obtain ⟨rfl, htail⟩ := List.cons.inj htext
  cases cs with
  | nil =>
    rw [List.nil_append] at htail
    rw [htail] at hhead
    exact hhead rfl
  | cons d cs =>
    obtain ⟨rfl, hinside⟩ := List.cons.inj htail
    rcases List.append_eq_append_iff.1 hinside with ⟨within, hsplit, _⟩ | ⟨after, hsplit, hrest⟩
    . apply hopen
      refine ⟨[], cs, ?_, rfl⟩
      intro e he
      exact hinner e (hsplit ▸ List.mem_append_left within he)
    . cases after with
      | nil =>
        apply hopen
        refine ⟨[], cs, ?_, rfl⟩
        simpa [hsplit] using hinner
      | cons e after =>
        obtain ⟨rfl, _⟩ := List.cons.inj hrest
        apply h inner after hinner
        simp [Piece.text, hsplit]

/--
Every opening brace of the text belongs to a token.
-/
def Tidy (cs : List Char) : Prop :=
  ∀ before after, cs = before ++ '{' :: after →
    ∃ before' inner rest, BraceFree inner ∧ before = before' ++ ['$'] ∧ after = inner ++ '}' :: rest

theorem mentions_append {cs' : List Char} (hopen : ¬EndsOpen cs) (hhead : cs'.head? ≠ some '{') :
    Mentions (cs ++ cs') n ↔ Mentions cs n ∨ Mentions cs' n := by
  induction cs using scan_induction with
  | nil => simp [not_mentions_nil]
  | char c cs hc ih =>
    have hopen' : ¬EndsOpen cs := @not_endsOpen_of_append cs [c] hopen
    have hc' : Tokenless (c :: (cs ++ cs')) := tokenless_append hc hopen hhead
    rw [List.cons_append, mentions_char hc', ih hopen', mentions_char hc]
  | token inner rest hinner ih =>
    rw [List.append_assoc, mentions_token hinner, ih (not_endsOpen_of_append hopen),
      mentions_token hinner, or_assoc]

namespace Tidy

theorem nil : Tidy [] := by
  intro before after heq
  simp at heq

theorem cons (hc : c ≠ '{') (h : Tidy cs) : Tidy (c :: cs) := by
  intro before after heq
  cases before with
  | nil => exact absurd (List.cons.inj heq).1 hc
  | cons b before =>
    obtain ⟨before', inner, rest, hinner, rfl, hafter⟩ := h before after (List.cons.inj heq).2
    exact ⟨b :: before', inner, rest, hinner, rfl, hafter⟩

theorem append {cs' : List Char} (h : Tidy cs) (h' : Tidy cs') : Tidy (cs ++ cs') := by
  intro before after heq
  rcases List.append_eq_append_iff.1 heq with ⟨before', rfl, hcs'⟩ | ⟨within, rfl, hwithin⟩
  . obtain ⟨before'', inner, rest, hinner, rfl, hafter⟩ := h' before' after hcs'
    exact ⟨cs ++ before'', inner, rest, hinner, by simp, hafter⟩
  . cases within with
    | nil =>
      obtain ⟨before', _, _, _, hbefore, _⟩ := h' [] after hwithin.symm
      simp at hbefore
    | cons d within =>
      obtain ⟨rfl, rfl⟩ := List.cons.inj hwithin
      obtain ⟨before', inner, rest, hinner, hbefore, rfl⟩ := h before within rfl
      exact ⟨before', inner, rest ++ cs', hinner, hbefore, by simp⟩

theorem token (h : BraceFree inner) : Tidy (Piece.token inner).text := by
  intro before after heq
  cases before with
  | nil => simp [Piece.text] at heq
  | cons b before =>
    obtain ⟨rfl, hopen⟩ := List.cons.inj heq
    cases before with
    | nil => exact ⟨[], inner, [], h, rfl, (List.cons.inj hopen).2.symm⟩
    | cons b before =>
      have hinside : inner ++ ['}'] = before ++ '{' :: after := (List.cons.inj hopen).2
      have hmem : '{' ∈ inner ++ ['}'] := by simp [hinside]
      rcases List.mem_append.1 hmem with hmem | hmem
      . exact absurd rfl (h '{' hmem).1
      . simp at hmem

theorem head?_ne (h : Tidy cs) : cs.head? ≠ some '{' := by
  intro hhead
  obtain ⟨after, rfl⟩ := List.head?_eq_some_iff.1 hhead
  obtain ⟨before', _, _, _, hbefore, _⟩ := h [] after rfl
  simp at hbefore

theorem not_endsOpen (h : Tidy cs) : ¬EndsOpen cs := by
  rintro ⟨before, inner, hinner, rfl⟩
  obtain ⟨_, inner', rest, _, _, rfl⟩ := h (before ++ ['$']) inner (by simp)
  exact (hinner '}' (by simp)).2 rfl

theorem tokenless (h : Tidy cs) : Tokenless (c :: cs) := by
  intro inner rest _ heq
  apply h.head?_ne
  have hcs : cs = '{' :: (inner ++ '}' :: rest) := by
    simpa [Piece.text] using (List.cons.inj heq).2
  rw [hcs]
  rfl

theorem mentions_append {cs' : List Char} (h : Tidy cs) (h' : Tidy cs') :
    Mentions (cs ++ cs') n ↔ Mentions cs n ∨ Mentions cs' n :=
  Placeholder.mentions_append h.not_endsOpen h'.head?_ne

-- A brace at the front belongs to no token, and one behind a tokenless dollar sign neither.
theorem of_char (hc : Tokenless (c :: cs)) (h : Tidy (c :: cs)) : c ≠ '{' ∧ Tidy cs := by
  constructor
  . rintro rfl
    exact h.head?_ne rfl
  . intro before after heq
    obtain ⟨before', inner, rest, hinner, hbefore, hafter⟩ :=
      h (c :: before) after (by rw [heq]; rfl)
    cases before' with
    | nil =>
      obtain ⟨rfl, rfl⟩ := List.cons.inj hbefore
      apply absurd _ (hc inner rest hinner)
      rw [heq, hafter]
      simp [Piece.text]
    | cons b before' =>
      exact ⟨before', inner, rest, hinner, (List.cons.inj hbefore).2, hafter⟩

theorem of_token (h : Tidy ((Piece.token inner).text ++ rest)) : Tidy rest := by
  intro before after heq
  obtain ⟨before', inner', rest', hinner', hbefore, hafter⟩ :=
    h ((Piece.token inner).text ++ before) after (by rw [heq, List.append_assoc])
  rcases List.eq_nil_or_concat before with rfl | ⟨before, b, rfl⟩
  . have hend : ('$' :: '{' :: inner) ++ ['}'] = before' ++ ['$'] := by
      simpa [Piece.text] using hbefore
    have hbrace : ['}'] = ['$'] := (List.append_inj' hend rfl).2
    contradiction
  . rw [List.concat_eq_append, ← List.append_assoc] at hbefore
    have hb : [b] = ['$'] := (List.append_inj' hbefore rfl).2
    exact ⟨before, inner', rest', hinner', by rw [List.concat_eq_append, hb], hafter⟩

end Tidy

theorem tidy_iff : Tidy cs ↔ Piece.char '{' ∉ scan cs := by
  induction cs using scan_induction with
  | nil => simp [Tidy.nil]
  | char c cs hc ih =>
    rw [scan_char hc, List.mem_cons, not_or, ← ih]
    constructor
    . intro h
      obtain ⟨hbrace, hrest⟩ := h.of_char hc
      exact ⟨by simpa using hbrace.symm, hrest⟩
    . rintro ⟨hbrace, hrest⟩
      exact hrest.cons (by simpa using Ne.symm hbrace)
  | token inner rest hinner ih =>
    rw [scan_token hinner, List.mem_cons, not_or, ← ih]
    constructor
    . intro h
      exact ⟨by simp, h.of_token⟩
    . rintro ⟨_, hrest⟩
      exact (Tidy.token hinner).append hrest

instance : Decidable (Tidy cs) := decidable_of_iff _ tidy_iff.symm

end Placeholder
end Overlay
