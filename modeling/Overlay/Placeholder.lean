import Overlay.Text.Basic

/-!
This module contains placeholders: the tokens of the form dollar sign, opening brace, name, closing
brace, where the name has no braces. A text is scanned from the left into tokens and single
characters that belong to none, from which it can be put together again.
-/

namespace Overlay

/--
A part of a text: a character outside of tokens, or a token with what stands between its braces.
-/
inductive Piece where
  | char (c : Char)
  | token (inner : List Char)
deriving DecidableEq, Repr

namespace Piece

def text : Piece → List Char
  | char c => [c]
  | token inner => '$' :: '{' :: inner ++ ['}']

end Piece

namespace Placeholder

def name (inner : List Char) : String :=
  String.ofList (Text.trim inner)

def isInner (c : Char) : Bool :=
  c != '{' && c != '}'

def token? : List Char → Option (List Char)
  | '$' :: '{' :: cs =>
    match cs.dropWhile isInner with
    | '}' :: _ => some (cs.takeWhile isInner)
    | _ => none
  | _ => none

/--
The pieces of a text, after `skip` characters that belong to a token already found.
-/
def scanAfter : Nat → List Char → List Piece
  | _, [] => []
  | skip + 1, _ :: cs => scanAfter skip cs
  | 0, c :: cs =>
    match token? (c :: cs) with
    | some inner => .token inner :: scanAfter (inner.length + 2) cs
    | none => .char c :: scanAfter 0 cs

def scan (cs : List Char) : List Piece :=
  scanAfter 0 cs

def names (cs : List Char) : List String :=
  (scan cs).filterMap fun
    | .char _ => none
    | .token inner => some (name inner)

theorem scanAfter_eq_drop (skip : Nat) (cs : List Char) :
    scanAfter skip cs = scan (cs.drop skip) := by
  induction cs generalizing skip with
  | nil => cases skip <;> simp [scan, scanAfter]
  | cons c cs ih =>
    cases skip with
    | zero => simp [scan]
    | succ skip =>
      rw [scanAfter, ih skip]
      simp

theorem eq_of_token? {cs inner : List Char} (h : token? cs = some inner) :
    cs = (Piece.token inner).text ++ cs.drop (inner.length + 3) := by
  unfold token? at h
  split at h
  . next rest =>
    split at h
    . next after hafter =>
      have hsplit := List.takeWhile_append_dropWhile (p := isInner) (l := rest)
      simp only [Option.some.injEq] at h
      rw [hafter, h] at hsplit
      subst hsplit
      simp [Piece.text]
    . simp at h
  . simp at h

theorem isInner_of_token? {cs inner : List Char} (h : token? cs = some inner) :
    ∀ c ∈ inner, isInner c = true := by
  unfold token? at h
  split at h
  . next rest =>
    split at h
    . simp only [Option.some.injEq] at h
      subst h
      exact List.all_eq_true.1 List.all_takeWhile
    . simp at h
  . simp at h

end Placeholder
end Overlay
