import TieredDispatch.Pattern.Expr
import TieredDispatch.Text.Alphanumeric
import TieredDispatch.Text.Hexadecimal

/-!
# Characters of a pattern

Reading what is written by one character, or by a backslash and what goes with it. A sign behind a
backslash stands for itself, a letter for a character that is hard to write, for a class of
characters or for a condition. Readers give back what they read and the rest of the text.
-/

namespace TieredDispatch

namespace Pattern

/-! ## Blanks and comments -/

/-- The text behind its first blanks and comments. A comment goes from a number sign to the end of
its line. -/
def skipRemarks (inComment : Bool) : List Char → List Char
  | [] => []
  | c :: s =>
    if inComment then skipRemarks (c ≠ '\n') s
    else if c = '#' then skipRemarks true s
    else if isWhite c then skipRemarks false s
    else c :: s

/-- The text from where its next part begins. Where the pattern is not verbose, that is here. -/
def skipSpace (verbose : Bool) (s : List Char) : List Char :=
  if verbose then skipRemarks false s else s

theorem skipRemarks_suffix (inComment : Bool) (s : List Char) : skipRemarks inComment s <:+ s := by
  induction s generalizing inComment with
  | nil => exact List.suffix_refl []
  | cons c s ih =>
    unfold skipRemarks
    split
    · exact (ih _).trans (List.suffix_cons c s)
    · split
      · exact (ih _).trans (List.suffix_cons c s)
      · split
        · exact (ih _).trans (List.suffix_cons c s)
        · exact List.suffix_refl _

theorem skipSpace_suffix (verbose : Bool) (s : List Char) : skipSpace verbose s <:+ s := by
  unfold skipSpace
  split
  · exact skipRemarks_suffix false s
  · exact List.suffix_refl s

/-! ## Escapes -/

/-- What a character stands for, alone or behind a backslash. -/
inductive Escape
  | literal (char : Literal)
  | shorthand (negated : Bool) (set : Shorthand)
  | look (look : Look)
deriving DecidableEq, Repr

namespace Escape

/-- The pattern that it is outside of brackets. -/
def toExpr : Escape → Expr
  | literal char => .literal char
  | shorthand negated set => .shorthand negated set
  | look condition => .look condition

/-- The set that it is between brackets. A condition is none. -/
def toCharSet? : Escape → Option CharSet
  | literal char => some (.literal char)
  | shorthand negated set => some (.shorthand negated set)
  | look _ => none

/-- The literal that it is. -/
def toLiteral? : Escape → Option Literal
  | literal char => some char
  | _ => none

/-- What a letter or an angle bracket stands for behind a backslash. -/
def ofLetter? : Char → Option Escape
  | 'a' => some (.literal ⟨'\x07', false⟩)
  | 'f' => some (.literal ⟨'\x0c', false⟩)
  | 'n' => some (.literal ⟨'\n', false⟩)
  | 'r' => some (.literal ⟨'\r', false⟩)
  | 't' => some (.literal ⟨'\t', false⟩)
  | 'v' => some (.literal ⟨'\x0b', false⟩)
  | 'd' => some (.shorthand false .digit)
  | 's' => some (.shorthand false .space)
  | 'w' => some (.shorthand false .word)
  | 'D' => some (.shorthand true .digit)
  | 'S' => some (.shorthand true .space)
  | 'W' => some (.shorthand true .word)
  | 'A' => some (.look .textStart)
  | 'z' => some (.look .textEnd)
  | 'b' => some (.look .wordBoundary)
  | 'B' => some (.look .noWordBoundary)
  | '<' => some (.look .wordStart)
  | '>' => some (.look .wordEnd)
  | _ => none

/-- What a character stands for behind a backslash, if nothing has to follow it: a sign other than
an angle bracket stands for itself. -/
def ofChar? (c : Char) : Option Escape :=
  if c.isAlphanum ∨ c = '<' ∨ c = '>' then ofLetter? c
  else if c.toNat < 0x80 then some (.literal ⟨c, false⟩)
  else none

end Escape

/-! ## Readers -/

/-- Reads the given number of hexadecimal digits behind those that stand for `before`. -/
def readHex (verbose : Bool) : Nat → Nat → List Char → Option (Nat × List Char)
  | 0, before, s => some (before, s)
  | count + 1, before, s =>
    match skipSpace verbose s with
    | [] => none
    | c :: s => (hexDigit? c).bind fun digit => readHex verbose count (before * 16 + digit) s

/-- Reads a character written by its code point, with the given number of digits. Two digits write
it as a byte. -/
def readCodePoint (verbose : Bool) (count : Nat) (s : List Char) : Option (Escape × List Char) :=
  (readHex verbose count 0 s).bind fun (n, s) =>
    if n.isValidChar then some (.literal ⟨Char.ofNat n, count = 2⟩, s) else none

/-- Reads what follows a backslash. -/
def readEscape (verbose : Bool) : List Char → Option (Escape × List Char)
  | [] => none
  | 'x' :: s => readCodePoint verbose 2 s
  | 'u' :: s => readCodePoint verbose 4 s
  | 'U' :: s => readCodePoint verbose 8 s
  | c :: s => (Escape.ofChar? c).map fun escape => (escape, s)

/-- Reads a character that stands for itself, or an escape. -/
def readChar (verbose : Bool) : List Char → Option (Escape × List Char)
  | [] => none
  | '\\' :: s => readEscape verbose s
  | c :: s => some (.literal ⟨c, false⟩, s)

/-! ## What is read is consumed -/

theorem readHex_length_le {verbose : Bool} {count before n : Nat} {s r : List Char}
    (h : readHex verbose count before s = some (n, r)) : r.length ≤ s.length := by
  induction count generalizing before s with
  | zero =>
    simp only [readHex, Option.some.injEq, Prod.mk.injEq] at h
    simp [h.2]
  | succ count ih =>
    have hle := (skipSpace_suffix verbose s).length_le
    unfold readHex at h
    split at h
    · simp at h
    · rename_i c rest heq
      obtain ⟨digit, -, h⟩ := Option.bind_eq_some_iff.mp h
      have := ih h
      simp only [heq, List.length_cons] at hle
      omega

theorem readCodePoint_length_le {verbose : Bool} {count : Nat} {s r : List Char} {escape : Escape}
    (h : readCodePoint verbose count s = some (escape, r)) : r.length ≤ s.length := by
  obtain ⟨⟨n, rest⟩, hhex, h⟩ := Option.bind_eq_some_iff.mp h
  dsimp only at h
  split at h
  · simp only [Option.some.injEq, Prod.mk.injEq] at h
    exact h.2 ▸ readHex_length_le hhex
  · simp at h

theorem readEscape_length {verbose : Bool} {s r : List Char} {escape : Escape}
    (h : readEscape verbose s = some (escape, r)) : r.length < s.length := by
  unfold readEscape at h
  split at h
  · simp at h
  · exact Nat.lt_succ_of_le (readCodePoint_length_le h)
  · exact Nat.lt_succ_of_le (readCodePoint_length_le h)
  · exact Nat.lt_succ_of_le (readCodePoint_length_le h)
  · obtain ⟨e, -, h⟩ := Option.map_eq_some_iff.mp h
    simp only [Prod.mk.injEq] at h
    simp [h.2]

theorem readChar_length {verbose : Bool} {s r : List Char} {escape : Escape}
    (h : readChar verbose s = some (escape, r)) : r.length < s.length := by
  unfold readChar at h
  split at h
  · simp at h
  · exact Nat.lt_succ_of_lt (readEscape_length h)
  · simp only [Option.some.injEq, Prod.mk.injEq] at h
    simp [h.2]

end Pattern

end TieredDispatch
