import TieredDispatch.Json.Value
import TieredDispatch.Proofs.Grammar

/-!
# How values are spelled

The writer of JSON text keeps to the grammar: a number token is the text of a number that stands for
that number (`Number.ofNat`), and a string token is the text of a string that stands for that text
(`spell`).
-/

namespace TieredDispatch

namespace Json

/-! ## Numbers -/

theorem ofDigits_toDigits (n : Nat) : ofDigits (Nat.toDigits 10 n) = n := by
  have hsame : ofDigits (Nat.toDigits 10 n) = Nat.ofDigitChars 10 (Nat.toDigits 10 n) 0 := by
    simp only [ofDigits, Nat.ofDigitChars_eq_foldl, Nat.mul_comm]
  rw [hsame, Nat.ofDigitChars_toDigits (by decide) (by decide)]

theorem isDigit_of_mem_toDigits {n : Nat} {c : Char} (h : c ∈ Nat.toDigits 10 n) : isDigit c := by
  have hdigit := Nat.isDigit_of_mem_toDigits (by decide) (by decide) h
  simpa [isDigit, Char.isDigit, Char.le_def] using hdigit

/-- Only zero is written with a zero in front. -/
theorem eq_zero_of_head?_toDigits {n : Nat} (h : (Nat.toDigits 10 n).head? = some '0') : n = 0 := by
  induction n using Nat.strongRecOn with
  | _ n ih =>
    by_cases hsmall : n < 10
    · rw [Nat.toDigits_of_lt_base hsmall] at h
      simpa using h
    · obtain ⟨c, digits, hdigits⟩ := List.exists_cons_of_ne_nil
        (Nat.toDigits_ne_nil (b := 10) (n := n / 10))
      rw [Nat.toDigits_of_base_le (by decide) (Nat.le_of_not_lt hsmall), hdigits] at h
      have hzero := ih (n / 10) (by omega) (by rw [hdigits]; exact h)
      omega

/-- The number without sign, point and exponent. -/
def Number.ofNat (n : Nat) : Number where
  negative := false
  whole := {
    chars := Nat.toDigits 10 n
    nonempty := Nat.toDigits_ne_nil
    digits := fun _ => isDigit_of_mem_toDigits
    zero_alone := fun h => by rw [eq_zero_of_head?_toDigits h]; rfl }
  fraction := none
  exponent := none

theorem Number.text_ofNat (n : Nat) : (Number.ofNat n).text = JsonValue.numberToken n := by
  simp [Number.ofNat, Number.text, JsonValue.numberToken]

theorem Number.word?_ofNat (n : UInt64) : (Number.ofNat n.toNat).word? = some n := by
  have hsmall : ofDigits (Number.ofNat n.toNat).whole.chars = n.toNat := ofDigits_toDigits n.toNat
  rw [Number.word?, hsmall, if_pos ⟨rfl, rfl, rfl, n.toNat_lt_size⟩, UInt64.ofNat_toNat]

/-! ## Strings -/

theorem isSome_hexDigit?_digitChar : ∀ n < 16, (hexDigit? n.digitChar).isSome := by
  decide

/-- The hexadecimal digit of a number below 16. -/
def HexDigit.ofNat (n : Nat) (h : n < 16) : HexDigit :=
  ⟨n.digitChar, isSome_hexDigit?_digitChar n h⟩

/-- The escape of a control character. -/
def CodeUnit.ofControl (n : Nat) (h : n < 0x20) : CodeUnit where
  first := .ofNat 0 (by decide)
  second := .ofNat 0 (by decide)
  third := .ofNat (n / 16) (by omega)
  fourth := .ofNat (n % 16) (by omega)

/-- How a character is spelled. -/
def StringPiece.ofChar (c : Char) : StringPiece :=
  if hquote : c = '"' then .short '"' rfl
  else if hbackslash : c = '\\' then .short '\\' rfl
  else if c = '\n' then .short 'n' rfl
  else if c = '\r' then .short 'r' rfl
  else if c = '\t' then .short 't' rfl
  else if c = '\x08' then .short 'b' rfl
  else if c = '\x0c' then .short 'f' rfl
  else if h : c.toNat < 0x20 then .unit (.ofControl c.toNat h)
  else .plain c ⟨hquote, hbackslash, h⟩

/-- How a text is spelled. -/
def spell (s : String) : List StringPiece :=
  s.toList.map .ofChar

theorem toDigits_control : ∀ n < 0x20, (if n < 0x10 then ['0'] else []) ++ Nat.toDigits 16 n =
    [(n / 16).digitChar, (n % 16).digitChar] := by
  decide

/-- A character is spelled by an escape of one sign, by the escape of its code unit, or as itself;
and so it is written. -/
theorem StringPiece.ofChar_cases (c : Char) :
    (∃ e h, ofChar c = .short e h ∧ (shortEscape? e).get h = c ∧
      JsonValue.stringChar c = ['\\', e]) ∨
    (∃ h, ofChar c = .unit (.ofControl c.toNat h) ∧ JsonValue.stringChar c =
      ['\\', 'u', '0', '0', (c.toNat / 16).digitChar, (c.toNat % 16).digitChar]) ∨
    (∃ h, ofChar c = .plain c h ∧ JsonValue.stringChar c = [c]) := by
  by_cases hshort : c ∈ ['"', '\\', '\n', '\r', '\t', '\x08', '\x0c']
  · simp only [List.mem_cons, List.not_mem_nil, or_false] at hshort
    rcases hshort with rfl | rfl | rfl | rfl | rfl | rfl | rfl <;>
      exact .inl ⟨_, _, rfl, rfl, rfl⟩
  · simp only [List.mem_cons, List.not_mem_nil, or_false, not_or] at hshort
    obtain ⟨hquote, hbackslash, hline, hreturn, htab, hback, hfeed⟩ := hshort
    by_cases h : c.toNat < 0x20
    · have hdigits := toDigits_control c.toNat h
      exact .inr (.inl ⟨h, by simp [ofChar, *], by simp [JsonValue.stringChar, *]⟩)
    · exact .inr (.inr ⟨⟨hquote, hbackslash, h⟩, by simp [ofChar, *],
        by simp [JsonValue.stringChar, *]⟩)

theorem StringPiece.text_ofChar (c : Char) : (ofChar c).text = JsonValue.stringChar c := by
  rcases ofChar_cases c with ⟨e, h, hpiece, -, htext⟩ | ⟨h, hpiece, htext⟩ | ⟨h, hpiece, htext⟩ <;>
  · rw [hpiece, htext]
    rfl

/-- A string token spells its text. -/
theorem stringText_spell (s : String) : stringText (spell s) = JsonValue.stringToken s := by
  simp [stringText, spell, JsonValue.stringToken, List.flatMap_map, StringPiece.text_ofChar]

theorem HexDigit.value_ofNat : ∀ n (h : n < 16), (HexDigit.ofNat n h).value = n := by
  decide

theorem CodeUnit.value_ofControl {n : Nat} (h : n < 0x20) : (CodeUnit.ofControl n h).value = n := by
  simp only [CodeUnit.value, CodeUnit.ofControl, HexDigit.value_ofNat]
  omega

theorem unescape_cons_ofChar (c : Char) (pieces : List StringPiece) :
    unescape (.ofChar c :: pieces) = (unescape pieces).map (c :: ·) := by
  rcases StringPiece.ofChar_cases c with
    ⟨e, h, hpiece, hc, -⟩ | ⟨h, hpiece, -⟩ | ⟨h, hpiece, -⟩
  · rw [hpiece, unescape, hc]
  · have hvalue := CodeUnit.value_ofControl h
    have hlow : ¬ (CodeUnit.ofControl c.toNat h).IsLow := by
      rw [CodeUnit.IsLow, hvalue]
      omega
    have hhigh : ¬ (CodeUnit.ofControl c.toNat h).IsHigh := by
      rw [CodeUnit.IsHigh, hvalue]
      omega
    rw [hpiece, unescape.eq_def]
    simp only [if_neg hlow, if_neg hhigh, hvalue, Char.ofNat_toNat]
  · rw [hpiece, unescape]

/-- What is spelled stands for the text. -/
theorem stringOf?_spell (s : String) : stringOf? (spell s) = some s := by
  have hchars : ∀ chars, unescape (chars.map .ofChar) = some chars := by
    intro chars
    induction chars with
    | nil => rfl
    | cons c chars ih => rw [List.map_cons, unescape_cons_ofChar, ih]; rfl
  rw [stringOf?, spell, hchars, Option.map_some, String.ofList_toList]

end Json

end TieredDispatch
