import TieredDispatch.Text.Hexadecimal

/-!
# Scanning JSON text

The parts of a JSON text, read from the front. Each reader gives back what it read and the rest of
the text, or the first problem met from left to right: the text is **truncated** where more is
needed, or **malformed**. Deciding that a well-formed value is of the wrong kind, **mismatched**, is
left to the decoders.

Every successful reader consumes at least one character (`…_length`), which is why the loops over
them end.
-/

namespace TieredDispatch

/-- The first problem of a JSON text. -/
inductive JsonError
  /-- The text ends where more is needed. -/
  | truncated
  /-- The text is no JSON. -/
  | malformed
  /-- The text is JSON of the wrong shape. -/
  | mismatched
deriving DecidableEq, Repr

namespace Json

/-! ## Blanks and literals -/

/-- The characters allowed between tokens. -/
def isBlank (c : Char) : Bool :=
  c == ' ' || c == '\n' || c == '\t' || c == '\r'

/-- The text from its first token on. -/
def skipBlank (s : List Char) : List Char :=
  s.dropWhile isBlank

/-- Reads exactly the given characters. -/
def literal : List Char → List Char → Except JsonError (List Char)
  | [], s => .ok s
  | _ :: _, [] => .error .truncated
  | e :: es, c :: s => if c = e then literal es s else .error .malformed

/-- Reads the colon between a key and its value. -/
def colon (s : List Char) : Except JsonError (List Char) :=
  match skipBlank s with
  | [] => .error .truncated
  | ':' :: rest => .ok rest
  | _ => .error .malformed

/-! ## Strings -/

/-- Reads four hexadecimal digits. The text counts as truncated when fewer than four bytes are
left of it. -/
def fourHex (s : List Char) : Except JsonError (Nat × List Char) :=
  match s with
  | a :: b :: c :: d :: rest =>
    match hexDigit? a, hexDigit? b, hexDigit? c, hexDigit? d with
    | some a, some b, some c, some d => .ok (((a * 16 + b) * 16 + c) * 16 + d, rest)
    | _, _, _, _ => .error .malformed
  | short =>
    if short.foldl (fun n c => n + c.utf8Size) 0 < 4 then .error .truncated else .error .malformed

/-- The character of an escape that is a single letter or sign. -/
def shortEscape? : Char → Option Char
  | '"' => some '"'
  | '\\' => some '\\'
  | '/' => some '/'
  | 'b' => some '\x08'
  | 'f' => some '\x0c'
  | 'n' => some '\n'
  | 'r' => some '\r'
  | 't' => some '\t'
  | _ => none

/-- Reads the second half of a surrogate pair, a backslash, a `u` and four digits, and gives back
the character of the pair. -/
def lowSurrogate (high : Nat) : List Char → Except JsonError (Char × List Char)
  | [] | ['\\'] => .error .truncated
  | '\\' :: 'u' :: s => do
    let (low, rest) ← fourHex s
    if 0xDC00 ≤ low ∧ low ≤ 0xDFFF then
      pure (Char.ofNat ((high - 0xD800) * 0x400 + (low - 0xDC00) + 0x10000), rest)
    else
      throw .malformed
  | _ => .error .malformed

/-- Reads what follows a backslash. A character outside the basic plane takes two escapes. -/
def escape : List Char → Except JsonError (Char × List Char)
  | [] => .error .truncated
  | 'u' :: s => do
    let (unit, rest) ← fourHex s
    if 0xDC00 ≤ unit ∧ unit ≤ 0xDFFF then
      throw .malformed
    else if 0xD800 ≤ unit ∧ unit ≤ 0xDBFF then
      lowSurrogate unit rest
    else
      pure (Char.ofNat unit, rest)
  | c :: s =>
    match shortEscape? c with
    | some c => .ok (c, s)
    | none => .error .malformed

/-- Passes over what follows a backslash; any four hexadecimal digits will do. -/
def skipEscape : List Char → Except JsonError (List Char)
  | [] => .error .truncated
  | 'u' :: s => (fourHex s).map (·.2)
  | c :: s => if (shortEscape? c).isSome then .ok s else .error .malformed

theorem fourHex_length {s r : List Char} {n : Nat} (h : fourHex s = .ok (n, r)) :
    r.length < s.length := by
  unfold fourHex at h
  split at h
  · split at h
    · simp only [Except.ok.injEq, Prod.mk.injEq] at h
      obtain ⟨-, rfl⟩ := h
      simp only [List.length_cons]
      omega
    · simp at h
  · split at h <;> simp at h

theorem lowSurrogate_length {high : Nat} {s r : List Char} {c : Char}
    (h : lowSurrogate high s = .ok (c, r)) : r.length < s.length := by
  unfold lowSurrogate at h
  split at h
  · simp at h
  · simp at h
  · rename_i s
    cases hhex : fourHex s with
    | error e => simp [hhex, bind, Except.bind] at h
    | ok p =>
      obtain ⟨low, rest⟩ := p
      have hlt := fourHex_length hhex
      simp only [hhex, bind, Except.bind] at h
      split at h
      · simp only [pure, Except.pure, Except.ok.injEq, Prod.mk.injEq] at h
        obtain ⟨-, rfl⟩ := h
        simp only [List.length_cons]
        omega
      · simp [throw, throwThe, MonadExceptOf.throw] at h
  · simp at h

theorem escape_length {s r : List Char} {c : Char} (h : escape s = .ok (c, r)) :
    r.length < s.length := by
  unfold escape at h
  split at h
  · simp at h
  · rename_i s
    cases hhex : fourHex s with
    | error e => simp [hhex, bind, Except.bind] at h
    | ok p =>
      obtain ⟨unit, rest⟩ := p
      have hlt := fourHex_length hhex
      simp only [hhex, bind, Except.bind] at h
      split at h
      · simp [throw, throwThe, MonadExceptOf.throw] at h
      · split at h
        · have := lowSurrogate_length h
          simp only [List.length_cons]
          omega
        · simp only [pure, Except.pure, Except.ok.injEq, Prod.mk.injEq] at h
          obtain ⟨-, rfl⟩ := h
          simp only [List.length_cons]
          omega
  · split at h
    · simp only [Except.ok.injEq, Prod.mk.injEq] at h
      obtain ⟨-, rfl⟩ := h
      simp
    · simp at h

theorem skipEscape_length {s r : List Char} (h : skipEscape s = .ok r) :
    r.length < s.length := by
  unfold skipEscape at h
  split at h
  · simp at h
  · rename_i s
    cases hhex : fourHex s with
    | error e => simp [hhex, Except.map] at h
    | ok p =>
      have hlt := fourHex_length (n := p.1) (r := p.2) hhex
      simp only [hhex, Except.map, Except.ok.injEq] at h
      subst h
      simp only [List.length_cons]
      omega
  · split at h
    · simp only [Except.ok.injEq] at h
      subst h
      simp
    · simp at h

/-- Reads a string up to its closing quote, the opening one being read already. -/
def stringBody : List Char → Except JsonError (List Char × List Char)
  | [] => .error .truncated
  | c :: s =>
    if c = '"' then
      .ok ([], s)
    else if c = '\\' then
      match _h : escape s with
      | .error e => .error e
      | .ok (c, rest) => (stringBody rest).map fun (cs, rest) => (c :: cs, rest)
    else if c.toNat < 0x20 then
      .error .malformed
    else
      (stringBody s).map fun (cs, rest) => (c :: cs, rest)
termination_by s => s.length
decreasing_by
  · have := escape_length _h
    simp only [List.length_cons]
    omega
  · simp

/-- Passes over a string up to its closing quote. -/
def skipString : List Char → Except JsonError (List Char)
  | [] => .error .truncated
  | c :: s =>
    if c = '"' then
      .ok s
    else if c = '\\' then
      match _h : skipEscape s with
      | .error e => .error e
      | .ok rest => skipString rest
    else if c.toNat < 0x20 then
      .error .malformed
    else
      skipString s
termination_by s => s.length
decreasing_by
  · have := skipEscape_length _h
    simp only [List.length_cons]
    omega
  · simp

/-! ## Numbers -/

/-- Whether a character is a decimal digit. -/
def isDigit (c : Char) : Bool :=
  '0' ≤ c && c ≤ '9'

/-- The number written by decimal digits. -/
def ofDigits (digits : List Char) : Nat :=
  digits.foldl (fun n c => n * 10 + (c.toNat - '0'.toNat)) 0

/-- The digits at the front of a text, and the rest. -/
def spanDigits (s : List Char) : List Char × List Char :=
  (s.takeWhile isDigit, s.dropWhile isDigit)

/-- A number as it is written. -/
structure Numeral where
  negative : Bool := false
  /-- The digits before the point. -/
  whole : List Char
  /-- The digits behind the point, if there is one. -/
  fraction : Option (List Char) := none
  /-- The sign and the digits of the exponent, if there is one. -/
  exponent : Option (Bool × List Char) := none
deriving DecidableEq, Repr

/-- The problem of a text that needs a digit and has none: `atEnd` if nothing is left. -/
def missingDigit (atEnd : JsonError) (s : List Char) : JsonError :=
  if s.isEmpty then atEnd else .malformed

/-- Reads at least one digit. -/
def someDigits (atEnd : JsonError) (s : List Char) : Except JsonError (List Char × List Char) :=
  let (digits, rest) := spanDigits s
  if digits = [] then .error (missingDigit atEnd rest) else .ok (digits, rest)

/-- Reads the digits before the point. A zero stands alone. -/
def wholePart (atEnd : JsonError) (s : List Char) : Except JsonError (List Char × List Char) := do
  let (digits, rest) ← someDigits atEnd s
  if digits.head? = some '0' ∧ 1 < digits.length then
    throw .malformed
  else
    pure (digits, rest)

/-- Reads a point and the digits behind it, if there is a point. -/
def fractionPart (atEnd : JsonError) (s : List Char) :
    Except JsonError (Option (List Char) × List Char) :=
  match s with
  | '.' :: s => (someDigits atEnd s).map fun (digits, rest) => (some digits, rest)
  | _ => .ok (none, s)

/-- Takes a sign off the front of a text. -/
def takeSign : List Char → Bool × List Char
  | '-' :: s => (true, s)
  | '+' :: s => (false, s)
  | s => (false, s)

/-- Takes a minus off the front of a text. -/
def takeMinus : List Char → Bool × List Char
  | '-' :: s => (true, s)
  | s => (false, s)

/-- Takes the mark of an exponent off the front of a text, if there is one. -/
def exponentMark? : List Char → Option (List Char)
  | 'e' :: s | 'E' :: s => some s
  | _ => none

/-- Reads an exponent, if there is one. -/
def exponentPart (atEnd : JsonError) (s : List Char) :
    Except JsonError (Option (Bool × List Char) × List Char) :=
  match exponentMark? s with
  | some s =>
    let (negative, s) := takeSign s
    (someDigits atEnd s).map fun (digits, rest) => (some (negative, digits), rest)
  | none => .ok (none, s)

/-- Reads a number. What it needs and does not find at the end of the text is `atEnd`. -/
def numeral (atEnd : JsonError) (s : List Char) : Except JsonError (Numeral × List Char) := do
  let (negative, s) := takeMinus s
  let (whole, s) ← wholePart atEnd s
  let (fraction, s) ← fractionPart atEnd s
  let (exponent, s) ← exponentPart atEnd s
  pure ({ negative, whole, fraction, exponent }, s)

/-! ## What is read is consumed -/

theorem skipBlank_length_le (s : List Char) : (skipBlank s).length ≤ s.length :=
  (List.dropWhile_suffix isBlank).length_le

theorem length_of_skipBlank_eq {s rest : List Char} {c : Char} (h : skipBlank s = c :: rest) :
    rest.length < s.length := by
  have hle := skipBlank_length_le s
  rw [h, List.length_cons] at hle
  omega

theorem literal_length_le {es s r : List Char} (h : literal es s = .ok r) :
    r.length ≤ s.length := by
  induction es generalizing s with
  | nil =>
    simp only [literal, Except.ok.injEq] at h
    simp [h]
  | cons e es ih =>
    cases s with
    | nil => simp [literal] at h
    | cons c s =>
      simp only [literal] at h
      split at h
      · have := ih h
        simp only [List.length_cons]
        omega
      · simp at h

theorem colon_length {s r : List Char} (h : colon s = .ok r) : r.length < s.length := by
  have hle := skipBlank_length_le s
  unfold colon at h
  split at h
  · simp at h
  · rename_i rest heq
    simp only [Except.ok.injEq] at h
    subst h
    simp only [heq, List.length_cons] at hle
    omega
  · simp at h

theorem map_eq_ok_iff {ε γ δ : Type} {x : Except ε γ} {f : γ → δ} {d : δ} :
    x.map f = .ok d ↔ ∃ c, x = .ok c ∧ f c = d := by
  cases x <;> simp [Except.map]

theorem bind_eq_ok_iff {ε γ δ : Type} {x : Except ε γ} {f : γ → Except ε δ} {d : δ} :
    x >>= f = .ok d ↔ ∃ c, x = .ok c ∧ f c = .ok d := by
  cases x <;> simp [bind, Except.bind]

theorem stringBody_length {s r cs : List Char} (h : stringBody s = .ok (cs, r)) :
    r.length < s.length := by
  fun_induction stringBody s generalizing cs with
  | case1 => simp at h
  | case2 => simp_all
  | case3 => simp at h
  | case4 s c rest hesc _ ih =>
    obtain ⟨⟨cs', r'⟩, hbody, hp⟩ := map_eq_ok_iff.mp h
    simp only [Prod.mk.injEq] at hp
    have hrest := ih (hp.2 ▸ hbody)
    have hlt := escape_length hesc
    simp only [List.length_cons]
    omega
  | case5 => simp at h
  | case6 c s _ _ _ ih =>
    obtain ⟨⟨cs', r'⟩, hbody, hp⟩ := map_eq_ok_iff.mp h
    simp only [Prod.mk.injEq] at hp
    have hrest := ih (hp.2 ▸ hbody)
    simp only [List.length_cons]
    omega

theorem skipString_length {s r : List Char} (h : skipString s = .ok r) :
    r.length < s.length := by
  fun_induction skipString s with
  | case1 => simp at h
  | case2 => simp_all
  | case3 => simp at h
  | case4 s rest hesc _ ih =>
    have hlt := skipEscape_length hesc
    have := ih h
    simp only [List.length_cons]
    omega
  | case5 => simp at h
  | case6 c s _ _ _ ih =>
    have := ih h
    simp only [List.length_cons]
    omega

theorem someDigits_length {atEnd : JsonError} {s digits r : List Char}
    (h : someDigits atEnd s = .ok (digits, r)) : r.length < s.length := by
  have happend : (spanDigits s).1 ++ (spanDigits s).2 = s := List.takeWhile_append_dropWhile
  have hlength := congrArg List.length happend
  simp only [List.length_append] at hlength
  unfold someDigits at h
  dsimp only at h
  split at h
  · simp at h
  · rename_i hne
    simp only [Except.ok.injEq, Prod.mk.injEq] at h
    obtain ⟨-, rfl⟩ := h
    have := List.length_pos_iff.mpr hne
    omega

theorem wholePart_length {atEnd : JsonError} {s digits r : List Char}
    (h : wholePart atEnd s = .ok (digits, r)) : r.length < s.length := by
  obtain ⟨⟨digits', r'⟩, hdigits, h⟩ := bind_eq_ok_iff.mp h
  dsimp only at h
  split at h
  · simp [throw, throwThe, MonadExceptOf.throw] at h
  · simp only [pure, Except.pure, Except.ok.injEq, Prod.mk.injEq] at h
    exact someDigits_length (h.2 ▸ hdigits)

theorem fractionPart_length_le {atEnd : JsonError} {s r : List Char} {f : Option (List Char)}
    (h : fractionPart atEnd s = .ok (f, r)) : r.length ≤ s.length := by
  unfold fractionPart at h
  split at h
  · obtain ⟨⟨digits, r'⟩, hdigits, h⟩ := map_eq_ok_iff.mp h
    simp only [Prod.mk.injEq] at h
    have := someDigits_length (h.2 ▸ hdigits)
    simp only [List.length_cons]
    omega
  · simp only [Except.ok.injEq, Prod.mk.injEq] at h
    simp [h.2]

theorem takeSign_length_le (s : List Char) : (takeSign s).2.length ≤ s.length := by
  unfold takeSign
  split <;> simp

theorem takeMinus_length_le (s : List Char) : (takeMinus s).2.length ≤ s.length := by
  unfold takeMinus
  split <;> simp

theorem exponentMark?_length {s r : List Char} (h : exponentMark? s = some r) :
    r.length < s.length := by
  unfold exponentMark? at h
  split at h <;> simp_all

theorem exponentPart_length_le {atEnd : JsonError} {s r : List Char}
    {e : Option (Bool × List Char)} (h : exponentPart atEnd s = .ok (e, r)) :
    r.length ≤ s.length := by
  unfold exponentPart at h
  split at h
  · rename_i s' hmark
    have hlt := exponentMark?_length hmark
    have hsign := takeSign_length_le s'
    obtain ⟨⟨digits, r'⟩, hdigits, h⟩ := map_eq_ok_iff.mp h
    simp only [Prod.mk.injEq] at h
    have hlt' : r.length < (takeSign s').2.length := someDigits_length (h.2 ▸ hdigits)
    omega
  · simp only [Except.ok.injEq, Prod.mk.injEq] at h
    simp [h.2]

theorem numeral_length {atEnd : JsonError} {s r : List Char} {n : Numeral}
    (h : numeral atEnd s = .ok (n, r)) : r.length < s.length := by
  have hminus := takeMinus_length_le s
  obtain ⟨⟨whole, s₁⟩, hwhole, h⟩ := bind_eq_ok_iff.mp h
  obtain ⟨⟨fraction, s₂⟩, hfraction, h⟩ := bind_eq_ok_iff.mp h
  obtain ⟨⟨exponent, s₃⟩, hexponent, h⟩ := bind_eq_ok_iff.mp h
  simp only [pure, Except.pure, Except.ok.injEq, Prod.mk.injEq] at h
  obtain ⟨-, rfl⟩ := h
  have h₁ : s₁.length < (takeMinus s).2.length := wholePart_length hwhole
  have h₂ := fractionPart_length_le hfraction
  have h₃ := exponentPart_length_le hexponent
  omega

/-! ## What a number stands for -/

namespace Numeral

/-- All digits of a number, read without the point. -/
def significand (n : Numeral) : Nat :=
  ofDigits (n.whole ++ n.fraction.getD [])

/-- The 64-bit word a number stands for, if it is written without sign, point and exponent. -/
def word? (n : Numeral) : Option UInt64 :=
  if n.negative = false ∧ n.fraction = none ∧ n.exponent = none ∧ n.significand < UInt64.size then
    some (UInt64.ofNat n.significand)
  else
    none

end Numeral

end Json

end TieredDispatch
