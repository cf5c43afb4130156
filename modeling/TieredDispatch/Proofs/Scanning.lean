import TieredDispatch.Proofs.Grammar

/-!
# Scanning what is written

The scanners read back what the parts of a syntax tree are written as: digits and numbers
(`numeral_text`), strings (`stringBody_text` if the string stands for a text, `stringBody_malformed`
if it stands for none, `skipString_text` in both cases), and whole values, which are passed over to
their last character and no further (`skipValue_text`).

A number ends where none of its characters follows (`Ends`). A value that is nested in another one
ends there by the grammar: at a blank, a comma, or the end of its container (`IsTail`).
-/

namespace TieredDispatch

namespace Json

variable {s rest : List Char} {atEnd : JsonError}

/-- Reading on after a success. -/
theorem ok_bind {γ δ : Type} (v : γ) (f : γ → Except JsonError δ) : (Except.ok v >>= f) = f v :=
  rfl

/-! ## Blanks -/

theorem skipBlank_append (blanks : Blanks) (s : List Char) :
    skipBlank (blanks ++ s) = skipBlank s := by
  rw [skipBlank, List.dropWhile_append_of_pos blanks.property, skipBlank]

theorem skipBlank_cons {c : Char} (h : isBlank c = false) (s : List Char) :
    skipBlank (c :: s) = c :: s := by
  simp [skipBlank, h]

/-- Nothing follows that could go on with a number. -/
def Ends (s : List Char) : Prop :=
  ∀ c ∈ s.head?, isDigit c = false ∧ c ≠ '.' ∧ c ≠ 'e' ∧ c ≠ 'E'

theorem ends_nil : Ends [] := by
  simp [Ends]

theorem ends_cons {c : Char} (h : c = ',' ∨ c = ']' ∨ c = '\x7d' ∨ isBlank c) (s : List Char) :
    Ends (c :: s) := by
  intro d hd
  obtain rfl : c = d := by simpa using hd
  rcases h with rfl | rfl | rfl | h
  · decide
  · decide
  · decide
  · simp only [isBlank, Bool.or_eq_true, beq_iff_eq] at h
    rcases h with ((rfl | rfl) | rfl) | rfl <;> decide

theorem ends_append (blanks : Blanks) (h : Ends s) : Ends (blanks ++ s) := by
  obtain ⟨chars, hblank⟩ := blanks
  cases chars with
  | nil => exact h
  | cons c chars => exact ends_cons (.inr (.inr (.inr (hblank c List.mem_cons_self)))) _

/-! ## Numbers -/

theorem someDigits_append (digits : Digits) (h : ∀ c ∈ rest.head?, isDigit c = false) :
    someDigits atEnd (digits.chars ++ rest) = .ok (digits.chars, rest) := by
  have hstop : rest.takeWhile isDigit = [] ∧ rest.dropWhile isDigit = rest := by
    cases rest with
    | nil => exact ⟨rfl, rfl⟩
    | cons c rest => simp [h c rfl]
  have hspan : spanDigits (digits.chars ++ rest) = (digits.chars, rest) := by
    rw [spanDigits, List.takeWhile_append_of_pos digits.digits,
      List.dropWhile_append_of_pos digits.digits, hstop.1, hstop.2, List.append_nil]
  rw [someDigits, hspan]
  exact if_neg digits.nonempty

theorem wholePart_append (whole : Whole) (h : ∀ c ∈ rest.head?, isDigit c = false) :
    wholePart atEnd (whole.chars ++ rest) = .ok (whole.chars, rest) := by
  rw [wholePart, someDigits_append whole.toDigits h]
  refine if_neg ?_
  rintro ⟨hzero, hmany⟩
  rw [whole.zero_alone hzero] at hmany
  exact Nat.lt_irrefl 1 hmany

theorem Digits.exists_cons (digits : Digits) :
    ∃ c chars, digits.chars = c :: chars ∧ isDigit c := by
  obtain ⟨c, chars, hchars⟩ := List.exists_cons_of_ne_nil digits.nonempty
  exact ⟨c, chars, hchars, digits.digits c (by simp [hchars])⟩

theorem takeSign_of_isDigit {c : Char} (h : isDigit c) (s : List Char) :
    takeSign (c :: s) = (false, c :: s) := by
  unfold takeSign
  split
  · simp_all [isDigit]
  · simp_all [isDigit]
  · rfl

theorem takeMinus_of_isDigit {c : Char} (h : isDigit c) (s : List Char) :
    takeMinus (c :: s) = (false, c :: s) := by
  unfold takeMinus
  split
  · simp_all [isDigit]
  · rfl

theorem exponentMark?_of_ends (h : Ends rest) : exponentMark? rest = none := by
  cases rest with
  | nil => rfl
  | cons c rest =>
    obtain ⟨-, -, hsmall, hcapital⟩ := h c rfl
    unfold exponentMark?
    split <;> simp_all

theorem exponentPart_append (exponent : Option Exponent) (h : Ends rest) :
    exponentPart atEnd (exponent.elim [] (·.text) ++ rest) =
      .ok (exponent.map fun e => (e.minus.getD false, e.digits.chars), rest) := by
  cases exponent with
  | none =>
    show exponentPart atEnd rest = _
    rw [exponentPart, exponentMark?_of_ends h]
    rfl
  | some e =>
    obtain ⟨capital, minus, digits⟩ := e
    have hdigits : someDigits atEnd (digits.chars ++ rest) = .ok (digits.chars, rest) :=
      someDigits_append digits fun c hc => (h c hc).1
    have hmark : ∀ s, exponentMark? ((if capital then 'E' else 'e') :: s) = some s := by
      cases capital <;> exact fun s => rfl
    have hsign : takeSign (minus.elim [] (fun minus => [if minus then '-' else '+']) ++
        (digits.chars ++ rest)) = (minus.getD false, digits.chars ++ rest) := by
      rcases minus with _ | _ | _
      · obtain ⟨c, chars, hchars, hc⟩ := digits.exists_cons
        show takeSign (digits.chars ++ rest) = (false, digits.chars ++ rest)
        rw [hchars]
        exact takeSign_of_isDigit hc _
      · rfl
      · rfl
    simp only [Option.elim_some, Exponent.text, List.cons_append, List.append_assoc, exponentPart,
      hmark, hsign, hdigits]
    rfl


theorem fractionPart_append (fraction : Option Digits)
    (h : ∀ c ∈ rest.head?, isDigit c = false ∧ c ≠ '.') :
    fractionPart atEnd (fraction.elim [] ('.' :: ·.chars) ++ rest) =
      .ok (fraction.map (·.chars), rest) := by
  cases fraction with
  | none =>
    show fractionPart atEnd rest = _
    unfold fractionPart
    split
    · exact absurd rfl (h '.' rfl).2
    · rfl
  | some digits =>
    show (someDigits atEnd (digits.chars ++ rest)).map _ = _
    rw [someDigits_append digits fun c hc => (h c hc).1]
    rfl

/-- The exponent of a number is no digit and no point. -/
theorem Ends.exponent_append (h : Ends rest) (exponent : Option Exponent) :
    ∀ c ∈ (exponent.elim [] (·.text) ++ rest).head?, isDigit c = false ∧ c ≠ '.' := by
  intro c hc
  cases exponent with
  | none => exact ⟨(h c hc).1, (h c hc).2.1⟩
  | some e =>
    obtain ⟨capital, minus, digits⟩ := e
    obtain rfl : (if capital then 'E' else 'e') = c := by simpa [Exponent.text] using hc
    cases capital <;> decide

/-- A number is read as it is written. -/
theorem numeral_text (n : Number) (h : Ends rest) :
    numeral atEnd (n.text ++ rest) = .ok (n.numeral, rest) := by
  obtain ⟨negative, whole, fraction, exponent⟩ := n
  have hfraction := h.exponent_append exponent
  have hwhole : ∀ c ∈ (fraction.elim [] ('.' :: ·.chars) ++
      (exponent.elim [] (·.text) ++ rest)).head?, isDigit c = false := by
    intro c hc
    cases fraction with
    | none => exact (hfraction c hc).1
    | some digits =>
      obtain rfl : '.' = c := by simpa using hc
      rfl
  have hsign : takeMinus ((if negative then ['-'] else []) ++ (whole.chars ++
      (fraction.elim [] ('.' :: ·.chars) ++ (exponent.elim [] (·.text) ++ rest)))) =
      (negative, whole.chars ++
        (fraction.elim [] ('.' :: ·.chars) ++ (exponent.elim [] (·.text) ++ rest))) := by
    cases negative with
    | true => rfl
    | false =>
      obtain ⟨c, chars, hchars, hc⟩ := whole.exists_cons
      rw [hchars]
      exact takeMinus_of_isDigit hc _
  simp only [Number.text, List.append_assoc, numeral, hsign, ok_bind,
    wholePart_append whole hwhole, fractionPart_append fraction hfraction,
    exponentPart_append exponent h]
  rfl

theorem Number.exists_cons (n : Number) :
    ∃ c s, n.text = c :: s ∧ (c = '-' ∨ isDigit c) := by
  obtain ⟨negative, whole, fraction, exponent⟩ := n
  cases negative with
  | true => exact ⟨'-', _, rfl, .inl rfl⟩
  | false =>
    obtain ⟨c, chars, hchars, hc⟩ := whole.exists_cons
    refine ⟨c, chars ++ (fraction.elim [] ('.' :: ·.chars) ++ exponent.elim [] (·.text)), ?_,
      .inr hc⟩
    simp [Number.text, hchars]

/-! ## Strings -/

theorem HexDigit.hexDigit?_eq (digit : HexDigit) : hexDigit? digit.val = some digit.value :=
  (Option.some_get digit.property).symm

theorem fourHex_append (u : CodeUnit) (rest : List Char) :
    fourHex (u.chars ++ rest) = .ok (u.value, rest) := by
  simp [CodeUnit.chars, fourHex, HexDigit.hexDigit?_eq, CodeUnit.value]

theorem skipEscape_of_short {c : Char} (h : (shortEscape? c).isSome) (s : List Char) :
    skipEscape (c :: s) = .ok s := by
  unfold skipEscape
  split
  · simp_all
  · obtain ⟨rfl, -⟩ := List.cons.inj ‹_›
    cases h
  · obtain ⟨rfl, rfl⟩ := List.cons.inj ‹_›
    exact if_pos h

theorem skipString_backslash {s : List Char} (h : skipEscape s = .ok rest) :
    skipString ('\\' :: s) = skipString rest := by
  rw [skipString, if_neg (by decide), if_pos rfl]
  split <;> simp_all

/-- A string is passed over whatever its escapes are. -/
theorem skipString_text (pieces : List StringPiece) (rest : List Char) :
    skipString (pieces.flatMap (·.text) ++ '"' :: rest) = .ok rest := by
  induction pieces with
  | nil =>
    show skipString ('"' :: rest) = _
    rw [skipString, if_pos rfl]
  | cons piece pieces ih =>
    rw [List.flatMap_cons, List.append_assoc]
    cases piece with
    | plain c h =>
      show skipString (c :: (pieces.flatMap (·.text) ++ '"' :: rest)) = _
      rw [skipString, if_neg h.1, if_neg h.2.1, if_neg h.2.2, ih]
    | short c h =>
      show skipString ('\\' :: c :: (pieces.flatMap (·.text) ++ '"' :: rest)) = _
      rw [skipString_backslash (skipEscape_of_short h _), ih]
    | unit u =>
      show skipString ('\\' :: 'u' :: (u.chars ++ (pieces.flatMap (·.text) ++ '"' :: rest))) = _
      have hskip : skipEscape ('u' :: (u.chars ++ (pieces.flatMap (·.text) ++ '"' :: rest))) =
          .ok (pieces.flatMap (·.text) ++ '"' :: rest) := by
        rw [skipEscape, fourHex_append]
        rfl
      rw [skipString_backslash hskip, ih]

theorem escape_of_short {c : Char} (h : (shortEscape? c).isSome) (s : List Char) :
    escape (c :: s) = .ok ((shortEscape? c).get h, s) := by
  unfold escape
  split
  · simp_all
  · obtain ⟨rfl, -⟩ := List.cons.inj ‹_›
    cases h
  · obtain ⟨rfl, rfl⟩ := List.cons.inj ‹_›
    obtain ⟨d, hd⟩ := Option.isSome_iff_exists.mp h
    simp [hd]

theorem escape_unit {u : CodeUnit} (hlow : ¬ u.IsLow) (hhigh : ¬ u.IsHigh) (rest : List Char) :
    escape ('u' :: (u.chars ++ rest)) = .ok (Char.ofNat u.value, rest) := by
  rw [escape, fourHex_append, ok_bind]
  exact (if_neg hlow).trans (if_neg hhigh)

theorem escape_high {u : CodeUnit} (hlow : ¬ u.IsLow) (hhigh : u.IsHigh) (rest : List Char) :
    escape ('u' :: (u.chars ++ rest)) = lowSurrogate u.value rest := by
  rw [escape, fourHex_append, ok_bind]
  exact (if_neg hlow).trans (if_pos hhigh)

theorem escape_pair {u v : CodeUnit} (hlow : ¬ u.IsLow) (hhigh : u.IsHigh) (hpair : v.IsLow)
    (rest : List Char) :
    escape ('u' :: (u.chars ++ '\\' :: 'u' :: (v.chars ++ rest))) =
      .ok (u.charOfPair v, rest) := by
  rw [escape_high hlow hhigh, lowSurrogate, fourHex_append, ok_bind]
  exact if_pos hpair

theorem stringBody_backslash {s : List Char} {c : Char} (h : escape s = .ok (c, rest)) :
    stringBody ('\\' :: s) = (stringBody rest).map fun (cs, rest) => (c :: cs, rest) := by
  rw [stringBody, if_neg (by decide), if_pos rfl]
  split <;> simp_all

/-- A string that stands for a text is read as that text. -/
theorem stringBody_text {pieces : List StringPiece} {chars : List Char}
    (h : unescape pieces = some chars) (rest : List Char) :
    stringBody (pieces.flatMap (·.text) ++ '"' :: rest) = .ok (chars, rest) := by
  fun_induction unescape pieces generalizing chars with
  | case1 =>
    obtain rfl := Option.some.inj h
    show stringBody ('"' :: rest) = _
    rw [stringBody, if_pos rfl]
  | case2 c hc pieces ih =>
    obtain ⟨chars, hchars, rfl⟩ := Option.map_eq_some_iff.mp h
    show stringBody (c :: (pieces.flatMap (·.text) ++ '"' :: rest)) = _
    rw [stringBody, if_neg hc.1, if_neg hc.2.1, if_neg hc.2.2, ih hchars]
    rfl
  | case3 c hc pieces ih =>
    obtain ⟨chars, hchars, rfl⟩ := Option.map_eq_some_iff.mp h
    show stringBody ('\\' :: c :: (pieces.flatMap (·.text) ++ '"' :: rest)) = _
    rw [stringBody_backslash (escape_of_short hc _), ih hchars]
    rfl
  | case4 => cases h
  | case5 u hlow hhigh v pieces hpair ih =>
    obtain ⟨chars, hchars, rfl⟩ := Option.map_eq_some_iff.mp h
    show stringBody ('\\' :: 'u' :: (u.chars ++ '\\' :: 'u' ::
      (v.chars ++ (pieces.flatMap (·.text) ++ '"' :: rest)))) = _
    rw [stringBody_backslash (escape_pair hlow hhigh hpair _), ih hchars]
    rfl
  | case6 => cases h
  | case7 => cases h
  | case8 u pieces hlow hhigh ih =>
    obtain ⟨chars, hchars, rfl⟩ := Option.map_eq_some_iff.mp h
    show stringBody ('\\' :: 'u' :: (u.chars ++ (pieces.flatMap (·.text) ++ '"' :: rest))) = _
    rw [stringBody_backslash (escape_unit hlow hhigh _), ih hchars]
    rfl

theorem stringBody_badEscape {s : List Char} {e : JsonError} (h : escape s = .error e) :
    stringBody ('\\' :: s) = .error e := by
  rw [stringBody, if_neg (by decide), if_pos rfl]
  split <;> simp_all

/-- Only an escaped code unit can be the second half of a surrogate pair. -/
theorem lowSurrogate_malformed {pieces : List StringPiece}
    (h : ∀ low rest, pieces = .unit low :: rest → False) (high : Nat) (rest : List Char) :
    lowSurrogate high (pieces.flatMap (·.text) ++ '"' :: rest) = .error .malformed := by
  unfold lowSurrogate
  cases pieces with
  | nil => rfl
  | cons piece pieces =>
    cases piece with
    | plain c hc =>
      have hback := hc.2.1
      simp only [List.flatMap_cons, StringPiece.text, List.cons_append, List.nil_append]
      split <;> simp_all
    | short c hc =>
      have hu : c ≠ 'u' := by rintro rfl; cases hc
      simp only [List.flatMap_cons, StringPiece.text, List.cons_append, List.nil_append]
      split <;> simp_all
    | unit u => exact (h u pieces rfl).elim

/-- A string that stands for no text is refused. -/
theorem stringBody_malformed {pieces : List StringPiece} (h : unescape pieces = none)
    (rest : List Char) :
    stringBody (pieces.flatMap (·.text) ++ '"' :: rest) = .error .malformed := by
  fun_induction unescape pieces with
  | case1 => cases h
  | case2 c hc pieces ih =>
    show stringBody (c :: (pieces.flatMap (·.text) ++ '"' :: rest)) = _
    rw [stringBody, if_neg hc.1, if_neg hc.2.1, if_neg hc.2.2, ih (Option.map_eq_none_iff.mp h)]
    rfl
  | case3 c hc pieces ih =>
    show stringBody ('\\' :: c :: (pieces.flatMap (·.text) ++ '"' :: rest)) = _
    rw [stringBody_backslash (escape_of_short hc _), ih (Option.map_eq_none_iff.mp h)]
    rfl
  | case4 u pieces hlow =>
    -- the second half of a pair without the first
    have hescape : escape ('u' :: (u.chars ++ (pieces.flatMap (·.text) ++ '"' :: rest))) =
        .error .malformed := by
      rw [escape, fourHex_append, ok_bind]
      exact if_pos hlow
    exact stringBody_badEscape hescape
  | case5 u hlow hhigh v pieces hpair ih =>
    show stringBody ('\\' :: 'u' :: (u.chars ++ '\\' :: 'u' ::
      (v.chars ++ (pieces.flatMap (·.text) ++ '"' :: rest)))) = _
    rw [stringBody_backslash (escape_pair hlow hhigh hpair _), ih (Option.map_eq_none_iff.mp h)]
    rfl
  | case6 u hlow hhigh v pieces hpair =>
    -- the first half, and another unit than the second
    have hescape : escape ('u' :: (u.chars ++ '\\' :: 'u' ::
        (v.chars ++ (pieces.flatMap (·.text) ++ '"' :: rest)))) = .error .malformed := by
      rw [escape_high hlow hhigh, lowSurrogate, fourHex_append, ok_bind]
      exact if_neg hpair
    exact stringBody_badEscape hescape
  | case7 u pieces hlow hhigh hother =>
    -- the first half alone
    have hescape : escape ('u' :: (u.chars ++ (pieces.flatMap (·.text) ++ '"' :: rest))) =
        .error .malformed := by
      rw [escape_high hlow hhigh]
      exact lowSurrogate_malformed hother _ rest
    exact stringBody_badEscape hescape
  | case8 u pieces hlow hhigh ih =>
    show stringBody ('\\' :: 'u' :: (u.chars ++ (pieces.flatMap (·.text) ++ '"' :: rest))) = _
    rw [stringBody_backslash (escape_unit hlow hhigh _), ih (Option.map_eq_none_iff.mp h)]
    rfl

/-! ## Values -/

/-- The sign that opens a container. -/
def Container.opening : Container → Char
  | list => '['
  | object => '\x7b'

/-- The sign that closes a container. -/
def Container.closing : Container → Char
  | list => ']'
  | object => '\x7d'

/-- What the items of a container begin with. -/
def Container.item : Container → Expecting
  | list => .value
  | object => .key

section

variable {stack : List Container} {t : List Char} {c : Char}

theorem skipFrom_scalar (hs : skipBlank s = c :: t) (hlist : c ≠ '[') (hobject : c ≠ '\x7b')
    (h : skipScalar (c :: t) = .ok rest) :
    skipFrom .value stack s = skipFrom .next stack rest := by
  rw [skipFrom.eq_def]
  simp only
  split
  · exact absurd (List.cons.inj (hs.symm.trans ‹_›)).1 hlist
  · exact absurd (List.cons.inj (hs.symm.trans ‹_›)).1 hobject
  · rw [← hs] at h
    split <;> simp_all

theorem skipFrom_empty (container : Container) (hs : skipBlank s = container.opening :: t)
    (ht : skipBlank t = container.closing :: rest) :
    skipFrom .value stack s = skipFrom .next stack rest := by
  rw [skipFrom.eq_def]
  cases container <;> simp only [Container.opening, Container.closing] at hs ht ⊢
  all_goals
    split
    · split <;> simp_all
    · split <;> simp_all
    · simp_all

theorem skipFrom_open (container : Container) (hs : skipBlank s = container.opening :: t)
    (ht : ∀ rest, skipBlank t ≠ container.closing :: rest) :
    skipFrom .value stack s = skipFrom container.item (container :: stack) t := by
  rw [skipFrom.eq_def]
  cases container <;> simp only [Container.opening, Container.closing] at hs ht ⊢
  all_goals
    split
    · split <;> simp_all [Container.item]
    · split <;> simp_all [Container.item]
    · simp_all

theorem skipFrom_comma {container : Container} (hs : skipBlank s = ',' :: rest) :
    skipFrom .next (container :: stack) s = skipFrom container.item (container :: stack) rest := by
  rw [skipFrom.eq_def]
  cases container <;> simp only [Container.item]
  all_goals split <;> simp_all

theorem skipFrom_close {container : Container} (hs : skipBlank s = container.closing :: rest) :
    skipFrom .next (container :: stack) s = skipFrom .next stack rest := by
  rw [skipFrom.eq_def]
  cases container <;> simp only [Container.closing] at hs ⊢
  all_goals split <;> simp_all

theorem skipFrom_key (h : skipKey s = .ok rest) :
    skipFrom .key stack s = skipFrom .value stack rest := by
  rw [skipFrom.eq_def]
  simp only
  split <;> simp_all

theorem colon_append (blanks : Blanks) (rest : List Char) :
    colon (blanks ++ ':' :: rest) = .ok rest := by
  rw [colon, skipBlank_append, skipBlank_cons rfl]
  rfl

theorem skipKey_text {key : List StringPiece} {between : Blanks}
    (hs : skipBlank s = stringText key ++ (between ++ ':' :: rest)) : skipKey s = .ok rest := by
  have hquote : stringText key ++ (between ++ ':' :: rest) =
      '"' :: (key.flatMap (·.text) ++ '"' :: (between ++ ':' :: rest)) := by
    simp [stringText]
  rw [skipKey, hs, hquote]
  show skipString _ >>= colon = _
  rw [skipString_text, ok_bind, colon_append]

theorem skipScalar_number (n : Number) (h : Ends rest) :
    skipScalar (n.text ++ rest) = .ok rest := by
  obtain ⟨c, chars, htext, hfirst⟩ := n.exists_cons
  have hnumeral : numeral .malformed (n.text ++ rest) = .ok (n.numeral, rest) := numeral_text n h
  have hne : ∀ d, isDigit d = false → d ≠ '-' → c ≠ d := by
    rintro d hdigit hminus rfl
    simp [hdigit, hminus] at hfirst
  rw [htext, List.cons_append] at hnumeral ⊢
  rw [skipScalar, if_neg (hne '"' rfl (by decide)), if_neg (hne 'n' rfl (by decide)),
    if_neg (hne 't' rfl (by decide)), if_neg (hne 'f' rfl (by decide)), if_pos hfirst, hnumeral]
  rfl

end

end Json

namespace JsonText

open Json

/-- No value begins with a blank, or with a sign that ends an array or an object. -/
theorem exists_cons (t : JsonText) :
    ∃ c s, t.text = c :: s ∧ isBlank c = false ∧ c ≠ ']' ∧ c ≠ '\x7d' := by
  cases t with
  | null => exact ⟨'n', _, rfl, by decide⟩
  | bool b => cases b <;> exact ⟨_, _, rfl, by decide⟩
  | number n =>
    obtain ⟨c, s, hc, hfirst⟩ := n.exists_cons
    refine ⟨c, s, by rw [text, hc], ?_⟩
    rcases hfirst with rfl | hdigit
    · decide
    · refine ⟨?_, ?_, ?_⟩
      · rw [Bool.eq_false_iff]
        intro hblank
        simp only [isBlank, Bool.or_eq_true, beq_iff_eq] at hblank
        rcases hblank with ((rfl | rfl) | rfl) | rfl <;> exact absurd hdigit (by decide)
      · rintro rfl
        exact absurd hdigit (by decide)
      · rintro rfl
        exact absurd hdigit (by decide)
  | string pieces => exact ⟨'"', _, rfl, by decide⟩
  | array space items => exact ⟨'[', _, by rw [text]; rfl, by decide⟩
  | object space members => exact ⟨'\x7b', _, by rw [text]; rfl, by decide⟩

theorem skipBlank_text (t : JsonText) (rest : List Char) :
    skipBlank (t.text ++ rest) = t.text ++ rest := by
  obtain ⟨c, s, htext, hblank, -⟩ := t.exists_cons
  rw [htext, List.cons_append, skipBlank_cons hblank]

theorem not_closing_text (t : JsonText) (container : Container) (rest rest' : List Char) :
    t.text ++ rest ≠ container.closing :: rest' := by
  obtain ⟨c, s, htext, -, hlist, hobject⟩ := t.exists_cons
  rw [htext, List.cons_append]
  intro h
  cases container with
  | list => exact hlist (List.cons.inj h).1
  | object => exact hobject (List.cons.inj h).1

/-- What follows an item of a container: a comma and more items, or the end. -/
def IsTail (container : Container) (s : List Char) : Prop :=
  ∃ c rest, s = c :: rest ∧ (c = ',' ∨ c = container.closing)

theorem IsTail.skipBlank_eq {container : Container} {s : List Char} (h : IsTail container s) :
    skipBlank s = s := by
  obtain ⟨c, rest, rfl, hc⟩ := h
  refine skipBlank_cons ?_ rest
  rcases hc with rfl | rfl
  · rfl
  · cases container <;> rfl

theorem IsTail.ends {container : Container} {s : List Char} (h : IsTail container s) : Ends s := by
  obtain ⟨c, rest, rfl, rfl | rfl⟩ := h
  · exact ends_cons (.inl rfl) rest
  · cases container with
    | list => exact ends_cons (.inr (.inl rfl)) rest
    | object => exact ends_cons (.inr (.inr (.inl rfl))) rest

theorem isTail_items (items : List (Item JsonText)) (rest : List Char) :
    IsTail .list (itemsText false items ++ ']' :: rest) := by
  cases items with
  | nil => exact ⟨']', rest, rfl, .inr rfl⟩
  | cons item items => exact ⟨',', _, rfl, .inl rfl⟩

theorem isTail_members (members : List (Member JsonText)) (rest : List Char) :
    IsTail .object (membersText false members ++ '\x7d' :: rest) := by
  cases members with
  | nil => exact ⟨'\x7d', rest, rfl, .inr rfl⟩
  | cons member members => exact ⟨',', _, rfl, .inl rfl⟩

theorem text_string_append (pieces : List StringPiece) (rest : List Char) :
    (string pieces).text ++ rest = '"' :: (pieces.flatMap (·.text) ++ '"' :: rest) := by
  simp [text, stringText]

theorem text_array_append (space : Blanks) (items : List (Item JsonText)) (rest : List Char) :
    (array space items).text ++ rest = '[' :: (space ++ (itemsText true items ++ ']' :: rest)) := by
  simp [text]

theorem text_object_append (space : Blanks) (members : List (Member JsonText))
    (rest : List Char) : (object space members).text ++ rest =
      '\x7b' :: (space ++ (membersText true members ++ '\x7d' :: rest)) := by
  simp [text]

theorem itemsText_cons_append (before after : Blanks) (value : JsonText)
    (items : List (Item JsonText)) (rest : List Char) :
    itemsText true (⟨before, value, after⟩ :: items) ++ rest =
      before ++ (value.text ++ (after ++ (itemsText false items ++ rest))) := by
  simp [itemsText]

theorem itemsText_false_cons (item : Item JsonText) (items : List (Item JsonText)) :
    itemsText false (item :: items) = ',' :: itemsText true (item :: items) :=
  rfl

theorem membersText_cons_append (before between before' after : Blanks) (key : List StringPiece)
    (value : JsonText) (members : List (Member JsonText)) (rest : List Char) :
    membersText true (⟨before, key, between, ⟨before', value, after⟩⟩ :: members) ++ rest =
      before ++ (stringText key ++ (between ++ ':' :: (before' ++ (value.text ++ (after ++
        (membersText false members ++ rest)))))) := by
  simp [membersText]

theorem membersText_false_cons (member : Member JsonText) (members : List (Member JsonText)) :
    membersText false (member :: members) = ',' :: membersText true (member :: members) :=
  rfl

mutual

/-- A value is passed over. -/
theorem skipFrom_text (t : JsonText) {stack : List Container} {s rest : List Char}
    (hs : skipBlank s = t.text ++ rest) (hrest : Ends rest) :
    skipFrom .value stack s = skipFrom .next stack rest := by
  match t with
  | null => exact skipFrom_scalar hs (by decide) (by decide) rfl
  | bool b => cases b <;> exact skipFrom_scalar hs (by decide) (by decide) rfl
  | number n =>
    obtain ⟨c, chars, htext, hfirst⟩ := n.exists_cons
    have hscalar := skipScalar_number n hrest
    rw [text, htext, List.cons_append] at hs
    rw [htext, List.cons_append] at hscalar
    refine skipFrom_scalar hs ?_ ?_ hscalar
    · rintro rfl
      exact absurd hfirst (by decide)
    · rintro rfl
      exact absurd hfirst (by decide)
  | string pieces =>
    rw [text_string_append] at hs
    exact skipFrom_scalar hs (by decide) (by decide) (skipString_text pieces rest)
  | array space [] =>
    rw [text_array_append] at hs
    refine skipFrom_empty .list hs ?_
    rw [skipBlank_append]
    exact skipBlank_cons rfl rest
  | array space (⟨before, value, after⟩ :: items) =>
    rw [text_array_append] at hs
    rw [skipFrom_open .list hs]
    · exact skipFrom_items (⟨before, value, after⟩ :: items) (by simp) (skipBlank_append space _)
    · intro rest'
      rw [skipBlank_append, itemsText_cons_append, skipBlank_append, skipBlank_text]
      exact value.not_closing_text .list _ rest'
  | object space [] =>
    rw [text_object_append] at hs
    refine skipFrom_empty .object hs ?_
    rw [skipBlank_append]
    exact skipBlank_cons rfl rest
  | object space (⟨before, key, between, ⟨before', value, after⟩⟩ :: members) =>
    rw [text_object_append] at hs
    rw [skipFrom_open .object hs]
    · exact skipFrom_members (⟨before, key, between, ⟨before', value, after⟩⟩ :: members)
        (by simp) (skipBlank_append space _)
    · intro rest'
      rw [skipBlank_append, membersText_cons_append, skipBlank_append]
      show skipBlank ('"' :: _) ≠ _
      rw [skipBlank_cons rfl]
      exact fun h => absurd (List.cons.inj h).1 (by decide)
termination_by structural t

theorem skipFrom_items (items : List (Item JsonText)) (hitems : items ≠ [])
    {stack : List Container} {s rest : List Char}
    (hs : skipBlank s = skipBlank (itemsText true items ++ ']' :: rest)) :
    skipFrom .value (.list :: stack) s = skipFrom .next stack rest := by
  match items with
  | [] => exact absurd rfl hitems
  | ⟨before, value, after⟩ :: items =>
    have htail := isTail_items items rest
    rw [itemsText_cons_append, skipBlank_append, skipBlank_text] at hs
    rw [skipFrom_text value hs (ends_append after htail.ends)]
    have hafter : skipBlank (after ++ (itemsText false items ++ ']' :: rest)) =
        itemsText false items ++ ']' :: rest := by
      rw [skipBlank_append, htail.skipBlank_eq]
    match items with
    | [] => exact skipFrom_close hafter
    | item :: items =>
      rw [skipFrom_comma hafter]
      exact skipFrom_items (item :: items) (by simp) rfl
termination_by structural items

theorem skipFrom_members (members : List (Member JsonText)) (hmembers : members ≠ [])
    {stack : List Container} {s rest : List Char}
    (hs : skipBlank s = skipBlank (membersText true members ++ '\x7d' :: rest)) :
    skipFrom .key (.object :: stack) s = skipFrom .next stack rest := by
  match members with
  | [] => exact absurd rfl hmembers
  | ⟨before, key, between, ⟨before', value, after⟩⟩ :: members =>
    have htail := isTail_members members rest
    rw [membersText_cons_append, skipBlank_append] at hs
    rw [skipFrom_key (skipKey_text (hs.trans (skipBlank_cons rfl _)))]
    have hvalue : skipBlank (before' ++ (value.text ++ (after ++
        (membersText false members ++ '\x7d' :: rest)))) =
        value.text ++ (after ++ (membersText false members ++ '\x7d' :: rest)) := by
      rw [skipBlank_append, skipBlank_text]
    rw [skipFrom_text value hvalue (ends_append after htail.ends)]
    have hafter : skipBlank (after ++ (membersText false members ++ '\x7d' :: rest)) =
        membersText false members ++ '\x7d' :: rest := by
      rw [skipBlank_append, htail.skipBlank_eq]
    match members with
    | [] => exact skipFrom_close hafter
    | member :: members =>
      rw [skipFrom_comma hafter]
      exact skipFrom_members (member :: members) (by simp) rfl
termination_by structural members

end

/-- A value of any kind is passed over, and no more. -/
theorem skipValue_text (before : Blanks) (t : JsonText) {rest : List Char} (h : Ends rest) :
    skipValue (before ++ (t.text ++ rest)) = .ok rest := by
  have hs : skipBlank (before ++ (t.text ++ rest)) = t.text ++ rest := by
    rw [skipBlank_append, skipBlank_text]
  rw [skipValue, skipFrom_text t hs h, skipFrom.eq_def]

end JsonText

end TieredDispatch
