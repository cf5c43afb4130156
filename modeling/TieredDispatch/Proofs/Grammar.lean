import TieredDispatch.Json.Decode

/-!
# The grammar of JSON

A `JsonText` is the syntax tree of a JSON value as it is written, with the blanks between its
tokens, the spelling of its strings and the form of its numbers; `JsonText.text` is the text. There
is a tree for every text that the grammar of JSON admits, however deeply it is nested.

Some trees stand for more than a value of JSON: a string for a text (`stringOf?`), a number for a
64-bit word (`JsonText.word?`), and a string or an object with a single key for a name
(`JsonText.name?`).
-/

namespace TieredDispatch

namespace Json

/-! ## Blanks and digits -/

/-- Blanks between two tokens, or none. -/
abbrev Blanks := {s : List Char // ∀ c ∈ s, isBlank c}

/-- One decimal digit or more. -/
structure Digits where
  chars : List Char
  nonempty : chars ≠ []
  digits : ∀ c ∈ chars, isDigit c

/-- The digits before the point. A zero stands alone. -/
structure Whole extends Digits where
  zero_alone : chars.head? = some '0' → chars.length = 1

/-- A hexadecimal digit. -/
abbrev HexDigit := {c : Char // (hexDigit? c).isSome}

/-! ## Numbers -/

/-- The exponent of a number. -/
structure Exponent where
  /-- Whether the mark is a capital letter. -/
  capital : Bool
  /-- The sign, if there is one, and whether it is a minus. -/
  minus : Option Bool
  digits : Digits

/-- A number. -/
structure Number where
  negative : Bool
  whole : Whole
  fraction : Option Digits
  exponent : Option Exponent

/-- The exponent's text. -/
def Exponent.text (e : Exponent) : List Char :=
  (if e.capital then 'E' else 'e') ::
    e.minus.elim [] (fun minus => [if minus then '-' else '+']) ++ e.digits.chars

/-- The number's text. -/
def Number.text (n : Number) : List Char :=
  (if n.negative then ['-'] else []) ++ n.whole.chars ++ n.fraction.elim [] ('.' :: ·.chars) ++
    n.exponent.elim [] (·.text)

/-- What is read off a number's text. -/
def Number.numeral (n : Number) : Numeral where
  negative := n.negative
  whole := n.whole.chars
  fraction := n.fraction.map (·.chars)
  exponent := n.exponent.map fun e => (e.minus.getD false, e.digits.chars)

/-- The 64-bit word that a number stands for, if it has no sign, no point and no exponent. -/
def Number.word? (n : Number) : Option UInt64 :=
  if n.negative = false ∧ n.fraction.isNone ∧ n.exponent.isNone ∧
      ofDigits n.whole.chars < UInt64.size then
    some (UInt64.ofNat (ofDigits n.whole.chars))
  else
    none

/-! ## Strings -/

/-- Four hexadecimal digits. -/
structure CodeUnit where
  first : HexDigit
  second : HexDigit
  third : HexDigit
  fourth : HexDigit

/-- The text of the digits. -/
def CodeUnit.chars (u : CodeUnit) : List Char :=
  [u.first.val, u.second.val, u.third.val, u.fourth.val]

/-- A part of a string: a character that stands for itself, an escape of one sign, or the escape of
a code unit. -/
inductive StringPiece
  | plain (c : Char) (h : c ≠ '"' ∧ c ≠ '\\' ∧ ¬ c.toNat < 0x20)
  | short (c : Char) (h : (shortEscape? c).isSome)
  | unit (u : CodeUnit)

/-- The text of a part. -/
def StringPiece.text : StringPiece → List Char
  | plain c _ => [c]
  | short c _ => ['\\', c]
  | unit u => '\\' :: 'u' :: u.chars

/-- The text of a string. -/
def stringText (pieces : List StringPiece) : List Char :=
  '"' :: pieces.flatMap (·.text) ++ ['"']

/-- The value of a hexadecimal digit. -/
def HexDigit.value (digit : HexDigit) : Nat :=
  (hexDigit? digit.val).get digit.property

namespace CodeUnit

/-- The number that the digits stand for. -/
def value (u : CodeUnit) : Nat :=
  ((u.first.value * 16 + u.second.value) * 16 + u.third.value) * 16 + u.fourth.value

/-- The unit is the first half of a surrogate pair. -/
abbrev IsHigh (u : CodeUnit) : Prop :=
  0xD800 ≤ u.value ∧ u.value ≤ 0xDBFF

/-- The unit is the second half of a surrogate pair. -/
abbrev IsLow (u : CodeUnit) : Prop :=
  0xDC00 ≤ u.value ∧ u.value ≤ 0xDFFF

/-- The character of a surrogate pair. -/
def charOfPair (high low : CodeUnit) : Char :=
  Char.ofNat ((high.value - 0xD800) * 0x400 + (low.value - 0xDC00) + 0x10000)

end CodeUnit

/-- What a string stands for. A character outside the basic plane takes two escapes, the halves of a
surrogate pair; half a pair stands for nothing. -/
def unescape : List StringPiece → Option (List Char)
  | [] => some []
  | .plain c _ :: pieces => (unescape pieces).map (c :: ·)
  | .short c h :: pieces => (unescape pieces).map ((shortEscape? c).get h :: ·)
  | .unit u :: pieces =>
    if u.IsLow then
      none
    else if u.IsHigh then
      match pieces with
      | .unit low :: pieces =>
        if low.IsLow then (unescape pieces).map (u.charOfPair low :: ·) else none
      | _ => none
    else
      (unescape pieces).map (Char.ofNat u.value :: ·)

/-- The text that a string stands for. -/
def stringOf? (pieces : List StringPiece) : Option String :=
  (unescape pieces).map String.ofList

/-! ## Values -/

/-- A value and the blanks around it. -/
structure Item (V : Type) where
  before : Blanks
  value : V
  after : Blanks

/-- A member of an object, with the blanks around its key and its value. -/
structure Member (V : Type) where
  before : Blanks
  key : List StringPiece
  after : Blanks
  item : Item V

/-- What the key of a member stands for. -/
def Member.name? {V : Type} (member : Member V) : Option String :=
  stringOf? member.key

end Json

open Json

/-- A JSON value as it is written. -/
inductive JsonText
  | null
  | bool (b : Bool)
  | number (n : Number)
  | string (pieces : List StringPiece)
  | array (space : Blanks) (items : List (Item JsonText))
  | object (space : Blanks) (members : List (Member JsonText))

namespace JsonText

mutual

/-- The text. -/
def text : JsonText → List Char
  | null => "null".toList
  | bool b => (if b then "true" else "false").toList
  | number n => n.text
  | string pieces => stringText pieces
  | array space items => '[' :: space ++ itemsText true items ++ [']']
  | object space members => '\x7b' :: space ++ membersText true members ++ ['\x7d']
termination_by structural t => t

/-- The text of the elements of an array. All but the first one follow a comma. -/
def itemsText (first : Bool) : List (Item JsonText) → List Char
  | [] => []
  | ⟨before, value, after⟩ :: items =>
    (if first then [] else [',']) ++ before ++ value.text ++ after ++ itemsText false items
termination_by structural items => items

/-- The text of the members of an object. All but the first one follow a comma. -/
def membersText (first : Bool) : List (Member JsonText) → List Char
  | [] => []
  | ⟨before, key, between, ⟨before', value, after⟩⟩ :: members =>
    (if first then [] else [',']) ++ before ++ stringText key ++ between ++ ':' :: before' ++
      value.text ++ after ++ membersText false members
termination_by structural members => members

end

/-- The 64-bit word that a value stands for. -/
def word? : JsonText → Option UInt64
  | number n => n.word?
  | _ => none

/-- The name that a value stands for: a string, or the only key of an object with `null` under
it. -/
def name? : JsonText → Option String
  | string pieces => stringOf? pieces
  | object _ [⟨_, key, _, ⟨_, null, _⟩⟩] => stringOf? key
  | _ => none

/-- The choice that a value stands for by its name. -/
def choice? {γ : Type} (choices : List γ) (label : γ → String) (t : JsonText) : Option γ :=
  t.name?.bind fun name => choices.find? fun v => label v = name

end JsonText

end TieredDispatch
