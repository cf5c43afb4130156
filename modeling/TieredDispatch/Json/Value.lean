/-!
# JSON values and their text

The values this library writes are numbers, texts and objects whose members keep their order. A
value is first a list of tokens; the compact text is the tokens one after the other, the spread-out
text puts every member on a line of its own.
-/

namespace TieredDispatch

/-- A JSON value with natural numbers only. -/
inductive JsonValue
  | number (n : Nat)
  | text (s : String)
  | object (members : List (String × JsonValue))

namespace JsonValue

/-- One character of a JSON string. -/
def stringChar (c : Char) : List Char :=
  match c with
  | '"' => ['\\', '"']
  | '\\' => ['\\', '\\']
  | '\n' => ['\\', 'n']
  | '\r' => ['\\', 'r']
  | '\t' => ['\\', 't']
  | '\x08' => ['\\', 'b']
  | '\x0c' => ['\\', 'f']
  | c =>
    if c.toNat < 0x20 then
      ['\\', 'u', '0', '0'] ++ (if c.toNat < 0x10 then ['0'] else []) ++ Nat.toDigits 16 c.toNat
    else
      [c]

/-- A JSON string in double quotes. -/
def stringToken (s : String) : List Char :=
  '"' :: s.toList.flatMap stringChar ++ ['"']

/-- A number in decimal. -/
def numberToken (n : Nat) : List Char :=
  Nat.toDigits 10 n

/-! ## Tokens and the compact text -/

mutual

/-- The tokens of a value. -/
def tokens : JsonValue → List (List Char)
  | number n => [numberToken n]
  | text s => [stringToken s]
  | object members => ['\x7b'] :: firstTokens members ++ [['\x7d']]
termination_by structural v => v

/-- The tokens of an object's members. -/
def firstTokens : List (String × JsonValue) → List (List Char)
  | [] => []
  | (key, value) :: rest => stringToken key :: [':'] :: value.tokens ++ restTokens rest
termination_by structural members => members

/-- The tokens of the members behind another one. -/
def restTokens : List (String × JsonValue) → List (List Char)
  | [] => []
  | (key, value) :: rest => [','] :: stringToken key :: [':'] :: value.tokens ++ restTokens rest
termination_by structural members => members

end

/-- The text without any space between tokens. -/
def compact (value : JsonValue) : String :=
  String.ofList value.tokens.flatten

/-! ## The spread-out text -/

/-- A line break and two spaces for each level. -/
def newLine (level : Nat) : List Char :=
  '\n' :: List.replicate (2 * level) ' '

mutual

/-- The text of a value at a level of nesting, each member on its own line. -/
def spreadAt (level : Nat) : JsonValue → List Char
  | number n => numberToken n
  | text s => stringToken s
  | object [] => ['\x7b', '\x7d']
  | object ((key, value) :: rest) =>
    '\x7b' :: newLine (level + 1) ++ stringToken key ++ [':', ' '] ++ value.spreadAt (level + 1)
      ++ restSpreadAt (level + 1) rest ++ newLine level ++ ['\x7d']
termination_by structural v => v

/-- The members behind another one. -/
def restSpreadAt (level : Nat) : List (String × JsonValue) → List Char
  | [] => []
  | (key, value) :: rest =>
    ',' :: newLine level ++ stringToken key ++ [':', ' '] ++ value.spreadAt level
      ++ restSpreadAt level rest
termination_by structural members => members

end

/-- The text with every member on a line of its own, indented by two spaces for each level. -/
def spread (value : JsonValue) : String :=
  String.ofList (value.spreadAt 0)

end JsonValue

end TieredDispatch
