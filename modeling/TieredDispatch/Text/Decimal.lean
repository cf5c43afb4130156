/-!
# Decimal text

Reading a 64-bit word from its decimal text, recognizing the text of a number, and setting a number
flush right.
-/

namespace TieredDispatch

/-- The number that a list of decimal digits stands for, if it consists of digits only. -/
def ofDecimalDigits? (digits : List Char) : Option Nat :=
  digits.foldl (fun n c =>
    if c.isDigit then n.map fun n => n * 10 + (c.toNat - '0'.toNat) else none) (some 0)

/-- The 64-bit word a text stands for: decimal digits, perhaps behind a plus sign. -/
def parseWord? (text : String) : Option UInt64 :=
  let digits := match text.toList with
    | '+' :: rest => rest
    | all => all
  match digits, ofDecimalDigits? digits with
  | _ :: _, some n => if n < UInt64.size then some (UInt64.ofNat n) else none
  | _, _ => none

/-- A text without the sign it begins with, if it does. -/
def dropSign : List Char → List Char
  | '+' :: s | '-' :: s => s
  | s => s

/-- Whether a text is nothing, or an exponent: its mark, perhaps a sign, and digits. -/
def isExponentOrEmpty : List Char → Bool
  | [] => true
  | c :: s =>
    let digits := dropSign s
    (c == 'e' || c == 'E') && !digits.isEmpty && digits.all (·.isDigit)

/-- Whether a text is a decimal fraction without a sign. There are digits before the point or behind
it, and there may be an exponent. -/
def isDecimalFraction (s : List Char) : Bool :=
  match s.dropWhile (·.isDigit) with
  | '.' :: rest =>
    (s.takeWhile (·.isDigit) != [] || rest.takeWhile (·.isDigit) != [])
      && isExponentOrEmpty (rest.dropWhile (·.isDigit))
  | rest => s.takeWhile (·.isDigit) != [] && isExponentOrEmpty rest

/-- Whether a text is a number, perhaps with a sign: a decimal fraction, or a word for what is no
finite number, in any case. -/
def isNumber (s : List Char) : Bool :=
  let unsigned := dropSign s
  isDecimalFraction unsigned
    || ["inf", "infinity", "nan"].contains (String.ofList (unsigned.map (·.toLower)))

/-- A text set flush right in a column of the given width. -/
def padLeft (width : Nat) (text : String) : String :=
  String.ofList (List.replicate (width - text.length) ' ') ++ text

end TieredDispatch
