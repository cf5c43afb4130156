import TieredDispatch.Json.Scan

/-!
# The range of numbers

A number that is no 64-bit word is only looked at for its size: it is out of range if it exceeds the
64-bit binary floating-point numbers. Its size is worked out in two factors, the **leading digits**
as far as they fit into a 64-bit word, and a power of ten. Each factor is rounded to a floating
point number, and the number is out of range when their product is nearer to `2^1024` than to the
largest one of these, or as near. The digits behind the leading ones only count for the power of
ten.
-/

namespace TieredDispatch

namespace Json

/-- A number rounded to 53 binary digits, as many as a 64-bit floating-point number has. A number
halfway between two goes to the one whose last digit is even. -/
def roundTo53Bits (n : Nat) : Nat :=
  let dropped := Nat.log2 n - 52
  let unit := 1 <<< dropped
  let quotient := n / unit
  let remainder := n % unit
  if unit < 2 * remainder ∨ (unit = 2 * remainder ∧ quotient % 2 = 1) then
    (quotient + 1) * unit
  else
    quotient * unit

/-- Appends digits to a number as long as it stays a 64-bit word, and gives back the digits that are
left. -/
def appendDigits (n : Nat) : List Char → Nat × List Char
  | [] => (n, [])
  | c :: digits =>
    let appended := n * 10 + (c.toNat - '0'.toNat)
    if appended < UInt64.size then appendDigits appended digits else (n, c :: digits)

/-- The power of ten from which on every number but zero is out of range. -/
def maxPower : Nat := 308

namespace Numeral

/-- The exponent as it is written, zero if there is none. -/
def writtenExponent (n : Numeral) : Int :=
  match n.exponent with
  | none => 0
  | some (true, digits) => -(ofDigits digits : Int)
  | some (false, digits) => ofDigits digits

/-- The leading digits of a number, and the power of ten they are multiplied by. Digits before the
point are left out from the first one on that does not fit; each of them raises the power. Digits
behind the point are appended from the front, also then, and each of them lowers it. -/
def leading (n : Numeral) : Nat × Int :=
  let (front, leftOut) := appendDigits 0 n.whole
  let fraction := n.fraction.getD []
  let (digits, ignored) := appendDigits front fraction
  (digits, leftOut.length - (fraction.length - ignored.length) + n.writtenExponent)

/-- Whether a number lies outside the range of the 64-bit binary floating-point numbers. -/
def exceedsBinary64 (n : Numeral) : Bool :=
  let (digits, power) := n.leading
  if digits = 0 ∨ power < 0 then
    false
  else if (maxPower : Int) < power then
    true
  else
    let size := roundTo53Bits digits * roundTo53Bits (Nat.pow 10 power.toNat)
    (1 <<< 1024) - (1 <<< 970) ≤ size

end Numeral

end Json

end TieredDispatch
