/-!
# Places in a text, counted in bytes

A text is cut at places that are counted in bytes. A cut inside a character is none.
-/

namespace TieredDispatch

/-- Number of bytes of a text. -/
def byteLength : List Char → Nat
  | [] => 0
  | c :: s => c.utf8Size + byteLength s

/-- Cuts a text in two behind the given number of bytes, if a character ends there. -/
def splitBytes : Nat → List Char → Option (List Char × List Char)
  | 0, s => some ([], s)
  | _ + 1, [] => none
  | n + 1, c :: s =>
    if c.utf8Size ≤ n + 1 then
      (splitBytes (n + 1 - c.utf8Size) s).map fun (front, back) => (c :: front, back)
    else
      none

/-- The part of a text from one place on. -/
def bytesFrom? (start : Nat) (s : List Char) : Option (List Char) :=
  (splitBytes start s).map (·.2)

/-- The part of a text from one place up to another. -/
def bytesBetween? (start stop : Nat) (s : List Char) : Option (List Char) :=
  (bytesFrom? start s).bind fun s => (splitBytes (stop - start) s).map (·.1)

end TieredDispatch
