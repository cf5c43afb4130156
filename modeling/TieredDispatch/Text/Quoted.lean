import TieredDispatch.Text.Described
import TieredDispatch.Text.Unprintable

/-!
# Quoted text

A text in double quotes, as diagnostics show it. The quote, the backslash and the usual control
characters have short escapes, other characters without a visible form are written by their code
point in lower-case hexadecimal, and everything else stands for itself.
-/

namespace TieredDispatch

/-- One character of a quoted text. -/
def quotedChar (c : Char) : List Char :=
  match c with
  | '"' => ['\\', '"']
  | '\\' => ['\\', '\\']
  | '\n' => ['\\', 'n']
  | '\r' => ['\\', 'r']
  | '\t' => ['\\', 't']
  | '\x00' => ['\\', '0']
  | c =>
    if isUnprintable c then
      ['\\', 'u', '\x7b'] ++ Nat.toDigits 16 c.toNat ++ ['\x7d']
    else
      [c]

/-- A text in double quotes. -/
def quoted (text : String) : String :=
  String.ofList ('"' :: text.toList.flatMap quotedChar ++ ['"'])

instance : Described String := ⟨quoted⟩

end TieredDispatch
