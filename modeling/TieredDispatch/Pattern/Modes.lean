import TieredDispatch.Pattern.Read

/-!
# Patterns in their modes

What a part of a pattern means depends on the modes it stands in. A part can be used if no knowledge
of single scripts is needed for it, and if it matches nothing but whole characters:

* in Unicode mode there are no classes and conditions that depend on what is a digit, a blank or a
  part of a word, and case cannot be ignored;
* outside of it, a set holds ASCII characters only, and a byte is a character only if it is one of
  ASCII.

`isPattern` holds of the texts that are patterns, are not nested too deeply, give no name to two
groups, and can be used in all their parts.
-/

namespace TieredDispatch

namespace Pattern

/-- The modes that decide what can be used. -/
structure Modes where
  unicode : Bool := true
  ignoreCase : Bool := false
deriving DecidableEq, Repr

namespace Modes

/-- The modes after a change. -/
def apply (modes : Modes) (change : ModeChange) : Modes where
  unicode := change.apply .unicode modes.unicode
  ignoreCase := change.apply .ignoreCase modes.ignoreCase

/-- Whether a character can be matched. -/
def allowsLiteral (modes : Modes) (char : Literal) : Bool :=
  if modes.unicode then !modes.ignoreCase else !char.asByte || char.char.toNat < 0x80

/-- Whether a character can be in a set. -/
def allowsInSet (modes : Modes) (char : Literal) : Bool :=
  if modes.unicode then !modes.ignoreCase else char.char.toNat < 0x80

/-- Whether a set can be used, all characters that are not in it being taken if it is negated. -/
def allowsNegated (modes : Modes) (negated : Bool) : Bool :=
  modes.unicode || !negated

/-- Whether the class of a letter can be used. -/
def allowsShorthand (modes : Modes) (negated : Bool) : Bool :=
  !modes.unicode && !negated

/-- Whether a condition can be used. -/
def allowsLook (modes : Modes) (look : Look) : Bool :=
  !modes.unicode || !look.ofWords

mutual

/-- Whether all parts of a set can be used. -/
def allowsSet (modes : Modes) : CharSet → Bool
  | .literal char => modes.allowsInSet char
  | .range first last => modes.allowsInSet first && modes.allowsInSet last
  | .named negated _ => !(modes.unicode && modes.ignoreCase) && modes.allowsNegated negated
  | .shorthand negated _ => modes.allowsShorthand negated
  | .bracketed negated set => modes.allowsNegated negated && modes.allowsSet set
  | .union sets => modes.allowsSets sets
  | .operation _ left right => modes.allowsSet left && modes.allowsSet right

/-- Whether all parts of some sets can be used. -/
def allowsSets (modes : Modes) : List CharSet → Bool
  | [] => true
  | set :: sets => modes.allowsSet set && modes.allowsSets sets

end

mutual

/-- The modes behind a pattern, if all its parts can be used. A change of modes lasts to the end of
its group, from one branch to the next. -/
def behind? (modes : Modes) : Expr → Option Modes
  | .literal char => if modes.allowsLiteral char then some modes else none
  | .anyChar => if modes.unicode then some modes else none
  | .look look => if modes.allowsLook look then some modes else none
  | .shorthand negated _ => if modes.allowsShorthand negated then some modes else none
  | .oneOf negated set =>
    if modes.allowsNegated negated && modes.allowsSet set then some modes else none
  | .modes change => some (modes.apply change)
  | .group kind body => ((modes.apply kind.change).behind? body).map fun _ => modes
  | .repetition body => modes.behind? body
  | .sequence parts => modes.behindAll? parts
  | .alternatives branches => modes.behindAll? branches

/-- The modes behind some patterns, one after another. -/
def behindAll? (modes : Modes) : List Expr → Option Modes
  | [] => some modes
  | part :: parts => (modes.behind? part).bind fun modes => modes.behindAll? parts

end

end Modes

/-- The greatest depth of a pattern. -/
def maxDepth : Nat := 250

/-- Whether a pattern can be used. -/
def Expr.isUsable (expr : Expr) : Bool :=
  expr.depth ≤ maxDepth && expr.groupNames.Nodup && (Modes.behind? {} expr).isSome

end Pattern

/-- Whether a text is a pattern that can be used. -/
def isPattern (text : List Char) : Bool :=
  (Pattern.Expr.read? text).any (·.isUsable)

end TieredDispatch
