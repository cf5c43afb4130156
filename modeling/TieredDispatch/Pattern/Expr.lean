/-!
# Patterns as trees

The parts of a pattern: literals, classes of characters, conditions on a place of the text, and what
groups, repetitions and alternatives make of them. The **depth** of a pattern is the number of parts
that lie inside one another.
-/

namespace TieredDispatch

namespace Pattern

/-! ## Single characters -/

/-- A character that stands for itself. -/
structure Literal where
  char : Char
  /-- Whether it is written as a byte, by two hexadecimal digits. -/
  asByte : Bool := false
deriving DecidableEq, Repr

/-- A class of characters that a letter behind a backslash stands for. -/
inductive Shorthand
  | digit
  | space
  | word
deriving DecidableEq, Repr

/-- A condition on a place of the text. -/
inductive Look
  | lineStart
  | lineEnd
  | textStart
  | textEnd
  | wordBoundary
  | noWordBoundary
  | wordStart
  | wordEnd
deriving DecidableEq, Repr

/-- Whether a condition depends on what the characters of a word are. -/
def Look.ofWords : Look → Bool
  | .lineStart | .lineEnd | .textStart | .textEnd => false
  | .wordBoundary | .noWordBoundary | .wordStart | .wordEnd => true

/-! ## Classes of characters -/

/-- What is made of the two sets at the sides of an operator. -/
inductive SetOperator
  | intersection
  | difference
  | symmetricDifference
deriving DecidableEq, Repr

/-- A set of characters, as it is written between brackets. -/
inductive CharSet
  | literal (char : Literal)
  | range (first last : Literal)
  /-- A set of ASCII characters that has a name. -/
  | named (negated : Bool) (name : String)
  | shorthand (negated : Bool) (set : Shorthand)
  /-- A set in brackets of its own. -/
  | bracketed (negated : Bool) (set : CharSet)
  | union (sets : List CharSet)
  | operation (operator : SetOperator) (left right : CharSet)

namespace CharSet

/-- The names of sets of ASCII characters. -/
def names : List String := [
  "alnum", "alpha", "ascii", "blank", "cntrl", "digit", "graph", "lower", "print", "punct", "space",
  "upper", "word", "xdigit"]

/-- The set that is written by some sets behind one another. -/
def ofList : List CharSet → CharSet
  | [set] => set
  | sets => .union sets

mutual

/-- The number of sets that lie inside one another. -/
def depth : CharSet → Nat
  | literal _ | range _ _ | named _ _ | shorthand _ _ => 0
  | bracketed _ set => set.depth + 1
  | union [] => 0
  | union (set :: sets) => max set.depth (depthAll sets) + 1
  | operation _ left right => max left.depth right.depth + 1

/-- The greatest depth of some sets. -/
def depthAll : List CharSet → Nat
  | [] => 0
  | set :: sets => max set.depth (depthAll sets)

end

end CharSet

/-! ## Modes and groups -/

/-- A way to read or to match a pattern that can be turned on and off. -/
inductive Mode
  | ignoreCase
  | multiLine
  | dotMatchesAll
  | swapGreed
  | unicode
  | crlf
  /-- Blanks and comments stand for nothing. -/
  | verbose
deriving DecidableEq, Repr

/-- The modes that are turned on and off in one place. -/
structure ModeChange where
  on : List Mode := []
  off : List Mode := []
deriving DecidableEq, Repr

/-- Whether a mode is on after a change. A mode that is not mentioned stays as it was. -/
def ModeChange.apply (change : ModeChange) (mode : Mode) (before : Bool) : Bool :=
  if mode ∈ change.on then true
  else if mode ∈ change.off then false
  else before

/-- What a group is for. -/
inductive Group
  /-- It captures what it matches, perhaps under a name. -/
  | capture (name : Option String)
  /-- It holds a part of the pattern together, and changes modes in it. -/
  | scope (change : ModeChange)
deriving DecidableEq, Repr

/-- How the modes change inside a group. -/
def Group.change : Group → ModeChange
  | .capture _ => {}
  | .scope change => change

/-- The name of a group. -/
def Group.name? : Group → Option String
  | .capture name => name
  | .scope _ => none

/-! ## Patterns -/

/-- A pattern. -/
inductive Expr
  | literal (char : Literal)
  | anyChar
  | look (look : Look)
  | shorthand (negated : Bool) (set : Shorthand)
  | oneOf (negated : Bool) (set : CharSet)
  /-- A change of modes for what follows in the same group. -/
  | modes (change : ModeChange)
  | group (kind : Group) (body : Expr)
  | repetition (body : Expr)
  | sequence (parts : List Expr)
  | alternatives (branches : List Expr)

namespace Expr

/-- The pattern of some parts behind one another. -/
def ofParts : List Expr → Expr
  | [part] => part
  | parts => .sequence parts

/-- The pattern that is matched where one of some patterns is. -/
def ofBranches : List Expr → Expr
  | [branch] => branch
  | branches => .alternatives branches

/-- Whether a part of a pattern can be repeated. -/
def isRepeatable : Expr → Bool
  | modes _ => false
  | _ => true

mutual

/-- The number of parts that lie inside one another. -/
def depth : Expr → Nat
  | literal _ | anyChar | look _ | shorthand _ _ | modes _ => 0
  | oneOf _ set => set.depth + 1
  | group _ body => body.depth + 1
  | repetition body => body.depth + 1
  | sequence [] => 0
  | sequence (part :: parts) => max part.depth (depthAll parts) + 1
  | alternatives branches => depthAll branches + 1

/-- The greatest depth of some patterns. -/
def depthAll : List Expr → Nat
  | [] => 0
  | part :: parts => max part.depth (depthAll parts)

end

mutual

/-- The names of the groups of a pattern, in order. -/
def groupNames : Expr → List String
  | literal _ | anyChar | look _ | shorthand _ _ | oneOf _ _ | modes _ => []
  | group kind body => kind.name?.toList ++ body.groupNames
  | repetition body => body.groupNames
  | sequence parts => groupNamesAll parts
  | alternatives branches => groupNamesAll branches

/-- The names of the groups of some patterns, in order. -/
def groupNamesAll : List Expr → List String
  | [] => []
  | part :: parts => part.groupNames ++ groupNamesAll parts

end

end Expr

end Pattern

end TieredDispatch
