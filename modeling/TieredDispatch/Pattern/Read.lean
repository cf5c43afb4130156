import TieredDispatch.Pattern.Brackets
import TieredDispatch.Pattern.Group

/-!
# Reading patterns

Reading the tree of a pattern, from left to right. Groups that are open are kept on a stack, each
with what is read of the pattern around it. A counted repetition is not read: where patterns are
written here, its closing brace would end the pattern.
-/

namespace TieredDispatch

namespace Pattern

/-! ## Groups that are being read -/

/-- The part of a pattern that is read of a group. -/
structure Level where
  /-- The branches before the current one, the last one first. -/
  branches : List Expr := []
  /-- The parts of the current branch, the last one first. -/
  parts : List Expr := []

namespace Level

/-- Adds a part to the current branch. -/
def add (level : Level) (part : Expr) : Level :=
  { level with parts := part :: level.parts }

/-- Begins a new branch. -/
def addBranch (level : Level) : Level :=
  { branches := .ofParts level.parts.reverse :: level.branches }

/-- Repeats the last part, if there is one and it can be repeated. -/
def repeatLast? (level : Level) : Option Level :=
  match level.parts with
  | [] => none
  | part :: parts =>
    if part.isRepeatable then some { level with parts := .repetition part :: parts } else none

/-- The pattern that is read. -/
def toExpr (level : Level) : Expr :=
  .ofBranches level.addBranch.branches.reverse

end Level

/-- A group whose closing parenthesis was not reached yet. -/
structure OpenGroup where
  kind : Group
  /-- Whether the pattern is verbose behind the group. -/
  verboseBehind : Bool
  /-- What is read of the pattern around the group. -/
  around : Level

/-- How far a pattern is read. -/
structure Progress where
  verbose : Bool := false
  level : Level := {}
  /-- The open groups, the innermost one first. -/
  groups : List OpenGroup := []

namespace Progress

/-- Adds a part. -/
def add (p : Progress) (part : Expr) : Progress :=
  { p with level := p.level.add part }

/-- Opens a group, or changes modes. -/
def addHead (p : Progress) : GroupHead → Progress
  | .modes change =>
    { p.add (.modes change) with verbose := change.apply .verbose p.verbose }
  | .group kind => {
      verbose := kind.change.apply .verbose p.verbose
      groups := ⟨kind, p.verbose, p.level⟩ :: p.groups }

/-- Closes the innermost group, if there is one. -/
def closeGroup? (p : Progress) : Option Progress :=
  match p.groups with
  | [] => none
  | group :: groups => some {
      verbose := group.verboseBehind
      level := group.around.add (.group group.kind p.level.toExpr)
      groups }

/-- The pattern, if no group is open. -/
def complete? (p : Progress) : Option Expr :=
  if p.groups.isEmpty then some p.level.toExpr else none

end Progress

/-! ## Reading -/

/-- Reads a part that is not made of other parts. -/
def readAtom (verbose : Bool) : List Char → Option (Expr × List Char)
  | '\x7b' :: _ => none
  | '[' :: s => readClass verbose s
  | '.' :: s => some (.anyChar, s)
  | '^' :: s => some (.look .lineStart, s)
  | '$' :: s => some (.look .lineEnd, s)
  | s => (readChar verbose s).map fun (escape, s) => (escape.toExpr, s)

/-- Passes over the sign of a repetition that prefers to match little. -/
def skipLazy : List Char → List Char
  | '?' :: s => s
  | s => s

/-- Reads a pattern to its end, in at most `fuel` steps. A step but the last reads at least one
character. -/
def readFrom : Nat → Progress → List Char → Option Expr
  | 0, _, _ => none
  | fuel + 1, p, s =>
    match skipSpace p.verbose s with
    | [] => p.complete?
    | c :: s =>
      if c = '(' then
        (readGroupHead p.verbose s).bind fun (head, s) => readFrom fuel (p.addHead head) s
      else if c = ')' then
        p.closeGroup?.bind fun p => readFrom fuel p s
      else if c = '|' then
        readFrom fuel { p with level := p.level.addBranch } s
      else if c = '*' ∨ c = '+' ∨ c = '?' then
        p.level.repeatLast?.bind fun level => readFrom fuel { p with level } (skipLazy s)
      else
        (readAtom p.verbose (c :: s)).bind fun (part, s) => readFrom fuel (p.add part) s

/-- Reads a pattern. -/
def Expr.read? (s : List Char) : Option Expr :=
  readFrom (s.length + 1) {} s

/-! ## What is read is consumed -/

theorem readAtom_length {verbose : Bool} {s r : List Char} {part : Expr}
    (h : readAtom verbose s = some (part, r)) : r.length < s.length := by
  unfold readAtom at h
  split at h
  · simp at h
  · exact Nat.lt_succ_of_lt (readClass_length h)
  · simp_all
  · simp_all
  · simp_all
  · obtain ⟨⟨escape, rest⟩, hchar, h⟩ := Option.map_eq_some_iff.mp h
    simp only [Prod.mk.injEq] at h
    exact h.2 ▸ readChar_length hchar

theorem skipLazy_length_le (s : List Char) : (skipLazy s).length ≤ s.length := by
  unfold skipLazy
  split <;> simp

/-- As many steps as there are characters, and one more, are enough. -/
theorem readFrom_eq_of_length_lt {fuel fuel' : Nat} {p : Progress} {s : List Char}
    (h : s.length < fuel) (h' : s.length < fuel') : readFrom fuel p s = readFrom fuel' p s := by
  induction fuel generalizing fuel' p s with
  | zero => omega
  | succ fuel ih =>
    obtain ⟨fuel', rfl⟩ : ∃ n, fuel' = n + 1 := ⟨fuel' - 1, by omega⟩
    have hle := (skipSpace_suffix p.verbose s).length_le
    unfold readFrom
    split
    · rfl
    · rename_i c rest heq
      simp only [heq, List.length_cons] at hle
      refine ite_congr rfl (fun _ => Option.bind_congr fun q hhead => ?_) fun _ => ?_
      · have hle' : q.2.length ≤ rest.length := readGroupHead_length_le hhead
        exact ih (by omega) (by omega)
      refine ite_congr rfl (fun _ => Option.bind_congr fun _ _ => ?_) fun _ => ?_
      · exact ih (by omega) (by omega)
      refine ite_congr rfl (fun _ => ih (by omega) (by omega)) fun _ => ?_
      refine ite_congr rfl (fun _ => Option.bind_congr fun _ _ => ?_) fun _ => ?_
      · have := skipLazy_length_le rest
        exact ih (by omega) (by omega)
      refine Option.bind_congr fun q hatom => ?_
      have hlt : q.2.length < (c :: rest).length := readAtom_length hatom
      simp only [List.length_cons] at hlt
      exact ih (by omega) (by omega)

end Pattern

end TieredDispatch
