import TieredDispatch.Pattern.Escape

/-!
# Classes in brackets

Reading a class of characters between brackets. Its parts are characters, ranges, escapes, named
sets such as `[:digit:]` and further classes; operators between them take effect from left to right.
A hyphen or a closing bracket in front stands for itself.
-/

namespace TieredDispatch

namespace Pattern

/-! ## Classes that are being read -/

/-- A class whose closing bracket was not reached yet. -/
structure OpenClass where
  negated : Bool := false
  /-- Whether hyphens stand for themselves, nothing else having been read. -/
  fresh : Bool := true
  /-- The operator that is waiting for its right side, and its left side. -/
  left : Option (SetOperator × CharSet) := none
  /-- The sets read behind the operator, the last one first. -/
  sets : List CharSet := []

namespace OpenClass

/-- Adds a set. -/
def add (c : OpenClass) (set : CharSet) : OpenClass :=
  { c with fresh := false, sets := set :: c.sets }

/-- Adds a hyphen in front. -/
def addHyphen (c : OpenClass) : OpenClass :=
  { c with sets := .literal ⟨'-', false⟩ :: c.sets }

/-- The set that is read so far. -/
def set (c : OpenClass) : CharSet :=
  let right := CharSet.ofList c.sets.reverse
  match c.left with
  | none => right
  | some (operator, left) => .operation operator left right

/-- Adds an operator. -/
def addOperator (c : OpenClass) (operator : SetOperator) : OpenClass :=
  { c with fresh := false, left := some (operator, c.set), sets := [] }

/-- The class as a set in another one. -/
def toCharSet (c : OpenClass) : CharSet :=
  .bracketed c.negated c.set

/-- The class as a pattern. -/
def toExpr (c : OpenClass) : Expr :=
  .oneOf c.negated c.set

end OpenClass

/-! ## Readers -/

/-- Reads what follows an opening bracket up to the first part of the class. -/
def readOpening (verbose : Bool) (s : List Char) : OpenClass × List Char :=
  match skipSpace verbose s with
  | '^' :: s => ({ negated := true }, s)
  | s => ({}, s)

/-- Reads the name of a set, and the colon and the bracket behind it. -/
def readSetName? (negated : Bool) (s : List Char) : Option (CharSet × List Char) :=
  let name := String.ofList (s.takeWhile (· ≠ ':'))
  match s.dropWhile (· ≠ ':') with
  | ':' :: ']' :: s => if name ∈ CharSet.names then some (.named negated name, s) else none
  | _ => none

/-- Reads a named set behind its opening bracket, if there is one. -/
def readNamedSet? : List Char → Option (CharSet × List Char)
  | ':' :: '^' :: s => readSetName? true s
  | ':' :: s => readSetName? false s
  | _ => none

/-- The character behind a hyphen. Blanks and one number sign are passed over in a verbose
pattern. -/
def peekBehindHyphen (verbose : Bool) (s : List Char) : Option Char :=
  if verbose then
    match s.dropWhile isWhite with
    | '#' :: s => (s.dropWhile isWhite).head?
    | s => s.head?
  else
    s.head?

/-- Reads the last character of a range that begins with the given one. -/
def readRangeEnd (verbose : Bool) (first : Escape) (s : List Char) :
    Option (CharSet × List Char) := do
  let (last, s) ← readChar verbose (skipSpace verbose s)
  let first ← first.toLiteral?
  let last ← last.toLiteral?
  if first.char ≤ last.char then some (.range first last, s) else none

/-- Reads a character, an escape or a range. A hyphen in front of a closing bracket or of another
hyphen makes no range. -/
def readSet (verbose : Bool) (s : List Char) : Option (CharSet × List Char) := do
  let (first, s) ← readChar verbose s
  match skipSpace verbose s with
  | '-' :: rest =>
    let next := peekBehindHyphen verbose rest
    if next = some ']' ∨ next = some '-' then
      first.toCharSet?.map fun set => (set, '-' :: rest)
    else
      readRangeEnd verbose first rest
  | s => first.toCharSet?.map fun set => (set, s)

/-- Reads classes up to the end of the outermost one, in at most `fuel` steps. A step reads at least
one character. -/
def readClasses (verbose : Bool) : Nat → OpenClass → List OpenClass → List Char →
    Option (Expr × List Char)
  | 0, _, _, _ => none
  | fuel + 1, inner, outer, s =>
    match skipSpace verbose s with
    | [] => none
    | c :: s =>
      if c = '-' ∧ inner.fresh then
        readClasses verbose fuel inner.addHyphen outer s
      else if c = ']' ∧ inner.fresh ∧ inner.sets.isEmpty then
        readClasses verbose fuel (inner.add (.literal ⟨']', false⟩)) outer s
      else if c = ']' then
        match outer with
        | [] => some (inner.toExpr, s)
        | next :: outer => readClasses verbose fuel (next.add inner.toCharSet) outer s
      else if c = '[' then
        match readNamedSet? s with
        | some (set, s) => readClasses verbose fuel (inner.add set) outer s
        | none =>
          let (opened, s) := readOpening verbose s
          readClasses verbose fuel opened (inner :: outer) s
      else if c = '&' ∧ s.head? = some '&' then
        readClasses verbose fuel (inner.addOperator .intersection) outer s.tail
      else if c = '-' ∧ s.head? = some '-' then
        readClasses verbose fuel (inner.addOperator .difference) outer s.tail
      else if c = '~' ∧ s.head? = some '~' then
        readClasses verbose fuel (inner.addOperator .symmetricDifference) outer s.tail
      else
        (readSet verbose (c :: s)).bind fun (set, s) =>
          readClasses verbose fuel (inner.add set) outer s

/-- Reads a class behind its opening bracket. -/
def readClass (verbose : Bool) (s : List Char) : Option (Expr × List Char) :=
  let (opened, rest) := readOpening verbose s
  readClasses verbose (s.length + 1) opened [] rest

/-! ## What is read is consumed -/

theorem readSetName?_length {negated : Bool} {s r : List Char} {set : CharSet}
    (h : readSetName? negated s = some (set, r)) : r.length < s.length := by
  have hle := (List.dropWhile_suffix (· ≠ ':') : s.dropWhile (· ≠ ':') <:+ s).length_le
  unfold readSetName? at h
  split at h
  · rename_i rest heq
    dsimp only at h
    split at h
    · simp only [Option.some.injEq, Prod.mk.injEq] at h
      simp only [heq, List.length_cons, h.2] at hle
      omega
    · simp at h
  · simp at h

theorem readNamedSet?_length {s r : List Char} {set : CharSet}
    (h : readNamedSet? s = some (set, r)) : r.length < s.length := by
  unfold readNamedSet? at h
  split at h
  · exact Nat.lt_succ_of_lt (Nat.lt_succ_of_lt (readSetName?_length h))
  · exact Nat.lt_succ_of_lt (readSetName?_length h)
  · simp at h

theorem readOpening_length_le (verbose : Bool) (s : List Char) :
    (readOpening verbose s).2.length ≤ s.length := by
  have hle := (skipSpace_suffix verbose s).length_le
  unfold readOpening
  split
  · rename_i rest heq
    simp only [heq, List.length_cons] at hle
    dsimp only
    omega
  · exact hle

theorem readRangeEnd_length {verbose : Bool} {first : Escape} {s r : List Char} {set : CharSet}
    (h : readRangeEnd verbose first s = some (set, r)) : r.length < s.length := by
  have hle := (skipSpace_suffix verbose s).length_le
  obtain ⟨⟨last, rest⟩, hlast, h⟩ := Option.bind_eq_some_iff.mp h
  obtain ⟨first, -, h⟩ := Option.bind_eq_some_iff.mp h
  obtain ⟨last, -, h⟩ := Option.bind_eq_some_iff.mp h
  have hlt := readChar_length hlast
  split at h
  · simp only [Option.some.injEq, Prod.mk.injEq] at h
    rw [h.2] at hlt
    omega
  · simp at h

theorem readSet_length {verbose : Bool} {s r : List Char} {set : CharSet}
    (h : readSet verbose s = some (set, r)) : r.length < s.length := by
  obtain ⟨⟨first, rest⟩, hfirst, h⟩ := Option.bind_eq_some_iff.mp h
  have hlt := readChar_length hfirst
  have hle := (skipSpace_suffix verbose rest).length_le
  dsimp only at h
  split at h
  · rename_i rest' heq
    simp only [heq, List.length_cons] at hle
    split at h
    · obtain ⟨set', -, h⟩ := Option.map_eq_some_iff.mp h
      simp only [Prod.mk.injEq] at h
      rw [← h.2, List.length_cons]
      omega
    · have := readRangeEnd_length h
      omega
  · obtain ⟨set', -, h⟩ := Option.map_eq_some_iff.mp h
    simp only [Prod.mk.injEq] at h
    rw [← h.2]
    omega

theorem readClasses_length {verbose : Bool} {fuel : Nat} {inner : OpenClass}
    {outer : List OpenClass} {s r : List Char} {expr : Expr}
    (h : readClasses verbose fuel inner outer s = some (expr, r)) : r.length < s.length := by
  induction fuel generalizing inner outer s with
  | zero => simp [readClasses] at h
  | succ fuel ih =>
    have hle := (skipSpace_suffix verbose s).length_le
    unfold readClasses at h
    split at h
    · simp at h
    · rename_i c rest heq
      simp only [heq, List.length_cons] at hle
      have htail := rest.length_tail
      split at h
      · have := ih h; omega
      split at h
      · have := ih h; omega
      split at h
      · split at h
        · simp only [Option.some.injEq, Prod.mk.injEq] at h
          rw [← h.2]; omega
        · have := ih h; omega
      split at h
      · split at h
        · rename_i hset
          have := readNamedSet?_length hset
          have := ih h; omega
        · have hopening := readOpening_length_le verbose rest
          generalize readOpening verbose rest = opening at h hopening
          have := ih h; omega
      split at h
      · have := ih h; omega
      split at h
      · have := ih h; omega
      split at h
      · have := ih h; omega
      obtain ⟨⟨set, rest'⟩, hset, h⟩ := Option.bind_eq_some_iff.mp h
      have hlt := readSet_length hset
      simp only [List.length_cons] at hlt
      have := ih h; omega

/-- As many steps as there are characters, and one more, are enough. -/
theorem readClasses_eq_of_length_lt {verbose : Bool} {fuel fuel' : Nat} {inner : OpenClass}
    {outer : List OpenClass} {s : List Char} (h : s.length < fuel) (h' : s.length < fuel') :
    readClasses verbose fuel inner outer s = readClasses verbose fuel' inner outer s := by
  induction fuel generalizing fuel' inner outer s with
  | zero => omega
  | succ fuel ih =>
    obtain ⟨fuel', rfl⟩ : ∃ n, fuel' = n + 1 := ⟨fuel' - 1, by omega⟩
    have hle := (skipSpace_suffix verbose s).length_le
    unfold readClasses
    split
    · rfl
    · rename_i c rest heq
      simp only [heq, List.length_cons] at hle
      have htail := rest.length_tail
      refine ite_congr rfl (fun _ => ih (by omega) (by omega)) fun _ => ?_
      refine ite_congr rfl (fun _ => ih (by omega) (by omega)) fun _ => ?_
      refine ite_congr rfl (fun _ => ?_) fun _ => ?_
      · split
        · rfl
        · exact ih (by omega) (by omega)
      refine ite_congr rfl (fun _ => ?_) fun _ => ?_
      · split
        · rename_i hset
          have := readNamedSet?_length hset
          exact ih (by omega) (by omega)
        · have hopening := readOpening_length_le verbose rest
          generalize readOpening verbose rest = opening at hopening ⊢
          exact ih (by omega) (by omega)
      refine ite_congr rfl (fun _ => ih (by omega) (by omega)) fun _ => ?_
      refine ite_congr rfl (fun _ => ih (by omega) (by omega)) fun _ => ?_
      refine ite_congr rfl (fun _ => ih (by omega) (by omega)) fun _ => ?_
      refine Option.bind_congr fun p hset => ?_
      have hlt : p.2.length < (c :: rest).length := readSet_length hset
      simp only [List.length_cons] at hlt
      exact ih (by omega) (by omega)

theorem readClass_length {verbose : Bool} {s r : List Char} {expr : Expr}
    (h : readClass verbose s = some (expr, r)) : r.length < s.length := by
  have hle := readOpening_length_le verbose s
  unfold readClass at h
  generalize readOpening verbose s = opening at h hle
  have := readClasses_length h
  omega

end Pattern

end TieredDispatch
