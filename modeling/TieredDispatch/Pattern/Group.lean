import TieredDispatch.Pattern.Escape

/-!
# Heads of groups

Reading what follows an opening parenthesis: nothing, a name between angle brackets, or a change of
modes. The change ends in a colon where it is for a group, and in a closing parenthesis where it is
for all that follows.
-/

namespace TieredDispatch

namespace Pattern

/-- The mode that a letter stands for. -/
def Mode.ofLetter? : Char → Option Mode
  | 'i' => some .ignoreCase
  | 'm' => some .multiLine
  | 's' => some .dotMatchesAll
  | 'U' => some .swapGreed
  | 'u' => some .unicode
  | 'R' => some .crlf
  | 'x' => some .verbose
  | _ => none

/-- The change of modes that a text stands for: letters of those turned on, and perhaps a hyphen and
letters of those turned off. No letter stands twice. -/
def ModeChange.ofText? (text : List Char) : Option ModeChange := do
  let on ← (text.takeWhile (· ≠ '-')).mapM Mode.ofLetter?
  let off ← match text.dropWhile (· ≠ '-') with
    | [] => pure []
    | [_] => none
    | _ :: letters => letters.mapM Mode.ofLetter?
  if (on ++ off).Nodup then some { on, off } else none

/-- Whether a text can be the name of a group. -/
def isGroupName : List Char → Bool
  | [] => false
  | c :: s =>
    (c == '_' || isAlphabetic c)
      && s.all fun c => c == '_' || c == '.' || c == '[' || c == ']' || isAlphanumeric c

/-- What an opening parenthesis begins. -/
inductive GroupHead
  | group (kind : Group)
  /-- The modes change, and no group is opened. -/
  | modes (change : ModeChange)
deriving DecidableEq, Repr

/-- Reads a name and the closing angle bracket. -/
def readGroupName (s : List Char) : Option (GroupHead × List Char) :=
  let name := s.takeWhile (· ≠ '>')
  match s.dropWhile (· ≠ '>') with
  | [] => none
  | _ :: s =>
    if isGroupName name then some (.group (.capture (some (String.ofList name))), s) else none

/-- Reads a change of modes. It is only for a group that it can be empty. -/
def readModes (s : List Char) : Option (GroupHead × List Char) := do
  let inText (c : Char) : Bool := c ≠ ':' && c ≠ ')'
  let text := s.takeWhile inText
  let change ← ModeChange.ofText? text
  match s.dropWhile inText with
  | ':' :: s => pure (.group (.scope change), s)
  | ')' :: s => if text = [] then none else pure (.modes change, s)
  | _ => none

/-- Reads what follows an opening parenthesis. -/
def readGroupHead (verbose : Bool) (s : List Char) : Option (GroupHead × List Char) :=
  match skipSpace verbose s with
  | '?' :: 'P' :: '<' :: s => readGroupName s
  | '?' :: '<' :: s => readGroupName s
  | '?' :: s => readModes s
  | s => some (.group (.capture none), s)

/-! ## What is read is consumed -/

theorem readGroupName_length {s r : List Char} {head : GroupHead}
    (h : readGroupName s = some (head, r)) : r.length < s.length := by
  have hle := (List.dropWhile_suffix (· ≠ '>') : s.dropWhile (· ≠ '>') <:+ s).length_le
  unfold readGroupName at h
  split at h
  · simp at h
  · rename_i rest heq
    dsimp only at h
    split at h
    · simp only [Option.some.injEq, Prod.mk.injEq] at h
      simp only [heq, List.length_cons, h.2] at hle
      omega
    · simp at h

theorem readModes_length {s r : List Char} {head : GroupHead}
    (h : readModes s = some (head, r)) : r.length < s.length := by
  obtain ⟨change, -, h⟩ := Option.bind_eq_some_iff.mp h
  have hle := (List.dropWhile_suffix fun c : Char => c ≠ ':' && c ≠ ')' : _ <:+ s).length_le
  split at h
  · rename_i rest heq
    simp only [Option.pure_def, Option.some.injEq, Prod.mk.injEq] at h
    simp only [heq, List.length_cons, h.2] at hle
    omega
  · rename_i rest heq
    split at h
    · simp at h
    · simp only [Option.pure_def, Option.some.injEq, Prod.mk.injEq] at h
      simp only [heq, List.length_cons, h.2] at hle
      omega
  · simp at h

theorem readGroupHead_length_le {verbose : Bool} {s r : List Char} {head : GroupHead}
    (h : readGroupHead verbose s = some (head, r)) : r.length ≤ s.length := by
  have hle := (skipSpace_suffix verbose s).length_le
  unfold readGroupHead at h
  split at h
  · rename_i heq
    have := readGroupName_length h
    simp only [heq, List.length_cons] at hle
    omega
  · rename_i heq
    have := readGroupName_length h
    simp only [heq, List.length_cons] at hle
    omega
  · rename_i heq
    have := readModes_length h
    simp only [heq, List.length_cons] at hle
    omega
  · simp only [Option.some.injEq, Prod.mk.injEq] at h
    exact h.2 ▸ hle

end Pattern

end TieredDispatch
