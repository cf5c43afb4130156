import TieredDispatch.Json.Scan

/-!
# Passing over JSON values

`skipValue` passes over one value of any kind, size and nesting. The containers that are still open
are kept on a stack, so that the depth of nesting costs no recursion. Numbers are only checked for
their form here, and so are escapes.
-/

namespace TieredDispatch

namespace Json

/-- A list or an object that is still open. -/
inductive Container
  | list
  | object
deriving DecidableEq, Repr

/-- Passes over the string behind an opening quote, or over a literal or a number. -/
def skipScalar (s : List Char) : Except JsonError (List Char) :=
  match s with
  | [] => .error .truncated
  | c :: rest =>
    if c = '"' then skipString rest
    else if c = 'n' then literal "ull".toList rest
    else if c = 't' then literal "rue".toList rest
    else if c = 'f' then literal "alse".toList rest
    else if c = '-' ∨ isDigit c then (numeral .malformed s).map (·.2)
    else .error .malformed

theorem skipScalar_length {s r : List Char} (h : skipScalar s = .ok r) : r.length < s.length := by
  unfold skipScalar at h
  split at h
  · simp at h
  · rename_i c rest
    simp only [List.length_cons]
    split at h
    · have := skipString_length h
      omega
    split at h
    · have := literal_length_le h
      omega
    split at h
    · have := literal_length_le h
      omega
    split at h
    · have := literal_length_le h
      omega
    split at h
    · obtain ⟨⟨n, r'⟩, hnumeral, rfl⟩ := map_eq_ok_iff.mp h
      have := numeral_length hnumeral
      simpa using this
    · simp at h

/-- What the reader of a value comes to next. -/
inductive Expecting
  /-- A value. -/
  | value
  /-- A key and its colon, and then a value. -/
  | key
  /-- A comma or the end of the innermost container. -/
  | next
deriving DecidableEq, Repr

/-- Reads a key with its colon. -/
def skipKey (s : List Char) : Except JsonError (List Char) :=
  match skipBlank s with
  | [] => .error .truncated
  | '"' :: rest => skipString rest >>= colon
  | _ => .error .malformed

theorem skipKey_length {s r : List Char} (h : skipKey s = .ok r) : r.length < s.length := by
  have hle := skipBlank_length_le s
  unfold skipKey at h
  split at h
  · simp at h
  · rename_i rest heq
    obtain ⟨r', hstring, hcolon⟩ := bind_eq_ok_iff.mp h
    have h₁ := skipString_length hstring
    have h₂ := colon_length hcolon
    rw [heq, List.length_cons] at hle
    omega
  · simp at h

/-- The text behind a value, given what is expected first and the open containers, innermost
first. -/
def skipFrom (expecting : Expecting) (stack : List Container) (s : List Char) :
    Except JsonError (List Char) :=
  match expecting with
  | .value =>
    match _h : skipBlank s with
    | '[' :: rest =>
      match _hclose : skipBlank rest with
      | ']' :: after => skipFrom .next stack after
      | _ => skipFrom .value (.list :: stack) rest
    | '\x7b' :: rest =>
      match _hclose : skipBlank rest with
      | '\x7d' :: after => skipFrom .next stack after
      | _ => skipFrom .key (.object :: stack) rest
    | scalar =>
      match _hscalar : skipScalar scalar with
      | .error e => .error e
      | .ok rest => skipFrom .next stack rest
  | .key =>
    match _hkey : skipKey s with
    | .error e => .error e
    | .ok rest => skipFrom .value stack rest
  | .next =>
    match stack with
    | [] => .ok s
    | container :: outer =>
      match _h : skipBlank s, container with
      | [], _ => .error .truncated
      | ',' :: rest, .list => skipFrom .value (.list :: outer) rest
      | ',' :: rest, .object => skipFrom .key (.object :: outer) rest
      | ']' :: rest, .list => skipFrom .next outer rest
      | '\x7d' :: rest, .object => skipFrom .next outer rest
      | _, _ => .error .malformed
termination_by s.length
decreasing_by
  · exact Nat.lt_trans (length_of_skipBlank_eq _hclose) (length_of_skipBlank_eq _h)
  · exact length_of_skipBlank_eq _h
  · exact Nat.lt_trans (length_of_skipBlank_eq _hclose) (length_of_skipBlank_eq _h)
  · exact length_of_skipBlank_eq _h
  · exact Nat.lt_of_lt_of_le (skipScalar_length _hscalar) (_h ▸ skipBlank_length_le s)
  · exact skipKey_length _hkey
  all_goals exact length_of_skipBlank_eq _h

theorem skipFrom_length_le {expecting : Expecting} {stack : List Container} {s r : List Char}
    (h : skipFrom expecting stack s = .ok r) : r.length ≤ s.length := by
  fun_induction skipFrom expecting stack s with
  | case1 _ s rest heq after hclose ih | case3 _ s rest heq after hclose ih =>
    have h₁ := length_of_skipBlank_eq heq
    have h₂ := length_of_skipBlank_eq hclose
    have := ih h
    omega
  | case2 _ s rest heq _ ih | case4 _ s rest heq _ ih | case11 s _ rest heq ih
  | case12 s _ rest heq ih | case13 s _ rest heq ih | case14 s _ rest heq ih =>
    have h₁ := length_of_skipBlank_eq heq
    have := ih h
    omega
  | case6 _ s rest _ _ hscalar ih =>
    have h₁ := skipScalar_length hscalar
    have h₂ := skipBlank_length_le s
    have := ih h
    omega
  | case8 _ s rest hkey ih =>
    have h₁ := skipKey_length hkey
    have := ih h
    omega
  | case9 s => simp_all
  | case5 | case7 | case10 | case15 => simp at h

/-- Passes over one value. -/
def skipValue (s : List Char) : Except JsonError (List Char) :=
  skipFrom .value [] s

theorem skipValue_length_le {s r : List Char} (h : skipValue s = .ok r) : r.length ≤ s.length :=
  skipFrom_length_le h

end Json

end TieredDispatch
