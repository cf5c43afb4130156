import TieredDispatch.Json.Range
import TieredDispatch.Json.Skip

/-!
# Decoding JSON text

A decoder reads one value of a known type off the front of a text. There are decoders for 64-bit
words, for names out of a fixed choice, and for records. A **name** is a string or an object with
the name as its only key and `null` under it. A **record** is an object, whose members may come in
any order and may be mixed with others that are passed over, or an array of the values in the order
of the fields.

The first problem from left to right decides the error: a field that comes twice is found at its
second key, a field that is missing at the end of the record.
-/

namespace TieredDispatch

/-- A reader of values of one type; every value takes up some of the text. -/
structure Decoder (γ : Type) where
  read : List Char → Except JsonError (γ × List Char)
  consumes : ∀ {s r : List Char} {v : γ}, read s = .ok (v, r) → r.length < s.length

namespace Decoder

variable {γ δ : Type}

/-- The decoder that turns what another one reads into something else. -/
def map (f : γ → δ) (decoder : Decoder γ) : Decoder δ where
  read s := (decoder.read s).map fun (v, rest) => (f v, rest)
  consumes h := by
    obtain ⟨⟨v, r⟩, hread, h⟩ := Json.map_eq_ok_iff.mp h
    simp only [Prod.mk.injEq] at h
    exact decoder.consumes (h.2 ▸ hread)

/-- Decodes a whole text: one value and nothing but blanks behind it. -/
def decode (decoder : Decoder γ) (text : String) : Except JsonError γ := do
  let (v, rest) ← decoder.read text.toList
  if Json.skipBlank rest = [] then pure v else throw .malformed

end Decoder

namespace Json

/-! ## Values of the wrong kind -/

/-- The problem of a value that was read to its end but is not the one that was asked for. -/
def problemAfter {γ : Type} : Except JsonError γ → JsonError
  | .ok _ => .mismatched
  | .error e => e

/-- The problem of a number that is no 64-bit word. -/
def numberProblem (n : Numeral) : JsonError :=
  if n.exceedsBinary64 then .malformed else .mismatched

/-- The problem of a text that starts with another kind of value than the one asked for. Lists and
objects are not read any further. -/
def wrongKind (s : List Char) : JsonError :=
  match s with
  | [] => .truncated
  | c :: rest =>
    if c = 'n' then problemAfter (literal "ull".toList rest)
    else if c = 't' then problemAfter (literal "rue".toList rest)
    else if c = 'f' then problemAfter (literal "alse".toList rest)
    else if c = '"' then problemAfter (stringBody rest)
    else if c = '-' ∨ isDigit c then
      match numeral .truncated s with
      | .ok (n, _) => numberProblem n
      | .error e => e
    else if c = '[' ∨ c = '\x7b' then .mismatched
    else .malformed

/-! ## Words -/

/-- Reads a 64-bit word. -/
def readWord (s : List Char) : Except JsonError (UInt64 × List Char) :=
  let s := skipBlank s
  if s.head?.any (fun c => c == '-' || isDigit c) then do
    let (n, rest) ← numeral .truncated s
    match n.word? with
    | some w => pure (w, rest)
    | none => throw (numberProblem n)
  else
    .error (wrongKind s)

/-! ## Names -/

/-- The choice a name stands for. -/
def choose {γ : Type} (choices : List γ) (label : γ → String) (name : List Char) :
    Except JsonError γ :=
  match choices.find? fun v => (label v).toList = name with
  | some v => .ok v
  | none => .error .mismatched

/-- Reads a string behind its opening quote and chooses by it. -/
def readLabel {γ : Type} (choices : List γ) (label : γ → String) (s : List Char) :
    Except JsonError (γ × List Char) := do
  let (name, rest) ← stringBody s
  let v ← choose choices label name
  pure (v, rest)

/-- Reads `null`. -/
def readNull (s : List Char) : Except JsonError (List Char) :=
  match skipBlank s with
  | 'n' :: rest => literal "ull".toList rest
  | other => .error (wrongKind other)

/-- Reads the end of a container with nothing before it. -/
def readEnd (close : Char) (s : List Char) : Except JsonError (List Char) :=
  match skipBlank s with
  | [] => .error .truncated
  | c :: rest => if c = close then .ok rest else .error .malformed

/-- Reads what follows the key of an object with a single name: the colon, `null`, and the end of
the object. -/
def readUnit (s : List Char) : Except JsonError (List Char) := do
  let s ← colon s
  let s ← readNull s
  readEnd '\x7d' s

/-- Reads a name, alone or as the only key of an object. Anything but a string in the place of the
key is malformed, also where it is some other value. -/
def readName {γ : Type} (choices : List γ) (label : γ → String) (s : List Char) :
    Except JsonError (γ × List Char) :=
  match skipBlank s with
  | [] => .error .truncated
  | '"' :: rest => readLabel choices label rest
  | '\x7b' :: rest =>
    match skipBlank rest with
    | '"' :: rest => do
      let (v, rest) ← readLabel choices label rest
      let rest ← readUnit rest
      pure (v, rest)
    | [] => .error .truncated
    | _ => .error .malformed
  | _ => .error .malformed

/-! ## Words and names take up some of the text -/

theorem readWord_length {s r : List Char} {w : UInt64} (h : readWord s = .ok (w, r)) :
    r.length < s.length := by
  have hle := skipBlank_length_le s
  unfold readWord at h
  dsimp only at h
  split at h
  · obtain ⟨⟨n, rest⟩, hnumeral, h⟩ := bind_eq_ok_iff.mp h
    have hlt := numeral_length hnumeral
    dsimp only at h
    split at h
    · simp only [pure, Except.pure, Except.ok.injEq, Prod.mk.injEq] at h
      rw [← h.2]
      omega
    · simp [throw, throwThe, MonadExceptOf.throw] at h
  · simp at h

theorem readLabel_length {γ : Type} {choices : List γ} {label : γ → String} {s r : List Char}
    {v : γ} (h : readLabel choices label s = .ok (v, r)) : r.length < s.length := by
  obtain ⟨⟨name, rest⟩, hbody, h⟩ := bind_eq_ok_iff.mp h
  obtain ⟨v', -, h⟩ := bind_eq_ok_iff.mp h
  simp only [pure, Except.pure, Except.ok.injEq, Prod.mk.injEq] at h
  exact h.2 ▸ stringBody_length hbody

theorem readNull_length {s r : List Char} (h : readNull s = .ok r) : r.length < s.length := by
  unfold readNull at h
  split at h
  · rename_i rest heq
    exact Nat.lt_of_le_of_lt (literal_length_le h) (length_of_skipBlank_eq heq)
  · simp at h

theorem readEnd_length {close : Char} {s r : List Char} (h : readEnd close s = .ok r) :
    r.length < s.length := by
  unfold readEnd at h
  split at h
  · simp at h
  · rename_i c rest heq
    split at h
    · simp only [Except.ok.injEq] at h
      exact h ▸ length_of_skipBlank_eq heq
    · simp at h

theorem readUnit_length {s r : List Char} (h : readUnit s = .ok r) : r.length < s.length := by
  obtain ⟨s₁, hcolon, h⟩ := bind_eq_ok_iff.mp h
  obtain ⟨s₂, hnull, h⟩ := bind_eq_ok_iff.mp h
  have h₁ := colon_length hcolon
  have h₂ := readNull_length hnull
  have h₃ := readEnd_length h
  omega

theorem readName_length {γ : Type} {choices : List γ} {label : γ → String} {s r : List Char}
    {v : γ} (h : readName choices label s = .ok (v, r)) : r.length < s.length := by
  unfold readName at h
  split at h
  · simp at h
  · rename_i rest heq
    exact Nat.lt_trans (readLabel_length h) (length_of_skipBlank_eq heq)
  · rename_i rest heq
    have h₁ := length_of_skipBlank_eq heq
    split at h
    · rename_i rest' heq'
      have h₂ := length_of_skipBlank_eq heq'
      obtain ⟨⟨v', r₁⟩, hlabel, h⟩ := bind_eq_ok_iff.mp h
      obtain ⟨r₂, hunit, h⟩ := bind_eq_ok_iff.mp h
      have h₃ := readLabel_length hlabel
      have h₄ := readUnit_length hunit
      simp only [pure, Except.pure, Except.ok.injEq, Prod.mk.injEq] at h
      rw [← h.2]
      omega
    · simp at h
    · simp at h
  · simp at h

end Json

/-- Decoder of 64-bit words. -/
def Decoder.word : Decoder UInt64 where
  read := Json.readWord
  consumes := Json.readWord_length

/-- Decoder of one of the given choices, each known by its label. -/
def Decoder.name {γ : Type} (choices : List γ) (label : γ → String) : Decoder γ where
  read := Json.readName choices label
  consumes := Json.readName_length

/-! ## Records -/

/-- One field of a record of type `ρ`. -/
structure Field (ρ : Type) where
  name : String
  /-- Reads the value of the field, and gives back how to store it. -/
  value : Decoder (ρ → ρ)

namespace Field

variable {ρ γ : Type}

/-- The field that is read by a decoder and stored by a setter. -/
def of (name : String) (decoder : Decoder γ) (set : γ → ρ → ρ) : Field ρ :=
  ⟨name, decoder.map set⟩

end Field

/-- How a record of type `ρ` is read. -/
structure Schema (ρ : Type) where
  fields : List (Field ρ)
  /-- The record before any field is read. -/
  initial : ρ
  /-- Whether every field has to be there. -/
  strict : Bool

namespace Json

variable {ρ : Type}

/-- What comes next in a container, each with the text from there on. -/
inductive Next
  /-- Another item, and the text that starts with it. -/
  | item (s : List Char)
  /-- The end of the container, and the text behind. -/
  | finish (s : List Char)

/-- Reads up to the next item of a container that ends in `close`. All but the first item follow a
comma. -/
def next (close : Char) (first : Bool) (s : List Char) : Except JsonError Next :=
  match skipBlank s with
  | [] => .error .truncated
  | c :: rest =>
    if c = close then
      .ok (.finish rest)
    else if first then
      .ok (.item (c :: rest))
    else if c = ',' then
      match skipBlank rest with
      | [] => .error .truncated
      | d :: more => if d = close then .error .malformed else .ok (.item (d :: more))
    else
      .error .malformed

theorem next_item_length_le {close : Char} {first : Bool} {s r : List Char}
    (h : next close first s = .ok (.item r)) : r.length ≤ s.length := by
  unfold next at h
  split at h
  · simp at h
  · rename_i c rest heq
    have h₁ := length_of_skipBlank_eq heq
    split at h
    · simp at h
    split at h
    · simp only [Except.ok.injEq, Next.item.injEq] at h
      subst h
      simp only [List.length_cons]
      omega
    split at h
    · split at h
      · simp at h
      · rename_i d more heq'
        have h₂ := length_of_skipBlank_eq heq'
        split at h
        · simp at h
        · simp only [Except.ok.injEq, Next.item.injEq] at h
          subst h
          simp only [List.length_cons]
          omega
    · simp at h

/-- A record that is partly read. -/
structure Progress (ρ : Type) where
  /-- The fields read so far. -/
  seen : List String := []
  record : ρ

/-- Reads one member of an object, from its key on. -/
def readMember (fields : List (Field ρ)) (progress : Progress ρ) (s : List Char) :
    Except JsonError (Progress ρ × List Char) :=
  match s with
  | '"' :: s => do
    let (key, s) ← stringBody s
    match fields.find? fun field => field.name.toList = key with
    | some field =>
      if field.name ∈ progress.seen then
        throw .mismatched
      else
        let s ← colon s
        let (store, s) ← field.value.read s
        pure (⟨field.name :: progress.seen, store progress.record⟩, s)
    | none =>
      let s ← colon s
      let s ← skipValue s
      pure (progress, s)
  | _ => .error .malformed

theorem readMember_length {fields : List (Field ρ)} {progress progress' : Progress ρ}
    {s r : List Char} (h : readMember fields progress s = .ok (progress', r)) :
    r.length < s.length := by
  unfold readMember at h
  split at h
  · rename_i s
    obtain ⟨⟨key, s₁⟩, hkey, h⟩ := bind_eq_ok_iff.mp h
    have h₁ := stringBody_length hkey
    dsimp only at h
    split at h
    · rename_i field _
      split at h
      · simp [throw, throwThe, MonadExceptOf.throw] at h
      · obtain ⟨s₂, hcolon, h⟩ := bind_eq_ok_iff.mp h
        obtain ⟨⟨store, s₃⟩, hvalue, h⟩ := bind_eq_ok_iff.mp h
        have h₂ := colon_length hcolon
        have h₃ := field.value.consumes hvalue
        simp only [pure, Except.pure, Except.ok.injEq, Prod.mk.injEq] at h
        rw [← h.2, List.length_cons]
        omega
    · obtain ⟨s₂, hcolon, h⟩ := bind_eq_ok_iff.mp h
      obtain ⟨s₃, hvalue, h⟩ := bind_eq_ok_iff.mp h
      have h₂ := colon_length hcolon
      have h₃ := skipValue_length_le hvalue
      simp only [pure, Except.pure, Except.ok.injEq, Prod.mk.injEq] at h
      rw [← h.2, List.length_cons]
      omega
  · simp at h

/-- Reads the members of an object up to its end. -/
def readMembers (fields : List (Field ρ)) (first : Bool) (progress : Progress ρ) (s : List Char) :
    Except JsonError (Progress ρ × List Char) :=
  match _hnext : next '\x7d' first s with
  | .error e => .error e
  | .ok (.finish rest) => .ok (progress, rest)
  | .ok (.item member) =>
    match _hmember : readMember fields progress member with
    | .error e => .error e
    | .ok (progress, rest) => readMembers fields false progress rest
termination_by s.length
decreasing_by
  exact Nat.lt_of_lt_of_le (readMember_length _hmember) (next_item_length_le _hnext)

/-- Reads the values of an array in the order of the fields, as many as there are. -/
def readElements (first : Bool) (progress : Progress ρ) (s : List Char) :
    List (Field ρ) → Except JsonError (Progress ρ × List Char)
  | [] => (readEnd ']' s).map fun rest => (progress, rest)
  | field :: fields => do
    match ← next ']' first s with
    | .finish rest => pure (progress, rest)
    | .item s =>
      let (store, rest) ← field.value.read s
      readElements false ⟨field.name :: progress.seen, store progress.record⟩ rest fields

/-- The record that was read, unless a field is missing that has to be there. -/
def complete (schema : Schema ρ) (progress : Progress ρ) : Except JsonError ρ :=
  if schema.strict ∧ ¬ ∀ field ∈ schema.fields, field.name ∈ progress.seen then
    .error .mismatched
  else
    .ok progress.record

/-- Reads a record. -/
def readRecord (schema : Schema ρ) (s : List Char) : Except JsonError (ρ × List Char) :=
  match skipBlank s with
  | '[' :: rest => do
    let (progress, rest) ← readElements true { record := schema.initial } rest schema.fields
    let record ← complete schema progress
    pure (record, rest)
  | '\x7b' :: rest => do
    let (progress, rest) ← readMembers schema.fields true { record := schema.initial } rest
    let record ← complete schema progress
    pure (record, rest)
  | other => .error (wrongKind other)

/-! ## Records take up some of the text -/

theorem next_finish_length {close : Char} {first : Bool} {s r : List Char}
    (h : next close first s = .ok (.finish r)) : r.length < s.length := by
  unfold next at h
  split at h
  · simp at h
  · rename_i c rest heq
    have h₁ := length_of_skipBlank_eq heq
    split at h
    · simp only [Except.ok.injEq, Next.finish.injEq] at h
      exact h ▸ h₁
    split at h
    · simp at h
    split at h
    · split at h
      · simp at h
      · split at h <;> simp at h
    · simp at h

theorem readMembers_length {fields : List (Field ρ)} {first : Bool}
    {progress progress' : Progress ρ} {s r : List Char}
    (h : readMembers fields first progress s = .ok (progress', r)) : r.length < s.length := by
  fun_induction readMembers fields first progress s with
  | case1 => simp at h
  | case2 first progress s rest hnext =>
    simp only [Except.ok.injEq, Prod.mk.injEq] at h
    exact h.2 ▸ next_finish_length hnext
  | case3 => simp at h
  | case4 first progress s member hnext progress₁ rest hmember ih =>
    have h₁ := readMember_length hmember
    have h₂ := next_item_length_le hnext
    have := ih h
    omega

theorem readElements_length {fields : List (Field ρ)} {first : Bool}
    {progress progress' : Progress ρ} {s r : List Char}
    (h : readElements first progress s fields = .ok (progress', r)) : r.length < s.length := by
  induction fields generalizing first progress s with
  | nil =>
    obtain ⟨rest, hend, h⟩ := map_eq_ok_iff.mp h
    simp only [Prod.mk.injEq] at h
    exact h.2 ▸ readEnd_length hend
  | cons field fields ih =>
    obtain ⟨found, hnext, h⟩ := bind_eq_ok_iff.mp h
    cases found with
    | finish rest =>
      simp only [pure, Except.pure, Except.ok.injEq, Prod.mk.injEq] at h
      exact h.2 ▸ next_finish_length hnext
    | item s' =>
      obtain ⟨⟨store, rest⟩, hvalue, h⟩ := bind_eq_ok_iff.mp h
      have h₁ := next_item_length_le hnext
      have h₂ := field.value.consumes hvalue
      have := ih h
      omega

theorem readRecord_length {schema : Schema ρ} {s r : List Char} {record : ρ}
    (h : readRecord schema s = .ok (record, r)) : r.length < s.length := by
  unfold readRecord at h
  split at h
  · rename_i rest heq
    obtain ⟨⟨progress, rest'⟩, helements, h⟩ := bind_eq_ok_iff.mp h
    obtain ⟨record', -, h⟩ := bind_eq_ok_iff.mp h
    simp only [pure, Except.pure, Except.ok.injEq, Prod.mk.injEq] at h
    exact Nat.lt_trans (readElements_length (h.2 ▸ helements)) (length_of_skipBlank_eq heq)
  · rename_i rest heq
    obtain ⟨⟨progress, rest'⟩, hmembers, h⟩ := bind_eq_ok_iff.mp h
    obtain ⟨record', -, h⟩ := bind_eq_ok_iff.mp h
    simp only [pure, Except.pure, Except.ok.injEq, Prod.mk.injEq] at h
    exact Nat.lt_trans (readMembers_length (h.2 ▸ hmembers)) (length_of_skipBlank_eq heq)
  · simp at h

end Json

/-- Decoder of the records of a schema. -/
def Decoder.record {ρ : Type} (schema : Schema ρ) : Decoder ρ where
  read := Json.readRecord schema
  consumes := Json.readRecord_length

end TieredDispatch
