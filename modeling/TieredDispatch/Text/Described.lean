/-!
# Developer-facing text

`describe` writes a value the way it appears in diagnostics: a record as
`Name \x7b field: value, field: value \x7d`, a wrapper as `Name(value)`, an optional value as
`None` or `Some(value)`. An open record, one that shows only some of its fields, ends in `..`.
-/

namespace TieredDispatch

/-- Types whose values have a developer-facing text. -/
class Described (α : Type) where
  describe : α → String

export Described (describe)

namespace Described

/-- The fields of a record, separated by commas. -/
def fields (parts : List (String × String)) : String :=
  ", ".intercalate (parts.map fun part => part.1 ++ ": " ++ part.2)

/-- A record with all of its fields. -/
def record (name : String) (parts : List (String × String)) : String :=
  name ++ " \x7b " ++ fields parts ++ " \x7d"

/-- A record that shows some of its fields and has others. -/
def openRecord (name : String) (parts : List (String × String)) : String :=
  name ++ " \x7b " ++ fields parts ++ ", .. \x7d"

/-- A wrapper around one value. -/
def wrapper (name content : String) : String :=
  name ++ "(" ++ content ++ ")"

end Described

instance : Described UInt64 := ⟨toString⟩

instance : Described Nat := ⟨toString⟩

instance : Described Bool where
  describe
    | true => "true"
    | false => "false"

instance {α : Type} [Described α] : Described (Option α) where
  describe
    | none => "None"
    | some a => Described.wrapper "Some" (describe a)

end TieredDispatch
