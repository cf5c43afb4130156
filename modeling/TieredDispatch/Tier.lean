import TieredDispatch.Text.Described

/-!
# Methods, tiers and decisions

A **method** is known by an opaque 64-bit identity. It runs interpreted until an artifact for it
is compiled at one of two **tiers**, `l1` below `l2`. A **decision** says which tier, if any, one
invocation asks for.
-/

namespace TieredDispatch

/-! ## Method identities -/

/-- Opaque identity of a method. It is the only key of the counter and of the cache. -/
structure MethodId where
  val : UInt64
deriving DecidableEq, Inhabited, Repr

namespace MethodId

/-- Identities are ordered by their number. -/
instance : Ord MethodId := ⟨fun a b => compare a.val b.val⟩

instance : ToString MethodId := ⟨fun m => "method#" ++ toString m.val⟩

instance : Described MethodId := ⟨fun m => Described.wrapper "MethodId" (describe m.val)⟩

instance : Std.TransOrd MethodId where
  eq_swap {a b} := Std.OrientedOrd.eq_swap (a := a.val) (b := b.val)
  isLE_trans {a b c} h₁ h₂ := by
    have htrans : ∀ x y z : UInt64,
        (compare x y).isLE → (compare y z).isLE → (compare x z).isLE :=
      fun _ _ _ => Std.TransOrd.isLE_trans
    exact htrans a.val b.val c.val h₁ h₂

instance : Std.LawfulEqOrd MethodId where
  eq_of_compare {a b} h := by
    have hval : a.val = b.val := Std.LawfulEqOrd.eq_of_compare (α := UInt64) h
    cases a
    cases b
    simp_all

end MethodId

/-! ## Tiers -/

/-- Compilation tier. -/
inductive Tier
  /-- Quick baseline compilation. -/
  | l1
  /-- Optimizing compilation. -/
  | l2
deriving DecidableEq, Inhabited, Repr

namespace Tier

/-- Position of a tier, lowest first. -/
def rank : Tier → Nat
  | l1 => 1
  | l2 => 2

/-- `l1` comes before `l2`. -/
instance : Ord Tier := ⟨fun a b => compare a.rank b.rank⟩

instance : LE Tier := ⟨fun a b => a.rank ≤ b.rank⟩

instance : LT Tier := ⟨fun a b => a.rank < b.rank⟩

instance (a b : Tier) : Decidable (a ≤ b) := inferInstanceAs (Decidable (a.rank ≤ b.rank))

instance (a b : Tier) : Decidable (a < b) := inferInstanceAs (Decidable (a.rank < b.rank))

instance : ToString Tier where
  toString
    | l1 => "L1"
    | l2 => "L2"

instance : Described Tier := ⟨toString⟩

end Tier

/-! ## The state of a method as callers see it -/

/-- How a method runs. A method moves forward only, and may skip `l1Compiled`. -/
inductive MethodTier
  | interpreted
  | l1Compiled
  | l2Compiled
deriving DecidableEq, Inhabited, Repr

namespace MethodTier

/-- The state of a method whose published artifact has the given tier. -/
def ofTier : Option Tier → MethodTier
  | none => interpreted
  | some .l1 => l1Compiled
  | some .l2 => l2Compiled

/-- Position of a state, the interpreter first. -/
def rank : MethodTier → Nat
  | interpreted => 0
  | l1Compiled => 1
  | l2Compiled => 2

instance : Ord MethodTier := ⟨fun a b => compare a.rank b.rank⟩

instance : LE MethodTier := ⟨fun a b => a.rank ≤ b.rank⟩

instance (a b : MethodTier) : Decidable (a ≤ b) := inferInstanceAs (Decidable (a.rank ≤ b.rank))

instance : ToString MethodTier where
  toString
    | interpreted => "Interpreted"
    | l1Compiled => "L1Compiled"
    | l2Compiled => "L2Compiled"

instance : Described MethodTier := ⟨toString⟩

end MethodTier

/-! ## Decisions -/

/-- What one invocation asks the compilers for. -/
inductive Decision
  | none
  | compileL1
  | compileL2
deriving DecidableEq, Inhabited, Repr

namespace Decision

/-- The tier a decision asks for, if any. -/
def tier : Decision → Option Tier
  | none => Option.none
  | compileL1 => some .l1
  | compileL2 => some .l2

instance : ToString Decision where
  toString
    | none => "None"
    | compileL1 => "CompileL1"
    | compileL2 => "CompileL2"

instance : Described Decision := ⟨toString⟩

end Decision

end TieredDispatch
