import TieredDispatch.Dispatch.Session

/-!
# Simulated collaborators

A compiler that takes some time and fails every so often, and an engine that burns processor cycles
in proportion to how a method runs. Neither makes calls of its own.
-/

namespace TieredDispatch

/-! ## The compiler -/

/-- What the simulated compiler makes. -/
structure SimArtifact where
  method : MethodId
  tier : Tier
deriving DecidableEq, Inhabited, Repr

instance : Described SimArtifact where
  describe artifact := Described.record "SimArtifact" [
    ("method", describe artifact.method), ("tier", describe artifact.tier)]

/-- A compiler that fails on every attempt whose number is a multiple of `failEvery`. -/
structure SimulatedCompiler where
  failEvery : Option UInt64 := none
  /-- Milliseconds it takes to compile at `l1`; at `l2` it takes four times as long. -/
  delay : Nat := 0
  attempts : UInt64 := 0
  /-- Milliseconds spent so far. -/
  spent : Nat := 0
deriving Inhabited, Repr

namespace SimulatedCompiler

/-- A compiler before its first attempt. Failing on every zeroth attempt means never failing. -/
def start (delay : Nat) (failEvery : Option UInt64) : SimulatedCompiler :=
  { failEvery := failEvery.filter (0 < ·), delay }

/-- Whether an attempt fails. -/
def fails (compiler : SimulatedCompiler) (attempt : UInt64) : Bool :=
  compiler.failEvery.any fun n => attempt % n = 0

/-- Milliseconds a compilation takes. -/
def delayAt (compiler : SimulatedCompiler) : Tier → Nat
  | .l1 => compiler.delay
  | .l2 => compiler.delay * 4

/-- One attempt to compile. -/
def compile (compiler : SimulatedCompiler) (request : Request) :
    Except String SimArtifact × SimulatedCompiler :=
  let attempt := compiler.attempts + 1
  let after := { compiler with
    attempts := attempt, spent := compiler.spent + compiler.delayAt request.tier }
  if compiler.fails attempt then
    (.error ("simulated compiler failure on attempt " ++ toString attempt), after)
  else
    (.ok ⟨request.method, request.tier⟩, after)

/-- Attempts to compile one request after the other. -/
def compileAll : SimulatedCompiler → List Request → List (Except String SimArtifact)
  | _, [] => []
  | compiler, request :: requests =>
    let (result, compiler) := compiler.compile request
    result :: compileAll compiler requests

end SimulatedCompiler

/-! ## The engine -/

/-- How many times faster than the interpreter an artifact of a tier runs. -/
def speedup : Tier → UInt64
  | .l1 => 4
  | .l2 => 16

/-- A word turned five bits to the left. -/
def rotateFive (n : UInt64) : UInt64 :=
  (n <<< 5) ||| (n >>> 59)

/-- Turns a word and mixes in the number of the round, for `n` rounds from round `i` on. -/
def spinFrom : Nat → UInt64 → UInt64 → UInt64
  | 0, _, acc => acc
  | n + 1, i, acc => spinFrom n (i + 1) (rotateFive acc ^^^ i)

/-- Busy work for a method. -/
def spin (m : MethodId) (iterations : UInt64) : UInt64 :=
  spinFrom iterations.toNat 0 m.val

/-- An engine that takes `work` rounds to interpret a method. -/
structure SimulatedEngine where
  work : UInt64 := 0
deriving Inhabited, Repr

namespace SimulatedEngine

/-- Interprets a method. -/
def interpret (engine : SimulatedEngine) (m : MethodId) : UInt64 :=
  spin m engine.work

/-- Runs an artifact. -/
def execute (engine : SimulatedEngine) (artifact : SimArtifact) : UInt64 :=
  spin artifact.method (engine.work / speedup artifact.tier)

end SimulatedEngine

/-! ## Both together -/

/-- The outcome of an attempt to compile. -/
def Outcome.ofExcept {γ : Type} : Except String γ → Outcome γ
  | .ok v => .value v
  | .error reason => .error reason

/-- The simulated compiler with a simulated engine. -/
def simulatedCollaborators (engine : SimulatedEngine) :
    Collaborators SimulatedCompiler SimArtifact UInt64 where
  compile compiler request :=
    let (result, compiler) := compiler.compile request
    { state := compiler, conclude := fun compiler => (.ofExcept result, compiler) }
  execute compiler artifact :=
    { state := compiler, conclude := fun compiler => (.value (engine.execute artifact), compiler) }
  interpret compiler m :=
    { state := compiler, conclude := fun compiler => (.value (engine.interpret m), compiler) }

end TieredDispatch
