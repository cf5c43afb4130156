import TieredDispatch.UsageCounter

/-!
# Scripts for the usage counter

A script is a list of steps on one counter, each with an answer. Long runs of increments are
answered by a **summary**: the first and the last count that was handed out, and whether every count
is one more than the count before it.
-/

namespace TieredDispatch

/-! ## Runs of increments -/

namespace UsageCounter

/-- Counts one invocation of each of the given methods, and collects the counts handed out. -/
def incrementAll : UsageCounter → List MethodId → List UInt64 × UsageCounter
  | counter, [] => ([], counter)
  | counter, m :: ms =>
    let (count, counter) := counter.increment m
    let (counts, counter) := incrementAll counter ms
    (count :: counts, counter)

/-- Counts `n` invocations of one method. -/
def incrementTimes (counter : UsageCounter) (m : MethodId) (n : Nat) :
    List UInt64 × UsageCounter :=
  counter.incrementAll (List.replicate n m)

end UsageCounter

/-- The ends of a list of counts, and whether it has no gap and no repetition. -/
structure CountSummary where
  first : Option UInt64
  last : Option UInt64
  consecutive : Bool
deriving DecidableEq, Repr

/-- Whether every count is one more than the count before it. -/
def areConsecutive (counts : List UInt64) : Bool :=
  (counts.zip counts.tail).all fun (a, b) => b = a + 1

/-- The summary of a list of counts. -/
def CountSummary.of (counts : List UInt64) : CountSummary :=
  ⟨counts.head?, counts.getLast?, areConsecutive counts⟩

/-! ## Steps -/

/-- A step on a counter. -/
inductive CounterStep
  | increment (m : MethodId)
  /-- Increments one method `n` times. -/
  | repeated (m : MethodId) (n : Nat)
  /-- Increments `n` methods whose numbers lie `stride` apart. -/
  | range (m : MethodId) (n : Nat) (stride : UInt64)
  /-- Some threads increment one method `n` times each. -/
  | threads (m : MethodId) (callers n : Nat)
  | get (m : MethodId)
  | size
  | isEmpty
  | layout

/-- What a step on a counter answers. -/
inductive CounterAnswer
  | count (n : UInt64)
  | summary (s : CountSummary)
  | size (n : Nat)
  | flag (b : Bool)
  /-- The number of shards, and the shards in use with their counts. -/
  | layout (shards : Nat) (used : List (Nat × List (MethodId × UInt64)))

/-- The methods whose numbers are `m`, `m + stride` and so on. -/
def methodRange (m : MethodId) (n : Nat) (stride : UInt64) : List MethodId :=
  (List.range n).map fun i => ⟨m.val + UInt64.ofNat i * stride⟩

namespace CounterStep

/-- Carries out a step. -/
def run (counter : UsageCounter) : CounterStep → CounterAnswer × UsageCounter
  | increment m =>
    let (count, counter) := counter.increment m
    (.count count, counter)
  | repeated m n =>
    let (counts, counter) := counter.incrementTimes m n
    (.summary (.of counts), counter)
  | range m n stride =>
    let (counts, counter) := counter.incrementAll (methodRange m n stride)
    (.count (counts.foldl (· + ·) 0), counter)
  | threads m callers n =>
    let (counts, counter) := counter.incrementTimes m (callers * n)
    (.summary (.of (counts.mergeSort fun a b => a ≤ b)), counter)
  | get m => (.count (counter.get m), counter)
  | size => (.size counter.size, counter)
  | isEmpty => (.flag counter.isEmpty, counter)
  | layout => (.layout counter.counts.shards.size counter.counts.layout, counter)

/-- Carries out steps one after the other. -/
def runAll : UsageCounter → List CounterStep → List CounterAnswer
  | _, [] => []
  | counter, step :: steps =>
    let (answer, counter) := step.run counter
    answer :: runAll counter steps

end CounterStep

end TieredDispatch
