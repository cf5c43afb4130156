import TieredDispatch.CompilationCache

/-!
# Scripts for the compilation cache

Steps on a cache, each with an answer. What a lookup gives back can be held on to, and stays what it
was when it was looked up, whatever is published later.
-/

namespace TieredDispatch

/-- A step on a cache with artifacts of type `α`. -/
inductive CacheStep (α : Type)
  | request (m : MethodId) (tier : Tier)
  | release (m : MethodId) (tier : Tier)
  | publish (m : MethodId) (tier : Tier) (artifact : α)
  | tierOf (m : MethodId)
  | tierState (m : MethodId)
  | size
  | isEmpty
  | published
  /-- Some threads ask for the same request. -/
  | race (m : MethodId) (tier : Tier) (threads : Nat)

/-- What a step on a cache answers. -/
inductive CacheAnswer
  | flag (b : Bool)
  | state (s : TierState)
  | tier (t : Option Tier)
  | size (n : Nat)
  | published (methods : List (MethodId × Tier))

namespace CompilationCache

variable {α : Type}

/-- Asks for the same request `n` times, and counts the grants. -/
def requestTimes (cache : CompilationCache α) (m : MethodId) (tier : Tier) :
    Nat → Nat × CompilationCache α
  | 0 => (0, cache)
  | n + 1 =>
    let (granted, cache) := cache.request m tier
    let (grants, cache) := cache.requestTimes m tier n
    ((if granted then 1 else 0) + grants, cache)

end CompilationCache

namespace CacheStep

variable {α : Type}

/-- Carries out a step. -/
def run (cache : CompilationCache α) : CacheStep α → CacheAnswer × CompilationCache α
  | request m tier =>
    let (granted, cache) := cache.request m tier
    (.flag granted, cache)
  | release m tier =>
    let cache := cache.release m tier
    (.state (cache.tierState m), cache)
  | publish m tier artifact =>
    let (taken, cache) := cache.publish m tier artifact
    (.flag taken, cache)
  | tierOf m => (.tier (cache.tierOf m), cache)
  | tierState m => (.state (cache.tierState m), cache)
  | size => (.size cache.size, cache)
  | isEmpty => (.flag cache.isEmpty, cache)
  | published => (.published cache.published, cache)
  | race m tier threads =>
    let (grants, cache) := cache.requestTimes m tier threads
    (.size grants, cache)

end CacheStep

/-! ## Holding on to lookups -/

/-- A cache and what was looked up in it, oldest first. -/
structure CacheSession (α : Type) where
  cache : CompilationCache α
  held : List (CompiledMethod α) := []

/-- A step on a cache whose lookups can be held. -/
inductive CacheSessionStep (α : Type)
  | shared (step : CacheStep α)
  | lookup (m : MethodId)
  /-- Holds on to what a lookup finds. -/
  | hold (m : MethodId)
  | held
  | shards

/-- What such a step answers. -/
inductive CacheSessionAnswer (α : Type)
  | shared (answer : CacheAnswer)
  | found (compiled : Option (CompiledMethod α))
  | held (compiled : List (CompiledMethod α))
  | size (n : Nat)

namespace CacheSessionStep

variable {α : Type}

/-- Carries out a step. -/
def run (s : CacheSession α) : CacheSessionStep α → CacheSessionAnswer α × CacheSession α
  | shared step =>
    let (answer, cache) := step.run s.cache
    (.shared answer, { s with cache })
  | lookup m => (.found (s.cache.lookup m), s)
  | hold m =>
    let held := s.held ++ (s.cache.lookup m).toList
    (.size held.length, { s with held })
  | held => (.held s.held, s)
  | shards => (.size s.cache.entries.shards.size, s)

/-- Carries out steps one after the other. -/
def runAll : CacheSession α → List (CacheSessionStep α) → List (CacheSessionAnswer α)
  | _, [] => []
  | s, step :: steps =>
    let (answer, s) := step.run s
    answer :: runAll s steps

end CacheSessionStep

end TieredDispatch
