import TieredDispatch.Tier

/-!
# Random choice of methods

A small generator of 64-bit words, and a choice of methods that prefers low numbers: first an upper
bound is drawn, and then a number up to it. So a few methods get hot and most stay cold.
-/

namespace TieredDispatch

/-- A generator of 64-bit words: a counter whose value is scrambled. -/
structure RandomSource where
  state : UInt64
deriving DecidableEq, Inhabited, Repr

namespace RandomSource

/-- The next word. -/
def next (source : RandomSource) : UInt64 × RandomSource :=
  let state := source.state + 0x9e3779b97f4a7c15
  let mixed := (state ^^^ (state >>> 30)) * 0xbf58476d1ce4e5b9
  let mixed := (mixed ^^^ (mixed >>> 27)) * 0x94d049bb133111eb
  (mixed ^^^ (mixed >>> 31), ⟨state⟩)

/-- A method among the first `methods` ones, skewed towards low numbers. -/
def pick (source : RandomSource) (methods : UInt64) : MethodId × RandomSource :=
  let (upper, source) := source.next
  let (choice, source) := source.next
  (⟨choice % (upper % methods + 1)⟩, source)

/-- The first `n` methods picked, put in front of those picked already. -/
def picksOnto (methods : UInt64) : Nat → RandomSource → List MethodId → List MethodId
  | 0, _, picked => picked
  | n + 1, source, picked =>
    let (m, source) := source.pick methods
    picksOnto methods n source (m :: picked)

/-- The first `n` methods picked. -/
def picks (source : RandomSource) (methods : UInt64) (n : Nat) : List MethodId :=
  (picksOnto methods n source []).reverse

end RandomSource

end TieredDispatch
