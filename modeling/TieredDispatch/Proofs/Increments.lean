import Mathlib.Algebra.BigOperators.Group.List.Basic
import TieredDispatch.Proofs.Sharding
import TieredDispatch.Proofs.Thresholds

/-!
# Counts handed out

**Theorem (`every_count_handed_out_once`).** Any number of callers increment any methods of one
counter, and their steps interleave in any way, so that several of them may find a new method
absent before the first enters it. Still the counts handed out for a method are one, two, three and
so on, each once, in the order of the additions.

Entering never changes a count (`UsageCounter.get_enter`), so the stored count of a method is the
number of additions to it, and each addition hands out the next number. All that is begun is
handed out or still under way (`Balanced`).
-/

namespace TieredDispatch

/-! ## Increments under way -/

/-- What an increment does next. -/
inductive IncrementStage
  | probing
  /-- The method was not found; next a zero count is entered. -/
  | entering
  | adding
deriving DecidableEq

/-- An increment under way. -/
structure Increment where
  method : MethodId
  stage : IncrementStage := .probing
deriving DecidableEq

/-- A counter and its callers. -/
structure Counting where
  counter : UsageCounter
  /-- What increment each caller is at, if any. -/
  callers : List (Option Increment)
  /-- The counts handed out, each with its method, oldest first. -/
  handed : List (MethodId × UInt64)

/-- One step of a caller. -/
inductive CountingMove
  /-- A caller that is at no increment begins one. -/
  | start (i : Nat) (m : MethodId)
  /-- A caller takes the next step of its increment. -/
  | advance (i : Nat)

namespace Increment

/-- The next step adds to the count of a method. -/
def adds (inc : Increment) (m : MethodId) : Prop :=
  inc.stage = .adding ∧ inc.method = m

instance (inc : Increment) (m : MethodId) : Decidable (inc.adds m) :=
  inferInstanceAs (Decidable (_ ∧ _))

/-- The steps that an increment takes at most. -/
def stepsLeft (inc : Increment) : Nat :=
  match inc.stage with
  | .probing => 3
  | .entering => 2
  | .adding => 1

theorem stepsLeft_le (inc : Increment) : inc.stepsLeft ≤ 3 := by
  unfold stepsLeft
  split <;> decide

end Increment

namespace CountingMove

/-- The method of an increment that begins. -/
def begun? : CountingMove → Option MethodId
  | start _ m => some m
  | advance _ => none

end CountingMove

/-- The methods of the increments begun, oldest first. -/
def begun (moves : List CountingMove) : List MethodId :=
  moves.filterMap (·.begun?)

namespace Counting

/-- A counter that has seen no method, with callers that are at no increment. -/
def start (shards callers : Nat) : Counting :=
  ⟨.withShards shards, List.replicate callers none, []⟩

/-- A caller begins an increment. -/
def begin (s : Counting) (i : Nat) (m : MethodId) : Counting :=
  { s with callers := s.callers.set i (some { method := m }) }

/-- A caller takes the next step of its increment. The last one hands out the count. -/
def advance (s : Counting) (i : Nat) (inc : Increment) : Counting :=
  match inc.stage with
  | .probing =>
    let stage := if s.counter.probe inc.method then .adding else .entering
    { s with callers := s.callers.set i (some { inc with stage }) }
  | .entering =>
    { s with
      counter := s.counter.enter inc.method
      callers := s.callers.set i (some { inc with stage := .adding }) }
  | .adding =>
    let (count, counter) := s.counter.add inc.method
    ⟨counter, s.callers.set i none, s.handed ++ [(inc.method, count)]⟩

/-- Carries out a move, if it is possible. -/
def step (s : Counting) : CountingMove → Option Counting
  | .start i m => if s.callers[i]? = some none then some (s.begin i m) else none
  | .advance i => s.callers[i]?.join.map (s.advance i)

/-- Carries out one move after the other. -/
def run : Counting → List CountingMove → Option Counting
  | s, [] => some s
  | s, move :: moves => (s.step move).bind (·.run moves)

/-- The counts handed out for a method, oldest first. -/
def handedOut (s : Counting) (m : MethodId) : List UInt64 :=
  (s.handed.filter (·.1 = m)).map (·.2)

/-- The increments of a method under way. -/
def underWay (s : Counting) (m : MethodId) : Nat :=
  s.callers.countP (·.any (·.method = m))

/-- No increment is under way. -/
def IsIdle (s : Counting) : Prop :=
  ∀ c ∈ s.callers, c = none

/-- The method of the increment that a move is part of. -/
def methodOf? (s : Counting) : CountingMove → Option MethodId
  | .start _ m => some m
  | .advance i => s.callers[i]?.join.map (·.method)

variable {s t : Counting} {i : Nat} {inc : Increment} {m : MethodId} {move : CountingMove}

theorem step_cases (hstep : s.step move = some t) :
    (∃ i m, move = .start i m ∧ s.callers[i]? = some none ∧ t = s.begin i m) ∨
      ∃ i inc, move = .advance i ∧ s.callers[i]? = some (some inc) ∧ t = s.advance i inc := by
  cases move with
  | start i m =>
    obtain ⟨hfree, hbegin⟩ := Option.ite_none_right_eq_some.mp hstep
    exact .inl ⟨i, m, rfl, hfree, (Option.some.inj hbegin).symm⟩
  | advance i =>
    obtain ⟨inc, hat, rfl⟩ := Option.map_eq_some_iff.mp hstep
    exact .inr ⟨i, inc, rfl, Option.join_eq_some_iff.mp hat, rfl⟩

theorem step_start (hfree : s.callers[i]? = some none) (m : MethodId) :
    s.step (.start i m) = some (s.begin i m) :=
  if_pos hfree

theorem step_advance (hat : s.callers[i]? = some (some inc)) :
    s.step (.advance i) = some (s.advance i inc) := by
  rw [step, hat, Option.join_some, Option.map_some]

theorem advance_probing (s : Counting) (i : Nat) (m : MethodId) :
    s.advance i ⟨m, .probing⟩ =
      { s with callers :=
          s.callers.set i (some ⟨m, if s.counter.probe m then .adding else .entering⟩) } :=
  rfl

theorem advance_entering (s : Counting) (i : Nat) (m : MethodId) :
    s.advance i ⟨m, .entering⟩ =
      { s with
        counter := s.counter.enter m
        callers := s.callers.set i (some ⟨m, .adding⟩) } :=
  rfl

theorem advance_adding (s : Counting) (i : Nat) (m : MethodId) :
    s.advance i ⟨m, .adding⟩ =
      ⟨(s.counter.add m).2, s.callers.set i none, s.handed ++ [(m, (s.counter.add m).1)]⟩ :=
  rfl

/-! ## What a step does -/

theorem get_advance (s : Counting) (i : Nat) (inc : Increment) (m : MethodId) :
    (s.advance i inc).counter.get m =
      if inc.adds m then s.counter.get m + 1 else s.counter.get m := by
  obtain ⟨k, stage⟩ := inc
  cases stage with
  | probing => rfl
  | entering => exact s.counter.get_enter k m
  | adding =>
    refine (s.counter.get_add k m).trans ?_
    by_cases hkm : k = m
    · rw [if_pos hkm, if_pos ⟨rfl, hkm⟩, hkm]
    · rw [if_neg hkm, if_neg fun hadds => hkm hadds.2]

theorem handedOut_advance (s : Counting) (i : Nat) (inc : Increment) (m : MethodId) :
    (s.advance i inc).handedOut m =
      if inc.adds m then s.handedOut m ++ [saturatingAdd (s.counter.get m) 1]
      else s.handedOut m := by
  obtain ⟨k, stage⟩ := inc
  cases stage with
  | probing => rfl
  | entering => rfl
  | adding =>
    rw [advance_adding, handedOut, List.filter_append, List.map_append, List.filter_singleton]
    by_cases hkm : k = m
    · subst hkm
      rw [if_pos ⟨rfl, rfl⟩, decide_eq_true rfl]
      rfl
    · rw [if_neg fun hadds => hkm hadds.2, decide_eq_false hkm]
      exact List.append_nil _

/-- Probing stores nothing; any other step leaves its method stored. -/
theorem probe_advance (s : Counting) (i : Nat) (inc : Increment) (m : MethodId) :
    (s.advance i inc).counter.probe m ↔
      s.counter.probe m ∨ inc.stage ≠ .probing ∧ inc.method = m := by
  obtain ⟨k, stage⟩ := inc
  cases stage with
  | probing => simp [advance]
  | entering =>
    simp only [advance, UsageCounter.probe, UsageCounter.enter, ShardedMap.putIfAbsent]
    split
    · grind
    · rw [ShardedMap.contains_put]
      grind
  | adding =>
    simp only [advance, UsageCounter.probe, UsageCounter.add]
    rw [ShardedMap.contains_put]
    grind

/-- An increment that is about to add was so before, or has found its method stored or stored
it. -/
theorem probe_of_adding {inc' : Increment} (hmem : some inc' ∈ (s.advance i inc).callers)
    (hadding : inc'.stage = .adding) :
    some inc' ∈ s.callers ∨ (s.advance i inc).counter.probe inc'.method := by
  rw [s.probe_advance i inc inc'.method]
  obtain ⟨k, stage⟩ := inc
  cases stage with
  | probing =>
    rcases List.mem_or_eq_of_mem_set hmem with hbefore | hnew
    · exact .inl hbefore
    · obtain rfl := Option.some.inj hnew
      by_contra habsent
      rw [not_or, not_or] at habsent
      rw [if_neg habsent.2.1] at hadding
      cases hadding
  | entering =>
    rcases List.mem_or_eq_of_mem_set hmem with hbefore | hnew
    · exact .inl hbefore
    · obtain rfl := Option.some.inj hnew
      exact .inr (.inr ⟨nofun, rfl⟩)
  | adding =>
    rcases List.mem_or_eq_of_mem_set hmem with hbefore | hnew
    · exact .inl hbefore
    · cases hnew

/-- What one caller turns to is one more, and what it leaves is one less. -/
theorem countP_set_add {callers : List (Option Increment)} {c : Option Increment}
    (hat : callers[i]? = some c) (c' : Option Increment) (p : Option Increment → Bool) :
    (callers.set i c').countP p + (p c).toNat = callers.countP p + (p c').toNat := by
  obtain ⟨hi, rfl⟩ := List.getElem?_eq_some_iff.mp hat
  obtain ⟨before, after, hsplit, -, hset⟩ :
      ∃ before after, callers = before ++ callers[i] :: after ∧ before.length = i ∧
        callers.set i c' = before ++ c' :: after := List.exists_of_set hi
  have hbefore := congrArg (List.countP p) hsplit
  rw [List.countP_append, List.countP_cons] at hbefore
  rw [hset, hbefore, List.countP_append, List.countP_cons]
  cases p callers[i] <;> cases p c' <;> simp <;> omega

theorem underWay_begin (hfree : s.callers[i]? = some none) (k m : MethodId) :
    (s.begin i k).underWay m = s.underWay m + if k = m then 1 else 0 := by
  have hcount := countP_set_add hfree (some { method := k }) (·.any (·.method = m))
  change (s.begin i k).underWay m + 0 = s.underWay m + (decide (k = m)).toNat at hcount
  rw [Nat.add_zero] at hcount
  rw [hcount]
  by_cases hkm : k = m <;> simp [hkm]

theorem underWay_advance (hat : s.callers[i]? = some (some inc)) (m : MethodId) :
    (s.advance i inc).underWay m + (if inc.adds m then 1 else 0) = s.underWay m := by
  obtain ⟨k, stage⟩ := inc
  have hcount := fun c' => countP_set_add hat c' (·.any (·.method = m))
  cases stage with
  | probing => exact Nat.add_right_cancel (hcount _)
  | entering => exact Nat.add_right_cancel (hcount _)
  | adding =>
    have hleft := hcount none
    change (s.advance i ⟨k, .adding⟩).underWay m + (decide (k = m)).toNat = s.underWay m at hleft
    by_cases hkm : k = m <;> simpa [Increment.adds, hkm] using hleft

/-- The next step of an increment is its last, or brings it nearer to that. -/
theorem callers_advance (hat : s.callers[i]? = some (some inc)) :
    (s.advance i inc).callers[i]? = some none ∨
      ∃ inc', (s.advance i inc).callers[i]? = some (some inc') ∧ inc'.method = inc.method ∧
        inc'.stepsLeft < inc.stepsLeft := by
  have hi : i < s.callers.length := (List.getElem?_eq_some_iff.mp hat).1
  obtain ⟨k, stage⟩ := inc
  cases stage with
  | probing =>
    refine .inr ⟨_, List.getElem?_set_self hi, rfl, ?_⟩
    split <;> simp [Increment.stepsLeft]
  | entering => exact .inr ⟨_, List.getElem?_set_self hi, rfl, Nat.lt_succ_self 1⟩
  | adding => exact .inl (List.getElem?_set_self hi)

/-- A step leaves the counts of the methods that it is not about. -/
theorem unchanged_of_step (hstep : s.step move = some t) (hother : s.methodOf? move ≠ some m) :
    t.handedOut m = s.handedOut m ∧ t.counter.get m = s.counter.get m ∧
      t.underWay m = s.underWay m := by
  rcases step_cases hstep with ⟨i, k, rfl, hfree, rfl⟩ | ⟨i, inc, rfl, hat, rfl⟩
  · have hkm : k ≠ m := fun hkm => hother (congrArg some hkm)
    refine ⟨rfl, rfl, ?_⟩
    rw [underWay_begin hfree, if_neg hkm, Nat.add_zero]
  · have hadds : ¬ inc.adds m := by
      rintro ⟨-, hmethod⟩
      refine hother ?_
      rw [methodOf?, hat, Option.join_some, Option.map_some, hmethod]
    have hleft := underWay_advance hat m
    rw [if_neg hadds, Nat.add_zero] at hleft
    exact ⟨(s.handedOut_advance i inc m).trans (if_neg hadds),
      (s.get_advance i inc m).trans (if_neg hadds), hleft⟩

/-- An increment that nothing comes between is `UsageCounter.increment`. -/
theorem run_increment (hfree : s.callers[i]? = some none) (m : MethodId) :
    ∃ steps, s.run (.start i m :: .replicate steps (.advance i)) =
      some ⟨(s.counter.increment m).2, s.callers,
        s.handed ++ [(m, (s.counter.increment m).1)]⟩ := by
  obtain ⟨hi, hnone⟩ := List.getElem?_eq_some_iff.mp hfree
  have hback : s.callers.set i none = s.callers := by rw [← hnone, List.set_getElem_self]
  have hat : ∀ stage, (s.callers.set i (some ⟨m, stage⟩))[i]? = some (some ⟨m, stage⟩) :=
    fun _ => List.getElem?_set_self hi
  -- What is left to do once the stage is reached that the probe leads to.
  have hadded : ∀ counter : UsageCounter,
      (Counting.mk counter (s.callers.set i (some ⟨m, .adding⟩)) s.handed).step (.advance i) =
        some ⟨(counter.add m).2, s.callers, s.handed ++ [(m, (counter.add m).1)]⟩ := by
    intro counter
    rw [step_advance (hat .adding), advance_adding, List.set_set, hback]
  by_cases hprobe : s.counter.probe m
  · refine ⟨2, ?_⟩
    rw [run, step_start hfree, Option.bind_some, List.replicate_succ, run,
      step_advance (hat .probing), advance_probing, begin, if_pos hprobe, List.set_set,
      Option.bind_some, List.replicate_one, run, hadded, UsageCounter.increment, if_pos hprobe]
    rfl
  · refine ⟨3, ?_⟩
    rw [run, step_start hfree, Option.bind_some, List.replicate_succ, run,
      step_advance (hat .probing), advance_probing, begin, if_neg hprobe, List.set_set,
      Option.bind_some, List.replicate_succ, run, step_advance (hat .entering), advance_entering,
      List.set_set, Option.bind_some, List.replicate_one, run, hadded, UsageCounter.increment,
      if_neg hprobe]
    rfl

end Counting

/-! ## The tally of a run -/

/-- After the given moves: every increment begun has handed out its count or is under way, and the
counts handed out are those stored. -/
structure Counting.Balanced (moves : List CountingMove) (s : Counting) : Prop where
  begun_eq : ∀ m, (begun moves).count m = (s.handedOut m).length + s.underWay m
  stored : ∀ m, s.counter.get m = .ofNat (s.handedOut m).length
  handed : ∀ m, s.handedOut m =
    (List.range (s.handedOut m).length).map fun k => saturatingAdd (.ofNat k) 1
  /-- Only methods of increments that were begun are stored. -/
  probed : ∀ m, s.counter.probe m → m ∈ begun moves
  /-- What a count was handed out for is stored. -/
  present : ∀ m, s.handedOut m ≠ [] → s.counter.probe m
  /-- An addition finds its method stored. -/
  ready : ∀ inc, some inc ∈ s.callers → inc.stage = .adding → s.counter.probe inc.method

namespace Counting.Balanced

variable {moves : List CountingMove} {s t : Counting} {i : Nat} {inc : Increment} {m : MethodId}
  {move : CountingMove}

theorem start (shards callers : Nat) : Balanced [] (.start shards callers) where
  begun_eq m := by
    simp [begun, Counting.start, Counting.handedOut, Counting.underWay, List.countP_replicate]
  stored m := UsageCounter.get_withShards shards m
  handed m := rfl
  probed m hprobe := by
    rw [Counting.start, UsageCounter.probe, ShardedMap.contains_eq_isSome_get?,
      UsageCounter.withShards, ShardedMap.get?_withShards] at hprobe
    cases hprobe
  present m hhanded := absurd rfl hhanded
  ready inc hmem := by
    obtain ⟨-, hnone⟩ := List.mem_replicate.mp hmem
    cases hnone

theorem begun_concat (moves : List CountingMove) (move : CountingMove) :
    begun (moves ++ [move]) = begun moves ++ move.begun?.toList := by
  rw [begun, List.filterMap_append]
  cases move <;> rfl

theorem begin (hbalanced : Balanced moves s) (hfree : s.callers[i]? = some none) (k : MethodId) :
    Balanced (moves ++ [.start i k]) (s.begin i k) where
  begun_eq m := by
    rw [begun_concat, List.count_append, Counting.underWay_begin hfree, hbalanced.begun_eq,
      Nat.add_assoc, CountingMove.begun?, Option.toList_some, List.count_singleton]
    simp only [beq_iff_eq]
    rfl
  stored := hbalanced.stored
  handed := hbalanced.handed
  probed m hprobe := by
    rw [begun_concat]
    exact List.mem_append_left _ (hbalanced.probed m hprobe)
  present := hbalanced.present
  ready inc hmem hadding := by
    rcases List.mem_or_eq_of_mem_set hmem with hbefore | hnew
    · exact hbalanced.ready inc hbefore hadding
    · obtain rfl := Option.some.inj hnew
      cases hadding

theorem advance (hbalanced : Balanced moves s) (hat : s.callers[i]? = some (some inc)) :
    Balanced (moves ++ [.advance i]) (s.advance i inc) where
  begun_eq m := by
    have hbegun := hbalanced.begun_eq m
    have hleft := Counting.underWay_advance hat m
    rw [begun_concat, CountingMove.begun?, Option.toList_none, List.append_nil, hbegun,
      s.handedOut_advance i inc m]
    split at hleft
    · rename_i hadds
      rw [if_pos hadds, List.length_append, List.length_singleton]
      omega
    · rename_i hadds
      rw [if_neg hadds]
      omega
  stored m := by
    rw [s.get_advance i inc m, s.handedOut_advance i inc m]
    split
    · rw [List.length_append, List.length_singleton, UInt64.ofNat_add, hbalanced.stored]
      rfl
    · exact hbalanced.stored m
  handed m := by
    rw [s.handedOut_advance i inc m]
    split
    · -- The stored count is the number of counts handed out, so the next one continues the range.
      rw [List.length_append, List.length_singleton, List.range_succ, List.map_append,
        ← hbalanced.handed m, hbalanced.stored]
      rfl
    · exact hbalanced.handed m
  probed m hprobe := by
    rw [begun_concat, CountingMove.begun?, Option.toList_none, List.append_nil]
    rcases (s.probe_advance i inc m).mp hprobe with hbefore | ⟨-, rfl⟩
    · exact hbalanced.probed m hbefore
    · have hcount : 0 < s.underWay inc.method :=
        List.countP_pos_iff.mpr ⟨some inc, List.mem_of_getElem? hat, by simp⟩
      have hbegun := hbalanced.begun_eq inc.method
      exact List.count_pos_iff.mp (by omega)
  present m hhanded := by
    rw [s.probe_advance i inc m]
    rw [s.handedOut_advance i inc m] at hhanded
    split at hhanded
    · rename_i hadds
      exact .inr ⟨by rw [hadds.1]; decide, hadds.2⟩
    · exact .inl (hbalanced.present m hhanded)
  ready inc' hmem hadding := by
    rcases Counting.probe_of_adding hmem hadding with hbefore | hprobe
    · exact (s.probe_advance i inc inc'.method).mpr (.inl (hbalanced.ready inc' hbefore hadding))
    · exact hprobe

theorem step (hbalanced : Balanced moves s) (hstep : s.step move = some t) :
    Balanced (moves ++ [move]) t := by
  rcases Counting.step_cases hstep with ⟨i, k, rfl, hfree, rfl⟩ | ⟨i, inc, rfl, hat, rfl⟩
  · exact hbalanced.begin hfree k
  · exact hbalanced.advance hat

theorem run {more : List CountingMove} (hbalanced : Balanced moves s) (hrun : s.run more = some t) :
    Balanced (moves ++ more) t := by
  induction more generalizing moves s with
  | nil =>
    obtain rfl := Option.some.inj hrun
    rwa [List.append_nil]
  | cons move more ih =>
    obtain ⟨u, hstep, hrest⟩ := Option.bind_eq_some_iff.mp hrun
    have hlater := ih (hbalanced.step hstep) hrest
    rwa [List.append_assoc] at hlater

/-- The counts handed out are the numbers from one on, and the last of them is stored. -/
theorem numbered (hbalanced : Balanced moves s) (hfew : (s.handedOut m).length < 2 ^ 64) :
    (s.handedOut m).map (·.toNat) = List.range' 1 (s.handedOut m).length ∧
      (s.counter.get m).toNat = (s.handedOut m).length := by
  refine ⟨?_, ?_⟩
  · rw [List.range'_eq_map_range]
    conv_lhs => rw [hbalanced.handed m, List.map_map]
    refine List.map_congr_left fun k hk => ?_
    have hlt := List.mem_range.mp hk
    have hk' : (UInt64.ofNat k).toNat = k := UInt64.toNat_ofNat_of_lt' (hlt.trans hfew)
    have hfits : (UInt64.ofNat k).toNat + 1 < 2 ^ 64 := by omega
    rw [Function.comp_apply, saturatingAdd_one hfits, toNat_add_one hfits, hk', Nat.add_comm]
  · rw [hbalanced.stored, UInt64.toNat_ofNat_of_lt' hfew]

/-- Once nothing is under way, the methods stored are those of the increments begun. -/
theorem size_eq (hbalanced : Balanced moves s) (hidle : ∀ m, s.underWay m = 0) :
    s.counter.size = (begun moves).toFinset.card := by
  rw [UsageCounter.size, ← ShardedMap.card_keys]
  refine congrArg Finset.card (Finset.ext fun m => ?_)
  rw [List.mem_toFinset, List.mem_toFinset, ShardedMap.mem_keys]
  refine ⟨hbalanced.probed m, fun hbegun => hbalanced.present m fun hnone => ?_⟩
  have hcount := List.count_pos_iff.mpr hbegun
  rw [hbalanced.begun_eq, hidle, hnone] at hcount
  cases hcount

end Counting.Balanced

theorem Counting.IsIdle.underWay_eq {s : Counting} (hidle : s.IsIdle) (m : MethodId) :
    s.underWay m = 0 := by
  refine List.countP_eq_zero.mpr fun c hc => ?_
  rw [hidle c hc]
  exact Bool.false_ne_true

/-! ## Main result -/

/-- **Every count is handed out once.** However the steps of any number of callers interleave, the
counts handed out for a method are the numbers from one on, in the order of the additions, and the
stored count is the last of them; an increment is still under way or its count is among them. Once
all increments are over, the counter knows the methods that were incremented, and no other. A step
leaves the counts of every method but its own, an addition finds its method stored, and an increment
that is under way can take its next step, and is over after three of them. By itself an increment
is `UsageCounter.increment`. -/
theorem every_count_handed_out_once {shards callers : Nat} {moves : List CountingMove}
    {s : Counting} (hrun : (Counting.start shards callers).run moves = some s) :
    (∀ m, (begun moves).count m < 2 ^ 64 → ∃ done, done + s.underWay m = (begun moves).count m ∧
      (s.handedOut m).map (·.toNat) = List.range' 1 done ∧ (s.counter.get m).toNat = done) ∧
    (s.IsIdle →
      (∀ m, (begun moves).count m < 2 ^ 64 →
        (s.handedOut m).map (·.toNat) = List.range' 1 ((begun moves).count m) ∧
          (s.counter.get m).toNat = (begun moves).count m) ∧
      s.counter.size = (begun moves).toFinset.card) ∧
    (∀ move t m, s.step move = some t → s.methodOf? move ≠ some m →
      t.handedOut m = s.handedOut m ∧ t.counter.get m = s.counter.get m ∧
        t.underWay m = s.underWay m) ∧
    (∀ inc, some inc ∈ s.callers → inc.stage = .adding → s.counter.probe inc.method) ∧
    (∀ (i : Nat) inc, s.callers[i]? = some (some inc) → inc.stepsLeft ≤ 3 ∧
      ∃ t, s.step (.advance i) = some t ∧ (t.callers[i]? = some none ∨
        ∃ inc', t.callers[i]? = some (some inc') ∧ inc'.method = inc.method ∧
          inc'.stepsLeft < inc.stepsLeft)) ∧
    ∀ (i : Nat) m, s.callers[i]? = some none → ∃ steps,
      s.run (.start i m :: .replicate steps (.advance i)) =
        some ⟨(s.counter.increment m).2, s.callers,
          s.handed ++ [(m, (s.counter.increment m).1)]⟩ := by
  have hbalanced : Counting.Balanced moves s := (Counting.Balanced.start shards callers).run hrun
  refine ⟨fun m hfew => ?_, fun hidle => ⟨fun m hfew => ?_, hbalanced.size_eq hidle.underWay_eq⟩,
    fun move t m => Counting.unchanged_of_step, hbalanced.ready, fun i inc hat =>
    ⟨inc.stepsLeft_le, _, Counting.step_advance hat, Counting.callers_advance hat⟩,
    fun i m hfree => Counting.run_increment hfree m⟩
  · have hbegun := hbalanced.begun_eq m
    exact ⟨_, hbegun.symm, hbalanced.numbered (by omega)⟩
  · have hbegun := hbalanced.begun_eq m
    rw [hidle.underWay_eq, Nat.add_zero] at hbegun
    rw [hbegun] at hfew ⊢
    exact hbalanced.numbered hfew

/-- Two callers probe for a method before either of them enters it. -/
def probingTwice : List CountingMove :=
  [.start 0 ⟨7⟩, .start 1 ⟨7⟩, .advance 0, .advance 1, .advance 0, .advance 0, .advance 1,
    .advance 1]

theorem every_count_handed_out_once_racing :
    ∃ s, (Counting.start 2 2).run probingTwice = some s ∧
      (s.handedOut ⟨7⟩).map (·.toNat) = [1, 2] ∧ (s.counter.get ⟨7⟩).toNat = 2 ∧
      s.counter.size = 1 := by
  have hruns : ((Counting.start 2 2).run probingTwice).isSome := by decide +kernel
  obtain ⟨s, hrun⟩ := Option.isSome_iff_exists.mp hruns
  have hidle : s.IsIdle := by
    have hcallers : ((Counting.start 2 2).run probingTwice).map (·.callers) =
        some [none, none] := by decide +kernel
    rw [hrun, Option.map_some, Option.some.injEq] at hcallers
    rw [Counting.IsIdle, hcallers]
    decide
  obtain ⟨hcounts, hsize⟩ := (every_count_handed_out_once hrun).2.1 hidle
  obtain ⟨hhanded, hstored⟩ := hcounts ⟨7⟩ (by decide)
  exact ⟨s, hrun, hhanded, hstored, hsize⟩

end TieredDispatch
