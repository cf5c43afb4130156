import Mathlib.Tactic.IntervalCases
import TieredDispatch.Proofs.Threading

/-!
# What the main thread collects

When the callers are done, the main thread looks at the methods and then loads the counters, one by
one, while workers may still be compiling. Without workers nothing changes under its eyes, so that
it sees the final state. With workers it may see a method before and a counter after some
compilation; but the counters of the runs are not theirs to change, and no method is left out or
seen twice (`ThreadedWorkload.Collected`).
-/

namespace TieredDispatch

/-! ## Looking at the methods -/

/-- How many of the first `n` methods are in each state. -/
def Dispatcher.tiersBelow {α : Type} (d : Dispatcher α) (n : Nat) : TierCounts :=
  n.fold (fun i _ counts => counts.count (d.methodTier ⟨UInt64.ofNat i⟩)) {}

namespace Dispatcher

variable {α : Type} (d : Dispatcher α) (n : Nat)

theorem tiersBelow_zero : d.tiersBelow 0 = {} := rfl

theorem tiersBelow_succ :
    d.tiersBelow (n + 1) = (d.tiersBelow n).count (d.methodTier ⟨UInt64.ofNat n⟩) :=
  Nat.fold_succ ..

/-- The counts are those of the methods by their published tiers. -/
theorem tiersBelow_eq :
    d.tiersBelow n = {
      interpreted := (List.range n).countP fun i => d.cache.tierOf ⟨UInt64.ofNat i⟩ = none
      l1Compiled := (List.range n).countP fun i => d.cache.tierOf ⟨UInt64.ofNat i⟩ = some .l1
      l2Compiled := (List.range n).countP fun i =>
        d.cache.tierOf ⟨UInt64.ofNat i⟩ = some .l2 } := by
  induction n with
  | zero => rfl
  | succ n ih =>
    rw [tiersBelow_succ, ih, methodTier]
    simp only [List.range_succ, List.countP_append, List.countP_singleton]
    cases d.cache.tierOf ⟨UInt64.ofNat n⟩ with
    | none => simp [MethodTier.ofTier, TierCounts.count]
    | some tier => cases tier <;> simp [MethodTier.ofTier, TierCounts.count]

end Dispatcher

/-! ## Loading the counters -/

namespace Metrics

/-- A counter that is stored under its name takes its place in the list. -/
theorem toList_set_of_getElem? (metrics snapshot : Metrics) {k : Nat} {name : String}
    {value : UInt64}
    (hentry : metrics.toList[k]? = some (name, value)) :
    (snapshot.set name value).toList = snapshot.toList.set k (name, value) := by
  have hk : k < 8 := (List.getElem?_eq_some_iff.mp hentry).1
  interval_cases k <;> cases hentry <;> rfl

/-- Metrics are known by their list. -/
theorem toList_injective : Function.Injective toList := by
  intro metrics snapshot hsame
  cases metrics
  cases snapshot
  simpa [toList] using hsame

/-- The first two counters are those of the runs. -/
theorem toList_of_runs {metrics metrics' : Metrics}
    (hinterpretations : metrics'.interpretations = metrics.interpretations)
    (hexecutions : metrics'.executions = metrics.executions) {j : Nat} (hj : j < 2) :
    metrics'.toList[j]? = metrics.toList[j]? := by
  obtain rfl | rfl : j = 0 ∨ j = 1 := by omega
  · exact congrArg (fun value => some ("interpretations", value)) hinterpretations
  · exact congrArg (fun value => some ("executions", value)) hexecutions

end Metrics

/-! ## While the workers go on -/

/-- The runs are no business of a worker. -/
theorem TaskStep.runs {α : Type} {outcome : Request → Outcome α} {job : CompileJob α}
    {l l' : Ledger α} {metrics metrics' : Metrics} {next : Multiset (CompileJob α)}
    (h : TaskStep outcome job l metrics next l' metrics') :
    metrics'.interpretations = metrics.interpretations ∧
      metrics'.executions = metrics.executions := by
  cases h with
  | counted r => cases r.tier <;> exact ⟨rfl, rfl⟩
  | _ => exact ⟨rfl, rfl⟩

namespace System

variable {α β : Type} {s t : System α β} {label : Label α β}

theorem runs_of_worker (hworkers : label.isWorkers) (hstep : s.step label = some t) :
    t.dispatcher.metrics.interpretations = s.dispatcher.metrics.interpretations ∧
      t.dispatcher.metrics.executions = s.dispatcher.metrics.executions := by
  -- Whatever the compiler answers.
  obtain ⟨outcome, hanswer⟩ : ∃ outcome : Request → Outcome α,
      ∀ r o, s.milestone? label = some (.ended r o) → o = outcome r := by
    cases hμ : s.milestone? label with
    | none => exact ⟨fun _ => .panic .other, nofun⟩
    | some μ =>
      cases μ with
      | ended r o => exact ⟨fun _ => o, by rintro _ _ ⟨⟩; rfl⟩
      | _ => exact ⟨fun _ => .panic .other, nofun⟩
  obtain ⟨-, -, hmetrics⟩ | ⟨job, next, frame, -, -, htask⟩ :=
    taskStep_of_step hworkers hanswer hstep
  · rw [hmetrics]
    exact ⟨rfl, rfl⟩
  · exact htask.runs

theorem callers_of_worker (hworkers : label.isWorkers) (hstep : s.step label = some t) :
    t.callers = s.callers ∧ s.dispatcher.pool.isSome = true := by
  cases systemStep_of_step hstep with
  | worker hpool => exact ⟨rfl, by rw [hpool]; rfl⟩
  | caller | direct | close | lose => cases hworkers

end System

/-! ## What is collected -/

namespace ThreadedWorkload

variable {w w' : ThreadedWorkload}

/-- What the main thread has seen so far. The tiers may change while it looks, and the counters
while it loads them, but without workers they do not, and the runs do not in any case. -/
structure Collected (w : ThreadedWorkload) : Prop where
  waits : w.isDone = false → w.looked = 0 ∧ w.loaded = 0
  inOrder : 0 < w.loaded → w.looked = w.options.methods.toNat
  bounded : w.looked ≤ w.options.methods.toNat
  total : w.tiers.total = w.looked
  seen : w.system.dispatcher.pool.isSome = false →
    w.tiers = w.system.dispatcher.tiersBelow w.looked
  shown : ∀ j < w.loaded, w.system.dispatcher.pool.isSome = false ∨ j < 2 →
    w.snapshot.toList[j]? = w.system.dispatcher.metrics.toList[j]?

theorem collected_start (options : Options) (d : Dispatcher SimArtifact)
    (picks : List (List MethodId)) : Collected (start options d picks) where
  waits _ := ⟨rfl, rfl⟩
  inOrder hpos := absurd hpos (Nat.lt_irrefl 0)
  bounded := Nat.zero_le _
  total := rfl
  seen _ := d.tiersBelow_zero.symm
  shown j hj := absurd hj (Nat.not_lt_zero j)

/-- A step of the system. -/
theorem Collected.go (hcollected : Collected w) {label : Label SimArtifact UInt64}
    (hstep : w.system.step label = some w'.system) (hactive : w.isDone → label.isWorkers)
    (hpicks : w.isDone → w'.picks = w.picks)
    (hsame : w'.options = w.options ∧ w'.looked = w.looked ∧ w'.tiers = w.tiers ∧
      w'.loaded = w.loaded ∧ w'.snapshot = w.snapshot) : Collected w' := by
  obtain ⟨hwaits, hinOrder, hbounded, htotal, hseen, hshown⟩ := hcollected
  obtain ⟨hoptions, hlooked, htiers, hloaded, hsnapshot⟩ := hsame
  have hsome := System.isSome_pool_step hstep
  constructor
  case waits =>
    intro hbusy
    rw [hlooked, hloaded]
    refine hwaits (Bool.eq_false_iff.mpr fun hdone => ?_)
    rw [isDone, hpicks hdone, (System.callers_of_worker (hactive hdone) hstep).1] at hbusy
    exact absurd hdone (Bool.eq_false_iff.mp hbusy)
  case inOrder => rwa [hloaded, hlooked, hoptions]
  case bounded => rwa [hlooked, hoptions]
  case total => rwa [htiers, hlooked]
  case seen =>
    intro hnone
    rw [hsome] at hnone
    rw [htiers, hlooked, hseen hnone]
    by_cases hdone : w.isDone
    · rw [(System.callers_of_worker (hactive hdone) hstep).2] at hnone
      cases hnone
    · rw [(hwaits (Bool.not_eq_true _ ▸ hdone)).1, Dispatcher.tiersBelow_zero,
        Dispatcher.tiersBelow_zero]
  case shown =>
    intro j hj hwhich
    rw [hloaded] at hj
    by_cases hdone : w.isDone
    · rw [hsome, (System.callers_of_worker (hactive hdone) hstep).2] at hwhich
      have hlt : j < 2 := hwhich.resolve_left Bool.noConfusion
      obtain ⟨hinterpretations, hexecutions⟩ := System.runs_of_worker (hactive hdone) hstep
      rw [hsnapshot, hshown j hj (.inr hlt)]
      exact (Metrics.toList_of_runs hinterpretations hexecutions hlt).symm
    · rw [(hwaits (Bool.not_eq_true _ ▸ hdone)).2] at hj
      exact absurd hj (Nat.not_lt_zero j)

theorem Collected.look (hcollected : Collected w) (hdone : w.isDone)
    (hleft : w.looked < w.options.methods.toNat) : Collected w.look := by
  obtain ⟨-, hinOrder, -, htotal, hseen, hshown⟩ := hcollected
  constructor
  case waits =>
    intro hbusy
    exact absurd hdone (Bool.eq_false_iff.mp hbusy)
  case inOrder => exact fun hpos => absurd (hinOrder hpos) (Nat.ne_of_lt hleft)
  case bounded => exact hleft
  case total => exact (TierCounts.total_count _ _).trans (congrArg (· + 1) htotal)
  case seen =>
    intro hnone
    show w.tiers.count _ = w.system.dispatcher.tiersBelow (w.looked + 1)
    rw [Dispatcher.tiersBelow_succ, hseen hnone]
  case shown => exact hshown

theorem Collected.load (hcollected : Collected w) (hdone : w.isDone)
    (hall : w.options.methods.toNat ≤ w.looked) (hload : w.load = some w') : Collected w' := by
  obtain ⟨-, -, hbounded, htotal, hseen, hshown⟩ := hcollected
  obtain ⟨⟨name, value⟩, hentry, hw⟩ := Option.bind_eq_some_iff.mp hload
  obtain rfl := Option.some.inj hw
  constructor
  case waits =>
    intro hbusy
    exact absurd hdone (Bool.eq_false_iff.mp hbusy)
  case inOrder => exact fun _ => Nat.le_antisymm hbounded hall
  case bounded => exact hbounded
  case total => exact htotal
  case seen => exact hseen
  case shown =>
    intro j hj hwhich
    show (w.snapshot.set name value).toList[j]? = _
    rw [w.system.dispatcher.metrics.toList_set_of_getElem? w.snapshot hentry, List.getElem?_set]
    split
    · rename_i hlast
      subst hlast
      rw [hentry, if_pos]
      exact (List.getElem?_eq_some_iff.mp hentry).1
    · rename_i hbefore
      have hlt : j < w.loaded + 1 := hj
      exact hshown j (by omega) hwhich

end ThreadedWorkload

end TieredDispatch
