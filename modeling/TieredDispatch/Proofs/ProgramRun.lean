import TieredDispatch.Proofs.Consistency
import TieredDispatch.Proofs.Serial

/-!
# The run of the program

**Theorem (`exists_run_of_runWorkload`).** The report of the program is one that threads arrive at:
the first thread makes all its calls, then the second, and so on; after each call the workers
compile what it queued; and then the report is collected.

So what is true of the report for any interleaving is true of the program's report, and for any
options that are accepted some interleaving arrives at a report.
-/

namespace TieredDispatch

/-! ## The methods picked -/

namespace RandomSource

variable {methods : UInt64}

theorem lt_of_pick (hmethods : methods ≠ 0) (source : RandomSource) :
    (source.pick methods).1.val < methods := by
  have hpos : 0 < methods.toNat :=
    Nat.pos_of_ne_zero fun h => hmethods (UInt64.toNat_inj.mp h)
  have hupper := Nat.mod_lt source.next.1.toNat hpos
  have hbound : (source.next.1 % methods + 1).toNat = source.next.1.toNat % methods.toNat + 1 := by
    have hsize := methods.toNat_lt
    rw [UInt64.toNat_add, UInt64.toNat_mod, UInt64.toNat_one]
    exact Nat.mod_eq_of_lt (by omega)
  rw [UInt64.lt_iff_toNat_lt]
  show (source.next.2.next.1 % (source.next.1 % methods + 1)).toNat < _
  rw [UInt64.toNat_mod, hbound]
  exact (Nat.mod_lt _ (Nat.succ_pos _)).trans_le hupper

theorem length_picksOnto (n : Nat) (source : RandomSource) (picked : List MethodId) :
    (picksOnto methods n source picked).length = n + picked.length := by
  induction n generalizing source picked with
  | zero => exact (Nat.zero_add _).symm
  | succ n ih =>
    rw [picksOnto, ih, List.length_cons]
    omega

theorem length_picks (source : RandomSource) (n : Nat) : (source.picks methods n).length = n := by
  rw [picks, List.length_reverse, length_picksOnto]
  rfl

theorem lt_of_mem_picksOnto (hmethods : methods ≠ 0) {n : Nat} {source : RandomSource}
    {picked : List MethodId} (hpicked : ∀ m ∈ picked, m.val < methods) :
    ∀ m ∈ picksOnto methods n source picked, m.val < methods := by
  induction n generalizing source picked with
  | zero => exact hpicked
  | succ n ih =>
    refine ih fun m hm => ?_
    obtain rfl | hm := List.mem_cons.mp hm
    · exact lt_of_pick hmethods source
    · exact hpicked m hm

theorem lt_of_mem_picks (hmethods : methods ≠ 0) {source : RandomSource} {n : Nat} {m : MethodId}
    (hm : m ∈ source.picks methods n) : m.val < methods :=
  lt_of_mem_picksOnto hmethods (fun _ h => absurd h List.not_mem_nil) m (List.mem_reverse.mp hm)

end RandomSource

/-- Metrics are recovered from their list. -/
theorem Metrics.foldl_set_toList (metrics : Metrics) :
    (metrics.toList.take 8).foldl (fun snapshot entry => snapshot.set entry.1 entry.2) {} =
      metrics := by
  simp [toList, set]

namespace ThreadedWorkload

variable {options : Options} {w : ThreadedWorkload}

/-- What the threads are still to invoke when the first `n` of them are done. -/
def picksFrom (options : Options) (n : Nat) : List (List MethodId) :=
  (List.range options.threads.toNat).map fun i =>
    if i < n then [] else Workload.picksOf options i

/-- The methods picked are methods of the workload, one for each call. -/
theorem admits_picksFrom (hmethods : options.methods ≠ 0) :
    options.admits (picksFrom options 0) := by
  rw [Options.admits, Bool.and_eq_true, decide_eq_true_eq, List.all_eq_true]
  refine ⟨by rw [picksFrom, List.length_map, List.length_range], fun methods hpicks => ?_⟩
  obtain ⟨i, -, rfl⟩ := List.mem_map.mp hpicks
  rw [if_neg (Nat.not_lt_zero i), Bool.and_eq_true, decide_eq_true_eq, List.all_eq_true]
  exact ⟨RandomSource.length_picks .., fun m hm =>
    decide_eq_true (RandomSource.lt_of_mem_picks hmethods hm)⟩

theorem picksFrom_set (n : Nat) : (picksFrom options n).set n [] = picksFrom options (n + 1) := by
  refine List.ext_getElem (by simp [picksFrom]) fun i hi hi' => ?_
  rw [List.getElem_set]
  simp only [picksFrom, List.getElem_map, List.getElem_range]
  split_ifs <;> first | rfl | omega

/-! ## Calls -/

section Calls

variable (engine : SimulatedEngine) {v : Workload}
  {callers : List (List (Call SimArtifact UInt64))} {picks : List (List MethodId)}

/-- The session without what the dispatcher reported. -/
def withoutLog (s : SimSession) : SimSession :=
  { s with dispatcher := s.dispatcher.withLog [] }

/-- A call of a workload is one of its session, counted if it failed, after which the pool is
drained. -/
theorem call_eq (co : Collaborators SimulatedCompiler SimArtifact UInt64) (v : Workload)
    {m : MethodId} {result : CallResult UInt64} {s : SimSession}
    (hcall : v.session.call co 0 m = (result, s)) :
    (v.call co m).session = withoutLog (Session.drainAll co 0 (withoutLog s)).2 ∧
      (v.call co m).failedCalls = v.failedCalls + result.isFailed.toNat := by
  rcases result with _ | _ | _ <;> simp only [Workload.call, hcall] <;> exact ⟨rfl, rfl⟩

/-- A workload on threads can come to where the program stands. -/
structure Follows (w : ThreadedWorkload) (callers : List (List (Call SimArtifact UInt64)))
    (picks : List (List MethodId)) (v : Workload) : Prop where
  reaches : w.Reaches v.session callers picks v.failedCalls
  unasked : Unasked v.session

/-- A thread that has no call in progress makes the next one, and what it queues is compiled. -/
theorem Follows.call {i : Nat} {m : MethodId} {rest : List MethodId}
    (h : w.Follows callers picks v) (hcallers : callers[i]? = some [])
    (hpicks : picks[i]? = some (m :: rest)) :
    w.Follows callers (picks.set i rest) (v.call (simulatedCollaborators engine) m) := by
  obtain ⟨hlt, hi⟩ := List.getElem?_eq_some_iff.mp hcallers
  have hsame : callers.set i [] = callers := by rw [← hi, List.set_getElem_self]
  rcases hcall : v.session.call (simulatedCollaborators engine) 0 m with ⟨result, s⟩
  obtain ⟨hsession, hfailed⟩ := call_eq (simulatedCollaborators engine) v hcall
  have hreturned := (h.reaches.invoke hcallers hpicks).drive (List.getElem?_set_self hlt) rfl hcall
  rw [List.set_set, hsame, ← hfailed] at hreturned
  have hcleared : w.Reaches (withoutLog s) callers (picks.set i rest) _ := hreturned.congr rfl rfl
  have hunasked : Unasked s := unasked_of_workers h.unasked (workers_drive hcall)
  obtain ⟨hdrained, hunasked'⟩ :=
    hcleared.drain engine hunasked 0 (withoutLog s).outstanding
  constructor
  · rw [hsession]
    exact hdrained.congr rfl rfl
  · rw [hsession]
    exact hunasked'

/-- A thread that has no call in progress makes all its calls. -/
theorem Follows.calls {i : Nat} {methods : List MethodId} (h : w.Follows callers picks v)
    (hcallers : callers[i]? = some []) (hpicks : picks[i]? = some methods) :
    w.Follows callers (picks.set i [])
      (methods.foldl (Workload.call (simulatedCollaborators engine)) v) := by
  obtain ⟨hlt, hi⟩ := List.getElem?_eq_some_iff.mp hpicks
  induction methods generalizing v picks with
  | nil =>
    have hsame : picks.set i picks[i] = picks := List.set_getElem_self hlt
    rw [hi] at hsame
    exact hsame.symm ▸ h
  | cons m rest ih =>
    have hrest := ih (h.call engine hcallers hpicks) (List.getElem?_set_self hlt)
      (by rwa [List.length_set]) (List.getElem_set_self _)
    rwa [List.set_set] at hrest

/-- The threads make their calls one after the other. -/
theorem Follows.threads
    (h : w.Follows (List.replicate options.threads.toNat []) (picksFrom options 0) v) {n : Nat}
    (hn : n ≤ options.threads.toNat) :
    w.Follows (List.replicate options.threads.toNat []) (picksFrom options n)
      (n.fold (fun i _ v => (Workload.picksOf options i).foldl
        (Workload.call (simulatedCollaborators engine)) v) v) := by
  induction n with
  | zero => exact h
  | succ n ih =>
    have hlt : n < options.threads.toNat := hn
    have hcallers : (List.replicate options.threads.toNat
        ([] : List (Call SimArtifact UInt64)))[n]? = some [] := by
      simp [hlt]
    have hpicks : (picksFrom options n)[n]? = some (Workload.picksOf options n) := by
      simp [picksFrom, hlt]
    have hcalls := (ih (Nat.le_of_lt hlt)).calls engine hcallers hpicks
    rwa [picksFrom_set] at hcalls

end Calls

/-! ## The start and the end -/

/-- No worker is busy at the start. -/
theorem follows_start {d : Dispatcher SimArtifact} (picks : List (List MethodId))
    (hstart : Dispatcher.start options.tierConfig = .ok d) :
    (start options d picks).Follows (List.replicate options.threads.toNat []) picks
      (Workload.start options d) where
  reaches := ⟨[], d.log, rfl⟩
  unasked := by
    obtain ⟨log, rfl⟩ := Dispatcher.eq_of_start hstart
    intro workers hworkers job hjob
    cases hmode : options.tierConfig.mode with
    | synchronous =>
      simp [Workload.start, Workload.collect, Dispatcher.takeLog, Dispatcher.ofConfig,
        hmode] at hworkers
    | background =>
      obtain rfl : List.replicate (max options.tierConfig.compileWorkers.toNat 1) .free =
          workers := by
        simpa [Workload.start, Workload.collect, Dispatcher.takeLog, Dispatcher.ofConfig, hmode,
          Pool.start] using hworkers
      cases List.eq_of_mem_replicate hjob

/-- When all threads made their calls and left them, they are done. -/
theorem isDone_ofSession (s : SimSession) (log : List Event) (failed : Nat) :
    (ofSession options s log (List.replicate options.threads.toNat [])
      (picksFrom options options.threads.toNat) failed).isDone := by
  rw [isDone, Bool.and_eq_true, List.all_eq_true, List.all_eq_true]
  constructor
  · intro methods hmethods
    obtain ⟨i, hi, rfl⟩ := List.mem_map.mp hmethods
    rw [if_pos (List.mem_range.mp hi)]
    rfl
  · intro calls hcalls
    rw [List.eq_of_mem_replicate hcalls]
    rfl

section Collect

variable (hdone : w.isDone)

include hdone

theorem run_look {n : Nat} (hlooked : w.looked = 0) (htiers : w.tiers = {})
    (hn : n ≤ w.options.methods.toNat) :
    w.run (List.replicate n .main) =
      some { w with looked := n, tiers := w.system.dispatcher.tiersBelow n } := by
  induction n with
  | zero => rw [List.replicate_zero, run, Dispatcher.tiersBelow_zero, ← htiers, ← hlooked]
  | succ n ih =>
    have hlt : n < w.options.methods.toNat := hn
    have hdone' : isDone { w with looked := n, tiers := w.system.dispatcher.tiersBelow n } := hdone
    rw [List.replicate_succ', run_append, ih (Nat.le_of_lt hlt), Option.bind_some, run_singleton]
    simp only [step, stepMain, hdone', hlt, look, Dispatcher.tiersBelow_succ, Bool.not_true,
      Bool.false_eq_true, if_false, if_true]

theorem run_load {n : Nat} (hall : w.options.methods.toNat ≤ w.looked) (hloaded : w.loaded = 0)
    (hsnapshot : w.snapshot = {}) (hn : n ≤ 8) :
    w.run (List.replicate n .main) =
      some { w with
        loaded := n
        snapshot := (w.system.dispatcher.metrics.toList.take n).foldl
          (fun snapshot entry => snapshot.set entry.1 entry.2) {} } := by
  induction n with
  | zero => rw [List.replicate_zero, run, List.take_zero, List.foldl_nil, ← hsnapshot, ← hloaded]
  | succ n ih =>
    obtain ⟨entry, hentry⟩ : ∃ entry, w.system.dispatcher.metrics.toList[n]? = some entry :=
      ⟨_, List.getElem?_eq_getElem hn⟩
    have hdone' (snapshot : Metrics) : isDone { w with loaded := n, snapshot } := hdone
    rw [List.replicate_succ', run_append, ih (Nat.le_of_succ_le hn), Option.bind_some,
      run_singleton, List.take_add_one, hentry, Option.toList_some, List.foldl_append,
      List.foldl_cons, List.foldl_nil]
    simp only [step, stepMain, hdone', Nat.not_lt.mpr hall, load, hentry, Bool.not_true,
      Bool.false_eq_true, if_false, Option.bind_eq_bind, Option.bind_some]

/-- When the callers are done, the main thread can collect the report at once. -/
theorem exists_run_report (hlooked : w.looked = 0) (htiers : w.tiers = {}) (hloaded : w.loaded = 0)
    (hsnapshot : w.snapshot = {}) :
    ∃ schedule, w.run schedule = some { w with
      looked := w.options.methods.toNat
      tiers := w.system.dispatcher.tiersBelow w.options.methods.toNat
      loaded := 8
      snapshot := w.system.dispatcher.metrics } := by
  have hlook := run_look hdone hlooked htiers (Nat.le_refl _)
  have hload := run_load (n := 8) (w := { w with
    looked := w.options.methods.toNat
    tiers := w.system.dispatcher.tiersBelow w.options.methods.toNat })
    hdone (Nat.le_refl _) hloaded hsnapshot (Nat.le_refl _)
  rw [Metrics.foldl_set_toList] at hload
  exact ⟨_, by rw [run_append, hlook, Option.bind_some, hload]⟩

end Collect

end ThreadedWorkload

/-! ## Main result -/

/-- **The run of the program is one of the interleavings.** The program's report is one that threads
arrive at, and they make the calls that the program makes. -/
theorem exists_run_of_runWorkload {options : Options} {result : WorkloadResult}
    (h : runWorkload options = .ok result) :
    let picks := ThreadedWorkload.picksFrom options 0
    ∃ d schedule w, startWorkload options = .ok d ∧ options.admits picks ∧
      (ThreadedWorkload.start options d picks).run schedule = some w ∧
      w.isReported ∧ w.report = result.report := by
  intro picks
  cases hstart : startWorkload options with
  | error e => simp [runWorkload, hstart, Except.map] at h
  | ok d =>
    obtain ⟨hmethods, -, hdispatcher⟩ := ThreadedWorkload.eq_of_startWorkload hstart
    have hlast := (ThreadedWorkload.follows_start picks hdispatcher).threads ⟨options.work⟩
      (Nat.le_refl _)
    obtain ⟨calls, log, hcalls⟩ := hlast.reaches
    obtain ⟨collecting, hcollecting⟩ := ThreadedWorkload.exists_run_report
      (ThreadedWorkload.isDone_ofSession _ log _) rfl rfl rfl rfl
    have hrun := (ThreadedWorkload.run_append _ calls collecting).trans
      ((congrArg (·.bind (·.run collecting)) hcalls).trans hcollecting)
    refine ⟨d, calls ++ collecting, _, rfl, ThreadedWorkload.admits_picksFrom hmethods, hrun, rfl,
      ?_⟩
    simp only [runWorkload, hstart, Except.map] at h
    obtain rfl := Except.ok.inj h
    rfl

end TieredDispatch
