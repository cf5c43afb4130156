import TieredDispatch.Proofs.Outline
import TieredDispatch.Proofs.Recording

/-!
# The tiering automaton

**Theorem (`tiering_automaton`).** In synchronous mode, with a host that makes no calls of its own,
what the `n`-th call of a method does is determined by `n` and by the compilations that succeeded
so far: whether it compiles and at which tier, which artifact it runs, and what it returns.

What a call does is read off the log of a recording host. The proof is a simulation: along any
sequence of calls the ledger agrees with the log (`Traced`), so the policy and the gate decide on
the successes in the log, and what is published is the best one of them.
-/

namespace TieredDispatch

variable {σ α β : Type}

/-! ## Compilations of a log -/

/-- The compile calls of a log. Calls of the engine leave no trace in it. -/
def compilations (log : List (HostCall α β)) : History α :=
  log.filterMap fun
    | .compile r outcome => some (.ended r outcome)
    | .execute _ _ | .interpret _ _ => none

/-! ## What a call should do -/

/-- The tier that the `n`-th call of a method compiles, after the given compilations. -/
def TierConfig.demand? (config : TierConfig) (h : History α) (m : MethodId) (n : Nat) :
    Option Tier :=
  if config.l2Threshold.toNat ≤ n then
    if h.successes ⟨m, .l2⟩ = 0 then some .l2 else none
  else if config.l1Threshold.toNat ≤ n then
    if h.successes ⟨m, .l1⟩ = 0 then some .l1 else none
  else none

/-- What a call returns when the engine's work ended, given what an error is reported as. -/
def Outcome.returned (report : String → DispatchError) : Outcome β → CallResult β
  | value v => .output v
  | error reason => .failed (report reason)
  | panic payload => .panicked payload

theorem Call.runResult_some (m : MethodId) (compiled : CompiledMethod α) (outcome : Outcome β) :
    runResult m (some compiled) outcome = outcome.returned (.executionFailed m) := by
  cases outcome <;> rfl

theorem Call.runResult_none (m : MethodId) (outcome : Outcome β) :
    runResult m (none : Option (CompiledMethod α)) outcome =
      outcome.returned (.interpretationFailed m) := by
  cases outcome <;> rfl

/-- The engine's part of a call: the best artifact is executed, or the method is interpreted if
there is none. -/
inductive Runs (h : History α) (m : MethodId) : HostCall α β → CallResult β → Prop
  | execute {compiled : CompiledMethod α} (hbest : h.best? m = some compiled)
      (outcome : Outcome β) :
      Runs h m (.execute compiled.artifact outcome) (outcome.returned (.executionFailed m))
  | interpret (hbest : h.best? m = none) (outcome : Outcome β) :
      Runs h m (.interpret m outcome) (outcome.returned (.interpretationFailed m))

/-- What a call asks the host for and returns, by the tier that it compiles. A compilation that
fails ends the call. -/
inductive Behaves (h : History α) (m : MethodId) :
    Option Tier → List (HostCall α β) → CallResult β → Prop
  | rejected (tier : Tier) (reason : String) :
      Behaves h m (some tier) [.compile ⟨m, tier⟩ (.error reason)]
        (.failed (.compilationFailed m tier reason))
  | unwound (tier : Tier) (payload : PanicPayload) :
      Behaves h m (some tier) [.compile ⟨m, tier⟩ (.panic payload)] (.panicked payload)
  | compiled {tier : Tier} {artifact : α} {engine : HostCall α β} {result : CallResult β}
      (hruns : Runs (h ++ [.ended ⟨m, tier⟩ (.value artifact)]) m engine result) :
      Behaves h m (some tier) [.compile ⟨m, tier⟩ (.value artifact), engine] result
  | settled {engine : HostCall α β} {result : CallResult β} (hruns : Runs h m engine result) :
      Behaves h m none [engine] result

/-! ## What a call does -/

/-- The engine's part of a call that found an artifact, or none. -/
def engineCall (m : MethodId) (found : Option (CompiledMethod α)) (outcome : Outcome β) :
    HostCall α β :=
  match found with
  | some compiled => .execute compiled.artifact outcome
  | none => .interpret m outcome

/-- What a call asks the host for, what it returns and the ledger it leaves, by the ledger it
finds. -/
inductive Ledger.Calls (l : Ledger α) (m : MethodId) :
    List (HostCall α β) → CallResult β → Ledger α → Prop
  | rejected {tier : Tier} (hdemand : l.demand? m = some tier) (reason : String) :
      Calls l m [.compile ⟨m, tier⟩ (.error reason)]
        (.failed (.compilationFailed m tier reason)) (l.count m)
  | unwound {tier : Tier} (hdemand : l.demand? m = some tier) (payload : PanicPayload) :
      Calls l m [.compile ⟨m, tier⟩ (.panic payload)] (.panicked payload) (l.count m)
  | compiled {tier : Tier} (hdemand : l.demand? m = some tier) (artifact : α)
      (outcome : Outcome β) {l' : Ledger α}
      (hpublished : l' = ((l.count m).mark ⟨m, tier⟩).place ⟨m, tier⟩ artifact) :
      Calls l m [.compile ⟨m, tier⟩ (.value artifact), engineCall m (l'.active m) outcome]
        (Call.runResult m (l'.active m) outcome) l'
  | settled (hdemand : l.demand? m = none) (outcome : Outcome β) :
      Calls l m [engineCall m (l.active m) outcome]
        (Call.runResult m (l.active m) outcome) (l.count m)

section Recording

variable (co : Collaborators σ α β) (l : Ledger α) (host : σ) (log : List (HostCall α β))
  (m : MethodId)

theorem Ledger.run_recording :
    ∃ outcome host', l.run co.recording (host, log) m =
      (Call.runResult m (l.active m) outcome, l,
        host', log ++ [engineCall m (l.active m) outcome]) := by
  unfold run
  cases l.active m with
  | none => exact ⟨_, _, rfl⟩
  | some compiled => exact ⟨_, _, rfl⟩

theorem Ledger.calls_call :
    ∃ calls, (l.call co.recording (host, log) m).2.2.2 = log ++ calls ∧
      Calls l m calls (l.call co.recording (host, log) m).1
        (l.call co.recording (host, log) m).2.1 := by
  unfold call
  cases hdemand : l.demand? m with
  | none =>
    obtain ⟨outcome, host', hrun⟩ := (l.count m).run_recording co host log m
    rw [hrun]
    exact ⟨_, rfl, .settled hdemand outcome⟩
  | some tier =>
    have hanswer : (co.recording.compile (host, log) ⟨m, tier⟩).answer =
        ((co.compile host ⟨m, tier⟩).answer.1, (co.compile host ⟨m, tier⟩).answer.2,
          log ++ [.compile ⟨m, tier⟩ (co.compile host ⟨m, tier⟩).answer.1]) := rfl
    unfold compile
    simp only [hanswer]
    obtain ⟨outcome, host'⟩ := (co.compile host ⟨m, tier⟩).answer
    cases outcome with
    | error reason => exact ⟨_, rfl, .rejected hdemand reason⟩
    | panic payload => exact ⟨_, rfl, .unwound hdemand payload⟩
    | value artifact =>
      obtain ⟨outcome, host'', hrun⟩ :=
        (((l.count m).mark ⟨m, tier⟩).place ⟨m, tier⟩ artifact).run_recording co host'
          (log ++ [.compile ⟨m, tier⟩ (.value artifact)]) m
      simp only [hrun]
      exact ⟨_, List.append_assoc _ _ _, .compiled hdemand artifact outcome rfl⟩

end Recording

/-! ## The ledger agrees with the log -/

/-- After `n` calls of a method the ledger knows of it what the compilations tell. -/
structure Traced (config : TierConfig) (l : Ledger α) (h : History α) (m : MethodId) (n : Nat) :
    Prop where
  policy : l.policy = .ofConfig config
  count : (l.counts m).toNat = n
  requested : ∀ tier, l.isRequested ⟨m, tier⟩ = (h.artifact? ⟨m, tier⟩).isSome
  active : l.active m = h.best? m
  reached : l.isRequested ⟨m, .l2⟩ → config.l2Threshold.toNat ≤ n

section Traced

variable {config : TierConfig} {l l' : Ledger α} {h h' : History α} {m k : MethodId} {n : Nat}

theorem traced_initial (config : TierConfig) (m : MethodId) :
    Traced config (.initial (.ofConfig config) : Ledger α) [] m 0 where
  policy := rfl
  count := rfl
  requested tier := by cases tier <;> rfl
  active := rfl
  reached hset := by cases hset

/-- What matters is what the ledger and the history say about the method. -/
theorem Traced.congr (htraced : Traced config l h m n) (hpolicy : l'.policy = l.policy)
    (hcounts : l'.counts m = l.counts m) (hrequested : l'.requested m = l.requested m)
    (hactive : l'.active m = l.active m)
    (hsame : ∀ tier, h'.artifact? ⟨m, tier⟩ = h.artifact? ⟨m, tier⟩) :
    Traced config l' h' m n where
  policy := hpolicy.trans htraced.policy
  count := by rw [hcounts, htraced.count]
  requested tier := by
    rw [hsame, ← htraced.requested, Ledger.isRequested, hrequested, Ledger.isRequested]
  active := by rw [hactive, htraced.active, History.best?, History.best?, hsame, hsame]
  reached hset := by
    rw [Ledger.isRequested, hrequested] at hset
    exact htraced.reached hset

/-- The next call asks for the tier that it should. -/
theorem Traced.demand?_eq (htraced : Traced config l h m n) (hfew : n + 1 < 2 ^ 64) :
    l.demand? m = config.demand? h m (n + 1) := by
  have hroom : (l.counts m).toNat + 1 < 2 ^ 64 := by rwa [htraced.count]
  have hcount : (saturatingAdd (l.counts m) 1).toNat = n + 1 := by
    rw [saturatingAdd_one hroom, toNat_add_one hroom, htraced.count]
  have hsuccess : ∀ tier, l.isRequested ⟨m, tier⟩ = false ↔ h.successes ⟨m, tier⟩ = 0 := by
    intro tier
    rw [htraced.requested, ← Bool.not_eq_true, History.isSome_artifact?, Nat.not_lt,
      Nat.le_zero]
  rw [Ledger.demand?, TierPolicy.tier_decide, Ledger.grants_l2, Ledger.grants_l1, htraced.policy,
    TierConfig.demand?]
  simp only [UInt64.le_iff_toNat_le, hcount, TierPolicy.threshold, TierPolicy.ofConfig,
    Bool.and_eq_true, Bool.not_eq_true']
  by_cases hl2 : config.l2Threshold.toNat ≤ n + 1
  · by_cases hclear : l.isRequested ⟨m, .l2⟩ = false
    · simp [hl2, hclear, (hsuccess .l2).mp hclear]
    · simp [hl2, hclear, mt (hsuccess .l2).mpr hclear]
  · have hclear : l.isRequested ⟨m, .l2⟩ = false := by
      refine Bool.eq_false_iff.mpr fun hset => hl2 ?_
      exact Nat.le_succ_of_le (htraced.reached hset)
    by_cases hl1 : config.l1Threshold.toNat ≤ n + 1
    · simp [hl2, hl1, hclear, hsuccess]
    · simp [hl2, hl1]

/-- Counting a call. -/
theorem Traced.counted (htraced : Traced config l h m n) (hfew : n + 1 < 2 ^ 64) :
    Traced config (l.count m) h m (n + 1) where
  policy := htraced.policy
  count := by
    rw [Ledger.counts_count_self, toNat_add_one (by rwa [htraced.count]), htraced.count]
  requested := htraced.requested
  active := htraced.active
  reached hset := Nat.le_succ_of_le (htraced.reached hset)

/-- Publishing the first artifact of a request. -/
theorem Traced.published (htraced : Traced config l h m n) {tier : Tier} (artifact : α)
    (hclear : l.isRequested ⟨m, tier⟩ = false)
    (hreached : tier = .l2 → config.l2Threshold.toNat ≤ n) :
    Traced config ((l.mark ⟨m, tier⟩).place ⟨m, tier⟩ artifact)
      (h ++ [.ended ⟨m, tier⟩ (.value artifact)]) m n where
  policy := by rw [Ledger.policy_place]; exact htraced.policy
  count := by rw [Ledger.counts_place]; exact htraced.count
  requested other := by
    rw [Ledger.isRequested_place, Ledger.isRequested_mark, htraced.requested,
      History.artifact?_concat]
    by_cases htier : other = tier
    · subst htier
      cases h.artifact? ⟨m, other⟩ <;> simp [Milestone.artifact?]
    · simp [Milestone.artifact?, htier, Ne.symm htier]
  active := by
    have hnone : h.artifact? ⟨m, tier⟩ = none := by
      rw [← Option.isNone_iff_eq_none, ← Option.not_isSome, ← htraced.requested, hclear]
      rfl
    rw [h.best?_concat artifact hnone, ← htraced.active, Ledger.active_place]
    change (if (l.active m).any (tier < ·.tier) then l.active else _) m = _
    split
    · rfl
    · exact Function.update_self ..
  reached hset := by
    rw [Ledger.isRequested_place, Ledger.isRequested_mark, Bool.or_eq_true] at hset
    rcases hset with htier | hset
    · exact hreached (by simpa using (of_decide_eq_true htier).symm)
    · exact htraced.reached hset

/-- What a ledger has of a method after an artifact of another one was published. -/
theorem Traced.published_other (htraced : Traced config l h m n) (hm : m ≠ k) (tier : Tier)
    (artifact : α) :
    Traced config ((l.mark ⟨k, tier⟩).place ⟨k, tier⟩ artifact)
      (h ++ [.ended ⟨k, tier⟩ (.value artifact)]) m n := by
  refine htraced.congr ?_ ?_ ?_ ?_ fun other => ?_
  · rw [Ledger.policy_place]
    rfl
  · rw [Ledger.counts_place]
    rfl
  · rw [Ledger.requested_place, Ledger.requested_mark_of_ne l hm]
  · rw [Ledger.active_place]
    split
    · rfl
    · exact Function.update_of_ne hm ..
  · rw [History.artifact?_concat]
    simp [Milestone.artifact?, Ne.symm hm]

/-- A failed compilation leaves no trace. -/
theorem Traced.failed (htraced : Traced config l h m n) {r : Request} {outcome : Outcome α}
    (hfailed : outcome.value? = none) : Traced config l (h ++ [.ended r outcome]) m n := by
  refine htraced.congr rfl rfl rfl rfl fun tier => ?_
  rw [History.artifact?_concat]
  simp [Milestone.artifact?, hfailed]

theorem compilations_append (log calls : List (HostCall α β)) :
    compilations (log ++ calls) = compilations log ++ compilations calls :=
  List.filterMap_append

/-- The engine's part of a call leaves no trace. -/
theorem compilations_engineCall (m : MethodId) (found : Option (CompiledMethod α))
    (outcome : Outcome β) : compilations [engineCall m found outcome] = [] := by
  cases found <;> rfl

theorem compilations_compile_engineCall (r : Request) (compiled : Outcome α) (m : MethodId)
    (found : Option (CompiledMethod α)) (outcome : Outcome β) :
    compilations [.compile r compiled, engineCall m found outcome] = [.ended r compiled] := by
  cases found <;> rfl

theorem TierConfig.le_of_demand? (hdemand : config.demand? h m n = some .l2) :
    config.l2Threshold.toNat ≤ n := by
  unfold demand? at hdemand
  split at hdemand
  · assumption
  · split at hdemand
    · split at hdemand <;> cases hdemand
    · cases hdemand

/-- A call of the method keeps its ledger in agreement with the log. -/
theorem Traced.calls {calls : List (HostCall α β)} {result : CallResult β}
    (htraced : Traced config l h m n) (hfew : n + 1 < 2 ^ 64)
    (hcalls : Ledger.Calls l m calls result l') :
    Traced config l' (h ++ compilations calls) m (n + 1) := by
  have hcounted := htraced.counted hfew
  cases hcalls with
  | rejected hdemand reason => exact hcounted.failed rfl
  | unwound hdemand payload => exact hcounted.failed rfl
  | @compiled tier hdemand artifact outcome _ hpublished =>
    subst hpublished
    have hgrants : (l.requested m).grants tier := TierPolicy.grants_of_decide hdemand
    have hclear : l.isRequested ⟨m, tier⟩ = false := Ledger.isRequested_of_grants hgrants
    rw [compilations_compile_engineCall]
    refine hcounted.published artifact hclear fun htier => ?_
    rw [htraced.demand?_eq hfew, htier] at hdemand
    exact TierConfig.le_of_demand? hdemand
  | settled hdemand outcome =>
    rw [compilations_engineCall, List.append_nil]
    exact hcounted

/-- A call of another method changes nothing for this one. -/
theorem Traced.calls_other {calls : List (HostCall α β)} {result : CallResult β}
    (htraced : Traced config l h m n) (hm : m ≠ k)
    (hcalls : Ledger.Calls l k calls result l') :
    Traced config l' (h ++ compilations calls) m n := by
  have hcounted : Traced config (l.count k) h m n :=
    htraced.congr rfl (l.counts_count_of_ne hm) rfl rfl fun _ => rfl
  cases hcalls with
  | rejected hdemand reason => exact hcounted.failed rfl
  | unwound hdemand payload => exact hcounted.failed rfl
  | @compiled tier hdemand artifact outcome _ hpublished =>
    subst hpublished
    rw [compilations_compile_engineCall]
    exact hcounted.published_other hm tier artifact
  | settled hdemand outcome =>
    rw [compilations_engineCall, List.append_nil]
    exact hcounted

/-- The engine is asked for what it should be. -/
theorem Traced.runs (htraced : Traced config l h m n) (outcome : Outcome β) :
    Runs h m (engineCall m (l.active m) outcome) (Call.runResult m (l.active m) outcome) := by
  rw [htraced.active]
  cases hbest : h.best? m with
  | none =>
    rw [Call.runResult_none]
    exact .interpret hbest outcome
  | some compiled =>
    rw [Call.runResult_some]
    exact .execute hbest outcome

/-- A call does what it should. -/
theorem Traced.behaves {calls : List (HostCall α β)} {result : CallResult β}
    (htraced : Traced config l h m n) (hfew : n + 1 < 2 ^ 64)
    (hcalls : Ledger.Calls l m calls result l') :
    Behaves h m (config.demand? h m (n + 1)) calls result := by
  rw [← htraced.demand?_eq hfew]
  have hafter := htraced.calls hfew hcalls
  cases hcalls with
  | rejected hdemand reason =>
    rw [hdemand]
    exact .rejected _ reason
  | unwound hdemand payload =>
    rw [hdemand]
    exact .unwound _ payload
  | @compiled tier hdemand artifact outcome _ hpublished =>
    rw [hdemand]
    rw [compilations_compile_engineCall] at hafter
    exact .compiled (hafter.runs outcome)
  | settled hdemand outcome =>
    rw [hdemand]
    exact .settled (htraced.runs outcome)

end Traced

/-! ## Main result -/

section Sessions

variable {co : Collaborators σ α β} {config : TierConfig} {m : MethodId}

/-- A session in synchronous mode whose ledger agrees with the log after `n` calls of a method. -/
structure Session.Follows (s : Session (σ × List (HostCall α β)) α) (config : TierConfig)
    (m : MethodId) (n : Nat) : Prop where
  pool : s.dispatcher.pool = none
  traced : Traced config s.dispatcher.ledger (compilations s.host.2) m n

/-- What one more call of any method does to a session. -/
theorem Session.calls_of_call (hco : co.NeverCalls) (depth : Nat)
    {s : Session (σ × List (HostCall α β)) α} (hpool : s.dispatcher.pool = none) (k : MethodId) :
    ∃ calls, (call co.recording depth s k).2.host.2 = s.host.2 ++ calls ∧
      (call co.recording depth s k).2.dispatcher.pool = none ∧
      Ledger.Calls s.dispatcher.ledger k calls (call co.recording depth s k).1
        (call co.recording depth s k).2.dispatcher.ledger := by
  have hends := endsAs_call hco.recording depth hpool k
  obtain ⟨calls, hlog, hcalls⟩ := s.dispatcher.ledger.calls_call co s.host.1 s.host.2 k
  refine ⟨calls, ?_, hends.pool, ?_⟩
  · rw [hends.host]
    exact hlog
  · rw [hends.result, hends.ledger]
    exact hcalls

theorem Session.Follows.call (hco : co.NeverCalls) (depth : Nat)
    {s : Session (σ × List (HostCall α β)) α} {n : Nat} (hfollows : s.Follows config m n)
    (k : MethodId) (hfew : n + [k].count m < 2 ^ 64) :
    (Session.call co.recording depth s k).2.Follows config m (n + [k].count m) := by
  obtain ⟨calls, hlog, hpool, hcalls⟩ := calls_of_call hco depth hfollows.pool k
  refine ⟨hpool, ?_⟩
  rw [hlog, compilations_append]
  by_cases hk : k = m
  · subst hk
    rw [List.count_singleton_self] at hfew ⊢
    exact hfollows.traced.calls hfew hcalls
  · rw [List.count_singleton, if_neg (by simpa using hk), add_zero]
    exact hfollows.traced.calls_other (Ne.symm hk) hcalls

theorem Session.Follows.calls (hco : co.NeverCalls) (depth : Nat) (methods : List MethodId)
    {s : Session (σ × List (HostCall α β)) α} {n : Nat} (hfollows : s.Follows config m n)
    (hfew : n + methods.count m < 2 ^ 64) :
    (Session.calls co.recording depth s methods).2.Follows config m (n + methods.count m) := by
  induction methods generalizing s n with
  | nil => exact hfollows
  | cons k rest ih =>
    have hcount : (k :: rest).count m = [k].count m + rest.count m := by
      rw [← List.singleton_append, List.count_append]
    rw [hcount, ← add_assoc] at hfew ⊢
    exact ih (hfollows.call hco depth k (by omega)) hfew

theorem Session.follows_start {d : Dispatcher α} (hstart : Dispatcher.start config = .ok d)
    (hmode : config.mode = .synchronous) (host : σ) (m : MethodId) :
    (⟨d, host, []⟩ : Session (σ × List (HostCall α β)) α).Follows config m 0 := by
  refine ⟨?_, ?_⟩
  · obtain ⟨log, rfl⟩ := Dispatcher.eq_of_start hstart
    simp [Dispatcher.ofConfig, hmode]
  · rw [Dispatcher.ledger_of_start hstart]
    exact traced_initial config m

end Sessions

/-- **The tiering automaton.** Take any host that makes no calls of its own, whatever its compiler
and its engine answer, in synchronous mode, and any calls of any methods. The next call of a
method, its `n`-th, compiles the tier that `TierConfig.demand?` says, and asks the host for and
returns what `Behaves` says, given the compilations so far; what the engine answered before plays
no part. Afterwards `n` calls are counted, the tiers that were compiled successfully are the
requested ones, and the best artifact is published. -/
theorem tiering_automaton {co : Collaborators σ α β} (hco : co.NeverCalls) (depth : Nat)
    {config : TierConfig} {d : Dispatcher α} (hstart : Dispatcher.start config = .ok d)
    (hmode : config.mode = .synchronous) (host : σ) (before : List MethodId) (m : MethodId)
    (hfew : before.count m + 1 < 2 ^ 64) :
    let s := (Session.calls co.recording depth ⟨d, host, []⟩ before).2
    let (result, t) := Session.call co.recording depth s m
    let h := compilations s.host.2
    let n := before.count m + 1
    Session.call co depth (Session.calls co depth ⟨d, host⟩ before).2 m = (result, t.forget) ∧
    (∃ calls, t.host.2 = s.host.2 ++ calls ∧
      Behaves h m (config.demand? h m n) calls result) ∧
    (t.dispatcher.counter.get m).toNat = n ∧
    (∀ tier, (t.dispatcher.cache.requested m).contains tier ↔
      0 < (compilations t.host.2).successes ⟨m, tier⟩) ∧
    t.dispatcher.cache.lookup m = (compilations t.host.2).best? m := by
  intro s
  have hfollows : s.Follows config m (0 + before.count m) :=
    (Session.follows_start hstart hmode host m).calls hco depth before (by omega)
  rw [zero_add] at hfollows
  obtain ⟨calls, hlog, -, hcalls⟩ := Session.calls_of_call hco depth hfollows.pool m
  have hafter := hfollows.call hco depth m (by rwa [List.count_singleton_self])
  rw [List.count_singleton_self] at hafter
  refine ⟨?_, ⟨calls, hlog, hfollows.traced.behaves hfew hcalls⟩, hafter.traced.count,
    fun tier => ?_, hafter.traced.active⟩
  · have hbefore : (Session.calls co depth ⟨d, host⟩ before).2 = s.forget :=
      congrArg Prod.snd (Session.calls_recording co depth ⟨d, host, []⟩ before)
    rw [hbefore]
    exact Session.callWithin_recording co depth s m
  · have hbit := congrArg (· = true) (hafter.traced.requested tier)
    exact (Iff.of_eq hbit).trans (History.isSome_artifact? _ _)

/-- A host whose first compilation fails, and whose interpreter always does. -/
def stubborn : Collaborators Nat Nat Nat where
  compile state _ :=
    { state, conclude := fun k => (if k = 0 then .error "busy" else .value k, k + 1) }
  execute state artifact := { state, conclude := fun k => (.value artifact, k) }
  interpret state _ := { state, conclude := fun k => (.error "cold", k) }

theorem tiering_automaton_stubborn :
    let d : Dispatcher Nat := .ofConfig (.withThresholds 1 5)
    let s := (Session.calls stubborn.recording 0 ⟨d, 0, []⟩ [⟨0⟩]).2
    compilations s.host.2 = [.ended ⟨⟨0⟩, .l1⟩ (.error "busy")] ∧
    ∃ calls, (Session.call stubborn.recording 0 s ⟨0⟩).2.host.2 = s.host.2 ++ calls ∧
      Behaves (compilations s.host.2) ⟨0⟩ (some .l1) calls
        (Session.call stubborn.recording 0 s ⟨0⟩).1 := by
  intro d s
  have hstart : Dispatcher.start (.withThresholds 1 5) = .ok d := rfl
  have hco : stubborn.NeverCalls := ⟨fun _ _ => rfl, fun _ _ => rfl, fun _ _ => rfl⟩
  have hbefore : compilations s.host.2 = [.ended ⟨⟨0⟩, .l1⟩ (.error "busy")] := by
    decide +kernel
  have hdemand : (TierConfig.withThresholds 1 5).demand? (compilations s.host.2) ⟨0⟩ 2 =
      some .l1 := by
    rw [hbefore]
    rfl
  obtain ⟨-, ⟨calls, hlog, hbehaves⟩, -⟩ :=
    tiering_automaton hco 0 hstart rfl 0 [⟨0⟩] ⟨0⟩ (by decide)
  refine ⟨hbefore, calls, hlog, ?_⟩
  rw [← hdemand]
  exact hbehaves

end TieredDispatch
