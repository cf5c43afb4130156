import Mathlib.Logic.Function.Basic
import TieredDispatch.Proofs.Milestone
import TieredDispatch.Proofs.Thresholds

/-!
# Ledgers

The **ledger** of a dispatcher is what later decisions depend on: the count, the request bits and
the published artifact of each method, whatever the shards and the metrics. Each operation on the
counter and on the cache updates one entry of the ledger, and each milestone is one such update
(`ledger_advance`).
-/

namespace TieredDispatch

variable {α β : Type}

/-- What a dispatcher has counted, requested and published. -/
structure Ledger (α : Type) where
  policy : TierPolicy
  counts : MethodId → UInt64
  requested : MethodId → RequestSet
  active : MethodId → Option (CompiledMethod α)

namespace Ledger

/-- The ledger of a dispatcher that has done nothing yet. -/
def initial (policy : TierPolicy) : Ledger α :=
  ⟨policy, fun _ => 0, fun _ => {}, fun _ => none⟩

/-- Counts an invocation. -/
def count (l : Ledger α) (m : MethodId) : Ledger α :=
  { l with counts := Function.update l.counts m (l.counts m + 1) }

/-- Sets the bit of a request. -/
def mark (l : Ledger α) (r : Request) : Ledger α :=
  { l with
    requested := Function.update l.requested r.method ((l.requested r.method).insert r.tier) }

/-- Clears the bit of a request. -/
def unmark (l : Ledger α) (r : Request) : Ledger α :=
  { l with
    requested := Function.update l.requested r.method ((l.requested r.method).erase r.tier) }

/-- Publishes an artifact unless one of a higher tier is there. -/
def place (l : Ledger α) (r : Request) (artifact : α) : Ledger α :=
  if (l.active r.method).any (r.tier < ·.tier) then l
  else { l with active := Function.update l.active r.method (some ⟨r.tier, artifact⟩) }

/-- The bit of a request. -/
def isRequested (l : Ledger α) (r : Request) : Bool :=
  (l.requested r.method).contains r.tier

end Ledger

/-! ## Bits after an update -/

namespace Ledger

@[simp]
theorem isRequested_count (l : Ledger α) (m : MethodId) (r : Request) :
    (l.count m).isRequested r = l.isRequested r := rfl

theorem isRequested_mark (l : Ledger α) (r q : Request) :
    (l.mark r).isRequested q = (q = r || l.isRequested q) := by
  obtain ⟨m, tier⟩ := r
  obtain ⟨k, other⟩ := q
  by_cases hkm : k = m
  · subst hkm
    simp [isRequested, mark]
  · simp [isRequested, mark, hkm]

theorem isRequested_unmark (l : Ledger α) (r q : Request) :
    (l.unmark r).isRequested q = (q ≠ r && l.isRequested q) := by
  obtain ⟨m, tier⟩ := r
  obtain ⟨k, other⟩ := q
  by_cases hkm : k = m
  · subst hkm
    simp [isRequested, unmark]
  · simp [isRequested, unmark, hkm]

theorem requested_mark_self (l : Ledger α) (r : Request) :
    (l.mark r).requested r.method = (l.requested r.method).insert r.tier :=
  Function.update_self ..

theorem requested_mark_of_ne (l : Ledger α) {r : Request} {m : MethodId} (hm : m ≠ r.method) :
    (l.mark r).requested m = l.requested m :=
  Function.update_of_ne hm ..

theorem requested_unmark_of_ne (l : Ledger α) {r : Request} {m : MethodId} (hm : m ≠ r.method) :
    (l.unmark r).requested m = l.requested m :=
  Function.update_of_ne hm ..

theorem counts_count_self (l : Ledger α) (m : MethodId) :
    (l.count m).counts m = l.counts m + 1 :=
  Function.update_self ..

theorem counts_count_of_ne (l : Ledger α) {m k : MethodId} (hm : m ≠ k) :
    (l.count k).counts m = l.counts m :=
  Function.update_of_ne hm ..

/-- An offer changes what is published at most. -/
theorem place_eq (l : Ledger α) (r : Request) (artifact : α) :
    l.place r artifact = { l with active := (l.place r artifact).active } := by
  unfold place
  split
  · rfl
  · rfl

@[simp]
theorem counts_place (l : Ledger α) (r : Request) (artifact : α) :
    (l.place r artifact).counts = l.counts := by
  rw [place_eq]

@[simp]
theorem requested_place (l : Ledger α) (r : Request) (artifact : α) :
    (l.place r artifact).requested = l.requested := by
  rw [place_eq]

@[simp]
theorem policy_place (l : Ledger α) (r : Request) (artifact : α) :
    (l.place r artifact).policy = l.policy := by
  rw [place_eq]

@[simp]
theorem isRequested_place (l : Ledger α) (r q : Request) (artifact : α) :
    (l.place r artifact).isRequested q = l.isRequested q := by
  rw [isRequested, requested_place, isRequested]

theorem active_place (l : Ledger α) (r : Request) (artifact : α) :
    (l.place r artifact).active =
      if (l.active r.method).any (r.tier < ·.tier) then l.active
      else Function.update l.active r.method (some ⟨r.tier, artifact⟩) := by
  unfold place
  split
  · rfl
  · rfl

/-- What is published after an offer was so before, or is what was offered. -/
theorem eq_of_active_place {l : Ledger α} {r : Request} {artifact : α} {m : MethodId}
    {compiled : CompiledMethod α} (h : (l.place r artifact).active m = some compiled) :
    l.active m = some compiled ∨ m = r.method ∧ compiled = ⟨r.tier, artifact⟩ := by
  rw [active_place] at h
  split at h
  · exact .inl h
  · by_cases hm : m = r.method
    · subst hm
      rw [Function.update_self] at h
      exact .inr ⟨rfl, (Option.some.inj h).symm⟩
    · rw [Function.update_of_ne hm] at h
      exact .inl h

/-- What is published stays, unless what is offered has the same tier or a higher one. -/
theorem active_place_or_le {l : Ledger α} {m : MethodId} {compiled : CompiledMethod α}
    (h : l.active m = some compiled) (r : Request) (artifact : α) :
    (l.place r artifact).active m = some compiled ∨
      m = r.method ∧ (l.place r artifact).active m = some ⟨r.tier, artifact⟩ ∧
        compiled.tier ≤ r.tier := by
  rw [active_place]
  split
  · exact .inl h
  · rename_i hlower
    by_cases hm : m = r.method
    · subst hm
      rw [h, Option.any_some, decide_eq_true_eq] at hlower
      exact .inr ⟨rfl, Function.update_self .., Nat.le_of_not_lt hlower⟩
    · rw [Function.update_of_ne hm]
      exact .inl h

/-- What is offered is published, unless something of a higher tier is. -/
theorem active_place_or_lt (l : Ledger α) (r : Request) (artifact : α) :
    (l.place r artifact).active r.method = some ⟨r.tier, artifact⟩ ∨
      ∃ compiled, l.active r.method = some compiled ∧
        (l.place r artifact).active r.method = some compiled ∧ r.tier < compiled.tier := by
  rw [active_place]
  split
  · rename_i hhigher
    obtain ⟨compiled, hactive, hlt⟩ := (Option.any_eq_true _ _).mp hhigher
    exact .inr ⟨compiled, hactive, hactive, of_decide_eq_true hlt⟩
  · exact .inl (Function.update_self ..)

/-- Nothing published is replaced by something of a lower tier. -/
theorem active_place_mono {l : Ledger α} {m : MethodId} {compiled : CompiledMethod α}
    (h : l.active m = some compiled) (r : Request) (artifact : α) :
    ∃ compiled', (l.place r artifact).active m = some compiled' ∧
      compiled.tier ≤ compiled'.tier := by
  rcases active_place_or_le h r artifact with hsame | ⟨-, hnew, hle⟩
  · exact ⟨compiled, hsame, Nat.le_refl _⟩
  · exact ⟨_, hnew, hle⟩

/-- After an offer something is published that is no worse. -/
theorem active_place_self (l : Ledger α) (r : Request) (artifact : α) :
    ∃ compiled, (l.place r artifact).active r.method = some compiled ∧
      r.tier ≤ compiled.tier := by
  rcases l.active_place_or_lt r artifact with hnew | ⟨compiled, -, hsame, hlt⟩
  · exact ⟨_, hnew, Nat.le_refl _⟩
  · exact ⟨compiled, hsame, Nat.le_of_lt hlt⟩

/-- `l1` is granted while no tier is requested. -/
theorem grants_l1 (l : Ledger α) (m : MethodId) :
    (l.requested m).grants .l1 = (!l.isRequested ⟨m, .l1⟩ && !l.isRequested ⟨m, .l2⟩) := rfl

/-- `l2` is granted while it is not requested itself. -/
theorem grants_l2 (l : Ledger α) (m : MethodId) :
    (l.requested m).grants .l2 = !l.isRequested ⟨m, .l2⟩ := rfl

/-- A request that is granted is not requested yet. -/
theorem isRequested_of_grants {l : Ledger α} {r : Request}
    (h : (l.requested r.method).grants r.tier) : l.isRequested r = false := by
  obtain ⟨m, tier⟩ := r
  cases tier with
  | l1 =>
    rw [grants_l1, Bool.and_eq_true] at h
    simpa using h.1
  | l2 => simpa [grants_l2] using h

/-- Setting a bit twice is setting it once. -/
theorem mark_mark (l : Ledger α) (r : Request) : (l.mark r).mark r = l.mark r := by
  have hinsert : ∀ (requested : RequestSet) (tier : Tier),
      (requested.insert tier).insert tier = requested.insert tier := by
    intro requested tier
    cases tier <;> rfl
  simp [mark, hinsert]

/-- Clearing a bit undoes setting it. -/
theorem unmark_mark {l : Ledger α} {r : Request} (h : l.isRequested r = false) :
    (l.mark r).unmark r = l := by
  have herase : ∀ {requested : RequestSet} {tier : Tier}, requested.contains tier = false →
      (requested.insert tier).erase tier = requested := by
    intro requested tier hclear
    obtain ⟨l1, l2⟩ := requested
    cases tier <;> simp_all [RequestSet.insert, RequestSet.erase, RequestSet.contains]
  simp [mark, unmark, herase h]

end Ledger

/-! ## The cache as the ledger sees it -/

namespace CompilationCache

variable (cache : CompilationCache α) (m : MethodId) (tier : Tier)

theorem requested_request_of_grants (h : (cache.requested m).grants tier) :
    (cache.request m tier).2.requested =
      Function.update cache.requested m ((cache.requested m).insert tier) := by
  funext k
  rw [requested, entry_request]
  by_cases hmk : m = k
  · subst hmk
    rw [if_pos ⟨rfl, h⟩, Function.update_self]
  · rw [if_neg fun hk => hmk hk.1, Function.update_of_ne (Ne.symm hmk), requested]

theorem requested_request_of_not_grants (h : ¬ (cache.requested m).grants tier) :
    (cache.request m tier).2.requested = cache.requested := by
  funext k
  rw [requested, entry_request, if_neg fun hk => h hk.2, requested]

theorem lookup_request : (cache.request m tier).2.lookup = cache.lookup := by
  funext k
  rw [lookup, entry_request, lookup]
  split
  · rename_i h
    rw [h.1]
  · rfl

theorem requested_release :
    (cache.release m tier).requested =
      Function.update cache.requested m ((cache.requested m).erase tier) := by
  funext k
  rw [requested, entry_release]
  by_cases hmk : m = k
  · subst hmk
    rw [if_pos rfl, Function.update_self]
  · rw [if_neg hmk, Function.update_of_ne (Ne.symm hmk), requested]

theorem lookup_release : (cache.release m tier).lookup = cache.lookup := by
  funext k
  rw [lookup, entry_release, lookup]
  split
  · rename_i h
    rw [h]
  · rfl

theorem requested_recordRequest :
    (cache.recordRequest m tier).requested =
      Function.update cache.requested m ((cache.requested m).insert tier) := by
  funext k
  rw [requested, entry_recordRequest]
  by_cases hmk : m = k
  · subst hmk
    rw [if_pos rfl, Function.update_self]
  · rw [if_neg hmk, Function.update_of_ne (Ne.symm hmk), requested]

theorem lookup_recordRequest : (cache.recordRequest m tier).lookup = cache.lookup := by
  funext k
  rw [lookup, entry_recordRequest, lookup]
  split
  · rename_i h
    rw [h]
  · rfl

theorem requested_place (compiled : CompiledMethod α) :
    (cache.place m compiled).2.requested = cache.requested := by
  rw [place_snd]
  split
  · rfl
  · funext k
    rw [requested, entry_update, requested]
    split
    · rename_i h
      rw [h]
    · rfl

/-- An artifact is placed unless one of a higher tier is there. -/
theorem lookup_place (compiled : CompiledMethod α) :
    (cache.place m compiled).2.lookup =
      if (cache.lookup m).any (compiled.tier < ·.tier) then cache.lookup
      else Function.update cache.lookup m (some compiled) := by
  rw [place_snd]
  split
  · rfl
  · funext k
    rw [lookup, entry_update]
    by_cases hmk : m = k
    · subst hmk
      rw [if_pos rfl, Function.update_self]
    · rw [if_neg hmk, Function.update_of_ne (Ne.symm hmk), lookup]

/-- A cache, with a policy and counts, makes a ledger. -/
def ledger (policy : TierPolicy) (counts : MethodId → UInt64) : Ledger α :=
  ⟨policy, counts, cache.requested, cache.lookup⟩

variable (policy : TierPolicy) (counts : MethodId → UInt64) (r : Request)

theorem ledger_request_of_grants (h : (cache.requested r.method).grants r.tier) :
    (cache.request r.method r.tier).2.ledger policy counts =
      (cache.ledger policy counts).mark r := by
  rw [ledger, requested_request_of_grants _ _ _ h, lookup_request]
  rfl

theorem ledger_request_of_not_grants (h : ¬ (cache.requested r.method).grants r.tier) :
    (cache.request r.method r.tier).2.ledger policy counts = cache.ledger policy counts := by
  rw [ledger, requested_request_of_not_grants _ _ _ h, lookup_request, ledger]

theorem ledger_release :
    (cache.release r.method r.tier).ledger policy counts =
      (cache.ledger policy counts).unmark r := by
  rw [ledger, requested_release, lookup_release]
  rfl

theorem ledger_recordRequest :
    (cache.recordRequest r.method r.tier).ledger policy counts =
      (cache.ledger policy counts).mark r := by
  rw [ledger, requested_recordRequest, lookup_recordRequest]
  rfl

theorem ledger_place (artifact : α) :
    (cache.place r.method ⟨r.tier, artifact⟩).2.ledger policy counts =
      (cache.ledger policy counts).place r artifact := by
  rw [ledger, requested_place, lookup_place]
  unfold Ledger.place
  split
  · rename_i hhigher
    exact (if_pos hhigher).symm
  · rename_i hlower
    exact (if_neg hlower).symm

end CompilationCache

/-! ## Steps and ledgers -/

/-- The ledger of a dispatcher. -/
def Dispatcher.ledger (d : Dispatcher α) : Ledger α :=
  d.cache.ledger d.policy d.counter.get

theorem Dispatcher.ledger_mk (config : TierConfig) (counter : UsageCounter)
    (cache : CompilationCache α) (metrics : Metrics) (pool : Option (Pool (CompileJob α)))
    (log : List Event) :
    (⟨config, counter, cache, metrics, pool, log⟩ : Dispatcher α).ledger =
      cache.ledger (.ofConfig config) counter.get := rfl

theorem Dispatcher.tierState_eq (d : Dispatcher α) (m : MethodId) :
    d.cache.tierState m = .ofReads (d.ledger.requested m) ((d.ledger.active m).map (·.tier)) := rfl

@[simp]
theorem Dispatcher.ledger_set_pool (d : Dispatcher α) (pool : Option (Pool (CompileJob α))) :
    ({ d with pool } : Dispatcher α).ledger = d.ledger := rfl

@[simp]
theorem Dispatcher.ledger_report (d : Dispatcher α) (event : Event) :
    (d.report event).ledger = d.ledger := rfl

theorem Dispatcher.ledger_finishJob (d : Dispatcher α) (worker : Nat) (r : Request)
    (failure : Option CompileFailure) : (d.finishJob worker r failure).ledger = d.ledger := by
  unfold finishJob
  split
  · rw [ledger_set_pool, ledger_report]
  · rw [ledger_set_pool]

theorem UsageCounter.get_enter_eq (counter : UsageCounter) (m : MethodId) :
    (counter.enter m).get = counter.get :=
  funext fun k => counter.get_enter m k

theorem UsageCounter.get_add_eq (counter : UsageCounter) (m : MethodId) :
    (counter.add m).2.get = Function.update counter.get m (counter.get m + 1) := by
  funext k
  rw [get_add]
  by_cases hmk : m = k
  · subst hmk
    rw [if_pos rfl, Function.update_self]
  · rw [if_neg hmk, Function.update_of_ne (Ne.symm hmk)]

namespace Milestone

/-- The ledger after a milestone. -/
def ledger (l : Ledger α) : Milestone α → Ledger α
  | counted m => l.count m
  | granted r => l.mark r
  | released r => l.unmark r
  | recorded r => l.mark r
  | placed r artifact => l.place r artifact
  | invoked _ | inspected _ | decided _ | denied _ | started _ | ended _ _ => l

end Milestone

/-- A job changes the ledger at milestones only. -/
theorem CompileJob.ledger_milestone (job : CompileJob α) (policy : TierPolicy)
    (counts : MethodId → UInt64) (cache : CompilationCache α) :
    (job.milestone?.elim cache (·.cache cache)).ledger policy counts =
      job.milestone?.elim (cache.ledger policy counts) (·.ledger (cache.ledger policy counts)) := by
  obtain ⟨r, stage⟩ := job
  cases stage with
  | counted artifact => exact cache.ledger_recordRequest policy counts r
  | recorded artifact => exact cache.ledger_place policy counts r artifact
  | failed cause => exact cache.ledger_release policy counts r
  | _ => rfl

theorem CompileJob.ledger_advance (job : CompileJob α) (unwinding : Bool) (d : Dispatcher α) :
    (job.advance unwinding d).2.ledger = job.milestone?.elim d.ledger (·.ledger d.ledger) := by
  obtain ⟨metrics, log, h⟩ := job.advance_snd unwinding d
  rw [h, Dispatcher.ledger_mk, job.ledger_milestone]
  rfl

/-- A call changes the ledger at milestones only. -/
theorem Call.ledger_advance (c : Call α β) (d : Dispatcher α) :
    (c.advance d).2.ledger = (c.milestone? d).elim d.ledger (·.ledger d.ledger) := by
  obtain ⟨metrics, log, h⟩ := c.advance_snd d
  rw [h, Dispatcher.ledger_mk]
  obtain ⟨m, unwinding, stage⟩ := c
  cases stage with
  | unseen =>
    simp only [counterAfter, UsageCounter.get_enter_eq]
    rfl
  | seen =>
    simp only [counterAfter, UsageCounter.get_add_eq]
    rfl
  | claiming tier count =>
    simp only [milestone?]
    split
    · rename_i hgrants
      exact d.cache.ledger_request_of_grants _ _ ⟨m, tier⟩ hgrants
    · rename_i hdenied
      exact d.cache.ledger_request_of_not_grants _ _ ⟨m, tier⟩ hdenied
  | compiling job => exact job.ledger_milestone _ _ _
  | _ => rfl

end TieredDispatch
