import TieredDispatch.Dispatch.System

/-!
# Milestones

Most steps of a system only move a call or a job one stage on. The others are **milestones**: a
call is made, counted or decided, a request is granted or denied, a compile call starts or ends,
a request is given back, an artifact is published. The **history** of a run lists its milestones,
oldest first. How often a request was granted, how often its compilation started, succeeded or
failed, and which artifact is the best one so far are counted off the history.
-/

namespace TieredDispatch

/-- The value of an outcome, if there is one. -/
def Outcome.value? {γ : Type} : Outcome γ → Option γ
  | value v => some v
  | error _ | panic _ => none

@[simp]
theorem Outcome.value?_value {γ : Type} (v : γ) : (value v).value? = some v := rfl

/-- Why an outcome of the compiler is no artifact. -/
def Outcome.failure? {α : Type} : Outcome α → Option CompileFailure
  | value _ => none
  | error reason => some (.error reason)
  | panic payload => some (.panic payload)

theorem Outcome.value_of_failure?_eq_none {α : Type} {outcome : Outcome α}
    (h : outcome.failure? = none) : ∃ v, outcome = .value v := by
  cases outcome with
  | value v => exact ⟨v, rfl⟩
  | error _ | panic _ => cases h

/-- What a step means for a method or for a request. -/
inductive Milestone (α : Type)
  /-- A call of the method was made. -/
  | invoked (m : MethodId)
  /-- A call was counted, and was handed out its count. -/
  | counted (m : MethodId)
  /-- A call read the requested tiers. -/
  | inspected (m : MethodId)
  /-- A call read the published tier and decided. -/
  | decided (m : MethodId)
  | granted (r : Request)
  | denied (r : Request)
  /-- The compiler was called. -/
  | started (r : Request)
  /-- The compiler's call ended. -/
  | ended (r : Request) (outcome : Outcome α)
  /-- The request was given back. -/
  | released (r : Request)
  /-- The tier was recorded as requested, the first half of publishing. -/
  | recorded (r : Request)
  /-- The artifact was offered to the cache, the second half of publishing. -/
  | placed (r : Request) (artifact : α)
deriving DecidableEq

namespace Milestone

variable {α : Type}

def isInvocation (m : MethodId) : Milestone α → Bool
  | invoked k => k = m
  | _ => false

def isGrant (r : Request) : Milestone α → Bool
  | granted q => q = r
  | _ => false

def isStart (r : Request) : Milestone α → Bool
  | started q => q = r
  | _ => false

/-- A compile call ended with an artifact. -/
def isSuccess (r : Request) : Milestone α → Bool
  | ended q outcome => q = r && outcome.value?.isSome
  | _ => false

/-- A compile call ended with an error or a panic. -/
def isFailure (r : Request) : Milestone α → Bool
  | ended q outcome => q = r && outcome.value?.isNone
  | _ => false

def isRelease (r : Request) : Milestone α → Bool
  | released q => q = r
  | _ => false

/-- The artifact of a compile call for the request that ended with one. -/
def artifact? (r : Request) : Milestone α → Option α
  | ended q outcome => if q = r then outcome.value? else none
  | _ => none

end Milestone

/-! ## Histories -/

/-- The milestones of a run, oldest first. -/
abbrev History (α : Type) := List (Milestone α)

namespace History

variable {α : Type}

/-- The artifact of the first successful compilation. -/
def artifact? (h : History α) (r : Request) : Option α :=
  h.findSome? (·.artifact? r)

/-- The artifact of the highest tier that was compiled successfully. -/
def best? (h : History α) (m : MethodId) : Option (CompiledMethod α) :=
  match h.artifact? ⟨m, .l2⟩ with
  | some artifact => some ⟨.l2, artifact⟩
  | none => (h.artifact? ⟨m, .l1⟩).map (⟨.l1, ·⟩)

/-- Calls made of a method. -/
def invocations (h : History α) (m : MethodId) : Nat :=
  h.countP (·.isInvocation m)

def grants (h : History α) (r : Request) : Nat :=
  h.countP (·.isGrant r)

/-- Compile calls that started. -/
def starts (h : History α) (r : Request) : Nat :=
  h.countP (·.isStart r)

/-- Compile calls that ended with an artifact. -/
def successes (h : History α) (r : Request) : Nat :=
  h.countP (·.isSuccess r)

/-- Compile calls that ended with an error or a panic. -/
def failures (h : History α) (r : Request) : Nat :=
  h.countP (·.isFailure r)

/-- How often a request was given back. -/
def releases (h : History α) (r : Request) : Nat :=
  h.countP (·.isRelease r)

theorem countP_concat (p : Milestone α → Bool) (h : History α) (μ : Milestone α) :
    (h ++ [μ]).countP p = h.countP p + (p μ).toNat := by
  rw [List.countP_append, List.countP_singleton]
  cases p μ <;> rfl

theorem countP_le_concat (p : Milestone α → Bool) (h : History α) (μ : Milestone α) :
    h.countP p ≤ (h ++ [μ]).countP p := by
  rw [countP_concat]
  exact Nat.le_add_right _ _

theorem artifact?_concat (h : History α) (μ : Milestone α) (r : Request) :
    artifact? (h ++ [μ]) r = (h.artifact? r).or (μ.artifact? r) := by
  unfold artifact?
  rw [List.findSome?_append, List.findSome?_cons, List.findSome?_nil]
  cases μ.artifact? r <;> rfl

/-- There is an artifact as soon as a compilation succeeded. -/
theorem isSome_artifact? (h : History α) (r : Request) :
    (h.artifact? r).isSome ↔ 0 < h.successes r := by
  have hone : ∀ μ : Milestone α, (μ.artifact? r).isSome = μ.isSuccess r := by
    intro μ
    cases μ with
    | ended q outcome => by_cases hq : q = r <;> simp [Milestone.artifact?, Milestone.isSuccess, hq]
    | _ => rfl
  simp only [artifact?, successes, List.isSome_findSome?, hone, List.any_eq_true,
    List.countP_pos_iff]

theorem artifact?_eq_none {h : History α} {r : Request} (hnone : h.successes r = 0) :
    h.artifact? r = none := by
  rw [← Option.not_isSome_iff_eq_none, isSome_artifact?, hnone]
  exact Nat.lt_irrefl 0

/-- The best artifact is of the highest tier that was compiled. -/
theorem tier_best? (h : History α) (m : MethodId) :
    (h.best? m).map (·.tier) =
      if 0 < h.successes ⟨m, .l2⟩ then some .l2
      else if 0 < h.successes ⟨m, .l1⟩ then some .l1
      else none := by
  simp only [← isSome_artifact?, best?]
  cases h.artifact? ⟨m, .l2⟩ with
  | some artifact => rfl
  | none => cases h.artifact? ⟨m, .l1⟩ <;> rfl

/-- Later milestones do not change the artifact of the first success. -/
theorem artifact?_append_of_some {h : History α} {r : Request} {artifact : α}
    (hsome : h.artifact? r = some artifact) (k : History α) :
    artifact? (h ++ k) r = some artifact := by
  unfold artifact? at hsome ⊢
  rw [List.findSome?_append, hsome, Option.some_or]

theorem artifact?_concat_of_some {h : History α} {r : Request} {artifact : α}
    (hsome : h.artifact? r = some artifact) (μ : Milestone α) :
    artifact? (h ++ [μ]) r = some artifact :=
  artifact?_append_of_some hsome [μ]

/-- The best artifact after a first success: the new one, unless one of a higher tier is there. -/
theorem best?_concat (h : History α) {m : MethodId} {tier : Tier} (artifact : α)
    (hnone : h.artifact? ⟨m, tier⟩ = none) :
    best? (h ++ [.ended ⟨m, tier⟩ (.value artifact)]) m =
      if (h.best? m).any (tier < ·.tier) then h.best? m else some ⟨tier, artifact⟩ := by
  rw [best?, best?, artifact?_concat, artifact?_concat]
  cases tier with
  | l2 =>
    rw [hnone]
    have hhigher : ∀ compiled : CompiledMethod α, ¬ Tier.l2 < compiled.tier := by
      intro compiled
      cases compiled.tier <;> decide
    cases h.artifact? ⟨m, .l1⟩ <;> simp [Milestone.artifact?, hhigher]
  | l1 =>
    rw [hnone]
    have hlower : Tier.l1 < Tier.l2 := by decide
    cases h.artifact? ⟨m, .l2⟩ <;> simp [Milestone.artifact?, hlower]

end History

/-! ## Milestones of steps -/

variable {α β : Type}

/-- The milestone of the next step of a job. -/
def CompileJob.milestone? (job : CompileJob α) : Option (Milestone α) :=
  match job.stage with
  | .counted _ => some (.recorded job.request)
  | .recorded artifact => some (.placed job.request artifact)
  | .failed _ => some (.released job.request)
  | _ => none

/-- The milestone of the next step of a call, taken by the given dispatcher. -/
def Call.milestone? (c : Call α β) (d : Dispatcher α) : Option (Milestone α) :=
  match c.stage with
  | .seen => some (.counted c.method)
  | .counted _ => some (.inspected c.method)
  | .inspecting _ _ => some (.decided c.method)
  | .claiming tier _ =>
    if (d.cache.requested c.method).grants tier then some (.granted ⟨c.method, tier⟩)
    else some (.denied ⟨c.method, tier⟩)
  | .compiling job => job.milestone?
  | _ => none

/-- The request a call compiles inline, if it does. -/
def Call.compiles? (c : Call α β) : Option Request :=
  match c.stage with
  | .compiling job => some job.request
  | _ => none

/-- The milestone of a move of the caller with the given calls. -/
def CallerMove.milestone? (d : Dispatcher α) (calls : List (Call α β)) (move : CallerMove α β) :
    Option (Milestone α) :=
  match move, calls with
  | invoke m _, _ => some (.invoked m)
  | advance, c :: _ => c.milestone? d
  | beginCompile, c :: _ => c.compiles?.map .started
  | endCompile outcome, c :: _ => c.compiles?.map (.ended · outcome)
  | _, _ => none

/-- The milestone of a move of a worker that is busy with a job. -/
def WorkerMove.milestone? (job : CompileJob α) : WorkerMove α → Option (Milestone α)
  | beginCompile => some (.started job.request)
  | endCompile outcome => some (.ended job.request outcome)
  | advance => job.milestone?
  | take | finish | stop => none

/-! ## What a step does to the dispatcher -/

/-- The cache after a milestone. -/
def Milestone.cache (cache : CompilationCache α) : Milestone α → CompilationCache α
  | granted r | denied r => (cache.request r.method r.tier).2
  | released r => cache.release r.method r.tier
  | recorded r => cache.recordRequest r.method r.tier
  | placed r artifact => (cache.place r.method ⟨r.tier, artifact⟩).2
  | invoked _ | counted _ | inspected _ | decided _ | started _ | ended _ _ => cache

/-- A job changes the cache at milestones only, and beyond that counts and reports. -/
theorem CompileJob.advance_snd (job : CompileJob α) (unwinding : Bool) (d : Dispatcher α) :
    ∃ metrics log, (job.advance unwinding d).2 =
      { d with cache := job.milestone?.elim d.cache (·.cache d.cache), metrics, log } := by
  obtain ⟨r, stage⟩ := job
  cases stage with
  | recorded artifact =>
    simp only [advance, milestone?, Option.elim_some, Milestone.cache]
    split
    · exact ⟨_, _, rfl⟩
    · exact ⟨_, _, rfl⟩
  | released cause =>
    cases cause with
    | error reason =>
      simp only [advance]
      split
      · exact ⟨_, _, rfl⟩
      · exact ⟨_, _, rfl⟩
    | panic payload => exact ⟨_, _, rfl⟩
  | _ => exact ⟨_, _, rfl⟩

/-- The counter after the next step of a call. -/
def Call.counterAfter (c : Call α β) (counter : UsageCounter) : UsageCounter :=
  match c.stage with
  | .unseen => counter.enter c.method
  | .seen => (counter.add c.method).2
  | _ => counter

/-- The pool after the next step of a call: it may receive a request. -/
def Call.poolAfter (c : Call α β) (pool : Option (Pool (CompileJob α))) :
    Option (Pool (CompileJob α)) :=
  match c.stage with
  | .promoting tier _ => (pool.bind (·.send ⟨c.method, tier⟩)).or pool
  | _ => pool

/-- What a call does beyond its milestone, its counting and its sending is counted and reported
only. -/
theorem Call.advance_snd (c : Call α β) (d : Dispatcher α) :
    ∃ metrics log, (c.advance d).2 =
      { d with
        counter := c.counterAfter d.counter
        cache := (c.milestone? d).elim d.cache (·.cache d.cache)
        pool := c.poolAfter d.pool
        metrics, log } := by
  obtain ⟨m, unwinding, stage⟩ := c
  cases stage with
  | claiming tier count =>
    by_cases hgrants : (d.cache.requested m).grants tier <;>
      simp only [advance, CompilationCache.request_fst, hgrants, milestone?, if_true, if_false,
        Bool.false_eq_true, Option.elim_some, Milestone.cache] <;>
      exact ⟨_, _, rfl⟩
  | arriving =>
    simp only [advance]
    split <;> exact ⟨_, _, rfl⟩
  | inspecting count requested =>
    simp only [advance]
    split <;> exact ⟨_, _, rfl⟩
  | promoting tier count =>
    obtain ⟨config, counter, cache, metrics, pool, log⟩ := d
    cases pool with
    | none => exact ⟨_, _, rfl⟩
    | some pool =>
      cases hsend : pool.send ⟨m, tier⟩ with
      | none =>
        simp only [advance, Dispatcher.report, hsend, milestone?, poolAfter, Option.bind_some]
        exact ⟨_, _, rfl⟩
      | some pool' =>
        simp only [advance, Dispatcher.report, hsend, milestone?, poolAfter, Option.bind_some]
        exact ⟨_, _, rfl⟩
  | compiling job =>
    cases hturn : job.turn with
    | ended failure =>
      obtain ⟨r, rfl⟩ := CompileJob.exists_done_of_turn hturn
      exact ⟨_, _, rfl⟩
    | dispatcher | compiler =>
      simp only [advance, hturn]
      exact job.advance_snd unwinding d
  | _ => exact ⟨_, _, rfl⟩

/-! ## Milestones of a run -/

namespace System

/-- The milestone of a step of the callers or of the workers, if it is one. -/
def milestone? (s : System α β) : Label α β → Option (Milestone α)
  | .caller i move => do
    let calls ← s.callers[i]?
    move.milestone? s.dispatcher calls
  | .worker i move => do
    let pool ← s.dispatcher.pool
    let job ← pool.jobOf? i
    move.milestone? job
  | .direct _ | .close | .lose _ _ => none

/-- The milestones of a run. -/
def history : System α β → List (Label α β) → History α
  | _, [] => []
  | s, label :: labels =>
    match s.step label with
    | some t => (s.milestone? label).toList ++ t.history labels
    | none => []

/-- What every step of a run keeps, with the milestones so far, the run keeps. -/
theorem history_induction {P : History α → System α β → Prop} {labels : List (Label α β)}
    (hkeep : ∀ {h : History α} {s t : System α β} {label : Label α β}, label ∈ labels →
      s.step label = some t → P h s → P (h ++ (s.milestone? label).toList) t)
    {h : History α} {s t : System α β} (hrun : s.run labels = some t) (hs : P h s) :
    P (h ++ s.history labels) t := by
  induction labels generalizing h s with
  | nil =>
    obtain rfl := Option.some.inj hrun
    simpa [history] using hs
  | cons label labels ih =>
    obtain ⟨u, hu, hrest⟩ := Option.bind_eq_some_iff.mp hrun
    have hnext := hkeep List.mem_cons_self hu hs
    rw [history, hu, ← List.append_assoc]
    exact ih (fun hmem => hkeep (List.mem_cons_of_mem label hmem)) hrest hnext

end System

/-- Whether a step is one of the dispatcher's own, and not the host's on the cache, or the loss of a
worker to a destructor of the host. -/
def Label.isOwn : Label α β → Bool
  | caller _ _ | worker _ _ | close => true
  | direct _ | lose _ _ => false

end TieredDispatch
