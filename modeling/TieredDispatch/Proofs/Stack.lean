import TieredDispatch.Proofs.Work

/-!
# The calls of one caller

A run as one caller sees it. A move of the caller adds a call, removes one, or replaces the
innermost one by what comes next; all other steps leave its calls alone (`System.step_of_caller`).
Below the innermost call there are only calls whose host is at work, and a call compiles its own
method (`Stacked`).
-/

namespace TieredDispatch

variable {α β : Type}

/-- Whether a step is a move of the given caller. -/
def Label.isOf (i : Nat) : Label α β → Bool
  | caller j _ => j = i
  | worker _ _ | direct _ | close | lose _ _ => false

/-- What every step keeps, every run keeps. -/
theorem System.run_induction {P : System α β → Prop}
    (hkeep : ∀ {s t : System α β} {label : Label α β}, s.step label = some t → P s → P t)
    {s t : System α β} {labels : List (Label α β)} (hrun : s.run labels = some t) (h : P s) :
    P t := by
  induction labels generalizing s with
  | nil =>
    obtain rfl := Option.some.inj hrun
    exact h
  | cons label labels ih =>
    obtain ⟨next, hstep, hrest⟩ := Option.bind_eq_some_iff.mp hrun
    exact ih hrest (hkeep hstep h)

/-- The calls of a caller, the innermost first. -/
def System.callsOf (s : System α β) (i : Nat) : List (Call α β) :=
  s.callers[i]?.getD []

theorem System.exists_mem_callsOf {s : System α β} {c : Call α β} :
    (∃ i, c ∈ s.callsOf i) ↔ ∃ calls ∈ s.callers, c ∈ calls := by
  constructor
  · rintro ⟨i, hc⟩
    rw [callsOf] at hc
    cases hcalls : s.callers[i]? with
    | none =>
      rw [hcalls] at hc
      cases hc
    | some calls =>
      rw [hcalls] at hc
      exact ⟨calls, List.mem_of_getElem? hcalls, hc⟩
  · rintro ⟨calls, hcalls, hc⟩
    obtain ⟨i, hi⟩ := List.mem_iff_getElem?.mp hcalls
    exact ⟨i, by rwa [callsOf, hi]⟩

/-- Only a caller has calls. -/
theorem System.callers_of_callsOf {s : System α β} {i : Nat} {c : Call α β}
    {outer : List (Call α β)} (h : s.callsOf i = c :: outer) :
    s.callers[i]? = some (c :: outer) := by
  rw [callsOf] at h
  cases hcalls : s.callers[i]? with
  | none =>
    rw [hcalls] at h
    cases h
  | some calls =>
    rw [hcalls] at h
    exact congrArg some h

/-- Where there is one caller only, all calls are its. -/
theorem System.eq_zero_of_mem_callsOf {s : System α β} (hsingle : s.callers.length = 1) {i : Nat}
    {c : Call α β} (hc : c ∈ s.callsOf i) : i = 0 := by
  by_contra hi
  rw [callsOf, List.getElem?_eq_none (by omega)] at hc
  cases hc

/-- **One caller's view of a step.** It is a move of the caller, or it leaves its calls alone. -/
theorem System.step_of_caller (i : Nat) {s t : System α β} {label : Label α β}
    (h : s.step label = some t) :
    (∃ move, label = .caller i move ∧
      StackStep s.dispatcher move (s.callsOf i) (t.callsOf i) t.dispatcher) ∨
    (label.isOf i = false ∧ t.callsOf i = s.callsOf i) := by
  cases systemStep_of_step h with
  | @caller j move calls calls' d' hcalls hmove =>
    by_cases hj : j = i
    · subst hj
      refine .inl ⟨move, rfl, ?_⟩
      rw [callsOf, callsOf, hcalls, List.getElem?_set_self (List.getElem?_eq_some_iff.mp hcalls).1]
      exact hmove
    · exact .inr ⟨by simpa [Label.isOf] using hj, by simp only [callsOf, List.getElem?_set_ne hj]⟩
  | worker | direct | close | lose => exact .inr ⟨rfl, rfl⟩

/-! ## What a step leaves of a call -/

@[simp]
theorem CompileJob.request_advance (job : CompileJob α) (unwinding : Bool) (d : Dispatcher α) :
    (job.advance unwinding d).1.request = job.request := by
  obtain ⟨r, stage⟩ := job
  cases stage with
  | recorded artifact =>
    simp only [advance]
    split <;> rfl
  | released cause =>
    cases cause with
    | error reason =>
      simp only [advance]
      split <;> rfl
    | panic payload => rfl
  | _ => rfl

@[simp]
theorem CompileJob.request_begin (job : CompileJob α) : job.begin.request = job.request := by
  unfold begin
  split <;> rfl

@[simp]
theorem CompileJob.request_conclude (job : CompileJob α) (outcome : Outcome α) :
    (job.conclude outcome).request = job.request := by
  unfold conclude
  split
  · cases outcome <;> rfl
  · rfl

namespace Call

/-- Only the stage of a call ever changes. -/
theorem beginCompile_eq (c : Call α β) :
    c.beginCompile = { c with stage := c.beginCompile.stage } := by
  unfold beginCompile
  split <;> rfl

theorem concludeCompile_eq (c : Call α β) (outcome : Outcome α) :
    c.concludeCompile outcome = { c with stage := (c.concludeCompile outcome).stage } := by
  unfold concludeCompile
  split <;> rfl

theorem concludeRun_eq (c : Call α β) (outcome : Outcome β) :
    c.concludeRun outcome = { c with stage := (c.concludeRun outcome).stage } := by
  unfold concludeRun
  split <;> rfl

theorem advance_fst_eq (c : Call α β) (d : Dispatcher α) (h : c.turn = .dispatcher) :
    (c.advance d).1 = { c with stage := (c.advance d).1.stage } := by
  obtain ⟨stage, hnext, -⟩ := c.exists_stageStep d h
  rw [hnext]

/-- What a stage says about the call that a step of the dispatcher has brought there: a call
compiles its own method, and runs what it looked up. -/
def LeadsTo (c : Call α β) (d : Dispatcher α) : CallStage α β → Prop
  | .compiling job => job.request.method = c.method ∨
      ∃ held, c.stage = .compiling held ∧ job.request = held.request
  | .entering found => c.stage = .selecting ∧ found = d.cache.lookup c.method
  | .running found => c.stage = .entering found
  | _ => True

theorem leadsTo_advance (c : Call α β) (d : Dispatcher α) (h : c.turn = .dispatcher) :
    c.LeadsTo d (c.advance d).1.stage := by
  obtain ⟨stage, hnext, hstep⟩ := c.exists_stageStep d h
  rw [hnext]
  obtain ⟨m, unwinding, before⟩ := c
  cases hstep with
  | hold => exact .inl rfl
  | job => exact .inr ⟨_, rfl, CompileJob.request_advance _ unwinding d⟩
  | select => exact ⟨rfl, rfl⟩
  | run found => exact rfl
  | _ => trivial

theorem method_advance (c : Call α β) (d : Dispatcher α) (h : c.turn = .dispatcher) :
    (c.advance d).1.method = c.method := by
  rw [c.advance_fst_eq d h]

end Call

/-! ## What holds of the calls of a caller -/

/-- Below the innermost call there are only calls whose host is at work, and what a call compiles
is its own method. -/
structure Stacked (calls : List (Call α β)) : Prop where
  outer : ∀ c ∈ calls.tail, c.isWithHost = true
  own : ∀ c ∈ calls, ∀ job, c.stage = .compiling job → job.request.method = c.method

/-- Replacing the innermost call by one that compiles its own method. -/
theorem Stacked.replace {c c' : Call α β} {outer : List (Call α β)} (h : Stacked (c :: outer))
    (hown : ∀ job, c'.stage = .compiling job → job.request.method = c'.method) :
    Stacked (c' :: outer) where
  outer := h.outer
  own := List.forall_mem_cons.mpr ⟨hown, fun k hk => h.own k (List.mem_cons_of_mem c hk)⟩

theorem StackStep.stacked {d d' : Dispatcher α} {move : CallerMove α β}
    {calls calls' : List (Call α β)} (hstep : StackStep d move calls calls' d')
    (h : Stacked calls) : Stacked calls' := by
  cases hstep with
  | invoke m unwinding hmay =>
    refine ⟨fun c hc => ?_, List.forall_mem_cons.mpr ⟨fun job hjob => (nomatch hjob), h.own⟩⟩
    cases calls with
    | nil => cases hc
    | cons k outer =>
      obtain rfl | hc := List.mem_cons.mp hc
      · exact hmay c (by simp)
      · exact h.outer c hc
  | @advance c outer hturn =>
    refine h.replace fun job hjob => ?_
    have hleads := c.leadsTo_advance d hturn
    rw [hjob] at hleads
    rw [c.method_advance d hturn]
    obtain hmethod | ⟨held, hheld, hrequest⟩ := hleads
    · exact hmethod
    · rw [hrequest]
      exact h.own c List.mem_cons_self held hheld
  | @beginCompile c job outer hturn hidle =>
    have hstage := (Call.stage_of_turn_compiler hturn).1
    refine h.replace fun next hnext => ?_
    simp only [Call.beginCompile, hstage, CallStage.compiling.injEq] at hnext
    rw [← hnext, CompileJob.request_begin, c.beginCompile_eq]
    exact h.own c List.mem_cons_self job hstage
  | @endCompile c job outcome outer hturn hbusy =>
    have hstage := (Call.stage_of_turn_compiler hturn).1
    refine h.replace fun next hnext => ?_
    simp only [Call.concludeCompile, hstage, CallStage.compiling.injEq] at hnext
    rw [← hnext, CompileJob.request_conclude, c.concludeCompile_eq]
    exact h.own c List.mem_cons_self job hstage
  | @endRun c found outcome outer hturn =>
    have hstage := Call.stage_of_turn_engine hturn
    refine h.replace fun next hnext => ?_
    simp only [Call.concludeRun, hstage, reduceCtorEq] at hnext
  | @leave c result outer hturn =>
    exact ⟨fun k hk => h.outer k (List.mem_of_mem_tail hk),
      fun k hk => h.own k (List.mem_cons_of_mem c hk)⟩

/-- The calls of every caller are stacked. -/
def System.IsStacked (s : System α β) : Prop :=
  ∀ i, Stacked (s.callsOf i)

theorem System.isStacked_step {s t : System α β} {label : Label α β}
    (hstep : s.step label = some t) (h : s.IsStacked) : t.IsStacked := by
  intro i
  obtain ⟨move, -, hmove⟩ | ⟨-, hsame⟩ := step_of_caller i hstep
  · exact hmove.stacked (h i)
  · rw [hsame]
    exact h i

theorem System.isStacked_run {s t : System α β} {labels : List (Label α β)}
    (hrun : s.run labels = some t) (h : s.IsStacked) : t.IsStacked :=
  run_induction isStacked_step hrun h

theorem System.callsOf_start (d : Dispatcher α) (callers i : Nat) :
    (start d callers : System α β).callsOf i = [] := by
  rw [callsOf, start, List.getElem?_replicate]
  split <;> rfl

theorem System.isStacked_start (d : Dispatcher α) (callers : Nat) :
    (start d callers : System α β).IsStacked := by
  intro i
  rw [callsOf_start]
  exact ⟨by simp, by simp⟩

end TieredDispatch
