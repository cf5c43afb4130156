import TieredDispatch.Proofs.Solo

/-!
# Recording hosts

A **recording** host notes what the dispatcher asks it for and how that ended; otherwise it is the
given host. Recording changes nothing (`calls_recording`): every call gives the same result and
leaves the same dispatcher, nested calls included.
-/

namespace TieredDispatch

variable {σ α β γ : Type}

/-! ## Hosts with a log -/

/-- Something that the dispatcher asked the host for, and how it ended. -/
inductive HostCall (α β : Type)
  | compile (r : Request) (outcome : Outcome α)
  | execute (artifact : α) (outcome : Outcome β)
  | interpret (m : MethodId) (outcome : Outcome β)

/-- The same work, with an entry in the log when it ends. -/
def Activity.logged (activity : Activity σ γ) (log : List (HostCall α β))
    (entry : Outcome γ → HostCall α β) : Activity (σ × List (HostCall α β)) γ where
  state := (activity.state, log)
  nested := activity.nested
  conclude state :=
    let (outcome, host) := activity.conclude state.1
    (outcome, host, state.2 ++ [entry outcome])

/-- The same host, with a log of what it is asked for. -/
def Collaborators.recording (co : Collaborators σ α β) :
    Collaborators (σ × List (HostCall α β)) α β where
  compile state r := (co.compile state.1 r).logged state.2 (.compile r)
  execute state artifact := (co.execute state.1 artifact).logged state.2 (.execute artifact)
  interpret state m := (co.interpret state.1 m).logged state.2 (.interpret m)
  onNested state m result := (co.onNested state.1 m result, state.2)

theorem Collaborators.NeverCalls.recording {co : Collaborators σ α β} (hco : co.NeverCalls) :
    co.recording.NeverCalls where
  compile state r := hco.compile state.1 r
  execute state artifact := hco.execute state.1 artifact
  interpret state m := hco.interpret state.1 m

section Recording

variable {co : Collaborators σ α β} {caller : Caller σ α β}
  {caller' : Caller (σ × List (HostCall α β)) α β}

/-- A session without the log of its host. -/
def Session.forget (s : Session (σ × List (HostCall α β)) α) : Session σ α :=
  ⟨s.dispatcher, s.host.1⟩

/-- Two ways of making calls that differ in the log only. -/
def SameCalls (caller : Caller σ α β) (caller' : Caller (σ × List (HostCall α β)) α β) : Prop :=
  ∀ s m, caller s.forget m = ((caller' s m).1, (caller' s m).2.forget)

variable (co) in
theorem Session.nestedCalls_recording (hsame : SameCalls caller caller')
    (s : Session (σ × List (HostCall α β)) α) (methods : List MethodId) :
    nestedCalls co caller s.forget methods =
      ((nestedCalls co.recording caller' s methods).1,
        (nestedCalls co.recording caller' s methods).2.forget) := by
  induction methods generalizing s with
  | nil => rfl
  | cons m rest ih =>
    simp only [nestedCalls, hsame s m]
    obtain ⟨result, t⟩ := caller' s m
    cases result with
    | panicked payload => rfl
    | output value => exact ih ⟨t.dispatcher, co.recording.onNested t.host m (.output value)⟩
    | failed error => exact ih ⟨t.dispatcher, co.recording.onNested t.host m (.failed error)⟩

variable {caller? : Option (Caller σ α β)}
  {caller'? : Option (Caller (σ × List (HostCall α β)) α β)}

theorem Session.perform_recording (hsame : Option.Rel SameCalls caller? caller'?)
    (s : Session (σ × List (HostCall α β)) α) (activity : Activity σ γ)
    (entry : Outcome γ → HostCall α β) :
    perform co caller? s.forget activity =
      ((perform co.recording caller'? s (activity.logged s.host.2 entry)).1,
        (perform co.recording caller'? s (activity.logged s.host.2 entry)).2.forget) := by
  unfold perform
  cases hsame with
  | none => rfl
  | @some caller caller' hsame =>
    have hnested := nestedCalls_recording co hsame
      ⟨s.dispatcher, activity.state, s.host.2⟩ activity.nested
    simp only [forget, Activity.logged] at hnested ⊢
    rw [hnested]
    obtain ⟨panic, t⟩ := nestedCalls co.recording caller'
      ⟨s.dispatcher, activity.state, s.host.2⟩ activity.nested
    cases panic with
    | none => rfl
    | some payload => rfl

/-- A call is carried out as without the log. -/
theorem Session.drive_recording (hsame : Option.Rel SameCalls caller? caller'?)
    (s : Session (σ × List (HostCall α β)) α) (c : Call α β) :
    drive co caller? s.forget c =
      ((drive co.recording caller'? s c).1, (drive co.recording caller'? s c).2.forget) := by
  induction hrank : c.rank using Nat.strong_induction_on generalizing s c with
  | _ rank ih =>
    subst hrank
    cases hturn : c.turn with
    | ended result => rw [drive_of_ended hturn, drive_of_ended hturn]
    | dispatcher =>
      rw [drive_of_dispatcher hturn, drive_of_dispatcher hturn]
      exact ih _ (c.rank_advance_lt s.dispatcher hturn) ⟨(c.advance s.dispatcher).2, s.host⟩ _ rfl
    | compiler job =>
      have hperform : perform co caller? s.forget (co.compile s.host.1 job.request) =
          ((perform co.recording caller'? s (co.recording.compile s.host job.request)).1,
            (perform co.recording caller'? s
              (co.recording.compile s.host job.request)).2.forget) :=
        perform_recording hsame s _ (.compile job.request)
      rw [drive_of_compiler hturn, drive_of_compiler hturn]
      change drive co caller?
        (perform co caller? s.forget (co.compile s.host.1 job.request)).2
        (c.beginCompile.concludeCompile
          (perform co caller? s.forget (co.compile s.host.1 job.request)).1) = _
      rw [hperform]
      exact ih _ (c.rank_compile_lt job _ hturn) _ _ rfl
    | engine found =>
      have hperform : perform co caller? s.forget (co.run s.host.1 c.method found) =
          ((perform co.recording caller'? s (co.recording.run s.host c.method found)).1,
            (perform co.recording caller'? s
              (co.recording.run s.host c.method found)).2.forget) := by
        cases found with
        | none => exact perform_recording hsame s _ (.interpret c.method)
        | some compiled => exact perform_recording hsame s _ (.execute compiled.artifact)
      rw [drive_of_engine hturn, drive_of_engine hturn]
      change (Call.runResult c.method found
          (perform co caller? s.forget (co.run s.host.1 c.method found)).1,
        (perform co caller? s.forget (co.run s.host.1 c.method found)).2) = _
      rw [hperform]

variable (co)

theorem Session.callWithin_recording (depth : Nat) :
    SameCalls (callWithin co depth) (callWithin co.recording depth) := by
  induction depth with
  | zero => exact fun s m => drive_recording .none s (.arrive m false)
  | succ depth ih => exact fun s m => drive_recording (.some ih) s (.arrive m false)

/-- **Recording changes nothing.** Any sequence of calls gives the same results, and leaves the
same dispatcher and the same host, with and without the log. -/
theorem Session.calls_recording (depth : Nat) (s : Session (σ × List (HostCall α β)) α)
    (methods : List MethodId) :
    calls co depth s.forget methods =
      ((calls co.recording depth s methods).1,
        (calls co.recording depth s methods).2.forget) := by
  induction methods generalizing s with
  | nil => rfl
  | cons m rest ih =>
    have hcall := callWithin_recording co depth s m
    simp only [calls, call, hcall, ih]

end Recording

end TieredDispatch
