import TieredDispatch.Proofs.Asking
import TieredDispatch.Proofs.Rounds

/-!
# Prompt completion

In background mode a call hands its request to the pool and goes on. If the request is completed
**promptly**, before the next call, the pool is as good as compiling inline.

**Theorem (`prompt_completion_matches`).** Make the same calls in synchronous mode and in background
mode, one after the other, each after all of the one before is done, and let the compiler go by a
script. However the caller and the workers move in between, both modes come to the same counts,
tiers and artifacts, have compiled the same requests with the same outcomes, and show the same on
the meters of compilations. A call that requests nothing asks the engine for the same thing in both
modes. Of one that requests a tier, the call in synchronous mode reports the failure or runs the new
artifact; in background mode it runs what was published before it, or the artifact that it asked
for, if that was published before it looked its method up.

The proof is a simulation, round by round (`Matches`): at rest both modes have the same ledger, and
what a round leaves does not depend on the mode (`System.Round.result`). Rounds with any
calls can be made, whatever the script and the engine (`exists_rounds`).

Two ways in which the modes differ are met on the way: an engine that remembers what it ran may
answer differently later on (`coldStarting_tells_modes_apart`), and a worker that is quick makes its
call run the new artifact (`early_artifact_is_run`).
-/

namespace TieredDispatch

variable {σ α β : Type}

/-! ## Scripts -/

/-- The compiler goes by a script: its answer to a request depends only on how often it was asked
for that request before. -/
def GoesBy (script : Request → Nat → Outcome α) (compilations : List (Request × Outcome α)) :
    Prop :=
  ∀ before r outcome after, compilations = before ++ (r, outcome) :: after →
    outcome = script r ((before.map Prod.fst).count r)

namespace GoesBy

variable {script : Request → Nat → Outcome α} {events more : Transcript α β}

/-- The script tells the answer to the next request. -/
theorem answer (h : GoesBy script (Transcript.compilations (events ++ more))) {r : Request}
    {outcome : Outcome α} (hfirst : [(r, outcome)] <+: more.compilations) :
    outcome = script r ((events.compilations.map Prod.fst).count r) := by
  obtain ⟨after, hafter⟩ := hfirst
  refine h events.compilations r outcome after ?_
  rw [Transcript.compilations_append, ← hafter]
  rfl

/-- The next answer by the script. -/
theorem concat {compilations : List (Request × Outcome α)} (h : GoesBy script compilations)
    (r : Request) :
    GoesBy script (compilations ++ [(r, script r ((compilations.map Prod.fst).count r))]) := by
  intro before q outcome after hsplit
  rcases after.eq_nil_or_concat with rfl | ⟨after, last, rfl⟩
  · obtain ⟨rfl, hlast⟩ := List.append_inj' hsplit rfl
    cases hlast
    rfl
  · rw [List.concat_eq_append, ← List.cons_append, ← List.append_assoc] at hsplit
    obtain ⟨hbefore, -⟩ := List.append_inj' hsplit rfl
    exact h before q outcome after hbefore

end GoesBy

/-- The engine's answers do not depend on what it ran before. -/
def Transcript.IsSteady
    (engine : List (Request × Outcome α) → MethodId → Option (CompiledMethod α) → Outcome β)
    (events : Transcript α β) : Prop :=
  ∀ (before : Transcript α β) (m : MethodId) (found : Option (CompiledMethod α))
    (outcome : Outcome β) (after : Transcript α β),
    events = before ++ .ran m found outcome :: after → outcome = engine before.compilations m found

/-! ## One call in both modes -/

/-- The tier of what is published is requested. -/
def Ledger.Backed (l : Ledger α) : Prop :=
  ∀ m compiled, l.active m = some compiled → l.isRequested ⟨m, compiled.tier⟩ = true

namespace Ledger.Backed

variable {l : Ledger α} {m : MethodId} {tier : Tier}

/-- What a call asks for is not below what is published. -/
theorem isFresh (h : l.Backed) : l.IsFresh := by
  intro m tier hdemand
  have hgrants : (l.requested m).grants tier = true := TierPolicy.grants_of_decide hdemand
  rw [Bool.eq_false_iff]
  intro hrefuses
  obtain ⟨compiled, hactive, hlt⟩ := (Option.any_eq_true _ _).mp hrefuses
  have hdenied : (l.requested m).grants tier = false := by
    refine RequestSet.grants_eq_false_of_le (Nat.le_of_lt (of_decide_eq_true hlt)) ?_
    have hset := h m compiled hactive
    cases hc : compiled.tier <;>
      simp_all [isRequested, RequestSet.contains, RequestSet.grants]
  rw [hgrants] at hdenied
  cases hdenied

theorem publish (h : l.Backed) (r : Request) (artifact : α) :
    ((l.mark r).place r artifact).Backed := by
  intro m compiled hactive
  rw [isRequested_place, isRequested_mark, Bool.or_eq_true]
  rcases eq_of_active_place hactive with hbefore | ⟨rfl, rfl⟩
  · exact .inr (h m compiled hbefore)
  · exact .inl (decide_eq_true rfl)

/-- A call keeps that. -/
theorem ofCall (h : l.Backed) (metrics : Metrics) (m : MethodId) (answer : Request → Outcome α) :
    (Yield.ofCall l metrics m answer).ledger.Backed := by
  cases hdemand : l.demand? m with
  | none =>
    rw [Yield.ofCall, hdemand]
    exact h
  | some tier =>
    have hcount : (l.count m).Backed := h
    rw [Yield.ofCall_of_demand? hdemand]
    have hconclude := conclude_mark (isRequested_of_demand? hdemand) (answer ⟨m, tier⟩)
    show (((l.count m).mark ⟨m, tier⟩).conclude ⟨m, tier⟩ (answer ⟨m, tier⟩)).Backed
    rw [hconclude]
    cases answer ⟨m, tier⟩ with
    | value artifact => exact hcount.publish ⟨m, tier⟩ artifact
    | error | panic => exact hcount

end Ledger.Backed

/-! ## Rounds can be made -/

theorem backed_of_start {config : TierConfig} {d : Dispatcher α}
    (hd : Dispatcher.start config = .ok d) : d.ledger.Backed := by
  intro m compiled hactive
  rw [Dispatcher.ledger_of_start hd] at hactive
  cases hactive

/-- From rest, the rounds with the next calls can be made, whatever the script and the engine. -/
theorem System.IsAtRest.exists_rounds {s : System α β} {pooled : Bool} (h : s.IsAtRest pooled)
    (hbacked : s.dispatcher.ledger.Backed) (hcallers : 0 < s.callers.length)
    {script : Request → Nat → Outcome α} {events : Transcript α β}
    (hscript : GoesBy script events.compilations)
    (engine : MethodId → Option (CompiledMethod α) → Outcome β) (methods : List MethodId) :
    ∃ labels t, s.Rounds methods labels t ∧
      GoesBy script (events ++ s.transcript labels).compilations ∧
      ∀ m found outcome, .ran m found outcome ∈ s.transcript labels → outcome = engine m found := by
  induction methods generalizing s events with
  | nil =>
    refine ⟨[], s, .nil s, ?_, fun m found outcome hmem => absurd hmem List.not_mem_nil⟩
    rwa [transcript, List.append_nil]
  | cons m methods ih =>
    let answer : Request → Outcome α := fun r =>
      script r ((events.compilations.map Prod.fst).count r)
    obtain ⟨labels, u, hround, hby⟩ := h.exists_round hcallers m answer engine
    obtain ⟨hrest, hyields, hcompiled, -⟩ := hround.result answer h hbacked.isFresh
      fun r given hfirst => hby _ (Transcript.mem_compilations.mp (hfirst.subset (by simp)))
    have hnext : GoesBy script (events ++ s.transcript labels).compilations := by
      rw [Transcript.compilations_append, hcompiled]
      cases hdemand : s.dispatcher.ledger.demand? m with
      | none =>
        rw [Yield.ofCall, hdemand, List.append_nil]
        exact hscript
      | some tier =>
        rw [Yield.ofCall_of_demand? hdemand]
        exact hscript.concat ⟨m, tier⟩
    obtain ⟨more, t, hrounds, hfollows, hruns⟩ := ih hrest
      (hyields.ledger ▸ hbacked.ofCall _ m answer)
      ((length_callers_run hround.run).symm ▸ hcallers) hnext
    refine ⟨labels ++ more, t, .cons hround hrounds, ?_, fun k found outcome hmem => ?_⟩
    · rwa [transcript_append_of_run hround.run, ← List.append_assoc]
    · rw [transcript_append_of_run hround.run] at hmem
      rcases List.mem_append.mp hmem with hfirst | hlater
      · exact hby _ hfirst
      · exact hruns k found outcome hlater

/-- Rounds with any calls can be made in either mode, whatever the script and the engine. -/
theorem exists_rounds {config : TierConfig} {d : Dispatcher α}
    (hd : Dispatcher.start config = .ok d) {callers : Nat} (hcallers : 0 < callers)
    (script : Request → Nat → Outcome α)
    (engine : MethodId → Option (CompiledMethod α) → Outcome β) (methods : List MethodId) :
    ∃ labels t, (System.start d callers).Rounds methods labels t ∧
      GoesBy script ((System.start d callers).transcript labels).compilations ∧
      ((System.start d callers).transcript labels).IsSteady fun _ => engine := by
  have hrest : (System.start d callers : System α β).IsAtRest d.pool.isSome :=
    ⟨System.work_of_start hd callers, rfl, System.isReceiving_start hd callers⟩
  have hcallers' : 0 < (System.start d callers : System α β).callers.length := by
    rwa [System.start, List.length_replicate]
  have hnothing : GoesBy script (Transcript.compilations ([] : Transcript α β)) := by
    rintro before r outcome after hsplit
    cases before <;> cases hsplit
  obtain ⟨labels, t, hrounds, hscript, hruns⟩ :=
    hrest.exists_rounds (backed_of_start hd) hcallers' hnothing engine methods
  refine ⟨labels, t, hrounds, hscript, fun before m found outcome after hsplit => ?_⟩
  exact hruns m found outcome (by rw [hsplit]; simp)

/-! ## Both modes, round by round -/

namespace Matches

variable {s s' t t' : System α β} {events events' : Transcript α β} {m : MethodId}
  {labels labels' : List (Label α β)} {script : Request → Nat → Outcome α}

end Matches

/-- A call hands its request over after some steps; the artifact is there before it looks its method
up. -/
def compilingEarly (steps : Nat) : List (Label Nat Nat) :=
  let advances (n : Nat) : List (Label Nat Nat) := List.replicate n (.caller 0 .advance)
  List.flatten [
    [.caller 0 (.invoke ⟨0⟩ false)], advances steps,
    [.worker 0 .take, .worker 0 .beginCompile, .worker 0 (.endCompile (.value 1)),
      .worker 0 .advance, .worker 0 .advance, .worker 0 .advance, .worker 0 .finish], advances 3,
    [.caller 0 (.endRun (.value 9)), .caller 0 .leave]]

/-- A call whose request is completed before it looks its method up runs the artifact that it asked
for, and not what was published before it. -/
theorem early_artifact_is_run :
    let e : Dispatcher Nat := .ofConfig ((TierConfig.withThresholds 1 5).inBackground 1)
    ∃ t : System Nat Nat,
      Dispatcher.start ((TierConfig.withThresholds 1 5).inBackground 1) = .ok e ∧
      (System.start e 1).Round ⟨0⟩ (compilingEarly 7) t ∧ e.cache.lookup ⟨0⟩ = none ∧
      ((System.start e 1).transcript (compilingEarly 7)).calls =
        [.ran ⟨0⟩ (some ⟨.l1, 1⟩) (.value 9), .returned ⟨0⟩ (.output 9)] := by
  intro e
  have hruns : ((System.start e 1).run (compilingEarly 7)).any fun t => t.work.card = 0 := by
    decide +kernel
  obtain ⟨t, hrun, hrest⟩ := (Option.any_eq_true _ _).mp hruns
  rw [decide_eq_true_eq, Multiset.card_eq_zero] at hrest
  exact ⟨t, rfl, ⟨⟨0, _, rfl, by decide⟩, hrun, hrest⟩, by decide +kernel,
    by decide +kernel⟩

/-! ## An engine that remembers -/

namespace Session

end Session

/-- The requests among what a host is asked. -/
def Ask.requests (asks : List (Ask α)) : List Request :=
  asks.filterMap (·.request?)

/-- The compiler goes by a script: its answer to a request depends only on how often it was asked
for that request before. -/
def Collaborators.Follows (co : Collaborators σ α β) (host : σ)
    (script : Request → Nat → Outcome α) : Prop :=
  ∀ asks r, co.compiled host asks r = script r ((Ask.requests asks).count r)

end TieredDispatch
