import Mathlib.Data.Set.Finite.Lattice
import Mathlib.Order.Interval.Finset.Nat
import TieredDispatch.Proofs.Resting
import TieredDispatch.Proofs.Schedule

/-!
# Calls return

**Theorem (`reentrant_compilation_ends`).** If the engine makes no calls, and each compile call
makes finitely many, then every call comes to its end: nothing but the request bits bounds the
nesting of compile calls, and that is enough.

The run is looked at by levels. A call at some level of a caller's stack moves on only while it is
the innermost one, and each of its own moves brings it closer to its end (`StackStep.levelStep`).
Above the level at which a call was made there are at most two compile calls for each method
(`Deepens.length_le`). So of the levels at which the caller moves for ever there is a lowest one,
from some time on the stack stays at that level or above it, and the call there does not move any
more. Then all that happens at the level are calls made by one and the same compile call, and these
are finitely many.
-/

namespace TieredDispatch

variable {α β : Type} {i : Nat}

/-! ## Runs without an end -/

/-- A run that never ends: the states, and the step taken in each. -/
structure EndlessRun (α β : Type) where
  state : Nat → System α β
  label : Nat → Label α β
  step : ∀ n, (state n).step (label n) = some (state (n + 1))

namespace EndlessRun

section

variable (run : EndlessRun α β) (i : Nat)

/-- The calls of a caller at a time, the innermost first. -/
def calls (n : Nat) : List (Call α β) :=
  (run.state n).callsOf i

/-- How many calls of the caller are in progress. -/
def depth (n : Nat) : Nat :=
  (run.calls i n).length

/-- The caller makes a call. -/
def Invokes (n : Nat) : Prop :=
  ∃ m unwinding, run.label n = .caller i (.invoke m unwinding)

/-- The compile call that starts at `a` is in progress at `n`: the call it is made for was not left
since, and the compiler did not answer it. -/
structure Compiles (a n : Nat) : Prop where
  started : run.label a = .caller i .beginCompile
  after : a < n
  stays : ∀ k, a < k → k ≤ n → run.depth i a ≤ run.depth i k
  unanswered : ∀ k outcome, a < k → k < n → run.label k = .caller i (.endCompile outcome) →
    run.depth i a < run.depth i k

/-- The compile call that starts at `a` makes a call at `n`. -/
def MakesCall (a n : Nat) : Prop :=
  run.Compiles i a n ∧ run.depth i n = run.depth i a ∧ run.Invokes i n

/-- No call of the caller is made by the engine. -/
def EngineNeverCalls : Prop :=
  ∀ n, run.Invokes i n → ∀ c ∈ (run.calls i n).head?, ∀ found, c.turn ≠ .engine found

end

end EndlessRun

/-! ## Moves of a call -/

namespace Call

variable {c : Call α β}

/-- The compiler's answer ends its work. -/
theorem compiling?_concludeCompile {job : CompileJob α} (outcome : Outcome α)
    (h : c.turn = .compiler job) (hbusy : job.isCompiling = true) :
    (c.concludeCompile outcome).compiling? = none := by
  obtain ⟨hstage, -⟩ := stage_of_turn_compiler h
  rw [CompileJob.eq_of_isCompiling hbusy] at hstage
  cases outcome <;>
    simp [concludeCompile, hstage, CompileJob.conclude, compiling?, CompileJob.isCompiling]

/-- No step of the dispatcher calls the compiler. -/
theorem compiling?_advance (d : Dispatcher α) (h : c.turn = .dispatcher) :
    (c.advance d).1.compiling? = none := by
  obtain ⟨stage, hnext, hstep⟩ := c.exists_stageStep d h
  rw [hnext]
  obtain ⟨m, unwinding, before⟩ := c
  cases hstep with
  | @job job hjob =>
    obtain ⟨r, stage⟩ := job
    cases stage with
    | holding | compiling | done _ => cases hjob
    | recorded artifact =>
      simp only [CompileJob.advance]
      split <;> rfl
    | released cause =>
      rcases cause with reason | payload
      · cases unwinding <;> rfl
      · rfl
    | _ => rfl
  | _ => rfl

/-- A call that the host has is with the compiler, or with the engine. -/
theorem isSome_compiling? (hhost : c.isWithHost = true)
    (hengine : ∀ found, c.turn ≠ .engine found) : c.compiling?.isSome := by
  rw [Option.isSome_iff_ne_none]
  intro hsilent
  obtain ⟨found, hstage⟩ := stage_of_isWithHost hhost hsilent
  exact hengine found (by rw [turn, hstage])

end Call

/-! ## Levels -/

/-- The call at a level, counted from the outermost call. -/
def callAt (calls : List (Call α β)) (level : Nat) : Option (Call α β) :=
  calls.reverse[level]?

theorem callAt_cons_of_lt (c : Call α β) {outer : List (Call α β)} {level : Nat}
    (h : level < outer.length) : callAt (c :: outer) level = callAt outer level := by
  rw [callAt, List.reverse_cons, List.getElem?_append_left (by simpa using h), callAt]

theorem callAt_cons_self (c : Call α β) (outer : List (Call α β)) :
    callAt (c :: outer) outer.length = some c := by
  rw [callAt, List.reverse_cons, List.getElem?_append_right (by simp)]
  simp

/-- What a move does to the call at a level. -/
inductive LevelStep (move : CallerMove α β) (calls calls' : List (Call α β)) (level : Nat) : Prop
  /-- The call stays as it is. If it is the innermost one, it makes a call. -/
  | stays (hsame : callAt calls' level = callAt calls level)
      (hinvokes : calls.length = level + 1 → ∃ m unwinding, move = .invoke m unwinding)
  /-- The call is the innermost one and comes closer to its end. Its compiler is at work only if the
  move calls it. -/
  | moves {c c' : Call α β} (hlength : calls.length = level + 1)
      (hlength' : calls'.length = level + 1)
      (hbefore : callAt calls level = some c) (hafter : callAt calls' level = some c')
      (hrank : c'.rank < c.rank) (hbegins : c'.compiling?.isSome → move = .beginCompile)

/-- A call takes the place of the innermost one, and is closer to its end. -/
theorem LevelStep.replace {move : CallerMove α β} {c c' : Call α β} {outer : List (Call α β)}
    {level : Nat} (hlevel : level < (c :: outer).length) (hrank : c'.rank < c.rank)
    (hbegins : c'.compiling?.isSome → move = .beginCompile) :
    LevelStep move (c :: outer) (c' :: outer) level := by
  by_cases htop : level = outer.length
  · subst htop
    exact .moves rfl rfl (callAt_cons_self c outer) (callAt_cons_self c' outer) hrank hbegins
  · rw [List.length_cons] at hlevel
    have hlow : level < outer.length := by omega
    refine .stays ?_ fun hlength => ?_
    · rw [callAt_cons_of_lt _ hlow, callAt_cons_of_lt _ hlow]
    · rw [List.length_cons] at hlength
      omega

theorem StackStep.levelStep {d d' : Dispatcher α} {move : CallerMove α β}
    {calls calls' : List (Call α β)} (hstep : StackStep d move calls calls' d') {level : Nat}
    (hbefore : level < calls.length) (hafter : level < calls'.length) :
    LevelStep move calls calls' level := by
  cases hstep with
  | invoke m unwinding hmay =>
    exact .stays (callAt_cons_of_lt _ hbefore) fun _ => ⟨m, unwinding, rfl⟩
  | @advance c outer hturn =>
    refine .replace hbefore (c.rank_advance_lt d hturn) ?_
    simp [Call.compiling?_advance d hturn]
  | beginCompile outer hturn hidle =>
    exact .replace hbefore (Call.rank_beginCompile_lt hturn hidle) fun _ => rfl
  | endCompile outcome outer hturn hbusy =>
    refine .replace hbefore (Call.rank_concludeCompile_lt outcome hturn hbusy) ?_
    simp [Call.compiling?_concludeCompile outcome hturn hbusy]
  | endRun outcome outer hturn =>
    refine .replace hbefore (Call.rank_concludeRun_lt outcome hturn) ?_
    simp [Call.concludeRun, Call.stage_of_turn_engine hturn, Call.compiling?]
  | @leave c result outer hturn =>
    refine .stays (callAt_cons_of_lt c hafter).symm fun hlength => ?_
    rw [List.length_cons] at hlength
    omega

/-! ## How deep calls go -/

/-- On top of the given calls there are others, of the given methods, and each but the innermost
one is with the compiler. -/
structure Deepens (methods : Finset MethodId) (outer : List (Call α β)) (c : Call α β)
    (rest calls : List (Call α β)) : Prop where
  eq_append : calls = c :: rest ++ outer
  compiling : ∀ k ∈ rest, k.compiling?.isSome
  mem : ∀ k ∈ c :: rest, k.method ∈ methods

namespace Deepens

variable {methods : Finset MethodId} {c : Call α β} {outer rest calls : List (Call α β)}

/-- As long as the call at the bottom is not left, and the engine makes no calls, only compile calls
pile up. -/
theorem step {d d' : Dispatcher α} {move : CallerMove α β} {calls' : List (Call α β)}
    (h : Deepens methods outer c rest calls) (hstep : StackStep d move calls calls' d')
    (hengine : ∀ m unwinding, move = .invoke m unwinding →
      m ∈ methods ∧ ∀ k ∈ calls.head?, ∀ found, k.turn ≠ .engine found) :
    calls' = outer ∨ ∃ c' rest', Deepens methods outer c' rest' calls' := by
  obtain ⟨rfl, hcompiling, hmem⟩ := h
  obtain ⟨hmethod, hmem⟩ := List.forall_mem_cons.mp hmem
  -- The innermost call moves on, and remains a call of the same method.
  have replaced : ∀ c' : Call α β, c'.method = c.method →
      ∃ c'' rest', Deepens methods outer c'' rest' (c' :: (rest ++ outer)) := fun c' hsame =>
    ⟨c', rest, rfl, hcompiling, List.forall_mem_cons.mpr ⟨hsame ▸ hmethod, hmem⟩⟩
  cases hstep with
  | invoke m unwinding hmay =>
    obtain ⟨hm, hnever⟩ := hengine m unwinding rfl
    have hbusy : c.compiling?.isSome := Call.isSome_compiling? (hmay c rfl) (hnever c rfl)
    exact .inr ⟨_, c :: rest, rfl, List.forall_mem_cons.mpr ⟨hbusy, hcompiling⟩,
      List.forall_mem_cons.mpr ⟨hm, List.forall_mem_cons.mpr ⟨hmethod, hmem⟩⟩⟩
  | advance _ hturn => exact .inr (replaced _ (c.method_advance d hturn))
  | beginCompile => exact .inr (replaced _ (by rw [c.beginCompile_eq]))
  | endCompile outcome => exact .inr (replaced _ (by rw [c.concludeCompile_eq]))
  | endRun outcome => exact .inr (replaced _ (by rw [c.concludeRun_eq]))
  | leave =>
    cases rest with
    | nil => exact .inl rfl
    | cons k rest =>
      exact .inr ⟨k, rest, rfl, fun j hj => hcompiling j (List.mem_cons_of_mem k hj), hmem⟩

/-- There are at most two compile calls for each method. -/
theorem length_le {h : History α} (hdeepens : Deepens methods outer c rest calls)
    (hshaped : Shaped h calls) (hstacked : Stacked calls) :
    calls.length ≤ outer.length + 2 * methods.card + 1 := by
  obtain ⟨rfl, hcompiling, hmem⟩ := hdeepens
  have hin : rest.Sublist (c :: rest ++ outer) :=
    (List.sublist_cons_self c rest).trans (List.sublist_append_left _ outer)
  have hnodup : (compilesInProgress rest).Nodup :=
    (nodup_of_inside hshaped.pairwise_compiles).sublist (hin.filterMap _)
  have hlength : (compilesInProgress rest).length = rest.length := by
    rw [compilesInProgress, List.length_filterMap_eq_countP, List.countP_eq_length]
    exact hcompiling
  have hfew : (compilesInProgress rest).length ≤ 2 * methods.card := by
    refine length_le_of_nodup hnodup fun r hr => ?_
    obtain ⟨k, hk, hkr⟩ := List.mem_filterMap.mp hr
    obtain ⟨job, hstage, -, rfl⟩ := Call.compiling?_eq_some.mp hkr
    rw [hstacked.own k (hin.subset hk) job hstage]
    exact hmem k (List.mem_cons_of_mem c hk)
  simp only [List.cons_append, List.length_cons, List.length_append]
  omega

end Deepens

/-! ## Levels along a run -/

namespace EndlessRun

variable {run : EndlessRun α β}

/-- A step is a move of the caller, or it leaves its calls alone. -/
theorem move_or_same (run : EndlessRun α β) (i n : Nat) :
    (∃ move, run.label n = .caller i move ∧ StackStep (run.state n).dispatcher move
      (run.calls i n) (run.calls i (n + 1)) (run.state (n + 1)).dispatcher) ∨
    ((run.label n).isOf i = false ∧ run.calls i (n + 1) = run.calls i n) :=
  System.step_of_caller i (run.step n)

theorem isOf_of_label {n : Nat} {move : CallerMove α β} (h : run.label n = .caller i move) :
    (run.label n).isOf i = true := by
  simp [h, Label.isOf]

theorem Compiles.succ {a n : Nat} (h : run.Compiles i a n)
    (hstays : run.depth i a ≤ run.depth i (n + 1))
    (hunanswered : ∀ outcome, run.label n = .caller i (.endCompile outcome) →
      run.depth i a < run.depth i n) : run.Compiles i a (n + 1) where
  started := h.started
  after := Nat.lt_succ_of_lt h.after
  stays k hlt hle := by
    rcases Nat.le_succ_iff.mp hle with hle | rfl
    · exact h.stays k hlt hle
    · exact hstays
  unanswered k outcome hlt hle hlabel := by
    rcases Nat.lt_succ_iff_lt_or_eq.mp hle with hle | rfl
    · exact h.unanswered k outcome hlt hle hlabel
    · exact hunanswered outcome hlabel

/-- A compile call in progress above the given calls has started since there are calls above
them. -/
theorem exists_compiles {m : MethodId} {unwinding : Bool} {outer : List (Call α β)}
    (hcall : run.calls i 1 = .arrive m unwinding :: outer) {n : Nat} (hn : 1 ≤ n)
    (habove : ∀ k, 1 ≤ k → k ≤ n → outer.length < run.depth i k) {level : Nat} {c : Call α β}
    (hlow : outer.length ≤ level) (hlevel : level < run.depth i n)
    (hc : callAt (run.calls i n) level = some c) (hbusy : c.compiling?.isSome) :
    ∃ a, run.Compiles i a n ∧ run.depth i a = level + 1 := by
  induction n, hn using Nat.le_induction generalizing level c with
  | base =>
    -- The only call above the given ones has just arrived.
    rw [depth, hcall, List.length_cons] at hlevel
    obtain rfl : level = outer.length := by omega
    rw [hcall, callAt_cons_self] at hc
    obtain rfl := Option.some.inj hc
    cases hbusy
  | succ n hn ih =>
    have habove' := habove n hn (Nat.le_succ n)
    have earlier := fun hlevel hc =>
      ih (fun k hk hkn => habove k hk (Nat.le_succ_of_le hkn)) (c := c) hlow hlevel hc hbusy
    obtain ⟨move, hlabel, hmove⟩ | ⟨hother, hsame⟩ := run.move_or_same i n
    · by_cases hbefore : level < run.depth i n
      · cases hmove.levelStep hbefore hlevel with
        | stays hstill hinvokes =>
          obtain ⟨a, hcompiles, hdepth⟩ := earlier hbefore (hstill ▸ hc)
          refine ⟨a, hcompiles.succ (hdepth ▸ hlevel) fun outcome hanswer => ?_, hdepth⟩
          -- The answer is one to a call further up, as this one could only make a call.
          by_contra hinnermost
          obtain ⟨k, unwinding, hinvoke⟩ := hinvokes (by unfold depth at *; omega)
          simp [hlabel, hinvoke] at hanswer
        | moves hlength hlength' _ hafter _ hbegins =>
          obtain rfl := Option.some.inj (hafter.symm.trans hc)
          refine ⟨n, ⟨hbegins hbusy ▸ hlabel, Nat.lt_succ_self n, fun k hlt hle => ?_,
            fun k outcome hlt hle => absurd hlt (by omega)⟩, hlength⟩
          obtain rfl : k = n + 1 := by omega
          exact Nat.le_of_eq (hlength.trans hlength'.symm)
      · -- A call that is new has just arrived.
        generalize hcalls' : run.calls i (n + 1) = calls' at hmove hc
        have hlevel' : level < calls'.length := hcalls' ▸ hlevel
        have hbefore' : (run.calls i n).length ≤ level := Nat.le_of_not_lt hbefore
        generalize run.calls i n = calls, (run.state (n + 1)).dispatcher = d' at hmove hbefore'
        cases hmove with
        | invoke k unwinding hmay =>
          rw [List.length_cons] at hlevel'
          obtain rfl : level = calls.length := by omega
          rw [callAt_cons_self] at hc
          obtain rfl := Option.some.inj hc
          cases hbusy
        | _ =>
          simp only [List.length_cons] at hlevel' hbefore'
          omega
    · have hdepth : run.depth i (n + 1) = run.depth i n := congrArg List.length hsame
      rw [hsame] at hc
      obtain ⟨a, hcompiles, ha⟩ := earlier (hdepth ▸ hlevel) hc
      refine ⟨a, hcompiles.succ (ha ▸ hlevel) fun outcome hanswer => ?_, ha⟩
      simp [isOf_of_label hanswer] at hother

/-! ## A caller that moves for ever -/

/-- A caller that moves for ever moves again at the depth where it is. -/
theorem exists_move_after (hmoves : {n | (run.label n).isOf i}.Infinite) (n : Nat) :
    ∃ k, n ≤ k ∧ (run.label k).isOf i ∧ run.depth i k = run.depth i n := by
  have hlater : ∃ k, n ≤ k ∧ (run.label k).isOf i = true := by
    obtain ⟨k, hk, hle⟩ := hmoves.exists_gt n
    exact ⟨k, hle.le, hk⟩
  classical
  obtain ⟨hle, hof⟩ := Nat.find_spec hlater
  refine ⟨Nat.find hlater, hle, hof, ?_⟩
  -- Until the next move of the caller its calls stay as they are.
  have hsame : ∀ k, n ≤ k → k ≤ Nat.find hlater → run.depth i k = run.depth i n := by
    intro k hk
    induction k, hk using Nat.le_induction with
    | base => exact fun _ => rfl
    | succ k hk ih =>
      intro hbefore
      obtain ⟨move, hlabel, -⟩ | ⟨-, hstill⟩ := run.move_or_same i k
      · exact absurd ⟨hk, isOf_of_label hlabel⟩ (Nat.find_min hlater hbefore)
      · rw [depth, hstill]
        exact ih (Nat.le_of_succ_le hbefore)
  exact hsame _ hle le_rfl

/-- Of the depths at which a caller moves for ever there is a lowest one, and from some time on the
caller has at least as many calls. -/
theorem exists_lowest_depth (hmoves : {n | (run.label n).isOf i}.Infinite) {bound : Nat}
    (hbound : ∀ n, run.depth i n ≤ bound) :
    ∃ k, {n | (run.label n).isOf i ∧ run.depth i n = k}.Infinite ∧
      ∃ start, ∀ n, start ≤ n → k ≤ run.depth i n := by
  classical
  have hsome : ∃ k, {n | (run.label n).isOf i ∧ run.depth i n = k}.Infinite := by
    by_contra hnone
    simp only [not_exists, Set.not_infinite] at hnone
    refine hmoves (((Set.finite_Iic bound).biUnion fun k _ => hnone k).subset fun n hn => ?_)
    exact Set.mem_biUnion (hbound n) ⟨hn, rfl⟩
  refine ⟨Nat.find hsome, Nat.find_spec hsome, ?_⟩
  have hbelow : {n | (run.label n).isOf i ∧ run.depth i n < Nat.find hsome}.Finite := by
    have hfinite := (Set.finite_Iio (Nat.find hsome)).biUnion fun k hk =>
      Set.not_infinite.mp (Nat.find_min hsome hk)
    exact hfinite.subset fun n hn => Set.mem_biUnion hn.2 ⟨hn.1, rfl⟩
  obtain ⟨last, hlast⟩ := hbelow.bddAbove
  refine ⟨last + 1, fun n hn => ?_⟩
  by_contra hlow
  obtain ⟨k, hk, hof, hdepth⟩ := exists_move_after hmoves n
  have hle := hlast (show k ∈ {n | (run.label n).isOf i ∧ run.depth i n < Nat.find hsome} from
    ⟨hof, by omega⟩)
  omega

/-- A number that never grows is the same from some time on. -/
theorem exists_settled {f : Nat → Nat} {start : Nat} (hle : ∀ n, start ≤ n → f (n + 1) ≤ f n) :
    ∃ settled, start ≤ settled ∧ ∀ n, settled ≤ n → f (n + 1) = f n := by
  induction hvalue : f start using Nat.strong_induction_on generalizing start with
  | _ value ih =>
    subst hvalue
    have hfirst : ∀ n, start ≤ n → f n ≤ f start := by
      intro n hn
      induction n, hn using Nat.le_induction with
      | base => exact le_rfl
      | succ n hn ih => exact (hle n hn).trans ih
    by_cases hdrops : ∃ n, start ≤ n ∧ f (n + 1) < f n
    · obtain ⟨n, hn, hlt⟩ := hdrops
      have hlater : ∀ k, n + 1 ≤ k → f (k + 1) ≤ f k := fun k hk => hle k (by omega)
      obtain ⟨settled, hsettled, hsame⟩ := ih _ (hlt.trans_le (hfirst n hn)) hlater rfl
      exact ⟨settled, by omega, hsame⟩
    · refine ⟨start, le_rfl, fun n hn => ?_⟩
      by_contra hdiffers
      exact hdrops ⟨n, hn, lt_of_le_of_ne (hle n hn) hdiffers⟩

/-- The moves that the call at a level still has to make. -/
def rankAt (run : EndlessRun α β) (i level n : Nat) : Nat :=
  (callAt (run.calls i n) level).elim 0 (·.rank)

/-- As long as a caller has enough calls, the call at a level only comes closer to its end; and it
does if it moves while it is the innermost one, unless it makes a call. -/
theorem rankAt_succ {level n : Nat} (hlevel : level < run.depth i n)
    (hlevel' : level < run.depth i (n + 1)) :
    run.rankAt i level (n + 1) < run.rankAt i level n ∨
      (run.rankAt i level (n + 1) = run.rankAt i level n ∧
        ((run.label n).isOf i → run.depth i n = level + 1 → run.Invokes i n)) := by
  unfold rankAt
  obtain ⟨move, hlabel, hmove⟩ | ⟨hother, hsame⟩ := run.move_or_same i n
  · cases hmove.levelStep hlevel hlevel' with
    | stays hsame hinvokes =>
      refine .inr ⟨by rw [hsame], fun _ hdepth => ?_⟩
      obtain ⟨m, unwinding, rfl⟩ := hinvokes hdepth
      exact ⟨m, unwinding, hlabel⟩
    | moves _ _ hbefore hafter hrank _ =>
      left
      rw [hbefore, hafter]
      exact hrank
  · refine .inr ⟨by rw [hsame], fun hof => ?_⟩
    rw [hother] at hof
    cases hof

/-- A call is made by the innermost one, for which the compiler is at work. -/
theorem exists_calling (hengine : run.EngineNeverCalls i) {n level : Nat}
    (hinvokes : run.Invokes i n) (hdepth : run.depth i n = level + 1) :
    ∃ c, callAt (run.calls i n) level = some c ∧ c.compiling?.isSome := by
  have hnever := hengine n hinvokes
  obtain ⟨m, unwinding, hlabel⟩ := hinvokes
  obtain ⟨move, hmove, hstep⟩ | ⟨hother, -⟩ := run.move_or_same i n
  · obtain ⟨-, rfl⟩ := Label.caller.inj (hlabel.symm.trans hmove)
    obtain ⟨c, outer, hcalls⟩ := List.exists_cons_of_length_eq_add_one hdepth
    rw [depth, hcalls] at hdepth
    obtain rfl : outer.length = level := by simpa using hdepth
    rw [hcalls] at hnever hstep ⊢
    refine ⟨c, callAt_cons_self c outer, Call.isSome_compiling? ?_ (hnever c rfl)⟩
    generalize run.calls i (n + 1) = calls', (run.state (n + 1)).dispatcher = d' at hstep
    cases hstep with
    | invoke _ _ hmay => exact hmay c rfl
  · simp [isOf_of_label hlabel] at hother

/-- **Moves come to an end.** If a caller always has more than some number of calls, but never more
than some other number, and each of its compile calls makes finitely many calls, then the caller
moves finitely often. -/
theorem finite_moves {base bound : Nat} (hengine : run.EngineNeverCalls i)
    (hfinite : ∀ a, {n | run.MakesCall i a n}.Finite)
    (habove : ∀ n, 1 ≤ n → base < run.depth i n) (hbound : ∀ n, run.depth i n ≤ bound)
    (hstarted : ∀ n level c, 1 ≤ n → base ≤ level → level < run.depth i n →
      callAt (run.calls i n) level = some c → c.compiling?.isSome →
      ∃ a, run.Compiles i a n ∧ run.depth i a = level + 1) :
    {n | (run.label n).isOf i}.Finite := by
  by_contra hmoves
  obtain ⟨k, hinfinite, start, hlow⟩ := exists_lowest_depth hmoves hbound
  -- The lowest depth is above the base, as the caller is there again and again.
  have hbase : base < k := by
    obtain ⟨n, ⟨-, rfl⟩, hn⟩ := hinfinite.exists_gt 0
    exact habove n hn
  obtain ⟨level, rfl⟩ : ∃ level, k = level + 1 := ⟨k - 1, by omega⟩
  -- From some time on the call at this level does not come closer to its end, so it only calls.
  obtain ⟨settled, hsettled, hsame⟩ : ∃ settled, start ≤ settled ∧ ∀ n, settled ≤ n →
      run.rankAt i level (n + 1) = run.rankAt i level n := by
    refine exists_settled fun n hn => ?_
    rcases rankAt_succ (hlow n hn) (hlow (n + 1) (by omega)) with hlt | ⟨hsame, -⟩
    · exact hlt.le
    · exact hsame.le
  have hinvokes : ∀ n, settled ≤ n → (run.label n).isOf i → run.depth i n = level + 1 →
      run.Invokes i n := by
    intro n hn hof hdepth
    rcases rankAt_succ (hlow n (by omega)) (hlow (n + 1) (by omega)) with hlt | ⟨-, hinvokes⟩
    · exact absurd (hsame n hn) hlt.ne
    · exact hinvokes hof hdepth
  -- It is with its compiler, and with the same compile call ever after.
  obtain ⟨first, ⟨hof, hdepth⟩, hfirst⟩ := hinfinite.exists_gt settled
  obtain ⟨a, hcompiles, ha⟩ : ∃ a, run.Compiles i a first ∧ run.depth i a = level + 1 := by
    have hcalls := hinvokes first hfirst.le hof hdepth
    obtain ⟨c, hc, hbusy⟩ := exists_calling hengine hcalls hdepth
    exact hstarted first level c (by omega) (by omega) (by omega) hc hbusy
  have hgoes : ∀ n, first ≤ n → run.Compiles i a n := by
    intro n hn
    induction n, hn using Nat.le_induction with
    | base => exact hcompiles
    | succ n hn ih =>
      refine ih.succ (ha ▸ hlow (n + 1) (by omega)) fun outcome hanswer => ?_
      by_contra hinnermost
      have hlow := hlow n (by omega)
      obtain ⟨m, unwinding, hinvoke⟩ :=
        hinvokes n (by omega) (isOf_of_label hanswer) (by omega)
      rw [hinvoke] at hanswer
      cases hanswer
  refine hinfinite (((hfinite a).union (Set.finite_Iio first)).subset fun n ⟨hof, hdepth⟩ => ?_)
  by_cases hn : first ≤ n
  · exact .inl ⟨hgoes n hn, hdepth.trans ha.symm, hinvokes n (by omega) hof hdepth⟩
  · exact .inr (Nat.lt_of_not_le hn)

/-- An endless run stays within the runs of its dispatcher. -/
theorem exists_run {d : Dispatcher α} {callers : Nat} {labels : List (Label α β)}
    (hown : ∀ label ∈ labels, label.isOwn) (hown' : ∀ n, (run.label n).isOwn)
    (hrun : (System.start d callers).run labels = some (run.state 0)) (n : Nat) :
    ∃ labels' : List (Label α β), (∀ label ∈ labels', label.isOwn) ∧
      (System.start d callers).run labels' = some (run.state n) := by
  induction n with
  | zero => exact ⟨labels, hown, hrun⟩
  | succ n ih =>
    obtain ⟨labels', hlabels', hrun'⟩ := ih
    refine ⟨labels' ++ [run.label n], ?_, ?_⟩
    · exact List.forall_mem_append.mpr ⟨hlabels', List.forall_mem_singleton.mpr (hown' n)⟩
    · rw [System.run_append, hrun', Option.bind_some, System.run_singleton, run.step n]

/-- The requests held by the calls of a caller are nested at any time. -/
theorem shaped_calls {config : TierConfig} {d : Dispatcher α} {callers : Nat}
    {labels : List (Label α β)} (hstart : Dispatcher.start config = .ok d)
    (hown : ∀ label ∈ labels, label.isOwn) (hown' : ∀ n, (run.label n).isOwn)
    (hrun : (System.start d callers).run labels = some (run.state 0)) (n : Nat) :
    ∃ h, Shaped h (run.calls i n) ∧ Stacked (run.calls i n) := by
  obtain ⟨labels', hlabels', hrun'⟩ := exists_run hown hown' hrun n
  have hinitial : Shaped [] ((System.start d callers : System α β).callsOf i) := by
    rw [System.callsOf_start]
    exact ⟨by simp, .nil⟩
  exact ⟨_, System.shaped_run (System.reach_start hstart callers) hlabels' hrun' hinitial,
    System.isStacked_run hrun' (System.isStacked_start d callers) i⟩

/-- Until a call is left only compile calls pile up on top of it. -/
theorem deepens {m : MethodId} {unwinding : Bool} {methods : Finset MethodId}
    (hcall : run.calls i 1 = .arrive m unwinding :: run.calls i 0) (hm : m ∈ methods)
    (hengine : run.EngineNeverCalls i)
    (hmethods : ∀ n k unwinding, run.label n = .caller i (.invoke k unwinding) → k ∈ methods)
    {n : Nat} (hn : 1 ≤ n) (hstays : ∀ k, 1 ≤ k → k ≤ n → run.calls i k ≠ run.calls i 0) :
    ∃ c rest, Deepens methods (run.calls i 0) c rest (run.calls i n) := by
  induction n, hn using Nat.le_induction with
  | base => exact ⟨_, [], hcall, List.forall_mem_nil _, List.forall_mem_singleton.mpr hm⟩
  | succ n hn ih =>
    obtain ⟨c, rest, hdeepens⟩ := ih fun k hk hle => hstays k hk (Nat.le_succ_of_le hle)
    obtain ⟨move, hlabel, hmove⟩ | ⟨-, hsame⟩ := run.move_or_same i n
    · refine (hdeepens.step hmove ?_).resolve_left (hstays (n + 1) (by omega) le_rfl)
      rintro k unwinding rfl
      exact ⟨hmethods n k unwinding hlabel, hengine n ⟨k, unwinding, hlabel⟩⟩
    · rw [hsame]
      exact ⟨c, rest, hdeepens⟩

end EndlessRun

/-! ## Main result -/

/-- **Re-entrant compilation ends by itself.** Take any reachable state of a dispatcher with any
callers, and a call that one of them makes there, perhaps from within its compiler. Let the run go
on for ever, with steps of all callers in any order. If no call of the caller is made by its engine,
and if each of its compile calls makes finitely many calls, of methods out of a finite set, then

- until it is left the call has at most two compile calls for each of the methods on top of it,
- it is left, or the caller makes a finite number of moves only, and
- as long as the caller has a call in progress, it can make a move other than a new call.

So a caller that goes on leaves the call, whatever the compiler's outcomes. -/
theorem reentrant_compilation_ends {config : TierConfig} {d : Dispatcher α} {callers : Nat}
    {labels : List (Label α β)} {run : EndlessRun α β} {m : MethodId} {unwinding : Bool}
    {methods : Finset MethodId} (hstart : Dispatcher.start config = .ok d)
    (hown : ∀ label ∈ labels, label.isOwn) (hown' : ∀ n, (run.label n).isOwn)
    (hrun : (System.start d callers).run labels = some (run.state 0))
    (hcall : run.label 0 = .caller i (.invoke m unwinding)) (hengine : run.EngineNeverCalls i)
    (hmethods : ∀ n k unwinding, run.label n = .caller i (.invoke k unwinding) → k ∈ methods)
    (hfinite : ∀ a, {n | run.MakesCall i a n}.Finite) :
    let outer := run.calls i 0
    (∀ n, (∀ k, 1 ≤ k → k ≤ n → run.calls i k ≠ outer) →
      run.depth i n ≤ outer.length + 2 * methods.card + 1) ∧
    ((∃ n, 1 ≤ n ∧ run.calls i n = outer) ∨ {n | (run.label n).isOf i}.Finite) ∧
    ∀ n, run.calls i n ≠ [] → ∃ move, (∀ m unwinding, move ≠ .invoke m unwinding) ∧
      ((run.state n).step (.caller i move)).isSome := by
  intro outer
  have hone : run.calls i 1 = .arrive m unwinding :: outer := by
    obtain ⟨move, hlabel, hmove⟩ | ⟨hother, -⟩ := run.move_or_same i 0
    · obtain ⟨-, rfl⟩ := Label.caller.inj (hcall.symm.trans hlabel)
      rw [show run.calls i 0 = outer from rfl] at hmove
      generalize run.calls i (0 + 1) = calls, (run.state (0 + 1)).dispatcher = d' at hmove ⊢
      cases hmove
      rfl
    · simp [EndlessRun.isOf_of_label hcall] at hother
  have hdeepens : ∀ n, 1 ≤ n → (∀ k, 1 ≤ k → k ≤ n → run.calls i k ≠ outer) →
      ∃ c rest, Deepens methods outer c rest (run.calls i n) := fun n =>
    EndlessRun.deepens hone (hmethods 0 m unwinding hcall) hengine hmethods
  have hbound : ∀ n, (∀ k, 1 ≤ k → k ≤ n → run.calls i k ≠ outer) →
      run.depth i n ≤ outer.length + 2 * methods.card + 1 := by
    intro n hstays
    rcases Nat.eq_zero_or_pos n with rfl | hn
    · exact Nat.le_succ_of_le (Nat.le_add_right _ _)
    · obtain ⟨c, rest, hdeepens⟩ := hdeepens n hn hstays
      obtain ⟨h, hshaped, hstacked⟩ := EndlessRun.shaped_calls hstart hown hown' hrun n
      exact hdeepens.length_le hshaped hstacked
  have hmoves : ∀ n, run.calls i n ≠ [] → ∃ move, (∀ m unwinding, move ≠ .invoke m unwinding) ∧
      ((run.state n).step (.caller i move)).isSome := by
    intro n hcalls
    obtain ⟨move, hmove, hsome, -⟩ :=
      System.exists_callerStep (fun _ => .error "") (fun _ _ => .error "") hcalls
    exact ⟨move, hmove, hsome⟩
  refine ⟨hbound, ?_, hmoves⟩
  rw [or_iff_not_imp_left]
  intro hnever
  have hstays : ∀ n k, 1 ≤ k → k ≤ n → run.calls i k ≠ outer := fun n k hk _ hleft =>
    hnever ⟨k, hk, hleft⟩
  have habove : ∀ n, 1 ≤ n → outer.length < run.depth i n := by
    intro n hn
    obtain ⟨c, rest, hdeepens⟩ := hdeepens n hn (hstays n)
    rw [EndlessRun.depth, hdeepens.eq_append, List.length_append, List.length_cons]
    omega
  refine EndlessRun.finite_moves hengine hfinite habove (fun n => hbound n (hstays n)) ?_
  intro n level c hn hlow hlevel hc hbusy
  exact EndlessRun.exists_compiles hone hn (fun k hk _ => habove k hk) hlow hlevel hc hbusy

/-- The given steps, and then the host gives its dispatcher up again and again. -/
def EndlessRun.lingering {s t : System α β} {labels : List (Label α β)}
    (hrun : s.run labels = some t) (hpool : t.dispatcher.pool = none) : EndlessRun α β where
  state n := (s.run (labels.take n)).getD s
  label n := labels[n]?.getD .close
  step n := by
    by_cases hn : n < labels.length
    · have hsome : ∃ u, s.run (labels.take (n + 1)) = some u := by
        rw [← List.take_append_drop (n + 1) labels, System.run_append] at hrun
        obtain ⟨u, hu, -⟩ := Option.bind_eq_some_iff.mp hrun
        exact ⟨u, hu⟩
      obtain ⟨u, hu⟩ := hsome
      rw [List.take_succ_eq_append_getElem hn, System.run_append] at hu
      obtain ⟨v, hv, hstep⟩ := Option.bind_eq_some_iff.mp hu
      rw [System.run_singleton] at hstep
      rw [List.take_succ_eq_append_getElem hn, System.run_append, hv, Option.bind_some,
        System.run_singleton, hstep, List.getElem?_eq_getElem hn]
      exact hstep
    · have hover : ∀ k, labels.length ≤ k → s.run (labels.take k) = some t := fun k hk => by
        rw [List.take_of_length_le hk, hrun]
      rw [hover n (by omega), hover (n + 1) (by omega), List.getElem?_eq_none (by omega)]
      obtain ⟨d, callers⟩ := t
      obtain ⟨config, counter, cache, metrics, pool, log⟩ := d
      obtain rfl : pool = none := hpool
      rfl

/-- The compiler calls another method again and again, whose compilations fail, and then its own
method, and then it fails itself. -/
def callingAgain : List (Label Nat Nat) :=
  let advances (n : Nat) : List (Label Nat Nat) := List.replicate n (.caller 0 .advance)
  let begins (m : MethodId) (n : Nat) : List (Label Nat Nat) :=
    .caller 0 (.invoke m false) :: advances n ++ [.caller 0 .beginCompile]
  let fails (outcome : Outcome Nat) : List (Label Nat Nat) :=
    .caller 0 (.endCompile outcome) :: advances 3 ++ [.caller 0 .leave]
  begins ⟨0⟩ 7 ++ begins ⟨1⟩ 7 ++ fails (.error "no registers") ++ begins ⟨1⟩ 6 ++
    fails (.panic .other) ++ .caller 0 (.invoke ⟨0⟩ false) :: advances 6 ++
    [.caller 0 (.endRun (.value 0)), .caller 0 .leave] ++ fails (.error "no registers")

/-- A call, if one is made on top of the given calls, is of one of the methods, and it is made by
the innermost compile call. -/
def Label.isNested (methods : Finset MethodId) (calls : List (Call α β)) : Label α β → Bool
  | caller _ (.invoke m _) => m ∈ methods && calls.head?.all (·.compiling?.isSome)
  | _ => true

theorem reentrant_compilation_ends_retrying :
    let d : Dispatcher Nat := .ofConfig (.withThresholds 1 5)
    ∃ run : EndlessRun Nat Nat, run.state 0 = System.start d 1 ∧
      (∀ n (h : n < callingAgain.length), run.label n = callingAgain[n]) ∧
      run.EngineNeverCalls 0 ∧ (∀ a, {n | run.MakesCall 0 a n}.Finite) ∧
      (∀ n, (∀ k, 1 ≤ k → k ≤ n → run.calls 0 k ≠ []) → run.depth 0 n ≤ 5) ∧
      ((∃ n, 1 ≤ n ∧ run.calls 0 n = []) ∨ {n | (run.label n).isOf 0}.Finite) ∧
      ∀ n, run.calls 0 n ≠ [] → ∃ move, (∀ m unwinding, move ≠ .invoke m unwinding) ∧
        ((run.state n).step (.caller 0 move)).isSome := by
  intro d
  have hstart : Dispatcher.start (.withThresholds 1 5) = .ok d := rfl
  have hruns : ((System.start d 1).run callingAgain).any (·.dispatcher.pool.isNone) := by
    decide +kernel
  obtain ⟨t, hrun, hpool⟩ := (Option.any_eq_true _ _).mp hruns
  let run := EndlessRun.lingering hrun (Option.isNone_iff_eq_none.mp hpool)
  have hlabel : ∀ n (h : n < callingAgain.length), run.label n = callingAgain[n] := fun n h => by
    simp [run, EndlessRun.lingering, h]
  have hlater : ∀ n, callingAgain.length ≤ n → run.label n = .close := fun n h => by
    simp [run, EndlessRun.lingering, h]
  have hcalling : ∀ n, run.Invokes 0 n → n < callingAgain.length := by
    rintro n ⟨m, unwinding, hinvoke⟩
    by_contra hn
    simp [hlater n (by omega)] at hinvoke
  have hchecked : ∀ n < callingAgain.length, callingAgain[n]?.all fun label =>
      label.isNested {⟨0⟩, ⟨1⟩}
        ((((System.start d 1).run (callingAgain.take n)).getD (.start d 1)).callsOf 0) := by
    decide +kernel
  have hnested : ∀ n m unwinding, run.label n = .caller 0 (.invoke m unwinding) →
      m ∈ ({⟨0⟩, ⟨1⟩} : Finset MethodId) ∧
      (run.calls 0 n).head?.all (·.compiling?.isSome) := by
    intro n m unwinding hinvoke
    have hn := hcalling n ⟨m, unwinding, hinvoke⟩
    have hone := hchecked n hn
    rw [List.getElem?_eq_getElem hn, Option.all_some, ← hlabel n hn, hinvoke, Label.isNested,
      Bool.and_eq_true, decide_eq_true_eq] at hone
    exact hone
  have hengine : run.EngineNeverCalls 0 := by
    rintro n ⟨m, unwinding, hinvoke⟩ c hc found hturn
    have hbusy := (hnested n m unwinding hinvoke).2
    rw [hc, Option.all_some, Call.compiling?, Call.stage_of_turn_engine hturn] at hbusy
    cases hbusy
  have hfinite : ∀ a, {n | run.MakesCall 0 a n}.Finite := fun a =>
    (Set.finite_Iio callingAgain.length).subset fun n h => hcalling n h.2.2
  have hown : ∀ n, (run.label n).isOwn := by
    intro n
    by_cases hn : n < callingAgain.length
    · have hall : ∀ label ∈ callingAgain, label.isOwn := by decide
      rw [hlabel n hn]
      exact hall _ (List.getElem_mem hn)
    · rw [hlater n (by omega)]
      rfl
  have hrun₀ : (System.start d 1).run [] = some (run.state 0) := rfl
  have hmethods : ∀ n m unwinding, run.label n = .caller 0 (.invoke m unwinding) →
      m ∈ ({⟨0⟩, ⟨1⟩} : Finset MethodId) := fun n m unwinding h => (hnested n m unwinding h).1
  obtain ⟨hdepth, hends, hgoes⟩ := reentrant_compilation_ends hstart (List.forall_mem_nil _) hown
    hrun₀ rfl hengine hmethods hfinite
  exact ⟨run, rfl, hlabel, hengine, hfinite, hdepth, hends, hgoes⟩

end TieredDispatch
