import TieredDispatch.Proofs.Ledger
import TieredDispatch.Proofs.Stack

/-!
# A tier only moves forward

Main theorem `tier_only_moves_forward`: whatever callers, workers and the host itself do, a lookup
never finds less than an earlier one did; so the paths that a caller sees its calls of a method take
only go from the interpreter to `l1` to `l2`, and a call that compiled a tier itself runs an
artifact of that tier or of a higher one.

Every operation on the cache is `Forward`, releases of a tier that is already published included,
since only `place` touches what is published and it never replaces a higher tier. A caller's
paths are in order because the innermost call, once it has found something, is the only one of
the caller that can start to run (`Sees`). A call that compiled a tier is on a short way to the
engine on which it has `Secured` the tier: from the moment its artifact is placed, or refused for a
higher one, every lookup finds the tier at least.
-/

namespace TieredDispatch

variable {α β : Type}

/-! ## Paths -/

/-- How a method runs for which a lookup found this. -/
def pathOf (found : Option (CompiledMethod α)) : MethodTier :=
  .ofTier (found.map (·.tier))

@[simp] theorem pathOf_none : pathOf (none : Option (CompiledMethod α)) = .interpreted := rfl

@[simp] theorem pathOf_some (compiled : CompiledMethod α) :
    pathOf (some compiled) = .ofTier (some compiled.tier) := rfl

theorem MethodTier.le_refl (path : MethodTier) : path ≤ path := Nat.le_refl _

theorem MethodTier.le_trans {a b c : MethodTier} (hab : a ≤ b) (hbc : b ≤ c) : a ≤ c :=
  Nat.le_trans hab hbc

theorem MethodTier.interpreted_le (path : MethodTier) : interpreted ≤ path := Nat.zero_le _

theorem MethodTier.ofTier_le_ofTier {a b : Tier} : ofTier (some a) ≤ ofTier (some b) ↔ a ≤ b := by
  cases a <;> cases b <;> decide

/-- A path that is as high as a tier is an artifact of that tier or a higher one. -/
theorem le_pathOf_iff {tier : Tier} {found : Option (CompiledMethod α)} :
    .ofTier (some tier) ≤ pathOf found ↔
      ∃ compiled, found = some compiled ∧ tier ≤ compiled.tier := by
  cases found with
  | none => cases tier <;> simp [MethodTier.ofTier] <;> decide
  | some compiled => simp [MethodTier.ofTier_le_ofTier]

/-! ## The cache moves forward -/

/-- Every method runs at least as high as before. -/
def Forward (before after : CompilationCache α) : Prop :=
  ∀ m, pathOf (before.lookup m) ≤ pathOf (after.lookup m)

namespace Forward

theorem of_lookup_eq {before after : CompilationCache α} (h : after.lookup = before.lookup) :
    Forward before after := by
  intro m
  rw [h]
  exact MethodTier.le_refl _

theorem refl (cache : CompilationCache α) : Forward cache cache :=
  of_lookup_eq rfl

theorem trans {a b c : CompilationCache α} (hab : Forward a b) (hbc : Forward b c) : Forward a c :=
  fun m => MethodTier.le_trans (hab m) (hbc m)

theorem place (cache : CompilationCache α) (m : MethodId) (compiled : CompiledMethod α) :
    Forward cache (cache.place m compiled).2 := by
  intro k
  rw [CompilationCache.lookup_place]
  split
  · exact MethodTier.le_refl _
  · rename_i hlower
    by_cases hk : k = m
    · subst hk
      rw [Function.update_self]
      cases hfound : cache.lookup k with
      | none => exact MethodTier.interpreted_le _
      | some current =>
        rw [hfound, Option.any_some, decide_eq_true_eq] at hlower
        exact MethodTier.ofTier_le_ofTier.mpr (Nat.le_of_not_lt hlower)
    · rw [Function.update_of_ne hk]
      exact MethodTier.le_refl _

/-- After an offer a lookup finds the tier that was offered, or a higher one. -/
theorem le_place (cache : CompilationCache α) (m : MethodId) (compiled : CompiledMethod α) :
    .ofTier (some compiled.tier) ≤ pathOf ((cache.place m compiled).2.lookup m) := by
  rw [CompilationCache.lookup_place]
  split
  · rename_i hhigher
    obtain ⟨current, hfound, hlt⟩ := (Option.any_eq_true _ _).mp hhigher
    rw [hfound]
    exact MethodTier.ofTier_le_ofTier.mpr (Nat.le_of_lt (of_decide_eq_true hlt))
  · rw [Function.update_self]
    exact MethodTier.le_refl _

theorem operation (cache : CompilationCache α) (operation : CacheOperation α) :
    Forward cache (operation.apply cache) := by
  cases operation with
  | request m tier => exact of_lookup_eq (cache.lookup_request m tier)
  | release m tier => exact of_lookup_eq (cache.lookup_release m tier)
  | recordRequest m tier => exact of_lookup_eq (cache.lookup_recordRequest m tier)
  | place m compiled => exact place cache m compiled

theorem milestone (cache : CompilationCache α) (μ? : Option (Milestone α)) :
    Forward cache (μ?.elim cache (·.cache cache)) := by
  cases μ? with
  | none => exact refl cache
  | some μ =>
    cases μ with
    | granted r | denied r => exact of_lookup_eq (cache.lookup_request r.method r.tier)
    | released r => exact of_lookup_eq (cache.lookup_release r.method r.tier)
    | recorded r => exact of_lookup_eq (cache.lookup_recordRequest r.method r.tier)
    | placed r artifact => exact place cache r.method ⟨r.tier, artifact⟩
    | _ => exact refl cache

theorem job (job : CompileJob α) (unwinding : Bool) (d : Dispatcher α) :
    Forward d.cache (job.advance unwinding d).2.cache := by
  obtain ⟨metrics, log, h⟩ := job.advance_snd unwinding d
  rw [h]
  exact milestone d.cache job.milestone?

theorem call (c : Call α β) (d : Dispatcher α) : Forward d.cache (c.advance d).2.cache := by
  obtain ⟨metrics, log, h⟩ := c.advance_snd d
  rw [h]
  exact milestone d.cache (c.milestone? d)

theorem move {μ? : Option (Milestone α)} {before after : Multiset (Work α β)} {d d' : Dispatcher α}
    (h : Move μ? before d after d') : Forward d.cache d'.cache := by
  cases h with
  | advance d hturn => exact call _ d
  | advanceJob d pool hturn => exact job _ false d
  | @finish _ failure d worker hturn =>
    refine of_lookup_eq ?_
    unfold Dispatcher.finishJob
    split <;> rfl
  | _ => exact refl _

end Forward

namespace System

variable {s t : System α β}

theorem forward_step {label : Label α β} (hstep : s.step label = some t) :
    Forward s.dispatcher.cache t.dispatcher.cache := by
  by_cases hown : label.isOwn
  · obtain ⟨before, after, frame, -, -, hmove⟩ := step_work hown hstep
    exact .move hmove
  · cases systemStep_of_step hstep with
    | direct operation => exact .operation _ operation
    | lose => exact .refl _
    | _ => exact absurd rfl hown

theorem forward_run {labels : List (Label α β)} (hrun : s.run labels = some t) :
    Forward s.dispatcher.cache t.dispatcher.cache :=
  run_induction (P := fun u => Forward s.dispatcher.cache u.dispatcher.cache)
    (fun hstep h => h.trans (forward_step hstep)) hrun (.refl _)

end System

/-! ## The paths of a caller -/

/-- How a call of the method is going to run, if that begins with its next step. -/
def Call.path? (m : MethodId) (c : Call α β) : Option MethodTier :=
  match c.stage with
  | .entering found => if c.method = m then some (pathOf found) else none
  | _ => none

/-- How a call of the method runs that a move of the caller brings to the engine. -/
def CallerMove.path? (m : MethodId) (calls : List (Call α β)) : CallerMove α β → Option MethodTier
  | advance => calls.head?.bind (·.path? m)
  | _ => none

theorem Call.path?_eq_some {m : MethodId} {c : Call α β} {path : MethodTier} :
    c.path? m = some path ↔
      ∃ found, c.stage = .entering found ∧ c.method = m ∧ pathOf found = path := by
  unfold path?
  split
  · rename_i found hstage
    simp [hstage]
  · rename_i hstage
    simpa using fun found hfound => absurd hfound (hstage found)

theorem Call.path?_of_isWithHost {m : MethodId} {c : Call α β} (h : c.isWithHost = true) :
    c.path? m = none := by
  rw [Option.eq_none_iff_forall_ne_some]
  intro path hpath
  obtain ⟨found, hstage, -⟩ := path?_eq_some.mp hpath
  simp [isWithHost, hstage] at h

namespace System

/-- How a call of the method runs that a step of the caller brings to the engine. -/
def path? (s : System α β) (i : Nat) (m : MethodId) : Label α β → Option MethodTier
  | .caller j move => if j = i then move.path? m (s.callsOf i) else none
  | _ => none

/-- How the caller's calls of the method ran, in the order in which they came to the engine. -/
def paths (i : Nat) (m : MethodId) : System α β → List (Label α β) → List MethodTier
  | _, [] => []
  | s, label :: labels =>
    match s.step label with
    | some t => (s.path? i m label).toList ++ t.paths i m labels
    | none => []

end System

/-- What a caller whose paths are bounded so far still sees: at least the bound, and the innermost
call no more than everybody else. -/
structure Sees (m : MethodId) (bound : MethodTier) (cache : CompilationCache α)
    (calls : List (Call α β)) : Prop where
  le : bound ≤ pathOf (cache.lookup m)
  found : ∀ c ∈ calls.head?, ∀ path, c.path? m = some path →
    bound ≤ path ∧ path ≤ pathOf (cache.lookup m)

section Sees

variable {m : MethodId} {bound : MethodTier} {cache cache' : CompilationCache α}
  {calls calls' : List (Call α β)}

theorem Sees.forward (h : Sees m bound cache calls) (hforward : Forward cache cache') :
    Sees m bound cache' calls where
  le := MethodTier.le_trans h.le (hforward m)
  found c hc path hpath :=
    ⟨(h.found c hc path hpath).1, MethodTier.le_trans (h.found c hc path hpath).2 (hforward m)⟩

/-- The innermost call has found nothing yet when it is not about to run. -/
theorem Sees.of_le (hle : bound ≤ pathOf (cache.lookup m))
    (hnone : ∀ c ∈ calls.head?, c.path? m = none) : Sees m bound cache calls where
  le := hle
  found c hc path hpath := by
    rw [hnone c hc] at hpath
    cases hpath

/-- A step that brings no call of the method to the engine leaves the bound where it is. -/
theorem Sees.of_no_path {path? : Option MethodTier} (hnone : path? = none)
    (h : Sees m bound cache calls) :
    (∀ path, path? = some path → bound ≤ path) ∧ Sees m (path?.getD bound) cache calls := by
  subst hnone
  exact ⟨fun path heq => absurd heq.symm (Option.some_ne_none path), h⟩

/-- A call that is about to run has seen what its caller sees, and one that has just looked up
sees what is published. -/
theorem Sees.advance {c : Call α β} {outer : List (Call α β)} {d : Dispatcher α}
    (hturn : c.turn = .dispatcher) (h : Sees m bound d.cache (c :: outer)) :
    (∀ path, c.path? m = some path → bound ≤ path) ∧
      Sees m ((c.path? m).getD bound) (c.advance d).2.cache ((c.advance d).1 :: outer) := by
  have hforward := Forward.call c d
  have hleads := c.leadsTo_advance d hturn
  cases hpath : c.path? m with
  | some path =>
    obtain ⟨hbound, hpublished⟩ := h.found c rfl path hpath
    obtain ⟨found, hstage, -⟩ := Call.path?_eq_some.mp hpath
    refine ⟨fun _ heq => Option.some.inj heq ▸ hbound,
      .of_le (MethodTier.le_trans hpublished (hforward m)) ?_⟩
    rintro _ ⟨⟩
    simp [Call.advance, Call.path?, hstage]
  | none =>
    refine Sees.of_no_path rfl ⟨MethodTier.le_trans h.le (hforward m), ?_⟩
    rintro _ ⟨⟩ path hnext
    obtain ⟨found, hstage, hmethod, rfl⟩ := Call.path?_eq_some.mp hnext
    rw [hstage] at hleads
    rw [c.method_advance d hturn] at hmethod
    rw [hleads.2, hmethod]
    exact ⟨h.le, hforward m⟩

/-- A move of the caller goes on where its paths are, or higher. -/
theorem StackStep.sees {d d' : Dispatcher α} {move : CallerMove α β}
    (hstep : StackStep d move calls calls' d') (hstacked : Stacked calls)
    (h : Sees m bound d.cache calls) :
    (∀ path, move.path? m calls = some path → bound ≤ path) ∧
      Sees m ((move.path? m calls).getD bound) d'.cache calls' := by
  cases hstep with
  | advance outer hturn => exact h.advance hturn
  | invoke m' unwinding hmay =>
    refine Sees.of_no_path rfl (.of_le h.le ?_)
    rintro _ ⟨⟩
    rfl
  | beginCompile outer hturn hidle =>
    refine Sees.of_no_path rfl (.of_le h.le ?_)
    rintro _ ⟨⟩
    simp [Call.path?, Call.beginCompile, (Call.stage_of_turn_compiler hturn).1]
  | endCompile outcome outer hturn hbusy =>
    refine Sees.of_no_path rfl (.of_le h.le ?_)
    rintro _ ⟨⟩
    simp [Call.path?, Call.concludeCompile, (Call.stage_of_turn_compiler hturn).1]
  | endRun outcome outer hturn =>
    refine Sees.of_no_path rfl (.of_le h.le ?_)
    rintro _ ⟨⟩
    simp [Call.path?, Call.concludeRun, Call.stage_of_turn_engine hturn]
  | leave outer hturn =>
    refine Sees.of_no_path rfl (.of_le h.le fun c hc => ?_)
    exact Call.path?_of_isWithHost (hstacked.outer c (List.mem_of_mem_head? hc))

end Sees

namespace System

variable {s t : System α β} {i : Nat} {m : MethodId} {bound : MethodTier}

/-- A step goes on where the caller's paths are, or higher. -/
theorem sees_step {label : Label α β} (hstep : s.step label = some t) (hstacked : s.IsStacked)
    (h : Sees m bound s.dispatcher.cache (s.callsOf i)) :
    (∀ path, s.path? i m label = some path → bound ≤ path) ∧
      Sees m ((s.path? i m label).getD bound) t.dispatcher.cache (t.callsOf i) := by
  obtain ⟨move, rfl, hmove⟩ | ⟨hother, hsame⟩ := step_of_caller i hstep
  · rw [path?, if_pos rfl]
    exact hmove.sees (hstacked i) h
  · have hnone : s.path? i m label = none := by
      cases label with
      | caller j move => exact if_neg (by simpa [Label.isOf] using hother)
      | _ => rfl
    rw [hsame]
    exact Sees.of_no_path hnone (h.forward (forward_step hstep))

/-- Along a run the caller's paths only go up. -/
theorem sees_run {labels : List (Label α β)} (hrun : s.run labels = some t)
    (hstacked : s.IsStacked) (h : Sees m bound s.dispatcher.cache (s.callsOf i)) :
    (∀ path ∈ s.paths i m labels, bound ≤ path) ∧ (s.paths i m labels).Pairwise (· ≤ ·) := by
  induction labels generalizing s bound with
  | nil => exact ⟨by simp [paths], .nil⟩
  | cons label labels ih =>
    obtain ⟨next, hstep, hrest⟩ := Option.bind_eq_some_iff.mp hrun
    obtain ⟨hpath, hnext⟩ := sees_step hstep hstacked h
    obtain ⟨hle, hsorted⟩ := ih hrest (isStacked_step hstep hstacked) hnext
    simp only [paths, hstep]
    cases hhere : s.path? i m label with
    | none =>
      rw [hhere] at hle
      exact ⟨hle, hsorted⟩
    | some path =>
      rw [hhere] at hle
      have hbound := hpath path hhere
      refine ⟨List.forall_mem_cons.mpr ⟨hbound, fun p hp => ?_⟩, .cons hle hsorted⟩
      exact MethodTier.le_trans hbound (hle p hp)

end System

/-! ## A call that compiled a tier itself -/

/-- A call whose compilation of a request succeeded, on its way to the engine: its artifact is on
the way into the cache, or a lookup of the method finds the tier at least. -/
inductive Call.Secured (r : Request) (cache : CompilationCache α) : Call α β → Prop
  | compiled (unwinding : Bool) (artifact : α) :
      Secured r cache ⟨r.method, unwinding, .compiling ⟨r, .compiled artifact⟩⟩
  | counted (unwinding : Bool) (artifact : α) :
      Secured r cache ⟨r.method, unwinding, .compiling ⟨r, .counted artifact⟩⟩
  | recorded (unwinding : Bool) (artifact : α) :
      Secured r cache ⟨r.method, unwinding, .compiling ⟨r, .recorded artifact⟩⟩
  | superseded (unwinding : Bool) (hle : .ofTier (some r.tier) ≤ pathOf (cache.lookup r.method)) :
      Secured r cache ⟨r.method, unwinding, .compiling ⟨r, .superseded⟩⟩
  | done (unwinding : Bool) (hle : .ofTier (some r.tier) ≤ pathOf (cache.lookup r.method)) :
      Secured r cache ⟨r.method, unwinding, .compiling ⟨r, .done none⟩⟩
  | selecting (unwinding : Bool) (hle : .ofTier (some r.tier) ≤ pathOf (cache.lookup r.method)) :
      Secured r cache ⟨r.method, unwinding, .selecting⟩
  | entering (unwinding : Bool) {found : Option (CompiledMethod α)}
      (hle : .ofTier (some r.tier) ≤ pathOf found) :
      Secured r cache ⟨r.method, unwinding, .entering found⟩

namespace Call.Secured

variable {r : Request} {cache cache' : CompilationCache α} {c : Call α β}

theorem forward (h : c.Secured r cache) (hforward : Forward cache cache') :
    c.Secured r cache' := by
  have hraise : ∀ {path}, path ≤ pathOf (cache.lookup r.method) →
      path ≤ pathOf (cache'.lookup r.method) :=
    fun hle => MethodTier.le_trans hle (hforward r.method)
  cases h with
  | compiled unwinding artifact => exact .compiled unwinding artifact
  | counted unwinding artifact => exact .counted unwinding artifact
  | recorded unwinding artifact => exact .recorded unwinding artifact
  | superseded unwinding hle => exact .superseded unwinding (hraise hle)
  | done unwinding hle => exact .done unwinding (hraise hle)
  | selecting unwinding hle => exact .selecting unwinding (hraise hle)
  | entering unwinding hle => exact .entering unwinding hle

/-- It is the dispatcher's turn, and the engine has not been called. -/
theorem turn_eq (h : c.Secured r cache) :
    c.method = r.method ∧ c.turn = .dispatcher ∧ c.isWithHost = false ∧ 2 ≤ c.rank := by
  cases h <;> simp [turn, isWithHost, rank, CompileStage.rank, CompileJob.turn,
    CompileJob.isCompiling]

/-- The next step keeps the tier secured, or makes the engine run an artifact of it or of a higher
one. -/
theorem advance {d : Dispatcher α} (h : c.Secured r d.cache) :
    (c.advance d).1.Secured r (c.advance d).2.cache ∨
      ∃ compiled, (c.advance d).1.turn = .engine (some compiled) ∧ r.tier ≤ compiled.tier := by
  cases h with
  | compiled unwinding artifact => exact .inl (.counted unwinding artifact)
  | counted unwinding artifact => exact .inl (.recorded unwinding artifact)
  | recorded unwinding artifact =>
    have hplace := Forward.le_place d.cache r.method ⟨r.tier, artifact⟩
    left
    simp only [Call.advance, CompileJob.turn, CompileJob.advance]
    split
    · exact .done unwinding hplace
    · exact .superseded unwinding hplace
  | superseded unwinding hle => exact .inl (.done unwinding hle)
  | done unwinding hle => exact .inl (.selecting unwinding hle)
  | selecting unwinding hle => exact .inl (.entering unwinding hle)
  | entering unwinding hle =>
    obtain ⟨compiled, rfl, htier⟩ := le_pathOf_iff.mp hle
    exact .inr ⟨compiled, rfl, htier⟩

end Call.Secured

/-- A move of the caller that has secured a tier is a step of the dispatcher. -/
theorem StackStep.of_secured {r : Request} {d d' : Dispatcher α} {move : CallerMove α β}
    {c : Call α β} {outer calls' : List (Call α β)}
    (hstep : StackStep d move (c :: outer) calls' d') (h : c.Secured r d.cache) :
    move = .advance ∧ calls' = (c.advance d).1 :: outer ∧ d' = (c.advance d).2 := by
  obtain ⟨-, hturn, hhost, -⟩ := h.turn_eq
  cases hstep with
  | advance => exact ⟨rfl, rfl, rfl⟩
  | invoke m unwinding hmay =>
    rw [hmay c rfl] at hhost
    cases hhost
  | beginCompile _ h | endCompile _ _ h | endRun _ _ h | leave _ h =>
    rw [hturn] at h
    cases h

/-- A step leaves a call that has secured a tier where it is, or brings it closer to the engine. -/
theorem System.secured_step {s t : System α β} {i : Nat} {r : Request} {c : Call α β}
    {outer : List (Call α β)} {label : Label α β} (hcalls : s.callsOf i = c :: outer)
    (hsecured : c.Secured r s.dispatcher.cache) (hstep : s.step label = some t) :
    ∃ c', t.callsOf i = c' :: outer ∧ c'.method = c.method ∧
      (∀ move, label = .caller i move → move = .advance) ∧
      (label.isOf i).toNat + c'.rank ≤ c.rank ∧
      (c'.Secured r t.dispatcher.cache ∨
        ∃ compiled, c'.turn = .engine (some compiled) ∧ r.tier ≤ compiled.tier) := by
  obtain ⟨move, rfl, hmove⟩ | ⟨hother, hsame⟩ := step_of_caller i hstep
  · rw [hcalls] at hmove
    obtain ⟨rfl, hcalls', hd⟩ := hmove.of_secured hsecured
    refine ⟨(c.advance s.dispatcher).1, hcalls', c.method_advance _ hsecured.turn_eq.2.1,
      fun _ h => ?_, ?_, ?_⟩
    · exact (Label.caller.inj h).2.symm
    · have hlt := c.rank_advance_lt s.dispatcher hsecured.turn_eq.2.1
      simp only [Label.isOf, decide_true, Bool.toNat_true]
      omega
    · rw [hd]
      exact hsecured.advance
  · refine ⟨c, hsame.trans hcalls, rfl, fun move h => ?_, ?_,
      .inl (hsecured.forward (forward_step hstep))⟩
    · simp [h, Label.isOf] at hother
    · rw [hother, Bool.toNat_false, Nat.zero_add]

/-- A call whose own compilation of its method has just succeeded has secured the tier. -/
theorem StackStep.secured {d d' : Dispatcher α} {c : Call α β} {job : CompileJob α} {artifact : α}
    {outer calls' : List (Call α β)}
    (hstep : StackStep d (.endCompile (.value artifact)) (c :: outer) calls' d')
    (hstacked : Stacked (c :: outer)) (hturn : c.turn = .compiler job) :
    ∃ c', calls' = c' :: outer ∧ c'.method = job.request.method ∧ c'.Secured job.request d'.cache ∧
      c'.rank = 8 := by
  obtain ⟨m, unwinding, stage⟩ := c
  obtain ⟨rfl, -⟩ := Call.stage_of_turn_compiler hturn
  obtain rfl : job.request.method = m := hstacked.own _ List.mem_cons_self job rfl
  cases hstep with
  | endCompile _ _ hheld hbusy =>
    obtain rfl := Turn.compiler.inj (hturn.symm.trans hheld)
    obtain ⟨r, stage⟩ := job
    cases stage with
    | compiling => exact ⟨_, rfl, rfl, .compiled unwinding artifact, rfl⟩
    | _ => cases hbusy

/-- Whether all that a caller does in a run is to let the dispatcher take the next step. -/
def OnlyAdvances (i : Nat) (labels : List (Label α β)) : Prop :=
  ∀ move, Label.caller i move ∈ labels → move = .advance

theorem OnlyAdvances.nil (i : Nat) : OnlyAdvances i ([] : List (Label α β)) := by
  intro move hmove
  cases hmove

theorem OnlyAdvances.cons {i : Nat} {label : Label α β} {labels : List (Label α β)}
    (hlabel : ∀ move, label = .caller i move → move = .advance) (h : OnlyAdvances i labels) :
    OnlyAdvances i (label :: labels) := by
  intro move hmove
  obtain hfirst | hmove := List.mem_cons.mp hmove
  · exact hlabel move hfirst.symm
  · exact h move hmove

/-- A call that has secured a tier is on its way to the engine until it runs an artifact of that
tier or of a higher one. All it does meanwhile is to advance, and not often. -/
theorem System.executes_of_secured {s t : System α β} {i : Nat} {r : Request} {c : Call α β}
    {outer : List (Call α β)} {labels : List (Label α β)} (hcalls : s.callsOf i = c :: outer)
    (hsecured : c.Secured r s.dispatcher.cache) (hrun : s.run labels = some t) :
    (OnlyAdvances i labels ∧ labels.countP (·.isOf i) + 2 ≤ c.rank ∧
      ∃ c', t.callsOf i = c' :: outer ∧ c'.turn = .dispatcher) ∨
    ∃ past future u c' compiled, labels = past ++ future ∧ s.run past = some u ∧
      OnlyAdvances i past ∧ u.callsOf i = c' :: outer ∧ c'.method = c.method ∧
      c'.turn = .engine (some compiled) ∧ r.tier ≤ compiled.tier := by
  induction labels generalizing s c with
  | nil =>
    obtain rfl := Option.some.inj hrun
    obtain ⟨-, hturn, -, hrank⟩ := hsecured.turn_eq
    exact .inl ⟨.nil i, by simpa using hrank, c, hcalls, hturn⟩
  | cons label labels ih =>
    obtain ⟨next, hstep, hrest⟩ := Option.bind_eq_some_iff.mp hrun
    obtain ⟨c₁, hcalls₁, hmethod, hlabel, hrank, hcase⟩ := secured_step hcalls hsecured hstep
    obtain hsecured₁ | ⟨compiled, hturn, htier⟩ := hcase
    · obtain ⟨honly, hfew, hturn⟩ | ⟨past, future, u, c', compiled, rfl, hpast, honly, hcalls',
        hmethod', hturn⟩ := ih hcalls₁ hsecured₁ hrest
      · refine .inl ⟨honly.cons hlabel, ?_, hturn⟩
        rw [List.countP_cons]
        cases hof : label.isOf i <;> simp [hof] at hrank ⊢ <;> omega
      · refine .inr ⟨label :: past, future, u, c', compiled, rfl, ?_, honly.cons hlabel, hcalls',
          hmethod'.trans hmethod, hturn⟩
        rw [run, hstep, Option.bind_some, hpast]
    · refine .inr ⟨[label], labels, next, c₁, compiled, rfl, ?_, .cons hlabel (.nil i), hcalls₁,
        hmethod, hturn, htier⟩
      rw [run, hstep, Option.bind_some, run]

/-! ## Main result -/

/-- **A tier only moves forward.** Take any run of callers, workers and the host's own operations
on the cache, split anywhere.

- What a lookup finds before is found by every lookup after, at the same tier or a higher one.
- Each caller's calls of a method run interpreted first, then at `l1`, then at `l2`.
- A call whose own inline compilation has just succeeded comes to the engine after fewer than eight
  steps of the dispatcher and nothing else, with an artifact of the tier it compiled or a higher
  one. -/
theorem tier_only_moves_forward {d : Dispatcher α} {callers : Nat}
    {before labels : List (Label α β)} {s t : System α β}
    (hbefore : (System.start d callers).run before = some s) (hrun : s.run labels = some t) :
    (∀ m compiled, s.dispatcher.cache.lookup m = some compiled →
      ∃ later, t.dispatcher.cache.lookup m = some later ∧ compiled.tier ≤ later.tier) ∧
    (∀ i m, ((System.start d callers).paths i m (before ++ labels)).Pairwise (· ≤ ·)) ∧
    ∀ i c outer job artifact rest, s.callsOf i = c :: outer → c.turn = .compiler job →
      labels = .caller i (.endCompile (.value artifact)) :: rest →
      (OnlyAdvances i rest ∧ rest.countP (·.isOf i) < 7 ∧
        ∃ c', t.callsOf i = c' :: outer ∧ c'.turn = .dispatcher) ∨
      ∃ past future u c' compiled, rest = past ++ future ∧
        s.run (.caller i (.endCompile (.value artifact)) :: past) = some u ∧
        OnlyAdvances i past ∧ u.callsOf i = c' :: outer ∧ c'.method = job.request.method ∧
        c'.turn = .engine (some compiled) ∧ job.request.tier ≤ compiled.tier := by
  refine ⟨fun m compiled hfound => ?_, fun i m => ?_, ?_⟩
  · have hforward := System.forward_run hrun m
    rw [hfound] at hforward
    exact le_pathOf_iff.mp hforward
  · have hall : (System.start d callers).run (before ++ labels) = some t := by
      rw [System.run_append, hbefore, Option.bind_some, hrun]
    have hnothing : Sees (β := β) m .interpreted d.cache ((System.start d callers).callsOf i) :=
      .of_le (MethodTier.interpreted_le _) (by simp [System.callsOf_start])
    exact (System.sees_run hall (System.isStacked_start d callers) hnothing).2
  · rintro i c outer job artifact rest hcalls hturn rfl
    obtain ⟨next, hstep, hrest⟩ := Option.bind_eq_some_iff.mp hrun
    obtain ⟨_, ⟨⟩, hmove⟩ | ⟨hother, -⟩ := System.step_of_caller i hstep
    · have hstacked := System.isStacked_run hbefore (System.isStacked_start d callers) i
      rw [hcalls] at hmove hstacked
      obtain ⟨c₁, hcalls₁, hmethod₁, hsecured, hrank⟩ := hmove.secured hstacked hturn
      obtain ⟨honly, hfew, hstill⟩ | ⟨past, future, u, c', compiled, hsplit, hpast, honly, hcalls',
        hmethod, hran⟩ := System.executes_of_secured hcalls₁ hsecured hrest
      · exact .inl ⟨honly, by omega, hstill⟩
      · refine .inr ⟨past, future, u, c', compiled, hsplit, ?_, honly, hcalls',
          hmethod.trans hmethod₁, hran⟩
        rw [System.run, hstep, Option.bind_some, hpast]
    · simp [Label.isOf] at hother

/-- The first caller is compiling at `l1` when the second one publishes `l2`. -/
def publishing : List (Label Nat Nat) :=
  let advances (i n : Nat) : List (Label Nat Nat) := List.replicate n (.caller i .advance)
  [.caller 0 (.invoke ⟨0⟩ false)] ++ advances 0 7 ++ [.caller 0 .beginCompile] ++
    [.caller 1 (.invoke ⟨0⟩ false)] ++ advances 1 6 ++
    [.caller 1 .beginCompile, .caller 1 (.endCompile (.value 8))] ++ advances 1 3

/-- The first caller comes too late with its artifact, and the host gives the published tier
back meanwhile. -/
def comingLate : List (Label Nat Nat) :=
  let advances (n : Nat) : List (Label Nat Nat) := List.replicate n (.caller 0 .advance)
  [.caller 0 (.endCompile (.value 7))] ++ advances 3 ++ [.direct (.release ⟨0⟩ .l2)] ++ advances 4

/-- Whether the innermost call of the first caller compiles inline at `l1`. -/
def compilesInline (s : System Nat Nat) : Bool :=
  match s.callsOf 0 with
  | c :: _ => match c.turn with
    | .compiler job => job.request = ⟨⟨0⟩, .l1⟩
    | _ => false
  | [] => false

theorem exists_of_compilesInline {s : System Nat Nat} (h : compilesInline s = true) :
    ∃ c outer job, s.callsOf 0 = c :: outer ∧ c.turn = .compiler job ∧
      job.request = ⟨⟨0⟩, .l1⟩ := by
  unfold compilesInline at h
  split at h
  · rename_i c outer hcalls
    split at h
    · rename_i job hturn
      exact ⟨c, outer, job, hcalls, hturn, of_decide_eq_true h⟩
    · cases h
  · cases h

theorem tier_only_moves_forward_late :
    let d : Dispatcher Nat := .ofConfig (.withThresholds 1 2)
    ∃ s t, (System.start d 2).run publishing = some s ∧ s.run comingLate = some t ∧
      (∃ later, t.dispatcher.cache.lookup ⟨0⟩ = some later ∧ .l2 ≤ later.tier) ∧
      ((System.start d 2).paths 0 ⟨0⟩ (publishing ++ comingLate)).Pairwise (· ≤ ·) ∧
      ∃ past u c compiled, s.run past = some u ∧ c ∈ u.callsOf 0 ∧
        c.turn = .engine (some compiled) ∧ .l1 ≤ compiled.tier := by
  intro d
  have hruns : ((System.start d 2).run publishing).any fun s =>
      (s.run comingLate).isSome && compilesInline s &&
        s.dispatcher.cache.lookup ⟨0⟩ = some ⟨.l2, 8⟩ := by
    decide +kernel
  obtain ⟨s, hbefore, hs⟩ := (Option.any_eq_true _ _).mp hruns
  rw [Bool.and_eq_true, Bool.and_eq_true, decide_eq_true_eq] at hs
  obtain ⟨⟨hruns', hinline⟩, hfound⟩ := hs
  obtain ⟨t, hrun⟩ := Option.isSome_iff_exists.mp hruns'
  obtain ⟨c, outer, job, hcalls, hturn, hrequest⟩ := exists_of_compilesInline hinline
  obtain ⟨hforward, hpaths, hown⟩ := tier_only_moves_forward hbefore hrun
  refine ⟨s, t, hbefore, hrun, hforward _ _ hfound, hpaths 0 ⟨0⟩, ?_⟩
  obtain ⟨-, hfew, -⟩ | ⟨past, future, u, c', compiled, -, hpast, -, hcalls', -, hran, htier⟩ :=
    hown 0 c outer job 7 _ hcalls hturn rfl
  · exact absurd hfew (by decide +kernel)
  · rw [hrequest] at htier
    exact ⟨_, u, c', compiled, hpast, by simp [hcalls'], hran, htier⟩

end TieredDispatch
