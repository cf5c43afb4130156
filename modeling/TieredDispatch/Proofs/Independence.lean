import TieredDispatch.Proofs.Asking

/-!
# Methods are independent

**Theorem (`methods_independent`).** In synchronous mode, with a host that makes no calls of its
own and whose answers for a method depend only on what it was asked for that method before, any
calls of any methods give the calls of one method the results, the compilations, the count, the
tiers and the artifact that these calls would have had alone.

The proof runs both sequences of calls side by side. A call of another method takes a step in the
one run only, and a call of the method takes the same step in both. Three things are kept:

* *possibility* (`Asked`): the engine is only asked to execute what was compiled for the method,
* *agreement of the host* (`AgreeOn`): for the method, both runs asked the same things in the same
  order, and got the same answers from the compiler,
* *agreement of the ledgers* (`Ledger.SameAt`): both have the same entries for the method.
-/

namespace TieredDispatch

variable {σ α β : Type}

/-! ## Hosts that keep methods apart -/

/-- What a host can be asked for: to compile anything, to interpret any method, and to execute for
a method what it compiled for that method. -/
inductive Collaborators.Possible (co : Collaborators σ α β) (host : σ) : List (Ask α) → Prop
  | nil : Possible co host []
  | compile {asks : List (Ask α)} (h : Possible co host asks) (r : Request) :
      Possible co host (asks ++ [.compile r])
  | interpret {asks : List (Ask α)} (h : Possible co host asks) (m : MethodId) :
      Possible co host (asks ++ [.run m none])
  | execute {asks : List (Ask α)} (h : Possible co host asks) {m : MethodId} {tier : Tier}
      {artifact : α}
      (hcompiled : HostCall.compile ⟨m, tier⟩ (.value artifact) ∈ co.answers host asks) :
      Possible co host (asks ++ [.run m (some ⟨tier, artifact⟩)])

/-- What a host answers for a method depends only on what it was asked for that method before. -/
def Collaborators.KeepsApart (co : Collaborators σ α β) (host : σ) : Prop :=
  ∀ (asks asks' : List (Ask α)) (ask : Ask α),
    co.Possible host (asks ++ [ask]) → co.Possible host (asks' ++ [ask]) →
    asks.filter (·.method = ask.method) = asks'.filter (·.method = ask.method) →
    (co.answer (co.after host asks) ask).1 = (co.answer (co.after host asks') ask).1

/-- An entry about compiling for the method. -/
def HostCall.isCompileFor (m : MethodId) : HostCall α β → Bool
  | compile r _ => r.method = m
  | execute _ _ | interpret _ _ => false

/-! ## Asks for one method and for others -/

section Asks

variable {co : Collaborators σ α β} {host : σ} {asks asks' more : List (Ask α)} {ask : Ask α}
  {m k : MethodId} {found : Option (CompiledMethod α)}

theorem HostCall.isCompileFor_engineCall (outcome : Outcome β) :
    (engineCall k found outcome).isCompileFor m = false := by
  cases found <;> rfl

theorem engineCall_inj {outcome outcome' : Outcome β}
    (h : engineCall m found outcome = engineCall m found outcome') : outcome = outcome' := by
  cases found with
  | none => exact (HostCall.interpret.inj h).2
  | some compiled => exact (HostCall.execute.inj h).2

/-- What is asked for other methods is not about compiling for this one. -/
theorem Collaborators.isCompileFor_answer (hmethod : ask.method ≠ m) :
    (co.answer host ask).1.isCompileFor m = false := by
  cases ask with
  | compile r => exact decide_eq_false hmethod
  | run k found => exact HostCall.isCompileFor_engineCall _

theorem Collaborators.filter_answers_of_ne (hmore : ∀ ask ∈ more, ask.method ≠ m) :
    (co.answers host more).filter (·.isCompileFor m) = [] := by
  induction more generalizing host with
  | nil => rfl
  | cons ask more ih =>
    obtain ⟨hask, hmore⟩ := List.forall_mem_cons.mp hmore
    rw [answers, List.filter_cons_of_neg (by simp [isCompileFor_answer hask]), ih hmore]

/-- For the method, the host was asked the same things in the same order, and its compiler gave the
same answers. -/
structure Collaborators.AgreeOn (co : Collaborators σ α β) (host : σ) (m : MethodId)
    (asks asks' : List (Ask α)) : Prop where
  asked : asks.filter (·.method = m) = asks'.filter (·.method = m)
  compiles : (co.answers host asks).filter (·.isCompileFor m) =
    (co.answers host asks').filter (·.isCompileFor m)

namespace Collaborators.AgreeOn

/-- What is asked for other methods makes no difference. -/
theorem other (h : co.AgreeOn host m asks asks') (hmore : ∀ ask ∈ more, ask.method ≠ m) :
    co.AgreeOn host m (asks ++ more) asks' where
  asked := by
    have hnone : more.filter (·.method = m) = [] :=
      List.filter_eq_nil_iff.mpr fun ask hask => by simpa using hmore ask hask
    rw [List.filter_append, hnone, List.append_nil, h.asked]
  compiles := by
    rw [answers_append, List.filter_append, filter_answers_of_ne hmore, List.append_nil,
      h.compiles]

variable (hapart : co.KeepsApart host)

include hapart

/-- What is asked for the method is answered alike. -/
theorem answer (ask : Ask α) (h : co.AgreeOn host ask.method asks asks')
    (hpossible : co.Possible host (asks ++ [ask]))
    (hpossible' : co.Possible host (asks' ++ [ask])) :
    (co.answer (co.after host asks) ask).1 = (co.answer (co.after host asks') ask).1 ∧
      co.AgreeOn host ask.method (asks ++ [ask]) (asks' ++ [ask]) := by
  have hanswer := hapart asks asks' ask hpossible hpossible' h.asked
  refine ⟨hanswer, ?_, ?_⟩
  · rw [List.filter_append, List.filter_append, h.asked]
  · rw [answers_append, answers_append, List.filter_append, List.filter_append, h.compiles]
    simp only [answers, hanswer]

theorem compile (r : Request) (h : co.AgreeOn host r.method asks asks')
    (hpossible : co.Possible host asks) (hpossible' : co.Possible host asks') :
    co.compiled host asks r = co.compiled host asks' r ∧
      co.AgreeOn host r.method (asks ++ [.compile r]) (asks' ++ [.compile r]) := by
  obtain ⟨hanswer, hagree⟩ :=
    answer hapart (.compile r) h (.compile hpossible r) (.compile hpossible' r)
  exact ⟨(HostCall.compile.inj hanswer).2, hagree⟩

theorem run (h : co.AgreeOn host m asks asks')
    (hpossible : co.Possible host (asks ++ [.run m found]))
    (hpossible' : co.Possible host (asks' ++ [.run m found])) :
    co.ran host asks m found = co.ran host asks' m found ∧
      co.AgreeOn host m (asks ++ [.run m found]) (asks' ++ [.run m found]) := by
  obtain ⟨hanswer, hagree⟩ := answer hapart (.run m found) h hpossible hpossible'
  exact ⟨engineCall_inj hanswer, hagree⟩

end Collaborators.AgreeOn

end Asks

/-! ## Ledgers -/

/-- Two ledgers have the same entries for a method. -/
structure Ledger.SameAt (l l' : Ledger α) (m : MethodId) : Prop where
  policy : l.policy = l'.policy
  counts : l.counts m = l'.counts m
  requested : l.requested m = l'.requested m
  active : l.active m = l'.active m

/-- What is published was compiled by the host, for the same method. -/
def Ledger.Proven (l : Ledger α) (co : Collaborators σ α β) (host : σ) (asks : List (Ask α)) :
    Prop :=
  ∀ m compiled, l.active m = some compiled →
    HostCall.compile ⟨m, compiled.tier⟩ (.value compiled.artifact) ∈ co.answers host asks

namespace Ledger

variable {co : Collaborators σ α β} {host : σ} {asks asks' more : List (Ask α)}
  {l l' k : Ledger α} {m : MethodId} {r : Request}

theorem SameAt.demand?_eq (h : l.SameAt k m) : l.demand? m = k.demand? m := by
  rw [demand?, demand?, h.policy, h.counts, h.requested]

theorem SameAt.count (h : l.SameAt k m) : (l.count m).SameAt (k.count m) m where
  policy := h.policy
  counts := by rw [counts_count_self, counts_count_self, h.counts]
  requested := h.requested
  active := h.active

theorem SameAt.mark (h : l.SameAt k r.method) : (l.mark r).SameAt (k.mark r) r.method where
  policy := h.policy
  counts := h.counts
  requested := by rw [requested_mark_self, requested_mark_self, h.requested]
  active := h.active

theorem SameAt.place (h : l.SameAt k r.method) (artifact : α) :
    (l.place r artifact).SameAt (k.place r artifact) r.method where
  policy := by rw [policy_place, policy_place, h.policy]
  counts := by rw [counts_place, counts_place, h.counts]
  requested := by rw [requested_place, requested_place, h.requested]
  active := by
    rw [active_place, active_place, h.active]
    split
    · exact h.active
    · rw [Function.update_self, Function.update_self]

theorem SameAt.publish (h : l.SameAt k m) (tier : Tier) (artifact : α) :
    (((l.count m).mark ⟨m, tier⟩).place ⟨m, tier⟩ artifact).SameAt
      (((k.count m).mark ⟨m, tier⟩).place ⟨m, tier⟩ artifact) m :=
  (SameAt.mark (r := ⟨m, tier⟩) h.count).place artifact

/-- The engine can be asked to run what is published. -/
theorem Proven.possible_run (h : l.Proven co host asks) (hpossible : co.Possible host asks)
    (m : MethodId) : co.Possible host (asks ++ [.run m (l.active m)]) := by
  cases hactive : l.active m with
  | none => exact .interpret hpossible m
  | some compiled => exact .execute hpossible (h m compiled hactive)

theorem Proven.append (h : l.Proven co host asks) (more : List (Ask α)) :
    l.Proven co host (asks ++ more) := by
  intro m compiled hactive
  rw [co.answers_append]
  exact List.mem_append_left _ (h m compiled hactive)

/-- What is published after a compilation was published before or is what was compiled. -/
theorem Proven.publish (h : l.Proven co host asks) {tier : Tier} {artifact : α}
    (hvalue : co.compiled host asks ⟨m, tier⟩ = .value artifact) :
    (((l.count m).mark ⟨m, tier⟩).place ⟨m, tier⟩ artifact).Proven co host
      (asks ++ [.compile ⟨m, tier⟩]) := by
  intro k compiled hactive
  rcases eq_of_active_place hactive with hbefore | ⟨rfl, rfl⟩
  · exact h.append _ k compiled hbefore
  · rw [co.answers_compile, hvalue]
    exact List.mem_append_right _ List.mem_cons_self

/-- A call only asks for what is possible. -/
theorem Asks.possible {result : CallResult β} (hasks : l.Asks co host asks m more result l')
    (hpossible : co.Possible host asks) (hproven : l.Proven co host asks) :
    co.Possible host (asks ++ more) ∧ l'.Proven co host (asks ++ more) := by
  cases hasks with
  | settled hdemand => exact ⟨hproven.possible_run hpossible m, hproven.append _⟩
  | failed hdemand hcause => exact ⟨.compile hpossible _, hproven.append _⟩
  | compiled hdemand hvalue hpublished =>
    subst hpublished
    have hproven' := hproven.publish hvalue
    rw [List.append_cons]
    exact ⟨hproven'.possible_run (.compile hpossible _) m, hproven'.append _⟩

/-- A call is for its method only. -/
theorem Asks.other {result : CallResult β} {j : MethodId} (hm : m ≠ j)
    (hasks : l.Asks co host asks j more result l') :
    (∀ ask ∈ more, ask.method ≠ m) ∧ (l.SameAt k m → l'.SameAt k m) := by
  have hcount : (l.count j).counts m = l.counts m := l.counts_count_of_ne hm
  cases hasks with
  | settled _ | failed _ _ =>
    refine ⟨by simpa [Ask.method] using Ne.symm hm, fun h => ?_⟩
    exact ⟨h.policy, hcount.trans h.counts, h.requested, h.active⟩
  | @compiled tier artifact _ hdemand hvalue hpublished =>
    subst hpublished
    refine ⟨by simpa [Ask.method] using Ne.symm hm, fun h => ⟨?_, ?_, ?_, ?_⟩⟩
    · rw [policy_place]
      exact h.policy
    · rw [counts_place]
      exact hcount.trans h.counts
    · rw [requested_place, requested_mark_of_ne _ hm]
      exact h.requested
    · rw [active_place]
      split
      · exact h.active
      · rw [Function.update_of_ne hm]
        exact h.active

/-- A call of the method does the same in both runs. -/
theorem Asks.transfer {result : CallResult β} (hapart : co.KeepsApart host)
    (hasks : l.Asks co host asks m more result l') (hagree : co.AgreeOn host m asks asks')
    (hpossible : co.Possible host asks) (hpossible' : co.Possible host asks')
    (hproven : l.Proven co host asks) (hproven' : k.Proven co host asks') (hsame : l.SameAt k m) :
    ∃ k', k.Asks co host asks' m more result k' ∧
      co.AgreeOn host m (asks ++ more) (asks' ++ more) ∧ l'.SameAt k' m := by
  cases hasks with
  | settled hdemand =>
    have hrun := hproven.possible_run hpossible m
    have hrun' := hproven'.possible_run hpossible' m
    rw [← hsame.active] at hrun'
    obtain ⟨hran, hagree'⟩ := hagree.run hapart hrun hrun'
    refine ⟨_, ?_, hagree', hsame.count⟩
    rw [hran, hsame.active]
    exact .settled (hsame.demand?_eq.symm.trans hdemand)
  | failed hdemand hcause =>
    obtain ⟨hcompiled, hagree'⟩ := hagree.compile hapart ⟨m, _⟩ hpossible hpossible'
    rw [hcompiled] at hcause
    exact ⟨_, .failed (hsame.demand?_eq.symm.trans hdemand) hcause, hagree', hsame.count⟩
  | @compiled tier artifact _ hdemand hvalue hpublished =>
    subst hpublished
    obtain ⟨hcompiled, hagree'⟩ := hagree.compile hapart ⟨m, tier⟩ hpossible hpossible'
    have hvalue' : co.compiled host asks' ⟨m, tier⟩ = .value artifact :=
      hcompiled.symm.trans hvalue
    have hsame' := hsame.publish tier artifact
    have hrun := (hproven.publish hvalue).possible_run (.compile hpossible _) m
    have hrun' := (hproven'.publish hvalue').possible_run (.compile hpossible' _) m
    rw [← hsame'.active] at hrun'
    obtain ⟨hran, hagree''⟩ := hagree'.run hapart hrun hrun'
    rw [← List.append_cons, ← List.append_cons] at hagree''
    refine ⟨_, ?_, hagree'', hsame'⟩
    rw [hran, hsame'.active]
    exact .compiled (hsame.demand?_eq.symm.trans hdemand) hvalue' rfl

end Ledger

/-! ## Two runs side by side -/

section Runs

variable {co : Collaborators σ α β} {host : σ} {m k : MethodId}
  {s t : Session (σ × List (HostCall α β)) α} {asks asks' : List (Ask α)}

/-- A session in synchronous mode whose host was asked only for what is possible. -/
structure Session.Asked (s : Session (σ × List (HostCall α β)) α) (co : Collaborators σ α β)
    (host : σ) (asks : List (Ask α)) : Prop where
  recorded : s.host = co.recorded host asks
  pool : s.dispatcher.pool = none
  possible : co.Possible host asks
  proven : s.dispatcher.ledger.Proven co host asks

/-- Two sessions that are alike for a method. -/
def Session.Alike (co : Collaborators σ α β) (host : σ) (m : MethodId)
    (s t : Session (σ × List (HostCall α β)) α) : Prop :=
  ∃ asks asks', s.Asked co host asks ∧ t.Asked co host asks' ∧ co.AgreeOn host m asks asks' ∧
    s.dispatcher.ledger.SameAt t.dispatcher.ledger m

variable (hco : co.NeverCalls) (depth : Nat)

include hco

theorem Session.Asked.call (hasked : s.Asked co host asks) {more : List (Ask α)}
    {result : CallResult β} {l' : Ledger α}
    (hasks : s.dispatcher.ledger.Asks co host asks k more result l') :
    (Session.call co.recording depth s k).1 = result ∧
      (Session.call co.recording depth s k).2.Asked co host (asks ++ more) ∧
      (Session.call co.recording depth s k).2.dispatcher.ledger = l' := by
  obtain ⟨_, hends⟩ := call_of_asks hco depth hasked.recorded hasked.pool rfl hasks
  obtain ⟨hpossible, hproven⟩ := hasks.possible hasked.possible hasked.proven
  refine ⟨hends.result, ⟨hends.host, hends.stands.pool, hpossible, ?_⟩, hends.stands.ledger⟩
  rw [hends.stands.ledger]
  exact hproven

/-- A call of another method, in the one session. -/
theorem Session.Alike.call_other (halike : Alike co host m s t) (hk : m ≠ k) :
    Alike co host m (Session.call co.recording depth s k).2 t := by
  obtain ⟨asks, asks', hs, ht, hagree, hsame⟩ := halike
  obtain ⟨more, result, l', hasks⟩ := s.dispatcher.ledger.exists_asks co host asks k
  obtain ⟨-, hs', hledger⟩ := hs.call hco depth hasks
  obtain ⟨hmore, hkept⟩ := hasks.other hk
  refine ⟨_, _, hs', ht, hagree.other hmore, ?_⟩
  rw [hledger]
  exact hkept hsame

/-- A call of the method, in both sessions. -/
theorem Session.Alike.call (hapart : co.KeepsApart host) (halike : Alike co host m s t) :
    (Session.call co.recording depth s m).1 = (Session.call co.recording depth t m).1 ∧
      Alike co host m (Session.call co.recording depth s m).2
        (Session.call co.recording depth t m).2 := by
  obtain ⟨asks, asks', hs, ht, hagree, hsame⟩ := halike
  obtain ⟨more, result, l', hasks⟩ := s.dispatcher.ledger.exists_asks co host asks m
  obtain ⟨k', hasks', hagree', hsame'⟩ := hasks.transfer hapart hagree hs.possible ht.possible
    hs.proven ht.proven hsame
  obtain ⟨hresult, hs', hledger⟩ := hs.call hco depth hasks
  obtain ⟨hresult', ht', hledger'⟩ := ht.call hco depth hasks'
  refine ⟨hresult.trans hresult'.symm, _, _, hs', ht', hagree', ?_⟩
  rw [hledger, hledger']
  exact hsame'

/-- The results of the calls of one method. -/
def resultsOf (m : MethodId) (methods : List MethodId) (results : List (CallResult β)) :
    List (CallResult β) :=
  ((methods.zip results).filter (·.1 = m)).map (·.2)

theorem Session.Alike.calls (hapart : co.KeepsApart host) (methods : List MethodId)
    (halike : Alike co host m s t) :
    resultsOf m methods (Session.calls co.recording depth s methods).1 =
        (Session.calls co.recording depth t (methods.filter (· = m))).1 ∧
      Alike co host m (Session.calls co.recording depth s methods).2
        (Session.calls co.recording depth t (methods.filter (· = m))).2 := by
  induction methods generalizing s t with
  | nil => exact ⟨rfl, halike⟩
  | cons k rest ih =>
    by_cases hk : k = m
    · subst hk
      obtain ⟨hresult, hafter⟩ := halike.call hco depth hapart
      obtain ⟨hresults, hend⟩ := ih hafter
      rw [List.filter_cons_of_pos (by simp)]
      refine ⟨?_, hend⟩
      simp only [Session.calls, resultsOf, List.zip_cons_cons, decide_true,
        List.filter_cons_of_pos, List.map_cons]
      exact congrArg₂ _ hresult hresults
    · obtain ⟨hresults, hend⟩ := ih (halike.call_other hco depth (Ne.symm hk))
      rw [List.filter_cons_of_neg (by simpa using hk)]
      refine ⟨?_, hend⟩
      simp only [Session.calls, resultsOf, List.zip_cons_cons]
      rw [List.filter_cons_of_neg (by simpa using hk)]
      exact hresults

omit hco in
theorem Session.alike_start {config : TierConfig} {d : Dispatcher α}
    (hstart : Dispatcher.start config = .ok d) (hmode : config.mode = .synchronous) :
    Alike co host m ⟨d, host, []⟩ ⟨d, host, []⟩ := by
  have hasked : Asked ⟨d, host, []⟩ co host [] := by
    refine ⟨rfl, ?_, .nil, ?_⟩
    · obtain ⟨log, rfl⟩ := Dispatcher.eq_of_start hstart
      simp [Dispatcher.ofConfig, hmode]
    · intro k compiled hactive
      rw [Dispatcher.ledger_of_start hstart] at hactive
      cases hactive
  exact ⟨[], [], hasked, hasked, ⟨rfl, rfl⟩, rfl, rfl, rfl, rfl⟩

end Runs

/-! ## Main result -/

/-- **Methods are independent.** Take any accepted configuration in synchronous mode, any host that
makes no calls of its own and keeps methods apart, and any calls `methods`, of which `alone` are
those of `m`. The results of the calls of `m`, in order, what was compiled for `m`, and the count,
the tiers and the artifact of `m` in the end are those of the calls `alone` on a fresh dispatcher.
What was compiled is read off the log of a recording host, which changes nothing. -/
theorem methods_independent {co : Collaborators σ α β} (hco : co.NeverCalls) (depth : Nat)
    {config : TierConfig} {d : Dispatcher α} (hstart : Dispatcher.start config = .ok d)
    (hmode : config.mode = .synchronous) {host : σ} (hapart : co.KeepsApart host)
    (methods : List MethodId) (m : MethodId) :
    let alone := methods.filter (· = m)
    let (results, s) := Session.calls co.recording depth ⟨d, host, []⟩ methods
    let (results', t) := Session.calls co.recording depth ⟨d, host, []⟩ alone
    Session.calls co depth ⟨d, host⟩ methods = (results, s.forget) ∧
    Session.calls co depth ⟨d, host⟩ alone = (results', t.forget) ∧
    resultsOf m methods results = results' ∧
    s.host.2.filter (·.isCompileFor m) = t.host.2.filter (·.isCompileFor m) ∧
    s.dispatcher.counter.get m = t.dispatcher.counter.get m ∧
    s.dispatcher.cache.tierState m = t.dispatcher.cache.tierState m ∧
    s.dispatcher.cache.lookup m = t.dispatcher.cache.lookup m := by
  intro alone
  have hstarted : Session.Alike co host m ⟨d, host, []⟩ ⟨d, host, []⟩ :=
    Session.alike_start hstart hmode
  obtain ⟨hresults, asks, asks', hs, ht, hagree, hsame⟩ :=
    hstarted.calls hco depth hapart methods
  refine ⟨Session.calls_recording co depth ⟨d, host, []⟩ methods,
    Session.calls_recording co depth ⟨d, host, []⟩ alone, hresults, ?_, hsame.counts, ?_,
    hsame.active⟩
  · rw [hs.recorded, ht.recorded]
    exact hagree.compiles
  · rw [Dispatcher.tierState_eq, Dispatcher.tierState_eq, hsame.requested, hsame.active]

/-- A host that counts what it is asked for each method, other than to execute. The first thing that
it compiles for a method fails. -/
def tallying : Collaborators (MethodId → Nat) Nat Nat where
  compile state r := {
    state
    conclude := fun seen =>
      (if seen r.method = 0 then .error "busy" else .value (seen r.method),
        Function.update seen r.method (seen r.method + 1)) }
  execute state artifact := { state, conclude := fun seen => (.value artifact, seen) }
  interpret state m := {
    state
    conclude := fun seen => (.value (seen m), Function.update seen m (seen m + 1)) }

/-- What was counted for a method is what would have been without the other methods. -/
theorem tallying_after {seen seen' : MethodId → Nat} {m : MethodId} (h : seen m = seen' m)
    (asks : List (Ask Nat)) :
    tallying.after seen asks m = tallying.after seen' (asks.filter (·.method = m)) m := by
  induction asks generalizing seen seen' with
  | nil => exact h
  | cons ask asks ih =>
    by_cases hm : ask.method = m
    · rw [List.filter_cons_of_pos (by simpa using hm)]
      apply ih
      rcases ask with r | ⟨k, _ | compiled⟩
      · obtain rfl : r.method = m := hm
        simp [Collaborators.answer, Activity.answer, tallying, h]
      · obtain rfl : k = m := hm
        simp [Collaborators.answer, Activity.answer, Collaborators.run, tallying, h]
      · exact h
    · rw [List.filter_cons_of_neg (by simpa using hm)]
      apply ih
      rcases ask with r | ⟨k, _ | compiled⟩
      · exact (Function.update_of_ne (Ne.symm hm) ..).trans h
      · exact (Function.update_of_ne (Ne.symm hm) ..).trans h
      · exact h

theorem tallying_keepsApart : tallying.KeepsApart fun _ => 0 := by
  intro asks asks' ask _ _ hsame
  have hequal : tallying.after (fun _ => 0) asks ask.method =
      tallying.after (fun _ => 0) asks' ask.method := by
    rw [tallying_after rfl asks, tallying_after rfl asks', hsame]
  rcases ask with r | ⟨k, _ | compiled⟩
  · exact congrArg (fun n => HostCall.compile r (if n = 0 then .error "busy" else .value n)) hequal
  · exact congrArg (HostCall.interpret k <| .value ·) hequal
  · rfl

theorem methods_independent_tallying :
    let d : Dispatcher Nat := .ofConfig (.withThresholds 1 3)
    let methods : List MethodId := [⟨0⟩, ⟨1⟩, ⟨0⟩, ⟨1⟩, ⟨0⟩]
    let results := (Session.calls tallying 0 ⟨d, fun _ => 0⟩ methods).1
    methods.filter (· = ⟨0⟩) = [⟨0⟩, ⟨0⟩, ⟨0⟩] ∧
    resultsOf ⟨0⟩ methods results =
      [.failed (.compilationFailed ⟨0⟩ .l1 "busy"), .output 1, .output 2] ∧
    resultsOf ⟨0⟩ methods results =
      (Session.calls tallying 0 ⟨d, fun _ => 0⟩ (methods.filter (· = ⟨0⟩))).1 := by
  intro d methods results
  have hstart : Dispatcher.start (.withThresholds 1 3) = .ok d := rfl
  have hco : tallying.NeverCalls := ⟨fun _ _ => rfl, fun _ _ => rfl, fun _ _ => rfl⟩
  obtain ⟨hall, halone, hresults, -⟩ :=
    methods_independent hco 0 hstart rfl tallying_keepsApart methods ⟨0⟩
  refine ⟨rfl, by decide +kernel, ?_⟩
  simp only [results, hall, halone]
  exact hresults

end TieredDispatch
