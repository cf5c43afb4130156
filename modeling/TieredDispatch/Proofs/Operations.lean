import TieredDispatch.Proofs.Ledger
import TieredDispatch.Proofs.Sharding

/-!
# Histories of a cache

A cache that its host works on directly goes through **operations**, each an atomic step, so a list
of operations is any interleaving of concurrent calls. A **command** is a call of one caller: it is
one operation, two of them for a publication, or none for a read (`CacheCommand.runAll_eq`).

What the operations come to is a history like that of a dispatcher, and each milestone of it changes
the ledger of the cache in the same way (`CacheOperation.ledger_apply`).
-/

namespace TieredDispatch

variable {α : Type}

/-! ## Operations on a cache -/

namespace CacheOperation

/-- What an operation on a cache comes to. -/
def milestone (cache : CompilationCache α) : CacheOperation α → Milestone α
  | request m tier => if (cache.request m tier).1 then .granted ⟨m, tier⟩ else .denied ⟨m, tier⟩
  | release m tier => .released ⟨m, tier⟩
  | recordRequest m tier => .recorded ⟨m, tier⟩
  | place m compiled => .placed ⟨m, compiled.tier⟩ compiled.artifact

theorem request_of_milestone_granted {operation : CacheOperation α} {cache : CompilationCache α}
    {r : Request} (h : operation.milestone cache = .granted r) :
    (cache.request r.method r.tier).1 = true := by
  cases operation with
  | request m tier =>
    simp only [milestone] at h
    split at h
    · rename_i hgranted
      obtain rfl := Milestone.granted.inj h
      exact hgranted
    · cases h
  | _ => cases h

theorem request_of_milestone_denied {operation : CacheOperation α} {cache : CompilationCache α}
    {r : Request} (h : operation.milestone cache = .denied r) :
    (cache.request r.method r.tier).1 = false := by
  cases operation with
  | request m tier =>
    simp only [milestone] at h
    split at h
    · cases h
    · rename_i hdenied
      obtain rfl := Milestone.denied.inj h
      exact Bool.eq_false_iff.mpr hdenied
  | _ => cases h

/-- Carries out operations one after the other. -/
def applyAll (cache : CompilationCache α) (operations : List (CacheOperation α)) :
    CompilationCache α :=
  operations.foldl apply cache

/-- A publication is its two halves. -/
theorem applyAll_publish (cache : CompilationCache α) (m : MethodId) (tier : Tier) (artifact : α) :
    applyAll cache [.recordRequest m tier, .place m ⟨tier, artifact⟩] =
      (cache.publish m tier artifact).2 := by
  rw [applyAll, List.foldl_cons, List.foldl_cons, List.foldl_nil, apply, apply,
    CompilationCache.publish]

/-- What operations carried out one after the other come to, oldest first. -/
def history : CompilationCache α → List (CacheOperation α) → History α
  | _, [] => []
  | cache, operation :: operations =>
    operation.milestone cache :: history (operation.apply cache) operations

/-- An operation changes the ledger as its milestone does. -/
theorem ledger_apply (operation : CacheOperation α) (cache : CompilationCache α)
    (policy : TierPolicy) (counts : MethodId → UInt64) :
    (operation.apply cache).ledger policy counts =
      (operation.milestone cache).ledger (cache.ledger policy counts) := by
  cases operation with
  | request m tier =>
    rw [milestone, CompilationCache.request_fst]
    split
    · rename_i hgrants
      exact cache.ledger_request_of_grants policy counts ⟨m, tier⟩ hgrants
    · rename_i hdenied
      exact cache.ledger_request_of_not_grants policy counts ⟨m, tier⟩ hdenied
  | release m tier => exact cache.ledger_release policy counts ⟨m, tier⟩
  | recordRequest m tier => exact cache.ledger_recordRequest policy counts ⟨m, tier⟩
  | place m compiled =>
    exact cache.ledger_place policy counts ⟨m, compiled.tier⟩ compiled.artifact

/-- Who asks for a request is granted or denied it. -/
theorem mem_history_of_request {m : MethodId} {tier : Tier} {operations : List (CacheOperation α)}
    (hasked : .request m tier ∈ operations) (cache : CompilationCache α) :
    .granted ⟨m, tier⟩ ∈ history cache operations ∨
      .denied ⟨m, tier⟩ ∈ history cache operations := by
  induction operations generalizing cache with
  | nil => cases hasked
  | cons operation operations ih =>
    rw [history, List.mem_cons, List.mem_cons]
    rcases List.mem_cons.mp hasked with rfl | hlater
    · rw [milestone]
      split
      · exact .inl (.inl rfl)
      · exact .inr (.inl rfl)
    · exact (ih hlater _).imp .inr .inr

end CacheOperation

namespace CacheCommand

/-- The operations that a command is made of. -/
def steps : CacheCommand α → List (CacheOperation α)
  | request m tier => [.request m tier]
  | release m tier => [.release m tier]
  | publish m tier artifact => [.recordRequest m tier, .place m ⟨tier, artifact⟩]
  | lookup _ | tierOf _ | tierState _ | size | isEmpty | published => []

/-- Carries out commands one after the other. -/
def runAll (cache : CompilationCache α) (commands : List (CacheCommand α)) : CompilationCache α :=
  commands.foldl (fun cache command => (command.run cache).2) cache

theorem snd_run_publish (cache : CompilationCache α) (m : MethodId) (tier : Tier) (artifact : α) :
    ((publish m tier artifact).run cache).2 = (cache.publish m tier artifact).2 := by
  -- Named first, because comparing the two sides as they stand would open the map.
  cases hpublish : cache.publish m tier artifact with
  | mk taken after =>
    change (CacheReply.flag (cache.publish m tier artifact).1,
      (cache.publish m tier artifact).2).2 = after
    rw [hpublish]

/-- A command leaves the cache that its operations lead to. -/
theorem snd_run (command : CacheCommand α) (cache : CompilationCache α) :
    (command.run cache).2 = CacheOperation.applyAll cache command.steps := by
  cases command with
  | publish m tier artifact => rw [snd_run_publish, steps, CacheOperation.applyAll_publish]
  | _ => rfl

/-- Commands carried out one after the other are a list of operations. -/
theorem runAll_eq (cache : CompilationCache α) (commands : List (CacheCommand α)) :
    runAll cache commands = CacheOperation.applyAll cache (commands.flatMap steps) := by
  rw [runAll, CacheOperation.applyAll, List.foldl_flatMap]
  exact List.foldl_ext _ _ cache fun cache command _ => command.snd_run cache

end CacheCommand

end TieredDispatch
