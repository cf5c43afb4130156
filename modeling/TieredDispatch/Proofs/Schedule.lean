import TieredDispatch.Proofs.PoolStep

/-!
# Schedules that keep to a rule

A **rule** says in which states a step may be taken. That a host gives its dispatcher up last is one
(`givesUpLast_eq_obeys`). A schedule obeys a rule step by step (`System.obeys`), and what every step
that keeps to the rule preserves, a run that obeys it preserves (`System.obeys_induction`).
-/

namespace TieredDispatch

variable {α β : Type}

namespace System

/-- Whether each step of a run keeps to the rule. -/
def obeys (rule : System α β → Label α β → Bool) : System α β → List (Label α β) → Bool
  | _, [] => true
  | s, label :: labels => rule s label && (s.step label).all (·.obeys rule labels)

theorem givesUpLast_eq_obeys (s : System α β) (labels : List (Label α β)) :
    s.givesUpLast labels = s.obeys permits labels := by
  induction labels generalizing s with
  | nil => rfl
  | cons label labels ih => simp only [givesUpLast, obeys, ih]

theorem obeys_and (rule rule' : System α β → Label α β → Bool) (s : System α β)
    (labels : List (Label α β)) :
    s.obeys (fun u label => rule u label && rule' u label) labels =
      (s.obeys rule labels && s.obeys rule' labels) := by
  induction labels generalizing s with
  | nil => rfl
  | cons label labels ih =>
    rw [obeys, obeys, obeys]
    cases s.step label with
    | none => simp
    | some t =>
      rw [Option.all_some, Option.all_some, Option.all_some, ih]
      ac_rfl

/-- A run keeps to a rule that allows each of its steps in any state. -/
theorem obeys_of_forall {rule : System α β → Label α β → Bool} {labels : List (Label α β)}
    (h : ∀ label ∈ labels, ∀ u, rule u label = true) (s : System α β) : s.obeys rule labels := by
  induction labels generalizing s with
  | nil => rfl
  | cons label labels ih =>
    rw [List.forall_mem_cons] at h
    rw [obeys, h.1 s, Bool.true_and, Option.all_eq_true]
    exact fun t _ => ih h.2 t

section Runs

variable {rule : System α β → Label α β → Bool} {s t : System α β} {past future : List (Label α β)}

/-- A run goes through each of its states. -/
theorem exists_of_run_append (hrun : s.run (past ++ future) = some t) :
    ∃ u, s.run past = some u ∧ u.run future = some t := by
  rw [run_append] at hrun
  exact Option.bind_eq_some_iff.mp hrun

theorem run_cons_of_step {label : Label α β} (hstep : s.step label = some t) :
    s.run (label :: future) = t.run future := by
  rw [run, hstep, Option.bind_some]

theorem run_singleton (s : System α β) (label : Label α β) : s.run [label] = s.step label := by
  rw [run]
  cases s.step label <;> rfl

theorem obeys_cons_of_step {label : Label α β} (hstep : s.step label = some t) :
    s.obeys rule (label :: future) = (rule s label && t.obeys rule future) := by
  rw [obeys, hstep, Option.all_some]

theorem obeys_append_of_run (hrun : s.run past = some t) :
    s.obeys rule (past ++ future) = (s.obeys rule past && t.obeys rule future) := by
  induction past generalizing s with
  | nil =>
    obtain rfl := Option.some.inj hrun
    rfl
  | cons label past ih =>
    obtain ⟨u, hstep, hrest⟩ := Option.bind_eq_some_iff.mp hrun
    rw [List.cons_append, obeys_cons_of_step hstep, obeys_cons_of_step hstep, ih hrest,
      Bool.and_assoc]

/-- What every step that keeps to the rule preserves, with the milestones so far, a run that obeys
the rule preserves. -/
theorem obeys_induction {P : History α → System α β → Prop} {labels : List (Label α β)}
    (hkeep : ∀ {h : History α} {s t : System α β} {label : Label α β}, label ∈ labels →
      rule s label → s.step label = some t → P h s → P (h ++ (s.milestone? label).toList) t)
    {h : History α} (hobeys : s.obeys rule labels) (hrun : s.run labels = some t) (hs : P h s) :
    P (h ++ s.history labels) t := by
  induction labels generalizing h s with
  | nil =>
    obtain rfl := Option.some.inj hrun
    simpa [history] using hs
  | cons label labels ih =>
    obtain ⟨u, hstep, hrest⟩ := Option.bind_eq_some_iff.mp hrun
    rw [obeys_cons_of_step hstep, Bool.and_eq_true] at hobeys
    have hnext := hkeep List.mem_cons_self hobeys.1 hstep hs
    rw [history, hstep, ← List.append_assoc]
    exact ih (fun hmem => hkeep (List.mem_cons_of_mem label hmem)) hobeys.2 hrest hnext

end Runs

end System

end TieredDispatch
