import Mathlib.Tactic.Common

/-! Runs of a machine given by a partial step function: which actions led from
one state to another, the rules that carry a fact about one step to every run,
and what is left of a run when a part of it is taken away. -/
namespace Relational

variable {σ α : Type*}

/-- The states a machine reaches from `start` by performing the actions in order. -/
inductive Run (step : σ → α → Option σ) (start : σ) : List α → σ → Prop where
  | nil : Run step start [] start
  | snoc {actions : List α} {action : α} {before after : σ} (prior : Run step start actions before)
      (taken : step before action = some after) : Run step start (actions ++ [action]) after

/-- Perform the actions in order, stopping at one that is not enabled. -/
def execute (step : σ → α → Option σ) : σ → List α → Option σ
  | s, [] => some s
  | s, action :: rest =>
    match step s action with
    | some s' => execute step s' rest
    | none => none

variable {step : σ → α → Option σ} {s t u : σ} {actions more : List α} {action : α}

namespace Run

theorem single (taken : step s action = some t) : Run step s [action] t := by
  simpa using Run.snoc .nil taken

theorem append (first : Run step s actions t) (second : Run step t more u) :
    Run step s (actions ++ more) u := by
  induction second with
  | nil => simpa using first
  | snoc _ taken ih => simpa [List.append_assoc] using Run.snoc ih taken

/-- A run can be cut anywhere. -/
theorem split (run : Run step s (actions ++ more) t) : ∃ u, Run step s actions u ∧ Run step u more t := by
  generalize whole : actions ++ more = all at run
  induction run generalizing more with
  | nil =>
    obtain ⟨rfl, rfl⟩ := List.append_eq_nil_iff.mp whole
    exact ⟨s, .nil, .nil⟩
  | @snoc prior action before after run taken ih =>
    rcases List.eq_nil_or_concat more with rfl | ⟨rest, last, rfl⟩
    · rw [List.append_nil] at whole
      subst whole
      exact ⟨after, run.snoc taken, .nil⟩
    · rw [List.concat_eq_append, ← List.append_assoc] at whole
      obtain ⟨same, last⟩ := List.append_inj' whole rfl
      obtain ⟨u, former, latter⟩ := ih same
      rw [List.concat_eq_append, last]
      exact ⟨u, former, latter.snoc taken⟩

/-- What holds at the start and is kept by every permitted step holds at the end. -/
theorem invariant {I : σ → Prop} {P : α → Prop} (run : Run step s actions t)
    (permitted : ∀ a ∈ actions, P a) (initial : I s)
    (keeps : ∀ before a after, I before → P a → step before a = some after → I after) : I t := by
  induction run with
  | nil => exact initial
  | snoc _ taken ih =>
    exact keeps _ _ _ (ih fun a member => permitted a (List.mem_append_left _ member))
      (permitted _ (by simp)) taken

/-- A relation that is reflexive and transitive, and holds across every
permitted step from a state satisfying the invariant, holds across the run. -/
theorem relates {I : σ → Prop} {P : α → Prop} {R : σ → σ → Prop} (run : Run step s actions t)
    (permitted : ∀ a ∈ actions, P a) (initial : I s)
    (keeps : ∀ before a after, I before → P a → step before a = some after → I after)
    (refl : ∀ x, R x x) (trans : ∀ x y z, R x y → R y z → R x z)
    (steps : ∀ before a after, I before → P a → step before a = some after → R before after) :
    R s t := by
  induction run with
  | nil => exact refl s
  | snoc prior taken ih =>
    have before := fun a member => permitted a (List.mem_append_left _ member)
    exact trans _ _ _ (ih before)
      (steps _ _ _ (prior.invariant before initial keeps) (permitted _ (by simp)) taken)

end Run

theorem run_of_execute (done : execute step s actions = some t) : Run step s actions t := by
  induction actions generalizing s with
  | nil =>
    cases done
    exact .nil
  | cons action rest ih =>
    simp only [execute] at done
    cases taken : step s action with
    | none => simp [taken] at done
    | some middle =>
      rw [taken] at done
      exact (Run.single taken).append (ih done)

/-- A sequence of actions that are all enabled is a run to where it leads. -/
theorem run_of_enabled (enabled : (execute step s actions).isSome) :
    Run step s actions ((execute step s actions).get enabled) :=
  run_of_execute (Option.some_get enabled).symm

/-! ## What is left of a run -/

/-- What is left of a sequence of actions performed from a state, when of each
action, in the state it finds, some actions are kept. -/
def residue (step : σ → α → Option σ) (kept : σ → α → List α) : σ → List α → List α
  | _, [] => []
  | s, action :: rest =>
    kept s action ++
      match step s action with
      | some s' => residue step kept s' rest
      | none => []

variable {kept : σ → α → List α} {s' : σ}

theorem Run.residue_append (run : Run step s actions t) (more : List α) :
    residue step kept s (actions ++ more) = residue step kept s actions ++ residue step kept t more := by
  induction run generalizing more with
  | nil => rfl
  | @snoc prior action before after _ taken ih =>
    rw [List.append_assoc, ih, ih]
    simp [residue, taken]

/-- **A run is matched by what is left of it** when every step is: when from
related states, what is kept of a permitted action leads to a state related to
the one the action leads to. What the steps ask of the states passed through is
known of the last one, and holds of every earlier one. -/
theorem Run.matched {P : α → Prop} (I : σ → Prop) (R : σ → σ → Prop) (run : Run step s actions t)
    (permitted : ∀ a ∈ actions, P a) (initial : R s s') (final : I t)
    (back : ∀ prior before a after, Run step s prior before → step before a = some after → I after → I before)
    (steps : ∀ prior before a after before', Run step s prior before →
      Run step s' (residue step kept s prior) before' → P a → I before → I after → R before before' →
      step before a = some after → ∃ after', Run step before' (kept before a) after' ∧ R after after') :
    ∃ t', Run step s' (residue step kept s actions) t' ∧ R t t' := by
  induction run with
  | nil => exact ⟨s', .nil, initial⟩
  | @snoc prior action before after run taken ih =>
    have earlier := back prior before action after run taken final
    obtain ⟨before', run', related⟩ := ih (fun a member => permitted a (List.mem_append_left _ member)) earlier
    obtain ⟨after', step', related'⟩ := steps prior before action after before' run run'
      (permitted action (by simp)) earlier final related taken
    refine ⟨after', ?_, related'⟩
    rw [run.residue_append]
    simp only [residue, taken, List.append_nil]
    exact run'.append step'

end Relational
