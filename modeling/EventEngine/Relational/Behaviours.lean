import EventEngine.Relational.Runs
import Mathlib.Data.Nat.Init
import Mathlib.Algebra.Order.Group.Nat

/-! Machines that go on for ever, and what they come to. A step is labelled by
its action; fairness says which actions do not stay away, and the rules below
turn it into progress: one fair step, one after the other, and a rank that
cannot fall for ever. -/
namespace Relational

variable {σ α : Type*}

/-- An unending run. -/
structure Behaviour (step : σ → α → Option σ) where
  state : ℕ → σ
  action : ℕ → α
  taken : ∀ n, step (state n) (action n) = some (state (n + 1))

/-- What happens between two moments is a run. -/
theorem Behaviour.run {step : σ → α → Option σ} (behaviour : Behaviour step) {n m : ℕ} (later : n ≤ m) :
    ∃ actions, Run step (behaviour.state n) actions (behaviour.state m) := by
  induction m, later using Nat.le_induction with
  | base => exact ⟨[], .nil⟩
  | succ m _ ih =>
    obtain ⟨actions, run⟩ := ih
    exact ⟨_, run.snoc (behaviour.taken m)⟩

/-- Whenever the first holds, the second holds then or later. -/
def LeadsTo (P Q : ℕ → Prop) : Prop := ∀ n, P n → ∃ m, n ≤ m ∧ Q m

/-- What is enabled from some moment on for good happens. -/
def WeaklyFair (enabled happens : ℕ → Prop) : Prop :=
  ∀ n, (∀ m, n ≤ m → enabled m) → ∃ m, n ≤ m ∧ happens m

namespace LeadsTo
variable {P Q R : ℕ → Prop}

theorem trans (first : LeadsTo P Q) (second : LeadsTo Q R) : LeadsTo P R := by
  intro n holds
  obtain ⟨m, later, middle⟩ := first n holds
  obtain ⟨k, later', last⟩ := second m middle
  exact ⟨k, later.trans later', last⟩

/-- **One fair step**: what lasts until a fair action happens is ended by it, if not before. -/
theorem of_fair {enabled happens : ℕ → Prop} (fair : WeaklyFair enabled happens)
    (lasts : ∀ n, P n → ¬ happens n → Q (n + 1) ∨ P (n + 1)) (enables : ∀ n, P n → enabled n)
    (effect : ∀ n, P n → happens n → Q (n + 1)) : LeadsTo P Q := by
  intro n holds
  by_contra never
  push Not at never
  have quiet : ∀ m, n ≤ m → P m := by
    intro m later
    induction m, later using Nat.le_induction with
    | base => exact holds
    | succ m later ih =>
      have unended := never (m + 1) (later.trans (Nat.le_succ m))
      exact (lasts m ih fun now => unended (effect m ih now)).resolve_left unended
  obtain ⟨m, later, now⟩ := fair n fun m later => enables m (quiet m later)
  exact never (m + 1) (later.trans (Nat.le_succ m)) (effect m (quiet m later) now)

/-- **A rank that falls**: what is left behind or repeated with a lower rank is
left behind in the end. -/
theorem of_rank (rank : ℕ → ℕ)
    (falls : ∀ k, LeadsTo (fun n => P n ∧ rank n = k) fun n => Q n ∨ P n ∧ rank n < k) : LeadsTo P Q := by
  intro n holds
  generalize ranked : rank n = k
  induction k using Nat.strongRecOn generalizing n with
  | ind k ih =>
    obtain ⟨m, later, there | ⟨again, lower⟩⟩ := falls k n ⟨holds, ranked⟩
    · exact ⟨m, later, there⟩
    · obtain ⟨l, later', last⟩ := ih (rank m) lower m again rfl
      exact ⟨l, later.trans later', last⟩

end LeadsTo
end Relational
