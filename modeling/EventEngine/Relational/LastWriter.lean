import Mathlib.Data.List.Induction
import Mathlib.Data.List.Nodup
import Mathlib.Order.Lattice
import Mathlib.Tactic.Common

/-! Last-writer-wins registers, over any linearly ordered stamps. A write takes
the register when its stamp is strictly newer than the one held, so of the
writes with the greatest stamp the first one stays. -/
namespace LastWriter

universe u v

/-- A stamped write. -/
structure Write (τ : Type u) (α : Type v) where
  stamp : τ
  content : α

variable {τ : Type u} {α : Type v} [LinearOrder τ]

/-- Whether a stamp takes the register. -/
def takes (held : Option (Write τ α)) (stamp : τ) : Bool := held.all (·.stamp < stamp)

def write (held : Option (Write τ α)) (next : Write τ α) : Option (Write τ α) :=
  if takes held next.stamp then some next else held

/-- The register after a sequence of writes. -/
def winner (writes : List (Write τ α)) : Option (Write τ α) := writes.foldl write none

variable {writes : List (Write τ α)} {w next : Write τ α}

@[simp] theorem winner_nil : winner ([] : List (Write τ α)) = none := rfl

theorem winner_append : winner (writes ++ [next]) = write (winner writes) next := by
  simp [winner, List.foldl_append]

theorem winner_eq_none : winner writes = none ↔ writes = [] := by
  constructor
  · intro unwritten
    induction writes using List.reverseRecOn with
    | nil => rfl
    | append_singleton writes next ih =>
      rw [winner_append, write] at unwritten
      split at unwritten
      · cases unwritten
      · rename_i stale
        rw [unwritten] at stale
        exact absurd rfl stale
  · rintro rfl
    rfl

/-- Where the winner stands: after older writes only, and before no newer one. -/
theorem winner_first (won : winner writes = some w) :
    ∃ earlier later, writes = earlier ++ w :: later ∧ (∀ x ∈ earlier, x.stamp < w.stamp) ∧
      ∀ x ∈ later, x.stamp ≤ w.stamp := by
  induction writes using List.reverseRecOn generalizing w with
  | nil => cases won
  | append_singleton writes next ih =>
    rw [winner_append, write] at won
    split at won
    · rename_i newer
      obtain rfl := Option.some.inj won
      refine ⟨writes, [], rfl, ?_, by simp⟩
      cases held : winner writes with
      | none =>
        rw [winner_eq_none.mp held]
        simp
      | some old =>
        rw [held] at newer
        have newer : old.stamp < next.stamp := by simpa [takes] using newer
        obtain ⟨earlier, later, rfl, older, notNewer⟩ := ih held
        intro x member
        rw [List.mem_append, List.mem_cons] at member
        rcases member with before | rfl | after
        · exact (older x before).trans newer
        · exact newer
        · exact (notNewer x after).trans_lt newer
    · rename_i stale
      rw [won] at stale
      have stale : next.stamp ≤ w.stamp := by simpa [takes] using stale
      obtain ⟨earlier, later, rfl, older, notNewer⟩ := ih won
      refine ⟨earlier, later ++ [next], by simp, older, ?_⟩
      intro x member
      rw [List.mem_append, List.mem_singleton] at member
      rcases member with before | rfl
      · exact notNewer x before
      · exact stale

theorem winner_mem (won : winner writes = some w) : w ∈ writes := by
  obtain ⟨earlier, later, rfl, -⟩ := winner_first won
  simp

theorem winner_max (won : winner writes = some w) : ∀ x ∈ writes, x.stamp ≤ w.stamp := by
  obtain ⟨earlier, later, rfl, older, notNewer⟩ := winner_first won
  intro x member
  rw [List.mem_append, List.mem_cons] at member
  rcases member with before | rfl | after
  · exact (older x before).le
  · exact le_rfl
  · exact notNewer x after

/-- A stamp takes the register when it is newer than every write so far. -/
theorem takes_winner (stamp : τ) : takes (winner writes) stamp = true ↔ ∀ x ∈ writes, x.stamp < stamp := by
  cases won : winner writes with
  | none =>
    rw [winner_eq_none.mp won]
    simp [takes]
  | some w =>
    simp only [takes, Option.all_some, decide_eq_true_eq]
    constructor
    · exact fun newer x member => (winner_max won x member).trans_lt newer
    · exact fun newer => newer w (winner_mem won)

/-- **A register never goes back**: more writes leave a winner at least as new. -/
theorem winner_prefix {more : List (Write τ α)} (longer : writes <+: more) (won : winner writes = some w) :
    ∃ w', winner more = some w' ∧ w.stamp ≤ w'.stamp := by
  have member := longer.subset (winner_mem won)
  cases won' : winner more with
  | none =>
    rw [winner_eq_none.mp won'] at member
    cases member
  | some w' => exact ⟨w', rfl, winner_max won' w member⟩

/-- **Order does not matter** when no two writes carry the same stamp. -/
theorem winner_perm {writes' : List (Write τ α)} (distinct : (writes.map (·.stamp)).Nodup)
    (same : writes.Perm writes') : winner writes = winner writes' := by
  cases won : winner writes with
  | none =>
    rw [winner_eq_none] at won
    subst won
    rw [List.nil_perm.mp same, winner_nil]
  | some w =>
    cases won' : winner writes' with
    | none =>
      rw [winner_eq_none] at won'
      subst won'
      rw [List.perm_nil.mp same] at won
      cases won
    | some w' =>
      have member' := same.mem_iff.mpr (winner_mem won')
      have above := winner_max won w' member'
      have below := winner_max won' w (same.mem_iff.mp (winner_mem won))
      rw [List.inj_on_of_nodup_map distinct (winner_mem won) member' (le_antisymm below above)]

end LastWriter
