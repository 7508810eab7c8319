import Mathlib.Data.List.Perm.Basic
import Mathlib.Order.WithBot

/-! Draining a queue: a machine takes items one at a time and reports on each.
When the queue is sorted by a key, with the items that have none last and
without effect, what comes of it does not depend on the order of arrival. -/
namespace Relational

variable {σ ι ω κ : Type*}

/-- Take the items in order: where the machine ends, and each item with the
report on it. -/
def drain (take : σ → ι → σ × ω) : σ → List ι → σ × List (ι × ω)
  | s, [] => (s, [])
  | s, item :: rest =>
    let taken := take s item
    let drained := drain take taken.1 rest
    (drained.1, (item, taken.2) :: drained.2)

/-- An item that leaves every state as it is, and is reported on alike in all
of them. -/
def Inert (take : σ → ι → σ × ω) (item : ι) : Prop := ∃ report, ∀ s, take s item = (s, report)

variable {take : σ → ι → σ × ω} {items items' : List ι}

theorem drain_append (s : σ) (first second : List ι) :
    drain take s (first ++ second) =
      ((drain take (drain take s first).1 second).1,
        (drain take s first).2 ++ (drain take (drain take s first).1 second).2) := by
  induction first generalizing s with
  | nil => rfl
  | cons item rest ih => simp only [List.cons_append, drain, ih]

theorem drain_inert (inert : ∀ item ∈ items, Inert take item) (s : σ) : (drain take s items).1 = s := by
  induction items generalizing s with
  | nil => rfl
  | cons item rest ih =>
    obtain ⟨report, same⟩ := inert item List.mem_cons_self
    simp only [drain, same]
    exact ih (fun later member => inert later (List.mem_cons_of_mem _ member)) s

/-- Inert items are reported on alike wherever they stand. -/
theorem reports_inert (inert : ∀ item ∈ items, Inert take item) (s t : σ) :
    (drain take s items).2 = items.map fun item => (item, (take t item).2) := by
  induction items generalizing s with
  | nil => rfl
  | cons item rest ih =>
    obtain ⟨report, same⟩ := inert item List.mem_cons_self
    simp only [drain, same, List.map_cons]
    rw [ih fun later member => inert later (List.mem_cons_of_mem _ member)]

section Sorted
variable [PartialOrder κ] {key : ι → WithTop κ}

/-- A sorted queue has the items with a key first. -/
theorem sorted_split [DecidablePred fun item => key item = ⊤]
    (sorted : items.Pairwise fun first second => key first ≤ key second) :
    items = items.filter (fun item => key item ≠ ⊤) ++ items.filter (fun item => key item = ⊤) := by
  induction items with
  | nil => rfl
  | cons item rest ih =>
    obtain ⟨least, sorted⟩ := List.pairwise_cons.mp sorted
    by_cases last : key item = ⊤
    · have keyless : ∀ later ∈ rest, key later = ⊤ := by
        intro later member
        exact top_le_iff.mp (last ▸ least later member)
      have none : rest.filter (fun later => key later ≠ ⊤) = [] := by
        rw [List.filter_eq_nil_iff]
        intro later member
        simp [keyless later member]
      have all : rest.filter (fun later => key later = ⊤) = rest := by
        rw [List.filter_eq_self]
        intro later member
        simp [keyless later member]
      simp only [List.filter_cons, last, ne_eq, not_true_eq_false, decide_false, decide_true, Bool.false_eq_true,
        ↓reduceIte]
      rw [all]
      simpa using none
    · simp only [List.filter_cons, last, ne_eq, not_false_eq_true, decide_false, decide_true, Bool.false_eq_true,
        ↓reduceIte, List.cons_append, List.cons.injEq, true_and]
      simpa using ih sorted

/-- **The order of arrival does not matter** to a queue sorted by a key that
tells items apart, when those without one are inert. -/
theorem drain_sorted_perm (perm : items.Perm items')
    (sorted : items.Pairwise fun first second => key first ≤ key second)
    (sorted' : items'.Pairwise fun first second => key first ≤ key second)
    (inert : ∀ item, key item = ⊤ → Inert take item)
    (identical : ∀ first ∈ items, ∀ second ∈ items, key first ≠ ⊤ → key first = key second → first = second) (s : σ) :
    (drain take s items).1 = (drain take s items').1 ∧ (drain take s items).2.Perm (drain take s items').2 := by
  classical
  have inert : ∀ list : List ι, ∀ item ∈ list.filter (fun item => key item = ⊤), Inert take item := by
    intro list item member
    exact inert item (by simpa using (List.mem_filter.mp member).2)
  -- What has a key comes in the same order in both queues.
  have same : items.filter (fun item => key item ≠ ⊤) = items'.filter (fun item => key item ≠ ⊤) := by
    refine (perm.filter _).eq_of_pairwise ?_ (sorted.filter _) (sorted'.filter _)
    intro first second member member' former latter
    have keyed : key first ≠ ⊤ := by simpa using (List.mem_filter.mp member).2
    exact identical first (List.mem_of_mem_filter member) second
      (perm.mem_iff.mpr (List.mem_of_mem_filter member')) keyed (le_antisymm former latter)
  rw [sorted_split sorted, sorted_split sorted', drain_append, drain_append, same]
  refine ⟨?_, List.Perm.append_left _ ?_⟩
  · rw [drain_inert (inert items), drain_inert (inert items')]
  · rw [reports_inert (inert items) _ s, reports_inert (inert items') _ s]
    exact (perm.filter _).map _

end Sorted
end Relational
