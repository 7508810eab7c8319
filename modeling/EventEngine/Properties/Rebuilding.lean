import Mathlib.Data.List.Nodup
import Mathlib.Data.List.Basic
import Mathlib.Tactic.Common

/-! Records as lists of named values, and passes that build a record anew from
what becomes of each of its properties. A pass that leaves its own results alone
changes nothing when it is run again; a pass that keeps names apart keeps every
property, in its place. -/
namespace Properties

universe u v
variable {κ : Type u} {ν : Type v}

/-- The names of a record's properties, in order. -/
def names (record : List (κ × ν)) : List κ := record.map Prod.fst

variable [DecidableEq κ]

/-- Assign a property. One that is there keeps its place, a new one goes last. -/
def assign : List (κ × ν) → κ → ν → List (κ × ν)
  | [], name, value => [(name, value)]
  | (known, held) :: rest, name, value =>
    if known = name then (known, value) :: rest else (known, held) :: assign rest name value

/-- Assigning a new property appends it. -/
theorem assign_new {record : List (κ × ν)} {name : κ} (new : name ∉ names record) (value : ν) :
    assign record name value = record ++ [(name, value)] := by
  induction record with
  | nil => rfl
  | cons property rest ih =>
    obtain ⟨known, held⟩ := property
    obtain ⟨other, later⟩ := not_or.mp (mt List.mem_cons.mpr new)
    rw [assign, if_neg (Ne.symm other), ih later, List.cons_append]

theorem names_assign (record : List (κ × ν)) (name : κ) (value : ν) :
    names (assign record name value) = if name ∈ names record then names record else names record ++ [name] := by
  induction record with
  | nil => rfl
  | cons property rest ih =>
    obtain ⟨known, held⟩ := property
    by_cases same : known = name
    · subst same
      simp [assign, names]
    · have later : names (assign ((known, held) :: rest) name value) = known :: names (assign rest name value) := by
        rw [assign, if_neg same]
        rfl
      have split : names ((known, held) :: rest) = known :: names rest := rfl
      rw [later, ih, split]
      by_cases found : name ∈ names rest <;> simp [found, Ne.symm same]

theorem nodup_assign {record : List (κ × ν)} (distinct : (names record).Nodup) (name : κ) (value : ν) :
    (names (assign record name value)).Nodup := by
  rw [names_assign]
  split
  · exact distinct
  · rename_i new
    exact (List.nodup_append.mpr ⟨distinct, List.nodup_singleton _, fun a member b last => by
      rw [List.mem_singleton.mp last]
      exact fun same => new (same ▸ member)⟩)

theorem mem_assign {record : List (κ × ν)} {name : κ} {value : ν} {property : κ × ν}
    (member : property ∈ assign record name value) : property = (name, value) ∨ property ∈ record := by
  induction record with
  | nil => exact Or.inl (List.mem_singleton.mp member)
  | cons first rest ih =>
    obtain ⟨known, held⟩ := first
    rw [assign] at member
    split at member
    · rename_i same
      rcases List.mem_cons.mp member with here | later
      · exact Or.inl (here.trans (by rw [same]))
      · exact Or.inr (List.mem_cons_of_mem _ later)
    · rcases List.mem_cons.mp member with here | later
      · exact Or.inr (here ▸ List.mem_cons_self)
      · exact (ih later).imp_right (List.mem_cons_of_mem _)

theorem mem_of_lookup {record : List (κ × ν)} {name : κ} {value : ν} (found : record.lookup name = some value) :
    (name, value) ∈ record := by
  obtain ⟨before, after, rfl, -⟩ := List.lookup_eq_some_iff.mp found
  exact List.mem_append_right _ List.mem_cons_self

/-- With distinct names, a property is found under its name. -/
theorem lookup_of_mem {record : List (κ × ν)} (distinct : (names record).Nodup) {name : κ} {value : ν}
    (member : (name, value) ∈ record) : record.lookup name = some value := by
  obtain ⟨before, after, rfl⟩ := List.append_of_mem member
  refine List.lookup_eq_some_iff.mpr ⟨before, after, rfl, ?_⟩
  intro property held
  rw [names, List.map_append, List.nodup_append] at distinct
  exact bne_iff_ne.mpr (Ne.symm (distinct.2.2 _ (List.mem_map_of_mem held) _ List.mem_cons_self))

/-! ## Rebuilding -/

/-- The record with each property replaced by what becomes of it, assigned in
turn to an empty one. -/
def rebuild (f : κ × ν → κ × ν) (record : List (κ × ν)) : List (κ × ν) :=
  record.foldl (fun built property => assign built (f property).1 (f property).2) []

/-- Names are distinct in a rebuilt record, whatever it was built from. -/
theorem nodup_rebuild (f : κ × ν → κ × ν) (record : List (κ × ν)) : (names (rebuild f record)).Nodup := by
  have distinct : ∀ built : List (κ × ν), (names built).Nodup →
      (names (record.foldl (fun built property => assign built (f property).1 (f property).2) built)).Nodup := by
    induction record with
    | nil => exact fun _ distinct => distinct
    | cons property rest ih => exact fun built distinct => ih _ (nodup_assign distinct _ _)
  exact distinct [] List.nodup_nil

/-- A property of a rebuilt record is what became of one it was built from. -/
theorem mem_rebuild {f : κ × ν → κ × ν} {record : List (κ × ν)} {property : κ × ν}
    (member : property ∈ rebuild f record) : ∃ before ∈ record, property = f before := by
  have made : ∀ (record built : List (κ × ν)),
      property ∈ record.foldl (fun built property => assign built (f property).1 (f property).2) built →
        property ∈ built ∨ ∃ before ∈ record, property = f before := by
    intro record
    induction record with
    | nil => exact fun _ member => Or.inl member
    | cons first rest ih =>
      intro built member
      rcases ih _ member with assigned | ⟨before, later, same⟩
      · rcases mem_assign assigned with same | old
        · exact Or.inr ⟨first, List.mem_cons_self, same⟩
        · exact Or.inl old
      · exact Or.inr ⟨before, List.mem_cons_of_mem _ later, same⟩
  exact (made record [] member).resolve_left (List.not_mem_nil)

/-- **A pass that keeps names apart keeps every property**, in its place. -/
theorem rebuild_eq_map {f : κ × ν → κ × ν} {record : List (κ × ν)} (apart : (names (record.map f)).Nodup) :
    rebuild f record = record.map f := by
  have built : ∀ done : List (κ × ν), (names (done ++ record.map f)).Nodup →
      record.foldl (fun built property => assign built (f property).1 (f property).2) done =
        done ++ record.map f := by
    clear apart
    induction record with
    | nil => simp
    | cons property rest ih =>
      intro done distinct
      have new : (f property).1 ∉ names done := by
        intro held
        rw [names, List.map_append, List.nodup_append] at distinct
        exact distinct.2.2 _ held _ List.mem_cons_self rfl
      rw [List.foldl_cons, assign_new new, ih _ (by simpa using distinct)]
      simp
  exact built [] apart

/-- **A pass that leaves its own results alone is idempotent.** -/
theorem rebuild_idempotent {f : κ × ν → κ × ν} (settled : ∀ property, f (f property) = f property)
    (record : List (κ × ν)) : rebuild f (rebuild f record) = rebuild f record := by
  have fixed : (rebuild f record).map f = rebuild f record := by
    conv_rhs => rw [← List.map_id (rebuild f record)]
    apply List.map_congr_left
    intro property member
    obtain ⟨before, -, rfl⟩ := mem_rebuild member
    exact settled before
  rw [rebuild_eq_map (by rw [fixed]; exact nodup_rebuild f record), fixed]

end Properties
