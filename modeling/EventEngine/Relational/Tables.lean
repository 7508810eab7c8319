import Mathlib.Data.List.Range
import Mathlib.Data.List.Nodup
import Mathlib.Logic.Function.Basic
import Mathlib.Tactic.Common

/-! Tables of a relational store, over any row type. A keyed table holds at
most one row for a primary key; a serial table numbers its rows 1, 2, 3 in
insertion order and never deletes. Both carry the well-formedness of their
rows, so no later proof has to establish that keys are unique. -/
namespace Relational

universe u v

/-- A row type with its primary key. -/
class Keyed (ρ : Type u) (κ : outParam (Type v)) where
  key : ρ → κ

/-- A row type numbered by an auto-incremented identifier. -/
class Serial (ρ : Type u) where
  id : ρ → ℕ

/-! ## Keyed tables -/

/-- A table accessed by primary key: every stored row sits under its own key. -/
@[ext]
structure KeyedTable (ρ : Type u) (κ : Type v) [Keyed ρ κ] where
  find : κ → Option ρ
  keyed : ∀ k row, find k = some row → Keyed.key row = k

namespace KeyedTable
variable {ρ : Type u} {κ : Type v} [Keyed ρ κ]

def empty : KeyedTable ρ κ := ⟨fun _ => none, by simp⟩

instance : Inhabited (KeyedTable ρ κ) := ⟨empty⟩

theorem key_of_find {table : KeyedTable ρ κ} {k : κ} {row : ρ} (found : table.find k = some row) :
    Keyed.key row = k := table.keyed k row found

variable [DecidableEq κ]

/-- Insert the row, or replace the one stored under its key. -/
def save (table : KeyedTable ρ κ) (row : ρ) : KeyedTable ρ κ where
  find := Function.update table.find (Keyed.key row) (some row)
  keyed := by
    intro k found eq
    by_cases same : k = Keyed.key row
    · subst same
      simp only [Function.update_self, Option.some.injEq] at eq
      rw [eq]
    · rw [Function.update_of_ne same] at eq
      exact table.keyed k found eq

/-- Rewrite the row stored under a key; an absent key is left absent. -/
def update (table : KeyedTable ρ κ) (k : κ) (change : ρ → ρ)
    (keeps : ∀ row, Keyed.key (change row) = Keyed.key row := by intro; rfl) : KeyedTable ρ κ where
  find := Function.update table.find k ((table.find k).map change)
  keyed := by
    intro k' found eq
    by_cases same : k' = k
    · subst same
      simp only [Function.update_self, Option.map_eq_some_iff] at eq
      obtain ⟨row, held, rfl⟩ := eq
      rw [keeps, table.keyed _ _ held]
    · rw [Function.update_of_ne same] at eq
      exact table.keyed k' found eq

variable (table : KeyedTable ρ κ) (row : ρ) (k k' : κ)

theorem find_save : (table.save row).find k = if k = Keyed.key row then some row else table.find k := by
  simp [save, Function.update_apply]

variable (change : ρ → ρ) (keeps : ∀ row, Keyed.key (change row) = Keyed.key row)

/-- Rewriting a row that is there amounts to saving the rewritten row. -/
theorem update_eq_save {row : ρ} (found : table.find k = some row) :
    table.update k change keeps = table.save (change row) := by
  have key : Keyed.key (change row) = k := by rw [keeps, table.keyed k row found]
  ext1
  simp [update, save, found, key]

end KeyedTable

/-! ## Keys of a list of rows -/

/-- With distinct keys, a list holds one element under the key of a member. -/
theorem filter_key {α κ : Type} [BEq κ] [LawfulBEq κ] {key : α → κ} {list : List α} (distinct : (list.map key).Nodup)
    {x : α} (member : x ∈ list) : list.filter (key · == key x) = [x] := by
  induction list with
  | nil => cases member
  | cons first rest ih =>
    rw [List.map_cons, List.nodup_cons] at distinct
    rcases List.mem_cons.mp member with rfl | later
    · have alone : rest.filter (key · == key x) = [] := by
        rw [List.filter_eq_nil_iff]
        intro other held same
        exact distinct.1 (beq_iff_eq.mp same ▸ List.mem_map_of_mem held)
      rw [List.filter_cons_of_pos (by simp), alone]
    · have other : key first ≠ key x := fun same => distinct.1 (same ▸ List.mem_map_of_mem later)
      rw [List.filter_cons_of_neg (by simpa using other), ih distinct.2 later]

/-- What is kept of a list has the keys it was kept with, in their order. -/
theorem filterMap_keys {α β κ : Type} {keep : α → Option β} {key : α → κ} {key' : β → κ}
    (kept : ∀ x y, keep x = some y → key' y = key x) (list : List α) :
    ((list.filterMap keep).map key').Sublist (list.map key) := by
  induction list with
  | nil => exact .slnil
  | cons first rest ih =>
    cases held : keep first with
    | none =>
      rw [List.filterMap_cons_none held]
      exact ih.cons _
    | some y =>
      rw [List.filterMap_cons_some held, List.map_cons, kept first y held]
      exact ih.cons_cons _

/-- Keeping no more than another filter keeps, and mapping it alike. -/
theorem filterMap_sublist {α β : Type} {keep keep' : α → Option β}
    (within : ∀ a b, keep a = some b → keep' a = some b) (list : List α) :
    (list.filterMap keep).Sublist (list.filterMap keep') := by
  induction list with
  | nil => exact .slnil
  | cons first rest ih =>
    cases held : keep first with
    | none =>
      rw [List.filterMap_cons_none held, List.filterMap_cons]
      split
      · exact ih
      · exact ih.cons _
    | some value =>
      rw [List.filterMap_cons_some held, List.filterMap_cons_some (within first value held)]
      exact ih.cons_cons value

/-! ## Serial tables -/

/-- An append-only table whose rows are numbered from one in insertion order. -/
@[ext]
structure SerialTable (ρ : Type u) [Serial ρ] where
  rows : List ρ
  numbered : rows.map Serial.id = List.range' 1 rows.length

namespace SerialTable
variable {ρ : Type u} [Serial ρ]

def empty : SerialTable ρ := ⟨[], rfl⟩

instance : Inhabited (SerialTable ρ) := ⟨empty⟩

/-- The identifier the next inserted row receives. -/
def next (table : SerialTable ρ) : ℕ := table.rows.length + 1

def find (table : SerialTable ρ) (n : ℕ) : Option ρ := table.rows.find? (fun row => Serial.id row == n)

/-- Append the row built from its own identifier. -/
def insert (table : SerialTable ρ) (make : ℕ → ρ)
    (names : ∀ n, Serial.id (make n) = n := by intro; rfl) : SerialTable ρ where
  rows := table.rows ++ [make table.next]
  numbered := by
    simp [names, next, table.numbered, List.range'_concat, Nat.add_comm]

/-- Rewrite the row with one identifier in place. -/
def modify (table : SerialTable ρ) (n : ℕ) (change : ρ → ρ)
    (keeps : ∀ row, Serial.id (change row) = Serial.id row := by intro; rfl) : SerialTable ρ where
  rows := table.rows.map fun row => if Serial.id row = n then change row else row
  numbered := by
    rw [List.length_map, ← table.numbered, List.map_map]
    apply List.map_congr_left
    intro row _
    simp only [Function.comp_apply]
    split
    · exact keeps row
    · rfl

variable (table : SerialTable ρ) {n : ℕ} {row : ρ}

theorem ids_nodup : (table.rows.map Serial.id).Nodup := by
  rw [table.numbered]
  exact List.nodup_range'

theorem id_bounds (member : row ∈ table.rows) : 1 ≤ Serial.id row ∧ Serial.id row < table.next := by
  have named : Serial.id row ∈ table.rows.map Serial.id := List.mem_map_of_mem member
  rw [table.numbered, List.mem_range'_1] at named
  unfold next
  omega

/-- Two rows of the table with one identifier are the same row. -/
theorem row_unique {first second : ρ} (held : first ∈ table.rows) (held' : second ∈ table.rows)
    (same : Serial.id first = Serial.id second) : first = second :=
  List.inj_on_of_nodup_map table.ids_nodup held held' same

theorem find_eq_some : table.find n = some row ↔ row ∈ table.rows ∧ Serial.id row = n := by
  constructor
  · intro found
    exact ⟨List.mem_of_find?_eq_some found, by simpa using List.find?_some found⟩
  · rintro ⟨member, rfl⟩
    cases found : table.find (Serial.id row) with
    | none =>
      have absent := List.find?_eq_none.mp found row member
      simp at absent
    | some other =>
      have held := List.mem_of_find?_eq_some found
      have same : Serial.id other = Serial.id row := by simpa using List.find?_some found
      rw [table.row_unique held member same]

theorem find_eq_none : table.find n = none ↔ ∀ row ∈ table.rows, Serial.id row ≠ n := by
  simp [find]

theorem find_self (member : row ∈ table.rows) : table.find (Serial.id row) = some row :=
  table.find_eq_some.mpr ⟨member, rfl⟩

theorem id_of_find (found : table.find n = some row) : Serial.id row = n :=
  (table.find_eq_some.mp found).2

theorem find_next : table.find table.next = none := by
  rw [find_eq_none]
  intro row member
  exact Nat.ne_of_lt (table.id_bounds member).2

/-- Where a row stands is told by its identifier. -/
theorem id_getElem {i : ℕ} (bound : i < table.rows.length) : Serial.id table.rows[i] = i + 1 := by
  have numbered : (table.rows.map Serial.id)[i]? = (List.range' 1 table.rows.length)[i]? := by rw [table.numbered]
  rw [List.getElem?_map, List.getElem?_eq_getElem bound, List.getElem?_range' bound, Option.map_some,
    Option.some.injEq] at numbered
  omega

/-- A table in which every row of another is found, and reads the same, begins
with the readings of the other. -/
theorem readings_prefix {later : SerialTable ρ} {β : Type v} (reading : ρ → β)
    (kept : ∀ row ∈ table.rows, ∃ row', later.find (Serial.id row) = some row' ∧ reading row' = reading row) :
    table.rows.map reading <+: later.rows.map reading := by
  rw [List.prefix_iff_getElem?]
  intro i bound
  have bound : i < table.rows.length := by simpa using bound
  obtain ⟨row', found, same⟩ := kept _ (List.getElem_mem bound)
  obtain ⟨member, named⟩ := later.find_eq_some.mp found
  obtain ⟨j, bound', rfl⟩ := List.mem_iff_getElem.mp member
  rw [later.id_getElem bound', table.id_getElem bound] at named
  obtain rfl : j = i := by omega
  rw [List.getElem?_map, List.getElem?_eq_getElem bound', Option.map_some, same, List.getElem_map]

/-- And so do the readings of the rows that are selected. -/
theorem selected_prefix {later : SerialTable ρ} {β : Type v} (selected : ρ → Bool) (reading : ρ → β)
    (kept : ∀ row ∈ table.rows, ∃ row', later.find (Serial.id row) = some row' ∧ selected row' = selected row ∧
      reading row' = reading row) :
    (table.rows.filter selected).map reading <+: (later.rows.filter selected).map reading := by
  have parts : ∀ rows : List ρ, (rows.filter selected).map reading =
      ((rows.map fun row => (selected row, reading row)).filter (·.1)).map (·.2) := by
    intro rows
    rw [List.filter_map, List.map_map]
    rfl
  rw [parts, parts]
  refine ((table.readings_prefix (fun row => (selected row, reading row)) ?_).filter _).map _
  intro row member
  obtain ⟨row', found, still, same⟩ := kept row member
  exact ⟨row', found, by rw [still, same]⟩

/-- Looking a row up among those that were selected. -/
theorem find_selected (selected : ρ → Bool) (n : ℕ) :
    (table.rows.filter selected).find? (fun row => Serial.id row == n) = (table.find n).filter selected := by
  cases found : (table.rows.filter selected).find? (fun row => Serial.id row == n) with
  | some row =>
    obtain ⟨member, own⟩ := List.mem_filter.mp (List.mem_of_find?_eq_some found)
    have named : Serial.id row = n := by simpa using List.find?_some found
    rw [table.find_eq_some.mpr ⟨member, named⟩, Option.filter_some, if_pos own]
  | none =>
    symm
    rw [Option.filter_eq_none_iff]
    intro row held own
    obtain ⟨member, named⟩ := table.find_eq_some.mp held
    have absent := List.find?_eq_none.mp found row (List.mem_filter.mpr ⟨member, own⟩)
    exact absent (beq_iff_eq.mpr named)

/-- **Joining by a foreign key**: the referring entries of the selected rows,
each with its row, are found entry by entry. -/
theorem join_selected {δ : Type v} {β : Type*} (selected : ρ → Bool) (about : δ → ℕ) (report : δ → ρ → β)
    (entries : List δ) :
    ((entries.filter fun entry => ((table.rows.filter selected).map Serial.id).contains (about entry)).filterMap
      fun entry => ((table.rows.filter selected).find? fun row => Serial.id row == about entry).map (report entry)) =
      entries.filterMap fun entry => ((table.find (about entry)).filter selected).map (report entry) := by
  rw [List.filterMap_filter]
  apply List.filterMap_congr
  intro entry _
  rw [find_selected]
  split
  · rfl
  · rename_i absent
    have unselected : (table.rows.filter selected).find? (fun row => Serial.id row == about entry) = none := by
      rw [List.find?_eq_none]
      intro row member named
      exact absent (by simpa using ⟨row, List.mem_filter.mp member, by simpa using named⟩)
    rw [← find_selected, unselected]
    rfl

variable (make : ℕ → ρ) (names : ∀ n, Serial.id (make n) = n)

@[simp] theorem rows_insert : (table.insert make names).rows = table.rows ++ [make table.next] := rfl

@[simp] theorem find_insert_next : (table.insert make names).find table.next = some (make table.next) := by
  rw [find_eq_some]
  simp [names]

theorem find_insert_of_ne (other : n ≠ table.next) :
    (table.insert make names).find n = table.find n := by
  have skipped : [make table.next].find? (fun row => Serial.id row == n) = none := by
    simp [names, Ne.symm other]
  simp only [find, rows_insert, List.find?_append, skipped, Option.or_none]

/-- A row already there keeps its place when another is inserted. -/
theorem find_insert (found : table.find n = some row) : (table.insert make names).find n = some row := by
  rw [find_insert_of_ne, found]
  rintro rfl
  rw [find_next] at found
  cases found

variable (change : ρ → ρ) (keeps : ∀ row, Serial.id (change row) = Serial.id row)

@[simp] theorem rows_modify : (table.modify n change keeps).rows =
    table.rows.map fun row => if Serial.id row = n then change row else row := rfl

theorem find_modify (m : ℕ) : (table.modify n change keeps).find m =
    (table.find m).map fun row => if m = n then change row else row := by
  have ids : ∀ row, Serial.id (if Serial.id row = n then change row else row) = Serial.id row := by
    intro row
    split
    · exact keeps row
    · rfl
  simp only [find, rows_modify, List.find?_map, Function.comp_def, ids]
  cases found : table.rows.find? (fun row => Serial.id row == m) with
  | none => rfl
  | some row =>
    have named : Serial.id row = m := by simpa using List.find?_some found
    simp [named]

end SerialTable
end Relational
