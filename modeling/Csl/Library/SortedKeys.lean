import Csl.Library.RecordModels
import Mathlib.Data.List.Sort

/-! Trees with the keys of their mappings sorted, as a YAML writer puts them out.

What a key leads to is sorted too, and nothing else changes: a record model that
looks at its fields by name sees the same fields.
-/

set_option autoImplicit false

namespace RecordModels

variable {Atom Value : Type}

mutual

/-- The tree that is read back where mappings are written in the order of their keys. -/
def sortKeys : Raw Atom → Raw Atom
  | .scalar value => .scalar value
  | .mapping entries => .mapping ((sortEntries entries).insertionSort (fun first second => first.1 ≤ second.1))
  | .sequence items => .sequence (sortItems items)

def sortEntries : List (String × Raw Atom) → List (String × Raw Atom)
  | [] => []
  | (key, raw) :: rest => (key, sortKeys raw) :: sortEntries rest

def sortItems : List (Raw Atom) → List (Raw Atom)
  | [] => []
  | raw :: rest => sortKeys raw :: sortItems rest

end

@[simp] theorem sortEntries_eq_map (entries : List (String × Raw Atom)) :
    sortEntries entries = entries.map (fun entry => (entry.1, sortKeys entry.2)) := by
  induction entries with
  | nil => rw [sortEntries, List.map_nil]
  | cons entry rest ih =>
    obtain ⟨key, raw⟩ := entry
    rw [sortEntries, ih, List.map_cons]

@[simp] theorem sortItems_eq_map (items : List (Raw Atom)) : sortItems items = items.map sortKeys := by
  induction items with
  | nil => rw [sortItems, List.map_nil]
  | cons raw rest ih => rw [sortItems, ih, List.map_cons]

@[simp] theorem sortKeys_scalar (value : Atom) : sortKeys (.scalar value) = .scalar value := by
  rw [sortKeys]

@[simp] theorem sortKeys_sequence (items : List (Raw Atom)) : sortKeys (.sequence items) = .sequence (items.map sortKeys) := by
  rw [sortKeys, sortItems_eq_map]

def sortedEntries (entries : List (String × Raw Atom)) : List (String × Raw Atom) :=
  (entries.map fun entry => (entry.1, sortKeys entry.2)).insertionSort (fun first second => first.1 ≤ second.1)

theorem sortKeys_mapping (entries : List (String × Raw Atom)) :
    sortKeys (.mapping entries) = .mapping (sortedEntries entries) := by
  rw [sortKeys, sortEntries_eq_map, sortedEntries]

theorem perm_sortedEntries (entries : List (String × Raw Atom)) :
    (sortedEntries entries).Perm (entries.map fun entry => (entry.1, sortKeys entry.2)) :=
  List.perm_insertionSort _ _

theorem nodup_sortedEntries {entries : List (String × Raw Atom)} (keys : (entries.map Prod.fst).Nodup) :
    ((sortedEntries entries).map Prod.fst).Nodup := by
  have same : ((sortedEntries entries).map Prod.fst).Perm (entries.map Prod.fst) := by
    have moved := (perm_sortedEntries entries).map Prod.fst
    rwa [List.map_map] at moved
  exact same.nodup_iff.mpr keys

theorem find_sortedEntries {entries : List (String × Raw Atom)} (keys : (entries.map Prod.fst).Nodup) (name : String) :
    Dict.find (sortedEntries entries) name = (Dict.find entries name).map sortKeys := by
  cases found : Dict.find entries name with
  | none =>
    have absent := (Dict.find_eq_none_iff entries name).mp found
    apply (Dict.find_eq_none_iff _ name).mpr
    intro member
    have moved := ((perm_sortedEntries entries).map Prod.fst).mem_iff.mp member
    rw [List.map_map] at moved
    exact absent moved
  | some raw =>
    apply Dict.find_of_mem (nodup_sortedEntries keys)
    apply (perm_sortedEntries entries).mem_iff.mpr
    exact List.mem_map_of_mem (f := fun entry => (entry.1, sortKeys entry.2)) (Dict.mem_of_find found)

theorem proper_sortKeys {raw : Raw Atom} (proper : raw.Proper) : (sortKeys raw).Proper := by
  induction proper with
  | scalar =>
    rw [sortKeys_scalar]
    exact .scalar
  | mapping keys _ ih =>
    rw [sortKeys_mapping]
    refine .mapping (nodup_sortedEntries keys) fun entry member => ?_
    obtain ⟨before, inside, rfl⟩ := List.mem_map.mp ((perm_sortedEntries _).mem_iff.mp member)
    exact ih before inside
  | sequence _ ih =>
    rw [sortKeys_sequence]
    refine .sequence fun item member => ?_
    obtain ⟨before, inside, rfl⟩ := List.mem_map.mp member
    exact ih before inside

end RecordModels
