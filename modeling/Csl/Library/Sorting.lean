import Mathlib.Data.List.Sort

/-! Sorted lists and their filtered parts. -/

set_option autoImplicit false

namespace List
variable {A : Type}

theorem take_filter_eq {keep : A → Bool} {count : Nat} {values : List A} :
    (values.filter keep).take count = values.take count ↔
      ∀ i value, values[i]? = some value → keep value = false → count ≤ i := by
  induction values generalizing count with
  | nil => simp
  | cons head tail ih =>
    cases count with
    | zero => simp
    | succ count =>
      by_cases kept : keep head = true
      · rw [List.filter_cons_of_pos kept, List.take_succ_cons, List.take_succ_cons, List.cons_inj_right, ih]
        constructor
        · intro late i value found dropped
          cases i with
          | zero =>
            cases found
            rw [kept] at dropped
            cases dropped
          | succ i => exact Nat.succ_le_succ (late i value found dropped)
        · intro late i value found dropped
          exact Nat.le_of_succ_le_succ (late (i + 1) value found dropped)
      · apply iff_of_false
        · -- The head is at the beginning of the list and nowhere in the filtered part.
          intro same
          have member : head ∈ (tail.filter keep).take (count + 1) := by
            rw [List.filter_cons_of_neg kept] at same
            rw [same]
            exact List.mem_cons_self
          exact kept (List.of_mem_filter (List.mem_of_mem_take member))
        · intro late
          have early := late 0 head rfl (Bool.eq_false_iff.mpr kept)
          omega

variable {before : A → A → Prop} [DecidableRel before] [IsTrans A before]

theorem filter_orderedInsert (keep : A → Bool) (value : A) {sorted : List A} (order : sorted.Pairwise before) :
    (sorted.orderedInsert before value).filter keep =
      if keep value then (sorted.filter keep).orderedInsert before value else sorted.filter keep := by
  induction sorted with
  | nil => by_cases kept : keep value <;> simp [kept]
  | cons head tail ih =>
    obtain ⟨first, rest⟩ := List.pairwise_cons.mp order
    rw [List.orderedInsert_cons]
    by_cases goesFirst : before value head
    · rw [if_pos goesFirst]
      by_cases kept : keep value = true
      · rw [List.filter_cons_of_pos kept, if_pos kept]
        -- The value goes before the head, so it goes before all that is left of the list.
        have least : ∀ other ∈ (head :: tail).filter keep, before value other := by
          intro other member
          rcases List.mem_cons.mp (List.mem_of_mem_filter member) with rfl | later
          · exact goesFirst
          · exact IsTrans.trans value head other goesFirst (first other later)
        cases left : (head :: tail).filter keep with
        | nil => rfl
        | cons other others =>
          rw [List.orderedInsert_cons, if_pos (least other (by rw [left]; exact List.mem_cons_self))]
      · rw [List.filter_cons_of_neg kept, if_neg kept]
    · rw [if_neg goesFirst]
      by_cases headKept : keep head = true
      · rw [List.filter_cons_of_pos headKept, List.filter_cons_of_pos headKept, ih rest]
        split
        · rw [List.orderedInsert_cons, if_neg goesFirst]
        · rfl
      · rw [List.filter_cons_of_neg headKept, List.filter_cons_of_neg headKept, ih rest]

variable [Std.Total before]

theorem filter_insertionSort (keep : A → Bool) (values : List A) :
    (values.insertionSort before).filter keep = (values.filter keep).insertionSort before := by
  induction values with
  | nil => rfl
  | cons value values ih =>
    have order := List.pairwise_insertionSort before values
    rw [List.insertionSort_cons, filter_orderedInsert keep value order, ih]
    by_cases kept : keep value = true
    · rw [if_pos kept, List.filter_cons_of_pos kept, List.insertionSort_cons]
    · rw [if_neg kept, List.filter_cons_of_neg kept]

end List
