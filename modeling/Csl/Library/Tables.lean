import Mathlib.Data.List.Nodup

/-! Database tables with a primary key, and their outer joins. -/

set_option autoImplicit false

structure Table {Row : Type} (id : Row → Nat) where
  rows : List Row
  distinct : (rows.map id).Nodup

namespace Table
variable {Left Row : Type} {id : Row → Nat}

def find? (table : Table id) (key : Nat) : Option Row := table.rows.find? (id · = key)

/-- `outerjoin(right, on)`: a row with each one it matches, or with none where it matches none. -/
def outerJoin (on : Left → Row → Bool) (right : List Row) (left : Left) : List (Left × Option Row) :=
  match right.filter (on left) with
  | [] => [(left, none)]
  | found => found.map fun row => (left, some row)

theorem filter_id_eq (table : Table id) (key : Nat) :
    table.rows.filter (id · = key) = (table.find? key).toList := by
  obtain ⟨rows, distinct⟩ := table
  unfold find?
  induction rows with
  | nil => rfl
  | cons head tail ih =>
    rw [List.map_cons, List.nodup_cons] at distinct
    by_cases same : id head = key
    · have others : tail.filter (id · = key) = [] := by
        apply List.filter_eq_nil_iff.mpr
        intro other member
        rw [decide_eq_true_eq]
        intro also
        exact distinct.1 (List.mem_map.mpr ⟨other, member, also.trans same.symm⟩)
      simp [same, others]
    · simp only [same, decide_false, Bool.false_eq_true, not_false_eq_true, List.filter_cons_of_neg,
        List.find?_cons_of_neg]
      exact ih distinct.2

/-- Joined by a foreign key, every row is kept and is there once. -/
theorem outerJoin_key (table : Table id) (key : Left → Option Nat) (left : Left) :
    outerJoin (fun left row => key left = some (id row)) table.rows left =
      [(left, (key left).bind table.find?)] := by
  have matching : (table.rows.filter fun row => key left = some (id row)) =
      ((key left).bind table.find?).toList := by
    cases key left with
    | none => simp
    | some value =>
      rw [Option.bind_some, ← filter_id_eq]
      apply List.filter_congr
      intro row _
      simp [eq_comm]
  simp only [outerJoin, matching]
  cases (key left).bind table.find? <;> rfl

end Table
