import Mathlib.Data.List.Basic

/-! Paths walked name by name from a directory.

A place is the list of names that lead to it from its root, the innermost first.
An empty name and a dot stay where they are, two dots go up, and any other name
goes down: this is how a path is resolved where no name is a link.
-/

set_option autoImplicit false

namespace Walk

abbrev Place := List (List Char)

def Proper (name : List Char) : Prop := name ≠ [] ∧ name ≠ ['.'] ∧ name ≠ ['.', '.']

instance (name : List Char) : Decidable (Proper name) := by unfold Proper; infer_instance

def step (here : Place) (name : List Char) : Place :=
  if name = [] ∨ name = ['.'] then here
  else if name = ['.', '.'] then here.tail
  else name :: here

def walk (start : Place) (names : List (List Char)) : Place := names.foldl step start

variable {start : Place} {name : List Char}

theorem walk_append (front back : List (List Char)) :
    walk start (front ++ back) = walk (walk start front) back := List.foldl_append

theorem step_proper (proper : Proper name) (here : Place) : step here name = name :: here := by
  obtain ⟨nonempty, notDot, notDots⟩ := proper
  rw [step, if_neg (by simp [nonempty, notDot]), if_neg notDots]

theorem walk_snoc_proper (proper : Proper name) (front : List (List Char)) :
    walk start (front ++ [name]) = name :: walk start front := by
  rw [walk_append]
  exact step_proper proper _

theorem walk_single (proper : Proper name) : walk start [name] = name :: start :=
  step_proper proper start

/-! ## Splitting a path into names -/

section
variable {separates : Char → Bool} {path ending : List Char}

theorem names_plain (plain : ∀ c ∈ path, separates c = false) : path.splitOnP separates = [path] :=
  List.splitOnP_eq_singleton plain

theorem names_append (plain : ∀ c ∈ ending, separates c = false) (path : List Char) :
    ∃ front last, path.splitOnP separates = front ++ [last] ∧
      (path ++ ending).splitOnP separates = front ++ [last ++ ending] := by
  induction path with
  | nil => exact ⟨[], [], List.splitOnP_nil, names_plain plain⟩
  | cons c rest ih =>
    obtain ⟨front, last, split, appended⟩ := ih
    rw [List.cons_append, List.splitOnP_cons_eq_if_modifyHead, List.splitOnP_cons_eq_if_modifyHead,
      split, appended]
    by_cases separator : separates c
    · exact ⟨[] :: front, last, by simp [separator], by simp [separator]⟩
    -- the character goes to the first name, which may be the last one too
    cases front with
    | nil => exact ⟨[], c :: last, by simp [separator], by simp [separator]⟩
    | cons first others =>
      exact ⟨(c :: first) :: others, last, by simp [separator], by simp [separator]⟩

end

end Walk
