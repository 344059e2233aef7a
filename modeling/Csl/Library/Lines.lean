import Mathlib.Data.List.Basic

/-! Text read line by line.

A line ends with its newline, and the last one may lack it. Reading line after line
cuts the text nowhere else, so the lines of two texts are joined by joining the
texts wherever the first one stops with a line.
-/

set_option autoImplicit false

namespace Lines

variable {α : Type} [DecidableEq α] (newline : α)

/-- What `readline` takes from the text that is left. -/
def readline : List α → List α
  | [] => []
  | x :: rest => if x = newline then [x] else x :: readline rest

def lines : List α → List (List α)
  | [] => []
  | x :: rest =>
    if x = newline then [x] :: lines rest
    else match lines rest with
      | [] => [[x]]
      | first :: others => (x :: first) :: others

/-- The text stops where a line stops. -/
def Whole (text : List α) : Prop := text = [] ∨ text.getLast? = some newline

instance (text : List α) : Decidable (Whole newline text) := inferInstanceAs (Decidable (_ ∨ _))

variable {newline}

theorem lines_cons_newline (rest : List α) : lines newline (newline :: rest) = [newline] :: lines newline rest := by
  rw [lines, if_pos rfl]

@[simp] theorem flatten_lines (text : List α) : (lines newline text).flatten = text := by
  induction text with
  | nil => rfl
  | cons x rest ih =>
    by_cases ends : x = newline
    · subst ends
      rw [lines_cons_newline, List.flatten_cons, ih]
      rfl
    · rw [lines, if_neg ends]
      cases split : lines newline rest with
      | nil =>
        rw [split] at ih
        rw [← ih]
        rfl
      | cons first others =>
        rw [split, List.flatten_cons] at ih
        rw [← ih]
        rfl

@[simp] theorem lines_eq_nil {text : List α} : lines newline text = [] ↔ text = [] := by
  constructor
  · intro split
    have joined : (lines newline text).flatten = text := flatten_lines text
    rw [← joined, split]
    rfl
  · intro empty
    subst empty
    rfl

omit [DecidableEq α] in
theorem whole_nil : Whole newline [] := Or.inl rfl

omit [DecidableEq α] in
theorem whole_append (before : List α) {after : List α} (some : after ≠ []) :
    Whole newline (before ++ after) ↔ Whole newline after := by
  have last : (before ++ after).getLast? = after.getLast? := List.getLast?_append_of_ne_nil before some
  rw [Whole, Whole, last]
  constructor
  · rintro (empty | ends)
    · exact absurd (List.append_eq_nil_iff.mp empty).2 some
    · exact Or.inr ends
  · rintro (empty | ends)
    · exact absurd empty some
    · exact Or.inr ends

omit [DecidableEq α] in
theorem whole_singleton (x : α) : Whole newline [x] ↔ x = newline := by
  simp [Whole]

theorem lines_append {before : List α} (whole : Whole newline before) (after : List α) :
    lines newline (before ++ after) = lines newline before ++ lines newline after := by
  induction before with
  | nil => rfl
  | cons x rest ih =>
    cases rest with
    | nil =>
      have ends : x = newline := (whole_singleton x).mp whole
      subst ends
      rw [List.singleton_append, lines_cons_newline, lines_cons_newline]
      rfl
    | cons y others =>
      have left : Whole newline (y :: others) :=
        (whole_append [x] (List.cons_ne_nil y others)).mp whole
      have joined := ih left
      rw [List.cons_append, lines, joined]
      conv_rhs => rw [lines]
      by_cases ends : x = newline
      · rw [if_pos ends, if_pos ends]
        rfl
      · rw [if_neg ends, if_neg ends]
        cases split : lines newline (y :: others) with
        | nil => exact absurd (lines_eq_nil.mp split) (List.cons_ne_nil y others)
        | cons first more => rfl

theorem lines_singleton {line : List α} (plain : newline ∉ line) :
    lines newline (line ++ [newline]) = [line ++ [newline]] := by
  induction line with
  | nil => exact lines_cons_newline []
  | cons x rest ih =>
    obtain ⟨other, tail⟩ := not_or.mp (fun member => plain (List.mem_cons.mpr member))
    rw [List.cons_append, lines, if_neg (fun same => other same.symm), ih tail]

@[elab_as_elim]
theorem line_induction (newline : α) {motive : List α → Prop} (nil : motive [])
    (last : ∀ line, line ≠ [] → newline ∉ line → motive line)
    (line : ∀ before after, newline ∉ before → motive after → motive (before ++ newline :: after))
    (text : List α) : motive text := by
  induction size : text.length using Nat.strongRecOn generalizing text with
  | ind n ih =>
    by_cases ends : newline ∈ text
    · obtain ⟨before, after, same, plain⟩ := List.eq_append_cons_of_mem ends
      have shorter : after.length < n := by
        rw [← size, same, List.length_append, List.length_cons]
        omega
      rw [same]
      exact line before after plain (ih after.length shorter after rfl)
    · by_cases empty : text = []
      · rw [empty]
        exact nil
      · exact last text empty ends

theorem lines_plain {line : List α} (some : line ≠ []) (plain : newline ∉ line) : lines newline line = [line] := by
  induction line with
  | nil => exact absurd rfl some
  | cons x rest ih =>
    obtain ⟨other, tail⟩ := not_or.mp (fun member => plain (List.mem_cons.mpr member))
    rw [lines, if_neg (fun same => other same.symm)]
    by_cases empty : rest = []
    · subst empty
      rfl
    · rw [ih empty tail]

theorem lines_line {before : List α} (plain : newline ∉ before) (after : List α) :
    lines newline (before ++ newline :: after) = (before ++ [newline]) :: lines newline after := by
  have whole : Whole newline (before ++ [newline]) := Or.inr List.getLast?_concat
  have joined := lines_append whole after
  rw [lines_singleton plain, List.append_assoc] at joined
  exact joined

theorem lines_flatMap {texts : List (List α)} (plain : ∀ text ∈ texts, newline ∉ text) :
    lines newline (texts.flatMap (· ++ [newline])) = texts.map (· ++ [newline]) := by
  induction texts with
  | nil => rfl
  | cons text rest ih =>
    have whole : Whole newline (text ++ [newline]) := Or.inr List.getLast?_concat
    rw [List.flatMap_cons, lines_append whole, lines_singleton (plain text List.mem_cons_self),
      ih (fun t member => plain t (List.mem_cons_of_mem text member))]
    rfl

/-- The lines are counted by the newlines, and one more where the text stops within a line. -/
theorem length_lines (text : List α) : (lines newline text).length =
    text.count newline + (if Whole newline text then 0 else 1) := by
  induction text with
  | nil => rfl
  | cons x rest ih =>
    cases rest with
    | nil =>
      by_cases ends : x = newline
      · subst ends
        rw [lines_cons_newline, if_pos ((whole_singleton x).mpr rfl), List.count_singleton_self]
        rfl
      · rw [lines, if_neg ends, if_neg (fun whole => ends ((whole_singleton x).mp whole)), List.count_cons_of_ne ends]
        rfl
    | cons y others =>
      have same : Whole newline (x :: y :: others) ↔ Whole newline (y :: others) :=
        whole_append [x] (List.cons_ne_nil y others)
      simp only [same]
      rw [lines]
      by_cases ends : x = newline
      · subst ends
        rw [if_pos rfl, List.length_cons, ih, List.count_cons_self]
        omega
      · rw [if_neg ends, List.count_cons_of_ne ends, ← ih]
        cases split : lines newline (y :: others) with
        | nil => exact absurd (lines_eq_nil.mp split) (List.cons_ne_nil y others)
        | cons first more => rfl

theorem readline_append_drop (text : List α) :
    readline newline text ++ text.drop (readline newline text).length = text := by
  induction text with
  | nil => rfl
  | cons x rest ih =>
    rw [readline]
    by_cases ends : x = newline
    · rw [if_pos ends]
      rfl
    · rw [if_neg ends, List.length_cons, List.drop_succ_cons, List.cons_append, ih]

@[simp] theorem readline_eq_nil {text : List α} : readline newline text = [] ↔ text = [] := by
  cases text with
  | nil => exact Iff.rfl
  | cons x rest =>
    rw [readline]
    split_ifs <;> simp

theorem readline_whole_or_all (text : List α) :
    Whole newline (readline newline text) ∨ readline newline text = text := by
  induction text with
  | nil => exact Or.inr rfl
  | cons x rest ih =>
    rw [readline]
    by_cases ends : x = newline
    · rw [if_pos ends]
      exact Or.inl ((whole_singleton x).mpr ends)
    · rw [if_neg ends]
      rcases ih with whole | all
      · by_cases empty : readline newline rest = []
        · rw [readline_eq_nil] at empty
          subst empty
          exact Or.inr rfl
        · exact Or.inl ((whole_append [x] empty).mpr whole)
      · exact Or.inr (by rw [all])

theorem lines_readline {text : List α} (some : text ≠ []) :
    lines newline (readline newline text) = [readline newline text] := by
  induction text with
  | nil => exact absurd rfl some
  | cons x rest ih =>
    rw [readline]
    by_cases ends : x = newline
    · subst ends
      rw [if_pos rfl, lines_cons_newline]
      rfl
    · rw [if_neg ends, lines, if_neg ends]
      by_cases empty : rest = []
      · subst empty
        rfl
      · rw [ih empty]

theorem length_lines_within {before line : List α} (cut : ¬ Whole newline before)
    (one : lines newline line = [line]) :
    (lines newline (before ++ line)).length = (lines newline before).length := by
  have some : line ≠ [] := by
    intro empty
    rw [empty] at one
    cases one
  have counted : (lines newline line).length = _ := length_lines line
  rw [one, List.length_singleton] at counted
  rw [length_lines, length_lines, if_neg cut, List.count_append]
  simp only [whole_append before some]
  omega

theorem length_lines_append_le (before : List α) {line : List α} (one : lines newline line = [line]) :
    (lines newline (before ++ line)).length ≤ (lines newline before).length + 1 := by
  by_cases whole : Whole newline before
  · apply Nat.le_of_eq
    rw [lines_append whole, one, List.length_append, List.length_singleton]
  · rw [length_lines_within whole one]
    exact Nat.le_succ _

end Lines
