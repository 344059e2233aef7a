import Csl.Library.Whitespace
import Mathlib.Data.List.Infix

/-! The words of a text, and the texts a word stands in.

Words hold no blanks. Neither blanks that are cut from the ends of a text nor a
character the word lacks make a difference to whether the text contains it.
-/

set_option autoImplicit false

namespace Words
open Whitespace

/-- `str.split` at runs of blanks. -/
def words (text : List Char) : List (List Char) := (text.splitOnP isSpace).filter (fun word => word ≠ [])

/-- `word in text`. -/
def contains (word text : List Char) : Bool := decide (word <:+: text)

@[simp] theorem contains_iff {word text : List Char} : contains word text = true ↔ word <:+: text :=
  decide_eq_true_iff

theorem infix_splitOnP {α : Type} (p : α → Bool) (text : List α) :
    ∃ first others, text.splitOnP p = first :: others ∧ first <+: text ∧ ∀ piece ∈ others, piece <:+: text := by
  induction text with
  | nil => exact ⟨[], [], List.splitOnP_nil, List.prefix_refl [], by simp⟩
  | cons x rest ih =>
    obtain ⟨first, others, split, begins, within⟩ := ih
    rw [List.splitOnP_cons_eq_if_modifyHead, split]
    by_cases cut : p x
    · rw [if_pos cut]
      refine ⟨[], first :: others, rfl, List.nil_prefix, fun piece member => ?_⟩
      rcases List.mem_cons.mp member with same | later
      · rw [same]
        exact List.infix_cons begins.isInfix
      · exact List.infix_cons (within piece later)
    · rw [if_neg cut]
      exact ⟨x :: first, others, rfl, List.cons_prefix_cons.mpr ⟨rfl, begins⟩,
        fun piece member => List.infix_cons (within piece member)⟩

theorem plain_splitOnP {α : Type} {p : α → Bool} {text piece : List α} (member : piece ∈ text.splitOnP p) :
    ∀ x ∈ piece, p x = false := by
  induction text generalizing piece with
  | nil =>
    rw [List.splitOnP_nil, List.mem_singleton] at member
    simp [member]
  | cons x rest ih =>
    obtain ⟨first, others, split, -, -⟩ := infix_splitOnP p rest
    rw [List.splitOnP_cons_eq_if_modifyHead, split] at member
    rw [split] at ih
    by_cases cut : p x
    · rw [if_pos cut] at member
      rcases List.mem_cons.mp member with same | later
      · simp [same]
      · exact ih later
    · rw [if_neg cut, List.modifyHead_cons] at member
      rcases List.mem_cons.mp member with same | later
      · intro y inside
        rw [same] at inside
        rcases List.mem_cons.mp inside with head | tail
        · simpa [head] using cut
        · exact ih List.mem_cons_self y tail
      · exact ih (List.mem_cons_of_mem first later)

theorem words_spec {text word : List Char} (member : word ∈ words text) :
    word <:+: text ∧ word ≠ [] ∧ ∀ c ∈ word, isSpace c = false := by
  obtain ⟨piece, some⟩ := List.mem_filter.mp member
  refine ⟨?_, by simpa using some, plain_splitOnP piece⟩
  obtain ⟨first, others, split, begins, within⟩ := infix_splitOnP isSpace text
  rw [split] at piece
  rcases List.mem_cons.mp piece with same | later
  · rw [same]
    exact begins.isInfix
  · exact within word later

variable {word : List Char}

theorem words_word (some : word ≠ []) (solid : ∀ c ∈ word, isSpace c = false) {blank : Char} (cut : isSpace blank = true)
    (rest : List Char) : words (word ++ blank :: rest) = word :: words rest := by
  rw [words, List.splitOnP_append_cons_of_forall_mem solid blank cut, List.filter_cons_of_pos (by simpa using some), words]

theorem infix_lstripList (some : word ≠ []) (solid : ∀ c ∈ word, isSpace c = false) {text : List Char}
    (inside : word <:+: text) : word <:+: lstripList text := by
  induction text with
  | nil => exact inside
  | cons c rest ih =>
    by_cases blank : isSpace c = true
    · rw [lstripList, List.dropWhile_cons_of_pos blank]
      rcases List.infix_cons_iff.mp inside with begins | later
      · -- a word that begins with the blank
        obtain ⟨d, more, same⟩ := List.exists_cons_of_ne_nil some
        rw [same] at begins solid
        have head : d = c := (List.cons_prefix_cons.mp begins).1
        have free := solid d List.mem_cons_self
        rw [head, blank] at free
        cases free
      · exact ih later
    · rw [lstripList, List.dropWhile_cons_of_neg blank]
      exact inside

theorem infix_stripList (some : word ≠ []) (solid : ∀ c ∈ word, isSpace c = false) {text : List Char}
    (inside : word <:+: text) : word <:+: stripList text := by
  have front := infix_lstripList some solid inside
  have turned : word.reverse <:+: (lstripList text).reverse := List.reverse_infix.mpr front
  have back : word.reverse <:+: lstripList (lstripList text).reverse :=
    infix_lstripList (fun empty => some (List.reverse_eq_nil_iff.mp empty))
      (fun c member => solid c (List.mem_reverse.mp member)) turned
  rw [stripList, ← List.reverse_infix, List.reverse_reverse]
  exact back

theorem contains_concat {x : Char} (lacks : x ∉ word) (text : List Char) :
    contains word (text ++ [x]) = contains word text := by
  rw [Bool.eq_iff_iff, contains_iff, contains_iff]
  constructor
  · intro inside
    rcases List.infix_concat_iff.mp inside with ends | within
    · rcases List.suffix_concat_iff.mp ends with empty | ⟨front, same, -⟩
      · rw [empty]
        exact List.nil_infix
      · refine absurd ?_ lacks
        rw [same]
        exact List.mem_append_right front List.mem_cons_self
    · exact within
  · exact List.infix_append_of_infix_left

end Words
