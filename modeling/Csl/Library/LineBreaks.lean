import Mathlib.Data.List.Basic
import Mathlib.Tactic.Common

/-! Text cut at its line breaks, whichever characters count as such.

A carriage return with its newline is one break. The pieces of two texts that a
newline joins are the pieces of both.
-/

set_option autoImplicit false

namespace LineBreaks

def extend (c : Char) : List (List Char) → List (List Char)
  | [] => [[c]]
  | first :: others => (c :: first) :: others

/-- The text between the breaks; what follows the last break is a piece too. -/
def pieces (isBreak : Char → Bool) : List Char → List (List Char)
  | [] => [[]]
  | c :: rest =>
    -- The newline that follows makes the break.
    if c = '\r' ∧ rest.head? = some '\n' then pieces isBreak rest
    else if isBreak c then [] :: pieces isBreak rest
    else extend c (pieces isBreak rest)

/-- The characters at which `str.splitlines` breaks a text. -/
def isLineBreak (c : Char) : Bool :=
  c.toNat ∈ [0x0A, 0x0B, 0x0C, 0x0D, 0x1C, 0x1D, 0x1E, 0x85, 0x2028, 0x2029]

/-- `str.splitlines`: a break at the end starts no line. -/
def splitlines (text : List Char) : List (List Char) :=
  let all := pieces isLineBreak text
  if all.getLast? = some [] then all.dropLast else all

variable {isBreak : Char → Bool}

theorem pieces_cons (c : Char) (rest : List Char) : pieces isBreak (c :: rest) =
    if c = '\r' ∧ rest.head? = some '\n' then pieces isBreak rest
    else if isBreak c then [] :: pieces isBreak rest
    else extend c (pieces isBreak rest) := rfl

theorem pieces_ne_nil (text : List Char) : pieces isBreak text ≠ [] := by
  induction text with
  | nil => exact List.cons_ne_nil _ _
  | cons c rest ih =>
    rw [pieces_cons]
    split_ifs
    · exact ih
    · exact List.cons_ne_nil _ _
    · cases pieces isBreak rest <;> exact List.cons_ne_nil _ _

theorem extend_append (c : Char) {first : List (List Char)} (nonempty : first ≠ []) (others : List (List Char)) :
    extend c (first ++ others) = extend c first ++ others := by
  cases first with
  | nil => exact absurd rfl nonempty
  | cons piece rest => rfl

theorem pieces_newline (breaks : isBreak '\n' = true) (rest : List Char) :
    pieces isBreak ('\n' :: rest) = [] :: pieces isBreak rest := by
  have notReturn : ¬ ('\n' = '\r' ∧ rest.head? = some '\n') := fun both => absurd both.1 (by decide)
  rw [pieces_cons, if_neg notReturn, if_pos breaks]

theorem pieces_append (breaks : isBreak '\n' = true) {before : List Char} (last : before.getLast? ≠ some '\r')
    (after : List Char) :
    pieces isBreak (before ++ '\n' :: after) = pieces isBreak before ++ pieces isBreak after := by
  induction before with
  | nil => exact pieces_newline breaks after
  | cons c rest ih =>
    have joined : pieces isBreak (rest ++ '\n' :: after) = pieces isBreak rest ++ pieces isBreak after := by
      apply ih
      intro same
      apply last
      rw [List.getLast?_cons, same]
      rfl
    have pair : (c = '\r' ∧ (rest ++ '\n' :: after).head? = some '\n') ↔ (c = '\r' ∧ rest.head? = some '\n') := by
      cases rest with
      | nil =>
        have notReturn : c ≠ '\r' := by
          intro same
          apply last
          rw [same]
          rfl
        exact ⟨fun both => absurd both.1 notReturn, fun both => absurd both.1 notReturn⟩
      | cons => exact Iff.rfl
    rw [List.cons_append, pieces_cons, pieces_cons, joined]
    simp only [pair]
    split_ifs
    · rfl
    · rfl
    · exact extend_append c (pieces_ne_nil rest) _

theorem head_pieces (breaks : isBreak '\n' = true) (returns : isBreak '\r' = true) (text : List Char) :
    ∃ others, pieces isBreak text = text.takeWhile (fun c => !isBreak c) :: others := by
  induction text with
  | nil => exact ⟨[], rfl⟩
  | cons c rest ih =>
    obtain ⟨others, split⟩ := ih
    rw [pieces_cons]
    by_cases pair : c = '\r' ∧ rest.head? = some '\n'
    · obtain ⟨same, head⟩ := pair
      subst same
      rw [if_pos ⟨rfl, head⟩, List.takeWhile_cons_of_neg (by rw [returns]; decide)]
      cases rest with
      | nil => cases head
      | cons d more =>
        have same : d = '\n' := Option.some.inj head
        subst same
        exact ⟨_, pieces_newline breaks more⟩
    · rw [if_neg pair]
      by_cases stops : isBreak c = true
      · rw [if_pos stops, List.takeWhile_cons_of_neg (by rw [stops]; decide)]
        exact ⟨_, rfl⟩
      · rw [if_neg stops, List.takeWhile_cons_of_pos (by rw [Bool.not_eq_true] at stops; rw [stops]; rfl), split]
        exact ⟨others, rfl⟩

theorem pieces_plain (returns : isBreak '\r' = true) {text : List Char} (plain : ∀ c ∈ text, isBreak c = false) :
    pieces isBreak text = [text] := by
  induction text with
  | nil => rfl
  | cons c rest ih =>
    have free := plain c List.mem_cons_self
    have notReturn : c ≠ '\r' := by
      intro same
      rw [same, returns] at free
      cases free
    rw [pieces_cons, if_neg (fun both => notReturn both.1), free, ih (fun d member => plain d (List.mem_cons_of_mem c member))]
    rfl

theorem plain_of_mem_pieces {text piece : List Char} (member : piece ∈ pieces isBreak text) :
    ∀ c ∈ piece, isBreak c = false := by
  induction text generalizing piece with
  | nil =>
    rw [List.mem_singleton.mp member]
    nofun
  | cons c rest ih =>
    rw [pieces_cons] at member
    split_ifs at member with pair stops
    · exact ih member
    · rcases List.mem_cons.mp member with same | later
      · rw [same]
        nofun
      · exact ih later
    · cases split : pieces isBreak rest with
      | nil => exact absurd split (pieces_ne_nil rest)
      | cons first others =>
        rw [split] at member ih
        rcases List.mem_cons.mp member with same | later
        · rw [same]
          intro d inside
          rcases List.mem_cons.mp inside with head | tail
          · rw [head]
            exact Bool.not_eq_true _ ▸ stops
          · exact ih List.mem_cons_self d tail
        · exact ih (List.mem_cons_of_mem first later)

end LineBreaks
