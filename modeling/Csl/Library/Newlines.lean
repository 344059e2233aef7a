import Mathlib.Data.List.Basic

/-! Newline translation of text files.

Text mode may write each newline as a carriage return and a newline, and reads
every line ending back as a newline. Text without carriage returns survives.
-/

set_option autoImplicit false

namespace Newlines

def universalList : List Char → List Char
  | [] => []
  | '\r' :: '\n' :: rest => '\n' :: universalList rest
  | '\r' :: rest => '\n' :: universalList rest
  | c :: rest => c :: universalList rest

def crlfList : List Char → List Char
  | [] => []
  | '\n' :: rest => '\r' :: '\n' :: crlfList rest
  | c :: rest => c :: crlfList rest

/-- Reading in text mode: every line ending becomes a newline. -/
def universal (text : String) : String := String.ofList (universalList text.toList)

/-- Writing in text mode on Windows. -/
def crlf (text : String) : String := String.ofList (crlfList text.toList)

theorem universalList_crlfList (text : List Char) (plain : '\r' ∉ text) :
    universalList (crlfList text) = text := by
  induction text with
  | nil => rfl
  | cons c rest ih =>
    obtain ⟨notReturn, tail⟩ := not_or.mp (fun member => plain (List.mem_cons.mpr member))
    by_cases newline : c = '\n'
    · subst newline
      simp only [crlfList, universalList, ih tail]
    · have kept : crlfList (c :: rest) = c :: crlfList rest := by
        rw [crlfList]; exact fun same => newline same
      have read : universalList (c :: crlfList rest) = c :: universalList (crlfList rest) := by
        rw [universalList]
        · exact fun _ same => absurd same.symm notReturn
        · exact fun same => absurd same.symm notReturn
      rw [kept, read, ih tail]

theorem universalList_plain (text : List Char) (plain : '\r' ∉ text) :
    universalList text = text := by
  induction text with
  | nil => rfl
  | cons c rest ih =>
    obtain ⟨notReturn, tail⟩ := not_or.mp (fun member => plain (List.mem_cons.mpr member))
    rw [universalList, ih tail]
    · exact fun _ same => absurd same.symm notReturn
    · exact fun same => absurd same.symm notReturn

theorem universalList_return {text : List Char} (plain : '\r' ∉ text) :
    universalList (text ++ ['\r']) = text ++ ['\n'] := by
  induction text with
  | nil => rfl
  | cons c rest ih =>
    obtain ⟨notReturn, tail⟩ := not_or.mp (fun member => plain (List.mem_cons.mpr member))
    rw [List.cons_append, universalList, ih tail]
    · rfl
    · exact fun _ same => absurd same.symm notReturn
    · exact fun same => absurd same.symm notReturn

theorem universal_plain (text : String) (plain : '\r' ∉ text.toList) : universal text = text := by
  rw [universal, universalList_plain _ plain, String.ofList_toList]

theorem universalList_no_return (text : List Char) : '\r' ∉ universalList text := by
  fun_induction universalList text with
  | case1 => exact List.not_mem_nil
  | case2 rest ih | case3 rest _ ih =>
    intro member
    rcases List.mem_cons.mp member with same | later
    · cases same
    · exact ih later
  | case4 c rest _ notReturn ih =>
    intro member
    rcases List.mem_cons.mp member with same | later
    · exact notReturn same.symm
    · exact ih later

@[simp] theorem universal_universal (text : String) : universal (universal text) = universal text := by
  apply universal_plain
  rw [universal, String.toList_ofList]
  exact universalList_no_return text.toList

theorem universal_crlf (text : String) (plain : '\r' ∉ text.toList) :
    universal (crlf text) = text := by
  rw [universal, crlf, String.toList_ofList, universalList_crlfList _ plain, String.ofList_toList]

/-! ## Lengths -/

theorem length_universalList_le (text : List Char) : (universalList text).length ≤ text.length := by
  fun_induction universalList text with
  | case1 => exact Nat.le_refl 0
  | case2 rest ih | case3 rest _ ih | case4 c rest _ _ ih =>
    simp only [List.length_cons]
    omega

theorem crlfList_append (first second : List Char) :
    crlfList (first ++ second) = crlfList first ++ crlfList second := by
  induction first with
  | nil => rfl
  | cons c rest ih =>
    by_cases newline : c = '\n'
    · subst newline
      simp only [List.cons_append, crlfList, ih]
    · have kept : ∀ text, crlfList (c :: text) = c :: crlfList text := by
        intro text
        rw [crlfList]
        exact fun same => newline same
      rw [List.cons_append, kept, kept, ih]
      rfl

theorem crlfList_plain {text : List Char} (plain : '\n' ∉ text) : crlfList text = text := by
  induction text with
  | nil => rfl
  | cons c rest ih =>
    obtain ⟨other, tail⟩ := not_or.mp (fun member => plain (List.mem_cons.mpr member))
    rw [crlfList, ih tail]
    exact fun same => other same.symm

theorem length_le_crlfList (text : List Char) : text.length ≤ (crlfList text).length := by
  fun_induction crlfList text with
  | case1 => exact Nat.le_refl 0
  | case2 rest ih | case3 c rest _ ih =>
    simp only [List.length_cons]
    omega

theorem length_le_crlfList_universalList (text : List Char) :
    text.length ≤ (crlfList (universalList text)).length := by
  fun_induction universalList text with
  | case1 => exact Nat.le_refl 0
  | case2 rest ih | case3 rest _ ih =>
    simp only [crlfList, List.length_cons]
    omega
  | case4 c rest _ _ ih =>
    have split := crlfList_append [c] (universalList rest)
    have one := length_le_crlfList [c]
    rw [List.singleton_append] at split
    rw [split, List.length_append]
    simp only [List.length_cons, List.length_nil] at one ⊢
    omega

theorem crlf_append (first second : String) : crlf (first ++ second) = crlf first ++ crlf second := by
  simp only [crlf, String.toList_append, crlfList_append, String.ofList_append]

end Newlines
