import Csl.Library.LineBreaks
import Csl.Library.Lines
import Csl.Library.Newlines

/-! The lines of a text file, as they are stored and as `str.splitlines` splits them.

A stored line ends at a newline and nowhere else; splitting may cut it further. Where
it is not cut, both see the same line, up to the carriage return before its newline.
-/

set_option autoImplicit false

namespace TextLines
open LineBreaks Newlines

def chomp (line : List Char) : List Char := if line.getLast? = some '\n' then line.dropLast else line

def rawLines (text : List Char) : List (List Char) := (Lines.lines '\n' text).map chomp

/-- Lines written out, each with its end. -/
def unlines (ending : List Char) (texts : List (List Char)) : List Char := texts.flatMap (· ++ ending)

/-! ## Stored lines -/

theorem chomp_newline (core : List Char) : chomp (core ++ ['\n']) = core := by
  simp [chomp]

theorem chomp_plain {core : List Char} (plain : '\n' ∉ core) : chomp core = core := by
  rw [chomp, if_neg]
  intro last
  exact plain (List.mem_of_getLast? last)

/-- Lines that are written out are stored as they are, each with what stands before its newline. -/
theorem rawLines_unlines {texts : List (List Char)} {mark : List Char} (plain : ∀ text ∈ texts, '\n' ∉ text)
    (marked : '\n' ∉ mark) : rawLines (unlines (mark ++ ['\n']) texts) = texts.map (· ++ mark) := by
  have apart : unlines (mark ++ ['\n']) texts = (texts.map (· ++ mark)).flatMap (· ++ ['\n']) := by
    simp only [unlines, List.flatMap_map, List.append_assoc]
  have free : ∀ line ∈ texts.map (· ++ mark), '\n' ∉ line := by
    simpa [marked] using plain
  rw [apart, rawLines, Lines.lines_flatMap free]
  simp only [List.map_map]
  exact List.map_congr_left (fun text _ => chomp_newline (text ++ mark))

theorem flatten_intersperse {texts : List (List Char)} (some : texts ≠ []) :
    (texts.intersperse ['\n']).flatten ++ ['\n'] = unlines ['\n'] texts := by
  induction texts with
  | nil => exact absurd rfl some
  | cons text rest ih =>
    cases rest with
    | nil => simp [unlines]
    | cons next more =>
      have tail := ih (List.cons_ne_nil next more)
      rw [List.intersperse_cons_cons, List.flatten_cons, List.flatten_cons, List.append_assoc, List.append_assoc, tail]
      simp [unlines]

theorem crlfList_unlines {texts : List (List Char)} (plain : ∀ text ∈ texts, '\n' ∉ text) :
    crlfList (unlines ['\n'] texts) = unlines ['\r', '\n'] texts := by
  induction texts with
  | nil => rfl
  | cons text rest ih =>
    have kept : crlfList text = text := crlfList_plain (plain text List.mem_cons_self)
    have tail := ih (fun line member => plain line (List.mem_cons_of_mem text member))
    simp only [unlines, List.flatMap_cons, crlfList_append, kept] at tail ⊢
    rw [tail]
    rfl

theorem mem_lines {text line : List Char} (member : line ∈ Lines.lines '\n' text) :
    '\n' ∉ chomp line ∧ (line = chomp line ++ ['\n'] ∨ line = chomp line ∧ line ≠ []) := by
  induction text using Lines.line_induction '\n' with
  | nil => cases member
  | last text some plain =>
    rw [Lines.lines_plain some plain, List.mem_singleton] at member
    subst member
    rw [chomp_plain plain]
    exact ⟨plain, Or.inr ⟨rfl, some⟩⟩
  | line before after plain ih =>
    rw [Lines.lines_line plain] at member
    rcases List.mem_cons.mp member with same | later
    · rw [same, chomp_newline]
      exact ⟨plain, Or.inl rfl⟩
    · exact ih later

theorem newline_not_mem_rawLines {text line : List Char} (member : line ∈ rawLines text) : '\n' ∉ line := by
  obtain ⟨stored, inside, same⟩ := List.mem_map.mp member
  rw [← same]
  exact (mem_lines inside).1

/-! ## Splitting at a newline -/

variable {isBreak : Char → Bool}

theorem pieces_before_newline (breaks : isBreak '\n' = true) (before : List Char) :
    ∃ init, init ≠ [] ∧ ∀ after, pieces isBreak (before ++ '\n' :: after) = init ++ pieces isBreak after := by
  induction before with
  | nil => exact ⟨[[]], List.cons_ne_nil _ _, pieces_newline breaks⟩
  | cons c rest ih =>
    obtain ⟨init, some, split⟩ := ih
    -- what the first character sees of the rest does not depend on what follows the newline
    have head (after : List Char) : (rest ++ '\n' :: after).head? = (rest ++ ['\n']).head? := by
      cases rest <;> rfl
    by_cases pair : c = '\r' ∧ (rest ++ ['\n']).head? = Option.some '\n'
    · refine ⟨init, some, fun after => ?_⟩
      rw [List.cons_append, pieces_cons, head, if_pos pair, split]
    · by_cases stops : isBreak c = true
      · refine ⟨[] :: init, List.cons_ne_nil _ _, fun after => ?_⟩
        rw [List.cons_append, pieces_cons, head, if_neg pair, if_pos stops, split]
        rfl
      · refine ⟨extend c init, ?_, fun after => ?_⟩
        · cases init <;> exact List.cons_ne_nil _ _
        · rw [List.cons_append, pieces_cons, head, if_neg pair, if_neg stops, split, extend_append c some]

theorem isLineBreak_newline : isLineBreak '\n' = true := rfl

theorem isLineBreak_return : isLineBreak '\r' = true := rfl

theorem splitlines_before_newline (before after : List Char) :
    splitlines (before ++ '\n' :: after) = splitlines (before ++ ['\n']) ++ splitlines after := by
  obtain ⟨init, some, split⟩ := pieces_before_newline isLineBreak_newline before
  have one : splitlines (before ++ ['\n']) = init := by
    have cut : pieces isLineBreak (before ++ ['\n']) = init ++ [[]] := split []
    rw [splitlines, cut, List.getLast?_concat, if_pos rfl, List.dropLast_concat]
  have nonempty : pieces isLineBreak after ≠ [] := pieces_ne_nil after
  rw [one, splitlines, split, List.getLast?_append_of_ne_nil _ nonempty, List.dropLast_append_of_ne_nil nonempty,
    splitlines]
  split_ifs
  · rfl
  · rfl

theorem splitlines_eq_flatMap (text : List Char) :
    splitlines text = (Lines.lines '\n' text).flatMap splitlines := by
  induction text using Lines.line_induction '\n' with
  | nil => rfl
  | last line some plain => rw [Lines.lines_plain some plain, List.flatMap_singleton]
  | line before after plain ih =>
    rw [splitlines_before_newline, Lines.lines_line plain, List.flatMap_cons, ih]

/-! ## What splitting keeps -/

theorem plain_of_mem_splitlines {text line : List Char} (member : line ∈ splitlines text) :
    ∀ c ∈ line, isLineBreak c = false := by
  have piece : line ∈ pieces isLineBreak text := by
    rw [splitlines] at member
    split_ifs at member
    · exact List.dropLast_subset _ member
    · exact member
  exact plain_of_mem_pieces piece

theorem pieces_crlf (breaks : isBreak '\n' = true) (text after : List Char) :
    pieces isBreak (text ++ '\r' :: '\n' :: after) = pieces isBreak text ++ pieces isBreak after := by
  induction text with
  | nil =>
    -- the pair is one break
    rw [List.nil_append, pieces_cons, if_pos ⟨rfl, rfl⟩, pieces_newline breaks]
    rfl
  | cons c rest ih =>
    have head : (rest ++ '\r' :: '\n' :: after).head? = some '\n' ↔ rest.head? = some '\n' := by
      cases rest with
      | nil => simp
      | cons d more => exact Iff.rfl
    rw [List.cons_append, pieces_cons, pieces_cons, ih]
    simp only [head]
    split_ifs
    · rfl
    · rfl
    · exact extend_append c (pieces_ne_nil rest) _

theorem splitlines_unlines {texts : List (List Char)} {mark : List Char} (either : mark = [] ∨ mark = ['\r'])
    (last : ∀ text ∈ texts, text.getLast? ≠ some '\r') :
    splitlines (unlines (mark ++ ['\n']) texts) = texts.flatMap (pieces isLineBreak) := by
  have ended : pieces isLineBreak (unlines (mark ++ ['\n']) texts) = texts.flatMap (pieces isLineBreak) ++ [[]] := by
    induction texts with
    | nil => rfl
    | cons text rest ih =>
      have tail := ih (fun line member => last line (List.mem_cons_of_mem text member))
      rw [unlines] at tail
      rw [unlines, List.flatMap_cons, List.flatMap_cons, List.append_assoc (pieces isLineBreak text), ← tail]
      rcases either with none | return_
      · subst none
        simpa using pieces_append isLineBreak_newline (last text List.mem_cons_self) _
      · subst return_
        simpa using pieces_crlf isLineBreak_newline text _
  rw [splitlines, ended, List.getLast?_concat, if_pos rfl, List.dropLast_concat]

/-- Reading in text mode makes no difference to how a text is split. -/
theorem splitlines_universalList (text : List Char) : splitlines (universalList text) = splitlines text := by
  have same : pieces isLineBreak (universalList text) = pieces isLineBreak text := by
    fun_induction universalList text with
    | case1 => rfl
    | case2 rest ih =>
      rw [pieces_newline rfl, ih, pieces_cons, if_pos ⟨rfl, rfl⟩, pieces_newline rfl]
    | case3 rest other ih =>
      have alone : ¬ ('\r' = '\r' ∧ rest.head? = some '\n') := by
        rintro ⟨-, head⟩
        obtain ⟨more, begins⟩ := List.head?_eq_some_iff.mp head
        exact other more begins
      rw [pieces_newline rfl, ih, pieces_cons, if_neg alone, if_pos (by decide)]
    | case4 c rest _ notReturn ih =>
      have single : ∀ more : List Char, ¬ (c = '\r' ∧ more.head? = some '\n') :=
        fun more both => notReturn both.1
      rw [pieces_cons, pieces_cons, if_neg (single _), if_neg (single _), ih]
  rw [splitlines, splitlines, same]

theorem splitlines_stored {text line core mark : List Char} (member : line ∈ Lines.lines '\n' text)
    (either : mark = [] ∨ mark = ['\r']) (content : chomp line = core ++ mark)
    (plain : ∀ c ∈ core, isLineBreak c = false) : splitlines line = [core] := by
  have last : core.getLast? ≠ some '\r' := by
    intro ends
    have free := plain '\r' (List.mem_of_getLast? ends)
    cases free
  have written {mark : List Char} (either : mark = [] ∨ mark = ['\r']) : splitlines (core ++ mark ++ ['\n']) = [core] := by
    have each : ∀ line ∈ [core], line.getLast? ≠ some '\r' := by simpa using last
    have split := splitlines_unlines either each
    simpa [unlines, pieces_plain isLineBreak_return plain] using split
  obtain ⟨-, ended | ⟨same, some⟩⟩ := mem_lines member
  · rw [ended, content]
    exact written either
  · rw [content] at same
    rw [same] at some ⊢
    rcases either with none | return_
    · subst none
      rw [List.append_nil] at some ⊢
      rw [splitlines, pieces_plain rfl plain, List.getLast?_singleton, if_neg]
      intro empty
      exact some (Option.some.inj empty)
    · -- reading makes the carriage return a newline
      subst return_
      have read : universalList (core ++ ['\r']) = core ++ ['\n'] :=
        universalList_return (fun inside => by cases plain '\r' inside)
      have whole := written (Or.inl rfl)
      rw [List.append_nil] at whole
      rw [← splitlines_universalList, read, whole]

end TextLines
