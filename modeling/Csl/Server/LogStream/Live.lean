import Csl.Agent.LogStream.StartOffset
import Csl.Server.LogStream

/-! A running job's log on its way to the viewer.

While the job writes whole lines, no read of the agent ends within one, whenever it comes. What is
replayed when the viewer comes and what is written afterwards then make one sequence of lines, and the
viewer gets from it what the stages leave of each.
-/

set_option autoImplicit false

namespace Csl.Server.LogStream
open Csl.Agent.LogStream LineBreaks ServerSentEvents Whitespace Lines

/-- While a viewer is connected, the job writes lines and the agent's reader has its turns. -/
inductive Step
  | writes (lines : List (List Char))
  | turn

def Step.event : Step → Csl.Agent.LogStream.Event
  | .writes lines => .append (logOf lines)
  | .turn => .turn

def Step.written : Step → List (List Char)
  | .writes lines => lines
  | .turn => []

def replayed (tailLines : Int) (log : List (List Char)) : List (List Char) :=
  if tailLines = 0 then []
  else if 0 < tailLines then log.drop (log.length - tailLines.toNat)
  else log

def shown (tailLines : Int) (log grown : List (List Char)) (steps : List Step) : List (List Char) :=
  replayed tailLines log ++ (grown ++ steps.flatMap Step.written)

/-- The messages that reach the viewer of a log that grows; `grown` is written while the agent looks for the
offset, and the job ends after the steps. -/
def receivedLive (aiterLines : List Char → List (List Char)) (route : Route) (tailLines : Int)
    (log grown : List (List Char)) (steps : List Step) (extra : Nat) : List (List Char) :=
  let answered := sseEvents (streamed tailLines (logOf log) (logOf grown) (steps.map Step.event) extra).yields
  let passedOn := bodyOf route (streamLogs aiterLines (Utf8.decode (Utf8.encode answered))) none
  messages (Utf8.decode (Utf8.encode passedOn))

/-! ## Reads of whole lines -/

theorem logOf_append (first second : List (List Char)) : logOf (first ++ second) = logOf first ++ logOf second := by
  rw [logOf, List.flatMap_append, Utf8.encode_append]
  rfl

theorem logOf_line (line : List Char) : logOf [line] = Utf8.encode line ++ [newline] := by
  rw [logOf, List.flatMap_singleton, Utf8.encode_append]
  rfl

theorem ends_logOf {log : List (List Char)} (lines : log ≠ []) : (logOf log).getLast? = some newline := by
  rcases List.eq_nil_or_concat log with empty | ⟨before, line, same⟩
  · exact absurd empty lines
  · rw [same, List.concat_eq_append, logOf_append, logOf_line, ← List.append_assoc]
    exact List.getLast?_concat

theorem whole_logOf (log : List (List Char)) : Whole newline (logOf log) := by
  by_cases empty : log = []
  · rw [empty]
    exact whole_nil
  · exact Or.inr (ends_logOf empty)

theorem whole_of_append {first second : Bytes} (one : Whole newline first) (two : Whole newline second) :
    Whole newline (first ++ second) := by
  by_cases empty : second = []
  · rw [empty, List.append_nil]
    exact one
  · exact (whole_append first empty).mpr two

theorem whole_read {s s' : Tail} (step : Tail.Turn s s') (file : Whole newline s.file)
    (taken : Whole newline s.taken) : Whole newline s'.taken := by
  cases step with
  | @takes raw reads nonempty one ends front =>
    change Whole newline (List.flatten _)
    rw [Tail.taken_concat, whole_append _ nonempty]
    rcases ends with ends | all
    · exact ends
    · -- the read returned the end of the file
      have suffix : raw <:+ s.file := by
        rw [all]
        exact List.drop_suffix _ _
      obtain ⟨before, same⟩ := suffix
      rw [← same, whole_append _ nonempty] at file
      exact file
  | empty | asks | drained | stays => exact taken

theorem undisturbed_steps {start : Nat} {s : Tail} (follows : s.Follows start) (runs : s.done = false)
    (file : Whole newline s.file) (taken : Whole newline s.taken) (steps : List Step) :
    Undisturbed start s (steps.map Step.event) := by
  induction steps generalizing s with
  | nil => trivial
  | cons step rest ih =>
    cases step with
    | writes lines =>
      refine ⟨fun _ within => (follows.midLine_iff.mp within) taken, ?_⟩
      exact ih (follows.append runs _) runs (whole_of_append file (whole_logOf lines)) taken
    | turn =>
      have after := whole_read s.turn_cases file taken
      exact ih follows.turn ((Tail.done_turn s).trans runs) (by rwa [Tail.file_turn]) after

theorem appended_steps (steps : List Step) : appended (steps.map Step.event) = logOf (steps.flatMap Step.written) := by
  induction steps with
  | nil => rfl
  | cons step rest ih =>
    rw [List.flatMap_cons, logOf_append, ← ih]
    cases step with
    | writes lines => rfl
    | turn => exact (List.nil_append _).symm

/-! ## What is replayed -/

/-- The scan stops where it would without what is written behind the log meanwhile. -/
theorem tailStartOffset_grown (chunk : ℕ+) {tailLines : Nat} (positive : 0 < tailLines) {content grown : Bytes}
    (ends : content.getLast? = some newline) (whole : Whole newline grown) :
    (tailStartOffset chunk tailLines content (content ++ grown)).1 =
      ((lines newline content).take ((lines newline content).length - tailLines)).flatten.length := by
  have nonempty : content ≠ [] := by
    rintro rfl
    cases ends
  have size : (BinaryFile.seekEnd { content := content } 0).position ≠ 0 :=
    fun empty => nonempty (List.length_eq_zero_iff.mp empty)
  let f : BinaryFile := ((BinaryFile.seekEnd { content := content ++ grown } 1).read 1).2
  -- the file still ends with a newline, so the last byte of the log is taken for one, as it is
  have last : ((content ++ grown).drop ((content ++ grown).length - 1)).take 1 = [newline] := by
    rw [List.take_one, List.head?_drop, ← List.getLast?_eq_getElem?]
    have same : (content ++ grown).getLast? = some newline := by
      by_cases empty : grown = []
      · rw [empty, List.append_nil]
        exact ends
      · exact ((whole_append content empty).mpr whole).resolve_left (List.append_ne_nil_of_left_ne_nil nonempty grown)
    rw [same, Option.toList_some]
  have scanned : tailStartOffset chunk tailLines content (content ++ grown) =
      scanBack chunk tailLines (content.length - 1) f (content.length - 1) 0 := by
    have stop : (if ((content ++ grown).drop ((content ++ grown).length - 1)).take 1 = [newline] then content.length - 1
        else content.length) = content.length - 1 := if_pos last
    rw [tailStartOffset, if_neg size, ← stop]
    rfl
  have front : f.content.take (content.length - 1) = content.dropLast := by
    change (content ++ grown).take (content.length - 1) = _
    rw [List.take_append_of_le_length (Nat.sub_le ..), List.dropLast_eq_take]
  have trimmed : Trimmed content content.dropLast := by
    have split := List.dropLast_append_getLast? newline ends
    conv => arg 1; rw [← split]
    exact Trimmed.ended _
  have inside : content.length - 1 ≤ f.content.length := by
    change _ ≤ (content ++ grown).length
    rw [List.length_append]
    omega
  have counted : ((f.content.take (content.length - 1)).drop (content.length - 1)).count newline = 0 := by
    rw [List.drop_eq_nil_of_le (List.length_take_le _ _)]
    rfl
  have boundary := scanBack_boundary chunk inside (Nat.le_refl _) counted positive
  rw [front, ← scanned] at boundary
  exact boundary.eq_length trimmed

theorem flatten_take_logOf {log : List (List Char)} (each : ∀ line ∈ log, '\n' ∉ line) (count : Nat) :
    ((lines newline (logOf log)).take count).flatten = logOf (log.take count) := by
  have fewer : ∀ line ∈ log.take count, '\n' ∉ line := fun line member => each line (List.mem_of_mem_take member)
  rw [lines_logOf each, ← List.map_take, ← lines_logOf fewer, flatten_lines]

theorem startOffset_logOf (tailLines : Int) {log : List (List Char)} (grown : List (List Char))
    (each : ∀ line ∈ log, '\n' ∉ line) : ∃ before, log = before ++ replayed tailLines log ∧
      startOffset tailLines (logOf log) (logOf log ++ logOf grown) = (logOf before).length := by
  unfold startOffset replayed
  split_ifs with zero positive
  · exact ⟨log, (List.append_nil log).symm, rfl⟩
  · refine ⟨log.take (log.length - tailLines.toNat), (List.take_append_drop _ _).symm, ?_⟩
    by_cases empty : log = []
    · have nothing : (BinaryFile.seekEnd { content := logOf [] } 0).position = 0 := rfl
      rw [empty, List.take_nil, tailStartOffset, if_pos nothing]
      rfl
    · have count : (lines newline (logOf log)).length = log.length := by
        rw [lines_logOf each, List.length_map]
      rw [tailStartOffset_grown seekChunk (by omega) (ends_logOf empty) (whole_logOf grown), count,
        flatten_take_logOf each]
  · exact ⟨[], rfl, rfl⟩

/-! ## What the viewer gets -/

section
variable {tailLines : Int} {log grown : List (List Char)} {steps : List Step}

theorem undisturbed_opened : Undisturbed (startOffset tailLines (logOf log) (logOf log ++ logOf grown))
    (Tail.opened tailLines (logOf log) (logOf grown)) (steps.map Step.event) := by
  apply undisturbed_steps (Tail.Follows.opened tailLines (logOf log) (logOf grown)) rfl
  · exact whole_of_append (whole_logOf log) (whole_logOf grown)
  · exact whole_nil

theorem yields_shown (each : ∀ line ∈ log ++ (grown ++ steps.flatMap Step.written), '\n' ∉ line) (extra : Nat) :
    (streamed tailLines (logOf log) (logOf grown) (steps.map Step.event) extra).yields =
      (shown tailLines log grown steps).map rstripNewlines := by
  obtain ⟨before, same, offset⟩ := startOffset_logOf tailLines grown fun line member => each line (List.mem_append_left _ member)
  have file : wholeLog (logOf log) (logOf grown) (steps.map Step.event) =
      logOf before ++ logOf (shown tailLines log grown steps) := by
    rw [wholeLog, appended_steps, ← logOf_append, ← logOf_append, ← logOf_append, shown, ← List.append_assoc before, ← same,
      List.append_assoc]
  have plain : ∀ line ∈ shown tailLines log grown steps, '\n' ∉ line := by
    intro line member
    apply each
    rw [same, List.append_assoc]
    exact List.mem_append_right before member
  rw [yields_of_undisturbed undisturbed_opened, offset, file, List.drop_left]
  exact texts_logOf plain

end

/-- In whatever batches a job writes its lines, and whenever the agent reads, the viewer gets the lines that are replayed
and those that are written from then on, in order and once, each as the stages pass it on by itself. -/
theorem live_lines_arrive (aiterLines : List Char → List (List Char)) (splits : ∀ body, aiterLines body = splitlines body)
    (route : Route) (tailLines : Int) (log grown : List (List Char)) (steps : List Step) (extra : Nat)
    (each : ∀ line ∈ log ++ (grown ++ steps.flatMap Step.written), '\n' ∉ line) :
    receivedLive aiterLines route tailLines log grown steps extra =
        (shown tailLines log grown steps).flatMap (fun line => passedOn (rstripNewlines line)) ++ [[]] ∧
      (receivedLive aiterLines route tailLines log grown steps extra = shown tailLines log grown steps ++ [[]] ↔
        ∀ line ∈ shown tailLines log grown steps, Survives line) := by
  have received : receivedLive aiterLines route tailLines log grown steps extra =
      (shown tailLines log grown steps).flatMap (fun line => passedOn (rstripNewlines line)) ++ [[]] := by
    rw [receivedLive, yields_shown each]
    exact messages_passedOn splits route _
  refine ⟨received, ?_⟩
  rw [received, List.append_left_inj, flatMap_passedOn]

/-- The last line is replayed, one comes while the agent looks for it, and one between two of its turns. -/
theorem live_lines_arrive_build :
    receivedLive splitlines .web 1 [['a'], ['b']] [['c']] [.turn, .writes [['d', ' ', 'e']], .turn] 0 =
      [['b'], ['c'], ['d', ' ', 'e'], []] := by
  have each : ∀ line ∈ [['a'], ['b']] ++ ([['c']] ++ [['d', ' ', 'e']]), '\n' ∉ line := by decide
  have plain : ([['b'], ['c'], ['d', ' ', 'e']] : List (List Char)).all
      (fun line => line.all (fun c => !isLineBreak c) && decide (stripList line = line)) = true := by
    decide +kernel
  have survive : ∀ line ∈ [['b'], ['c'], ['d', ' ', 'e']], Survives line := by
    intro line member
    obtain ⟨unbroken, trimmed⟩ := (Bool.and_eq_true _ _).mp (List.all_eq_true.mp plain line member)
    exact ⟨fun c inside => (Bool.not_eq_true' _).mp (List.all_eq_true.mp unbroken c inside), of_decide_eq_true trimmed⟩
  exact (live_lines_arrive splitlines (fun _ => rfl) .web 1 [['a'], ['b']] [['c']] [.turn, .writes [['d', ' ', 'e']], .turn] 0
    each).2.mpr survive

end Csl.Server.LogStream
