import Csl.Agent.LogStream.WholeLines
import Csl.Library.Whitespace

/-! A finished job's log on its way to the viewer.

The agent puts each line into an event, the server takes the data lines out of the
agent's stream and puts them into events of its own, and the viewer's client reads
those.
-/

set_option autoImplicit false

namespace Csl.Server.LogStream
open Csl.Agent.LogStream LineBreaks ServerSentEvents Whitespace

inductive Route
  | json
  | web
deriving DecidableEq

/-- `line[5:].strip()` of a line that starts with `data:`. -/
def dataOf (line : List Char) : Option (List Char) :=
  if "data:".toList.isPrefixOf line then some (stripList (line.drop 5)) else none

/-- `AgentClient.stream_logs`, over the lines that `resp.aiter_lines()` makes of the agent's answer. -/
def streamLogs (aiterLines : List Char → List (List Char)) (body : List Char) : List (List Char) :=
  (aiterLines body).filterMap dataOf

/-- `_event_stream` of `stream_job_logs` and `_events` of `job_log_stream`, with the exception that
ended the agent's stream early. -/
def bodyOf (route : Route) (lines : List (List Char)) (exc : Option (List Char)) : List Char :=
  match route, exc with
  | .json, none => lines.flatMap message
  | .json, some exc => lines.flatMap message ++ ("event: error\ndata: ".toList ++ exc ++ "\n\n".toList)
  | .web, none => lines.flatMap message ++ "event: end\ndata: done\n\n".toList
  | .web, some _ =>
    lines.flatMap message ++ (message "[log not available]".toList ++ "event: end\ndata: done\n\n".toList)

def logOf (file : List (List Char)) : Bytes := Utf8.encode (file.flatMap (· ++ ['\n']))

/-- What `sse_events` sends for a log that is complete when it is opened with tail -1; the job ends
after some turns of the reader. -/
def agentBody (content : Bytes) (turns extra : Nat) : List Char :=
  sseEvents (streamed (-1) content [] (List.replicate turns .turn) extra).yields

/-- The messages that reach the viewer. Both answers travel as UTF-8. -/
def received (aiterLines : List Char → List (List Char)) (route : Route) (content : Bytes) (turns extra : Nat) :
    List (List Char) :=
  let answered := Utf8.decode (Utf8.encode (agentBody content turns extra))
  let passedOn := bodyOf route (streamLogs aiterLines answered) none
  messages (Utf8.decode (Utf8.encode passedOn))

/-- A line that no stage breaks or trims. -/
def Survives (line : List Char) : Prop := (∀ c ∈ line, isLineBreak c = false) ∧ stripList line = line

instance (line : List Char) : Decidable (Survives line) := inferInstanceAs (Decidable (_ ∧ _))

def passedOn (line : List Char) : List (List Char) :=
  (pieces isLineBreak ("data: ".toList ++ line)).filterMap dataOf

theorem dataOf_message (data : List Char) : dataOf ("data: ".toList ++ data) = some (stripList data) :=
  congrArg some (stripList_space data)

theorem passedOn_eq (line : List Char) :
    ∃ others, passedOn line = stripList (line.takeWhile (fun c => !isLineBreak c)) :: others := by
  have breaks : isLineBreak '\n' = true := by decide
  obtain ⟨more, split⟩ := head_pieces breaks (by decide) ("data: ".toList ++ line)
  have label : "data: ".toList.all (fun c => !isLineBreak c) = true := by decide +kernel
  rw [List.takeWhile_append_of_pos (List.all_eq_true.mp label)] at split
  rw [passedOn, split, List.filterMap_cons_some (dataOf_message _)]
  exact ⟨_, rfl⟩

theorem passedOn_ne_nil (line : List Char) : passedOn line ≠ [] := by
  obtain ⟨others, split⟩ := passedOn_eq line
  rw [split]
  exact List.cons_ne_nil _ _

theorem rstripNewlines_prefix (line : List Char) : rstripNewlines line <+: line := List.rdropWhile_prefix _ line

theorem last_rstripNewlines (line : List Char) : (rstripNewlines line).getLast? ≠ some '\r' := by
  intro same
  have some : rstripNewlines line ≠ [] := by
    intro empty
    rw [empty] at same
    cases same
  have stays : ¬ (fun c => decide (c = '\r') || decide (c = '\n')) ((rstripNewlines line).getLast some) = true :=
    List.rdropWhile_last_not _ line some
  rw [List.getLast?_eq_some_getLast some] at same
  rw [Option.some.inj same] at stays
  exact stays rfl

theorem filterMap_splitlines (body : List Char) :
    (splitlines body).filterMap dataOf = (pieces isLineBreak body).filterMap dataOf := by
  rw [splitlines]
  by_cases last : (pieces isLineBreak body).getLast? = some []
  · rw [if_pos last]
    conv_rhs => rw [← List.dropLast_append_getLast? [] last, List.filterMap_append]
    exact (List.append_nil _).symm
  · rw [if_neg last]

theorem pieces_event {line : List Char} (last : line.getLast? ≠ some '\r') (rest : List Char) :
    pieces isLineBreak (message line ++ rest) =
      pieces isLineBreak ("data: ".toList ++ line) ++ [] :: pieces isLineBreak rest := by
  have end' : ("data: ".toList ++ line).getLast? ≠ some '\r' := by
    cases line with
    | nil => decide
    | cons c more =>
      rw [List.getLast?_append_of_ne_nil _ (List.cons_ne_nil c more)]
      exact last
  have split : message line ++ rest = ("data: ".toList ++ line) ++ '\n' :: ('\n' :: rest) :=
    List.append_assoc ("data: ".toList ++ line) "\n\n".toList rest
  rw [split, pieces_append (by decide) end', pieces_newline (by decide)]

/-- The server passes on what it takes out of each line's event, and then the empty data of the
agent's last event. -/
theorem streamLogs_sseEvents {lines : List (List Char)} (last : ∀ line ∈ lines, line.getLast? ≠ some '\r') :
    streamLogs splitlines (sseEvents lines) = lines.flatMap passedOn ++ [[]] := by
  rw [streamLogs, filterMap_splitlines, sseEvents]
  induction lines with
  | nil => decide +kernel
  | cons line rest ih =>
    have later := ih (fun l member => last l (List.mem_cons_of_mem line member))
    rw [List.flatMap_cons, List.append_assoc, pieces_event (last line List.mem_cons_self), List.filterMap_append,
      List.filterMap_cons_none rfl, later, List.flatMap_cons, List.append_assoc]
    rfl

theorem not_isLineEnd {c : Char} (free : isLineBreak c = false) : isLineEnd c = false := by
  by_contra ends
  rw [Bool.not_eq_false, isLineEnd, Bool.or_eq_true, decide_eq_true_iff, decide_eq_true_iff] at ends
  rcases ends with same | same
  all_goals
    rw [same] at free
    exact absurd free (by decide)

theorem oneLine_of_mem_streamLogs {body data : List Char} (member : data ∈ streamLogs splitlines body) : OneLine data := by
  rw [streamLogs, filterMap_splitlines] at member
  obtain ⟨piece, inside, taken⟩ := List.mem_filterMap.mp member
  have plain := plain_of_mem_pieces inside
  rw [dataOf] at taken
  split at taken
  · cases taken
    intro c found
    have whole : c ∈ piece := List.mem_of_mem_drop ((stripList_sublist _).subset found)
    exact not_isLineEnd (plain c whole)
  · cases taken

theorem messages_bodyOf {lines : List (List Char)} (one : ∀ data ∈ lines, OneLine data) (route : Route) :
    messages (bodyOf route lines none) = lines := by
  cases route with
  | json =>
    have received := messages_append one [] rfl
    rw [List.append_nil] at received
    exact received.trans (List.append_nil lines)
  | web =>
    have rest : messages "event: end\ndata: done\n\n".toList = [] := by decide +kernel
    have received := messages_append one "event: end\ndata: done\n\n".toList (by decide +kernel)
    rw [rest, List.append_nil] at received
    exact received

theorem undisturbed_turns (start : Nat) (s : Tail) (turns : Nat) :
    Undisturbed start s (List.replicate turns .turn) := by
  induction turns generalizing s with
  | zero => trivial
  | succ n ih => exact ih s.turn

theorem appended_turns (turns : Nat) : appended (List.replicate turns .turn) = [] := by
  induction turns with
  | zero => rfl
  | succ n ih => exact ih

theorem lines_logOf {file : List (List Char)} (each : ∀ line ∈ file, '\n' ∉ line) :
    Lines.lines newline (logOf file) = file.map (fun line => Utf8.encode (line ++ ['\n'])) := by
  have plain : ∀ bytes ∈ file.map Utf8.encode, newline ∉ bytes := by
    intro bytes member
    obtain ⟨line, inside, same⟩ := List.mem_map.mp member
    rw [← same]
    exact Utf8.newline_not_mem_encode (each line inside)
  have joined : logOf file = (file.map Utf8.encode).flatMap (· ++ [newline]) := by
    rw [logOf, Utf8.encode, List.flatMap_assoc, List.flatMap_map]
    congr 1
    funext line
    exact Utf8.encode_append line ['\n']
  rw [joined, Lines.lines_flatMap plain, List.map_map]
  congr 1
  funext line
  exact (Utf8.encode_append line ['\n']).symm

theorem texts_logOf {file : List (List Char)} (each : ∀ line ∈ file, '\n' ∉ line) :
    (Lines.lines newline (logOf file)).map text = file.map rstripNewlines := by
  rw [lines_logOf each, List.map_map]
  congr 1
  funext line
  change rstripNewlines (Utf8.decode (Utf8.encode (line ++ ['\n']))) = rstripNewlines line
  rw [Utf8.decode_encode, rstripNewlines, List.rdropWhile_concat_pos _ _ _ rfl]
  rfl

/-- The agent yields the lines, each without the carriage returns at its end. -/
theorem yields_logOf {file : List (List Char)} (each : ∀ line ∈ file, '\n' ∉ line) (turns extra : Nat) :
    (streamed (-1) (logOf file) [] (List.replicate turns .turn) extra).yields = file.map rstripNewlines := by
  have log : wholeLog (logOf file) [] (List.replicate turns .turn) = logOf file := by
    rw [wholeLog, appended_turns, List.append_nil, List.append_nil]
  rw [yields_of_undisturbed (undisturbed_turns _ _ turns), log]
  change (Lines.lines newline ((logOf file).drop 0)).map text = _
  rw [List.drop_zero, texts_logOf each]

theorem messages_passedOn {aiterLines : List Char → List (List Char)} (splits : ∀ body, aiterLines body = splitlines body)
    (route : Route) (file : List (List Char)) :
    messages (Utf8.decode (Utf8.encode (bodyOf route
        (streamLogs aiterLines (Utf8.decode (Utf8.encode (sseEvents (file.map rstripNewlines))))) none))) =
      file.flatMap (fun line => passedOn (rstripNewlines line)) ++ [[]] := by
  have same : aiterLines = splitlines := funext splits
  have last : ∀ line ∈ file.map rstripNewlines, line.getLast? ≠ some '\r' := by
    intro line member
    obtain ⟨whole, -, stripped⟩ := List.mem_map.mp member
    rw [← stripped]
    exact last_rstripNewlines whole
  rw [Utf8.decode_encode, Utf8.decode_encode, same, messages_bodyOf (fun data => oneLine_of_mem_streamLogs),
    streamLogs_sseEvents last, List.flatMap_map]

theorem received_eq {aiterLines : List Char → List (List Char)} (splits : ∀ body, aiterLines body = splitlines body)
    (route : Route) {file : List (List Char)} (each : ∀ line ∈ file, '\n' ∉ line) (turns extra : Nat) :
    received aiterLines route (logOf file) turns extra =
      file.flatMap (fun line => passedOn (rstripNewlines line)) ++ [[]] := by
  rw [received, agentBody, yields_logOf each]
  exact messages_passedOn splits route file

/-- What the server passes on of one line is the line where nothing in it breaks and nothing around
it is trimmed. -/
theorem passedOn_eq_singleton (line : List Char) : passedOn (rstripNewlines line) = [line] ↔ Survives line := by
  constructor
  · intro same
    obtain ⟨others, split⟩ := passedOn_eq (rstripNewlines line)
    rw [same] at split
    obtain ⟨trimmed, -⟩ := List.cons.inj split
    -- The line is a part of a part of itself, so nothing was taken off.
    have front := rstripNewlines_prefix line
    have first : (rstripNewlines line).takeWhile (fun c => !isLineBreak c) <+: rstripNewlines line :=
      List.takeWhile_prefix _
    have inner := stripList_sublist ((rstripNewlines line).takeWhile (fun c => !isLineBreak c))
    have length := congrArg List.length trimmed
    have short := front.length_le
    have shorter := first.length_le
    have shortest := inner.length_le
    have whole : rstripNewlines line = line := front.eq_of_length (by omega)
    rw [whole] at first inner trimmed shorter shortest length
    have unbroken : line.takeWhile (fun c => !isLineBreak c) = line := first.eq_of_length (by omega)
    rw [unbroken] at trimmed
    constructor
    · intro c member
      have free := List.takeWhile_eq_self_iff.mp unbroken c member
      rw [Bool.not_eq_true'] at free
      exact free
    · exact trimmed.symm
  · rintro ⟨plain, trimmed⟩
    have ends : rstripNewlines line = line := by
      apply List.rdropWhile_eq_self_iff.mpr
      intro some stops
      have free := not_isLineEnd (plain _ (List.getLast_mem some))
      rw [isLineEnd, Bool.or_comm] at free
      rw [free] at stops
      cases stops
    have unbroken : pieces isLineBreak ("data: ".toList ++ line) = ["data: ".toList ++ line] := by
      apply pieces_plain (by decide)
      have label : "data: ".toList.all (fun c => !isLineBreak c) = true := by decide +kernel
      intro c member
      rcases List.mem_append.mp member with named | inside
      · exact (Bool.not_eq_true' _).mp (List.all_eq_true.mp label c named)
      · exact plain c inside
    rw [ends, passedOn, unbroken, List.filterMap_cons_some (dataOf_message line), trimmed]
    rfl

theorem length_le_flatMap {f : List Char → List (List Char)} (some : ∀ line, f line ≠ []) (file : List (List Char)) :
    file.length ≤ (file.flatMap f).length := by
  induction file with
  | nil => exact Nat.le_refl _
  | cons line rest ih =>
    have positive := List.length_pos_iff.mpr (some line)
    rw [List.flatMap_cons, List.length_append, List.length_cons]
    omega

theorem flatMap_eq_self {f : List Char → List (List Char)} (some : ∀ line, f line ≠ []) (file : List (List Char)) :
    file.flatMap f = file ↔ ∀ line ∈ file, f line = [line] := by
  induction file with
  | nil => exact ⟨nofun, fun _ => rfl⟩
  | cons line rest ih =>
    rw [List.flatMap_cons, List.forall_mem_cons, ← ih]
    constructor
    · intro same
      have lengths := congrArg List.length same
      have more := length_le_flatMap some rest
      have positive := List.length_pos_iff.mpr (some line)
      rw [List.length_append, List.length_cons] at lengths
      have one : (f line).length = [line].length := by
        rw [List.length_singleton]
        omega
      exact List.append_inj same one
    · rintro ⟨one, others⟩
      rw [one, others]
      rfl

theorem flatMap_passedOn (file : List (List Char)) :
    file.flatMap (fun line => passedOn (rstripNewlines line)) = file ↔ ∀ line ∈ file, Survives line := by
  rw [flatMap_eq_self fun line => passedOn_ne_nil _]
  exact forall₂_congr fun line _ => passedOn_eq_singleton line

/-- The viewer never receives just the log's lines: the empty data of the agent's last event comes
behind them. Up to that message they are the log's lines exactly when each of them survives. -/
theorem log_is_changed (aiterLines : List Char → List (List Char)) (splits : ∀ body, aiterLines body = splitlines body)
    (route : Route) (file : List (List Char)) (each : ∀ line ∈ file, '\n' ∉ line) (turns extra : Nat) :
    received aiterLines route (logOf file) turns extra ≠ file ∧
      (received aiterLines route (logOf file) turns extra = file ++ [[]] ↔ ∀ line ∈ file, Survives line) := by
  have some : ∀ line, passedOn (rstripNewlines line) ≠ [] := fun line => passedOn_ne_nil _
  rw [received_eq splits route each]
  constructor
  · intro same
    have lengths := congrArg List.length same
    have more := length_le_flatMap some file
    rw [List.length_append, List.length_singleton] at lengths
    omega
  · rw [List.append_left_inj, flatMap_passedOn]

theorem log_is_changed_plain :
    (∀ body, splitlines body = splitlines body) ∧ (∀ line ∈ ["a".toList], '\n' ∉ line) ∧
      received splitlines .web (logOf ["a".toList]) 2 0 ≠ ["a".toList] :=
  have each : ∀ line ∈ ["a".toList], '\n' ∉ line := by decide
  ⟨fun _ => rfl, each, (log_is_changed splitlines (fun _ => rfl) .web ["a".toList] each 2 0).1⟩

/-- Blanks are trimmed, a line separator breaks the line and drops what stands behind it, and an
empty message follows. -/
theorem blanks_and_separators_are_lost :
    received splitlines .web (logOf ["  a".toList, ['b', '\u2028', 'c']]) 0 0 = ["a".toList, "b".toList, []] ∧
      received splitlines .web (logOf ["  a".toList, ['b', '\u2028', 'c']]) 0 0 ≠
        ["  a".toList, ['b', '\u2028', 'c']] := by
  decide +kernel

end Csl.Server.LogStream
