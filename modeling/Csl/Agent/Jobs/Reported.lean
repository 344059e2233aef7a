import Csl.Agent.Jobs.Launches
import Csl.Agent.Jobs.Spawning

/-! What a one-off job reports once its process has been launched.

The output passes three layers: it is decoded strictly, its line endings become newlines, and the
log is written with the platform's. Whatever comes out of them different is not what the process wrote.
-/

set_option autoImplicit false

namespace Csl.Agent.Reported
open Csl.Shared

/-- A submission answers with the exit code, and the log has all that the process wrote. -/
structure Reports (launcher : Launcher) (host : Host) (body : JobRequest) (ended : Ended)
    (answer : Except Err JobStatusResponse) (after : World) : Prop where
  answer : ∃ response, answer = .ok response ∧ response.jobUuid = body.jobUuid ∧
    response.exitCode = some ended.exitCode ∧
    response.status = if ended.exitCode = 0 then .completed else .failed
  log : ∃ path stdout stderr, host.logPath body.jobUuid = some path ∧
    launcher.decode ended.stdout = some stdout ∧ launcher.decode ended.stderr = some stderr ∧
    after.disk.text? host path = some (stdout ++ stderr)

def KeepsLineEnds (host : Host) (text : String) : Prop := encode host .platform (Newlines.universal text) = text

instance (host : Host) (text : String) : Decidable (KeepsLineEnds host text) := inferInstanceAs (Decidable (_ = _))

/-- The log can be opened, and both outputs decode to texts with the platform's line endings. -/
structure Recordable (launcher : Launcher) (host : Host) (body : JobRequest) (ended : Ended) : Prop where
  opens : (host.logPath body.jobUuid).isSome
  stdout : ∃ text, launcher.decode ended.stdout = some text ∧ KeepsLineEnds host text
  stderr : ∃ text, launcher.decode ended.stderr = some text ∧ KeepsLineEnds host text

variable {launcher : Launcher} {host : Host} {w : World} {body : JobRequest}

/-! ## Line endings -/

theorem keepsLineEnds_posix (posix : host.isWindows = false) (text : String) :
    KeepsLineEnds host text ↔ '\r' ∉ text.toList := by
  unfold KeepsLineEnds encode
  rw [posix]
  constructor
  · intro same
    have plain := Newlines.universalList_no_return text.toList
    rwa [← String.toList_ofList (l := Newlines.universalList text.toList),
      show String.ofList _ = text from same] at plain
  · exact Newlines.universal_plain text

theorem encode_append (first second : String) :
    encode host .platform (first ++ second) = encode host .platform first ++ encode host .platform second := by
  simp only [encode]
  split
  · exact Newlines.crlf_append first second
  · rfl

/-- Text mode shortens every text, or lengthens every text, so two texts are kept together only if
each of them is. -/
theorem keepsLineEnds_append (first second : String) :
    encode host .platform (Newlines.universal first ++ Newlines.universal second) = first ++ second ↔
      KeepsLineEnds host first ∧ KeepsLineEnds host second := by
  rw [encode_append]
  constructor
  · intro same
    have lists := congrArg String.toList same
    rw [String.toList_append, String.toList_append] at lists
    have total := congrArg List.length lists
    rw [List.length_append, List.length_append] at total
    have lengths : (encode host .platform (Newlines.universal first)).toList.length = first.toList.length := by
      unfold encode at total ⊢
      cases windows : host.isWindows with
      | true =>
        have left := Newlines.length_le_crlfList_universalList first.toList
        have right := Newlines.length_le_crlfList_universalList second.toList
        simp only [windows, if_true, Newlines.crlf, Newlines.universal, String.toList_ofList] at total ⊢
        omega
      | false =>
        have left := Newlines.length_universalList_le first.toList
        have right := Newlines.length_universalList_le second.toList
        simp only [windows, Bool.false_eq_true, if_false, Newlines.universal, String.toList_ofList] at total ⊢
        omega
    obtain ⟨left, right⟩ := List.append_inj lists lengths
    exact ⟨String.toList_inj.mp left, String.toList_inj.mp right⟩
  · rintro ⟨left, right⟩
    exact congrArg₂ (· ++ ·) left right

/-! ## The report -/

theorem launched_cases (oneOff : body.persistent = false)
    (launched : (launcher.submitted host w body).2.launched ≠ w.launched) :
    ∃ command env, w.checked host "run" body = .ok (command, env) ∧
      launcher.popenError command env = none := by
  cases checked : w.checked host "run" body with
  | error e =>
    have named : w.checked host (Launcher.verb body) body = .error e := by
      rw [Launcher.verb, oneOff]
      exact checked
    exact absurd (Launcher.submitted_refused named).2 launched
  | ok ready =>
    cases refused : launcher.popenError ready.1 ready.2 with
    | none => exact ⟨ready.1, ready.2, rfl, refused⟩
    | some e =>
      rw [(Launcher.submitted_run oneOff checked).1 e refused] at launched
      exact absurd (launched_resynced host w) launched

/-- Once its process has been launched, a one-off job reports back exactly if its log can be opened
and what the process wrote decodes to text with the platform's line endings. -/
theorem reports_iff (oneOff : body.persistent = false)
    (launched : (launcher.submitted host w body).2.launched ≠ w.launched) :
    Reports launcher host body (launcher.ended w.launched.length) (launcher.submitted host w body).1
        (launcher.submitted host w body).2 ↔
      Recordable launcher host body (launcher.ended w.launched.length) := by
  obtain ⟨command, env, checked, starts⟩ := launched_cases oneOff launched
  rw [(Launcher.submitted_run oneOff checked).2 starts]
  generalize launcher.ended w.launched.length = ended
  -- what does not decode is in no log
  cases stdout : launcher.decode ended.stdout with
  | none =>
    constructor
    · intro reports
      obtain ⟨_, text, _, _, decodes, _⟩ := reports.log
      cases stdout.symm.trans decodes
    · intro recordable
      obtain ⟨text, decodes, _⟩ := recordable.stdout
      cases stdout.symm.trans decodes
  | some out =>
    cases stderr : launcher.decode ended.stderr with
    | none =>
      constructor
      · intro reports
        obtain ⟨_, _, text, _, _, decodes, _⟩ := reports.log
        cases stderr.symm.trans decodes
      · intro recordable
        obtain ⟨text, decodes, _⟩ := recordable.stderr
        cases stderr.symm.trans decodes
    | some err =>
      have decoded : launcher.result ended =
          .ok ⟨ended.exitCode, Newlines.universal out, Newlines.universal err, false⟩ := by
        unfold Launcher.result
        rw [stdout, stderr]
      rw [decoded]
      cases located : host.logPath body.jobUuid with
      | none =>
        constructor
        · intro reports
          obtain ⟨path, _, _, opens, _⟩ := reports.log
          cases located.symm.trans opens
        · intro recordable
          have opens := recordable.opens
          rw [located] at opens
          cases opens
      | some path =>
        have written : logText ⟨ended.exitCode, Newlines.universal out, Newlines.universal err, false⟩ =
            Newlines.universal out ++ Newlines.universal err := by
          simp [logText]
        simp only [written]
        constructor
        · intro reports
          obtain ⟨_, _, _, opens, first, second, text⟩ := reports.log
          cases located.symm.trans opens
          cases stdout.symm.trans first
          cases stderr.symm.trans second
          rw [Disk.text?_write, if_pos rfl] at text
          -- the log is both outputs in text mode, so that each of them must be kept
          obtain ⟨left, right⟩ := (keepsLineEnds_append out err).mp (Option.some.inj text)
          exact ⟨by rw [located]; rfl, ⟨out, stdout, left⟩, err, stderr, right⟩
        · rintro ⟨_, ⟨_, first, left⟩, _, second, right⟩
          cases stdout.symm.trans first
          cases stderr.symm.trans second
          constructor
          · exact ⟨_, rfl, rfl, rfl, rfl⟩
          · refine ⟨path, out, err, located, stdout, stderr, ?_⟩
            rw [Disk.text?_write, if_pos rfl, (keepsLineEnds_append out err).mpr ⟨left, right⟩]

/-! ## A byte that is no text -/

def ascii (bytes : List UInt8) : Option String :=
  if bytes.all (· < 128) then some (String.ofList (bytes.map fun byte => Char.ofNat byte.toNat)) else none

def printing (stdout : List UInt8) : Launcher where
  popenError _ _ := none
  ended _ := ⟨0, stdout, []⟩
  decode := ascii

def oneOffJob : JobRequest :=
  { jobUuid := "job-1", scriptName := "deploy", params := Dict.empty, persistent := false, expectedMd5 := none }

def approvedWorld : World := Runs.run (Launches.serve linux []) World.fresh (Launches.approvedRun "deploy")

theorem reports_iff_ok :
    Reports (printing [79, 75, 10]) linux oneOffJob ⟨0, [79, 75, 10], []⟩
      ((printing [79, 75, 10]).submitted linux approvedWorld oneOffJob).1
      ((printing [79, 75, 10]).submitted linux approvedWorld oneOffJob).2 := by
  have launched : ((printing [79, 75, 10]).submitted linux approvedWorld oneOffJob).2.launched ≠
      approvedWorld.launched := by
    decide +kernel
  apply (reports_iff rfl launched).mpr
  constructor
  · decide
  · exact ⟨"OK\n", by decide, by decide⟩
  · exact ⟨"", by decide, by decide⟩

/-- The script ran to its end, and the submission raises without a log. -/
theorem undecodable_is_not_reported :
    ((printing [0xFF]).submitted linux approvedWorld oneOffJob).2.launched ≠ approvedWorld.launched ∧
    ((printing [0xFF]).submitted linux approvedWorld oneOffJob).2.disk.text? linux (.log "job-1.log") = none ∧
    ¬ Reports (printing [0xFF]) linux oneOffJob ⟨0, [0xFF], []⟩
      ((printing [0xFF]).submitted linux approvedWorld oneOffJob).1
      ((printing [0xFF]).submitted linux approvedWorld oneOffJob).2 := by
  refine ⟨by decide +kernel, by decide +kernel, ?_⟩
  intro reports
  obtain ⟨_, text, _, _, decodes, _⟩ := reports.log
  cases decodes

end Csl.Agent.Reported
