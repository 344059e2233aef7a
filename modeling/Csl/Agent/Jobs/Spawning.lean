import Csl.Agent.Jobs.Submission
import Csl.Library.Calls

/-! What the operating system makes of a launch.

A process may fail to start, and one that ran leaves an exit code and bytes, which the agent
decodes in text mode. `handle` answers a launch with the host's result; here the answer is
derived from what the process left.
-/

set_option autoImplicit false

namespace Csl.Agent
open Csl.Shared ApprovalsManager Proc

inductive PopenError where
  | osError (message : String)
  | valueError (message : String)
  deriving DecidableEq, Repr

def PopenError.raised : PopenError → Err
  | .osError message => .osError message
  | .valueError message => .valueError message

structure Ended where
  exitCode : Int
  stdout : List UInt8
  stderr : List UInt8
  deriving DecidableEq, Repr

structure Launcher where
  popenError : Command → Dict String String → Option PopenError
  /-- What the k-th process to be launched leaves. -/
  ended : Nat → Ended
  /-- `bytes.decode` with the locale's encoding; none when it raises. -/
  decode : List UInt8 → Option String

def md5Check (body : JobRequest) (found : ScriptDescriptor) : Except Err Unit :=
  match body.expectedMd5 with
  | none => .ok ()
  | some expected => if found.approvedMd5 ≠ some expected then .error (md5Mismatch found expected) else .ok ()

def World.checked (host : Host) (w : World) (verb : String) (body : JobRequest) :
    Except Err (Command × Dict String String) :=
  let found := describe (w.resynced host).memory.store body.scriptName
  match md5Check body found with
  | .error e => .error e
  | .ok _ =>
    ((w.resynced host).disk.prepared host verb body.scriptName body.params found).mapError jobRefusal

namespace Launcher
variable (launcher : Launcher)

/-- `subprocess.run(…, text=True)` once the process has ended. -/
def result (ended : Ended) : Except Err ScriptResult :=
  match launcher.decode ended.stdout, launcher.decode ended.stderr with
  | some stdout, some stderr =>
    .ok ⟨ended.exitCode, Newlines.universal stdout, Newlines.universal stderr, false⟩
  | _, _ => .error .undecodable

def handle (host : Host) : Handler Op Reply Err World
  | .popen script command env, w =>
    match launcher.popenError command env with
    | some e => (.error e.raised, w)
    | none => (.ok (), w.launch host script command env)
  | .runToEnd script command env, w =>
    match launcher.popenError command env with
    | some e => (.error e.raised, w)
    | none => (launcher.result (launcher.ended w.launched.length), w.launch host script command env)
  | op, w => Agent.handle host op w

def submitted (host : Host) (w : World) (body : JobRequest) : Except Err JobStatusResponse × World :=
  (submitJob host body).run (launcher.handle host) w

variable {launcher} {host : Host} {w : World} {body : JobRequest}

/-- Where every process starts and its output decodes, launches are answered with the host's results. -/
theorem handle_eq_host (starts : ∀ command env, launcher.popenError command env = none)
    (outputs : ∀ k, launcher.result (launcher.ended k) = .ok (host.processResult k)) :
    launcher.handle host = Agent.handle host := by
  funext op w
  cases op with
  | popen script command env => simp only [handle, Agent.handle, starts]
  | runToEnd script command env => simp only [handle, Agent.handle, starts, outputs]
  | _ => rfl

/-! ## The checks -/

theorem run_utcNow (w : World) : utcNow.run (launcher.handle host) w = (.ok w.now, w) := rfl

theorem run_mkdir (dir : Dir) (w : World) : (mkdir dir).run (launcher.handle host) w = (.ok (), w) := rfl

theorem looks_agree : Looks fun op => launcher.handle host op = Agent.handle host op :=
  ⟨rfl, fun _ => rfl, rfl, fun _ => rfl, rfl, fun _ => rfl, fun _ => rfl⟩

theorem run_prepare (verb name : String) (params : Params) (w : World) :
    (prepare host verb name params).run (launcher.handle host) w =
      ((w.resynced host).disk.prepared host verb name params
        (describe (w.resynced host).memory.store name), w.resynced host) := by
  rw [← Agent.run_prepare]
  exact (uses_prepare looks_agree (fun _ => rfl) verb name params).run_eq w

theorem run_checkExpectedMd5 (body : JobRequest) (w : World) :
    ∃ after, (checkExpectedMd5 host body).run (launcher.handle host) w =
        (md5Check body (describe (w.resynced host).memory.store body.scriptName), after) ∧
      after.resynced host = w.resynced host ∧ after.launched = w.launched ∧ after.now = w.now := by
  unfold checkExpectedMd5 md5Check
  cases body.expectedMd5 with
  | none => exact ⟨w, rfl, rfl, rfl, rfl⟩
  | some expected =>
    refine ⟨w.resynced host, ?_, w.resynced_resynced host, launched_resynced host w, w.now_resynced host⟩
    have looked : (getState host body.scriptName).run (launcher.handle host) w =
        (.ok (describe (w.resynced host).memory.store body.scriptName), w.resynced host) := by
      rw [← run_getState]
      exact (uses_getState looks_agree body.scriptName).run_eq w
    simp only [run_bind, looked, follow_ok]
    split <;> rfl

/-! ## The two branches -/

def verb (body : JobRequest) : String := if body.persistent then "start" else "run"

theorem submitted_refused {e : Err} (refused : w.checked host (verb body) body = .error e) :
    (launcher.submitted host w body).1 = .error e ∧
      (launcher.submitted host w body).2.launched = w.launched := by
  obtain ⟨after, checked, same, launched, _⟩ := @run_checkExpectedMd5 launcher host body w
  unfold submitted submitJob
  rw [run_bind, checked]
  unfold World.checked at refused
  simp only at refused
  cases expected : md5Check body (describe (w.resynced host).memory.store body.scriptName) with
  | error other =>
    rw [expected] at refused
    cases refused
    exact ⟨rfl, launched⟩
  | ok _ =>
    simp only [expected] at refused
    rw [follow_ok]
    unfold verb at refused
    -- both branches prepare a launch alike, each in its own words
    cases persistent : body.persistent with
    | true =>
      rw [persistent, if_pos rfl] at refused
      simp only [if_true, run_tryCatch, ProcessManager.start, run_bind, run_prepare, same]
      cases passed : (w.resynced host).disk.prepared host "start" body.scriptName body.params
          (describe (w.resynced host).memory.store body.scriptName) with
      | ok ready => rw [passed] at refused; cases refused
      | error raised =>
        rw [passed] at refused
        cases refused
        exact ⟨rfl, launched_resynced host w⟩
    | false =>
      rw [persistent] at refused
      simp only [Bool.false_eq_true, if_false] at refused ⊢
      simp only [run_bind, run_utcNow, follow_ok, run_tryCatch, runScript, run_prepare, same]
      cases passed : (w.resynced host).disk.prepared host "run" body.scriptName body.params
          (describe (w.resynced host).memory.store body.scriptName) with
      | ok ready => rw [passed] at refused; cases refused
      | error raised =>
        rw [passed] at refused
        cases refused
        exact ⟨rfl, launched_resynced host w⟩

theorem checked_ok {verb : String} {ready : Command × Dict String String}
    (passed : w.checked host verb body = .ok ready) :
    md5Check body (describe (w.resynced host).memory.store body.scriptName) = .ok () ∧
      (w.resynced host).disk.prepared host verb body.scriptName body.params
        (describe (w.resynced host).memory.store body.scriptName) = .ok ready := by
  unfold World.checked at passed
  simp only at passed
  split at passed
  · cases passed
  next expected =>
    refine ⟨expected, ?_⟩
    cases prepared : (w.resynced host).disk.prepared host verb body.scriptName body.params
        (describe (w.resynced host).memory.store body.scriptName) with
    | error e => rw [prepared] at passed; cases passed
    | ok other => rw [prepared] at passed; exact passed

/-- A persistent job whose checks pass: its log is opened, and then Popen is called. -/
theorem submitted_start (persistent : body.persistent = true) {command : Command} {env : Dict String String}
    (passed : w.checked host "start" body = .ok (command, env)) :
    launcher.submitted host w body =
      match host.logPath body.jobUuid with
      | none => (.error (.cannotOpenLog body.jobUuid), w.resynced host)
      | some path =>
        match launcher.popenError command env with
        | some e => (.error e.raised, (w.resynced host).logOpened host path)
        | none =>
          (.ok { jobUuid := body.jobUuid, scriptName := body.scriptName, status := .running,
                 persistent := true, startedAt := w.now },
            ((w.resynced host).logOpened host path).launch host body.scriptName command env) := by
  obtain ⟨after, checked, same, _⟩ := @run_checkExpectedMd5 launcher host body w
  obtain ⟨expected, prepared⟩ := checked_ok passed
  unfold submitted submitJob
  rw [run_bind, checked, expected, follow_ok, if_pos persistent]
  simp only [run_tryCatch, ProcessManager.start, run_bind, run_prepare, same, prepared, follow_ok, openLog]
  rw [run_mkdir, follow_ok]
  cases located : host.logPath body.jobUuid with
  | none => rfl
  | some path =>
    have opened : (writeText path "" .exact).run (launcher.handle host) (w.resynced host) =
        (.ok (), (w.resynced host).logOpened host path) := rfl
    have spawned : (popen body.scriptName command env).run (launcher.handle host)
        ((w.resynced host).logOpened host path) =
        launcher.handle host (.popen body.scriptName command env) ((w.resynced host).logOpened host path) :=
      run_perform _ _ _
    rw [opened, follow_ok, run_bind, spawned]
    simp only [handle]
    cases refused : launcher.popenError command env with
    | none =>
      rw [follow_ok, run_bind, run_utcNow, follow_ok, run_pure, recoverWith_ok, ← w.now_resynced host]
      rfl
    | some e => cases e <;> rfl

/-- A one-off job whose checks pass: it is run to its end, and then its log is written. -/
theorem submitted_run (oneOff : body.persistent = false) {command : Command} {env : Dict String String}
    (passed : w.checked host "run" body = .ok (command, env)) :
    (∀ e, launcher.popenError command env = some e →
      launcher.submitted host w body = (.error e.raised, w.resynced host)) ∧
    (launcher.popenError command env = none →
      let ran := (w.resynced host).launch host body.scriptName command env
      launcher.submitted host w body =
        match launcher.result (launcher.ended w.launched.length), host.logPath body.jobUuid with
        | .error e, _ => (.error (jobRefusal e), ran)
        | .ok _, none => (.error (.cannotOpenLog body.jobUuid), ran)
        | .ok result, some path =>
          (.ok { jobUuid := body.jobUuid, scriptName := body.scriptName,
                 status := if result.exitCode = 0 then .completed else .failed,
                 persistent := false, startedAt := w.now, endedAt := some w.now,
                 exitCode := some result.exitCode },
            { ran with disk := ran.disk.write host path (encode host .platform (logText result)) })) := by
  obtain ⟨after, checked, same, launched, now⟩ := @run_checkExpectedMd5 launcher host body w
  obtain ⟨expected, prepared⟩ := checked_ok passed
  have spawned : (runToEnd body.scriptName command env).run (launcher.handle host) (w.resynced host) =
      launcher.handle host (.runToEnd body.scriptName command env) (w.resynced host) := run_perform _ _ _
  have persistent : ¬ body.persistent = true := by simp [oneOff]
  unfold submitted submitJob
  rw [run_bind, checked, expected, follow_ok, if_neg persistent, run_bind, run_utcNow, follow_ok, run_bind,
    run_tryCatch, runScript, run_bind, run_prepare, same, prepared, follow_ok, spawned, now]
  constructor
  · intro e refused
    -- Popen raises, and no log is written
    simp only [handle, refused]
    cases e <;> rfl
  · intro starts
    simp only [handle, starts, launched_resynced]
    cases launcher.result (launcher.ended w.launched.length) with
    | error e => rfl
    | ok result =>
      rw [recoverWith_ok, follow_ok, run_bind, writeLog, run_bind, run_mkdir, follow_ok]
      cases located : host.logPath body.jobUuid with
      | none => rfl
      | some path =>
        have stamped : ((w.resynced host).launch host body.scriptName command env).now = w.now := w.now_resynced host
        rw [← stamped]
        rfl

end Launcher

end Csl.Agent
