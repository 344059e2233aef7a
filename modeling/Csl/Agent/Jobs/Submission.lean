import Csl.Agent.Approvals.Isolation
import Csl.Agent.Confinement

/-! What a submission does when nothing interrupts it.

The agent serves a request without waiting for anything, so between its checks and its launch
nobody else acts.
-/

set_option autoImplicit false

namespace Csl.Agent
open Csl.Shared ApprovalsManager Proc Confinement

def InLogs (host : Host) (jobUuid : String) : Prop :=
  ∀ path, host.logPath jobUuid = some path → ∃ file, path = .log file

structure Carries (host : Host) (w : World) (body : JobRequest) (launch : Launch) : Prop where
  script : launch.script = body.scriptName
  passes : Passes host w body
  intact : ∀ md5, (describe (w.resynced host).memory.store body.scriptName).approvedMd5 = some md5 →
    launch.content.map host.md5 = some md5

inductive SubmitEnds (host : Host) (w : World) (body : JobRequest) :
    Except Err JobStatusResponse → World → Prop where
  | refused {e : Err} {after : World} : after.launched = w.launched → SubmitEnds host w body (.error e) after
  | launched {result : Except Err JobStatusResponse} {after : World} {launch : Launch} :
      after.launched = w.launched ++ [launch] → Carries host w body launch →
      SubmitEnds host w body result after

variable {host : Host} {w : World} {body : JobRequest}

@[simp] theorem launched_resynced (host : Host) (w : World) :
    (w.resynced host).launched = w.launched := by
  unfold World.resynced
  split <;> rfl

theorem SubmitEnds.translated {result : Except Err JobStatusResponse} {after : World}
    (ends : SubmitEnds host w body result after) (translate : Err → Err) :
    SubmitEnds host w body
      (recoverWith (handle host) (fun e => throw (translate e)) (result, after)).1
      (recoverWith (handle host) (fun e => throw (translate e)) (result, after)).2 := by
  cases ends with
  | refused same => exact .refused same
  | launched more carries => cases result <;> exact .launched more carries

theorem text?_logOpened (inLogs : InLogs host body.jobUuid) {path : Path}
    (located : host.logPath body.jobUuid = some path) (file : String) :
    (w.logOpened host path).disk.text? host (.scripts file) = w.disk.text? host (.scripts file) := by
  obtain ⟨log, rfl⟩ := inLogs path located
  rw [World.logOpened, Disk.text?_write, if_neg]
  simp [Host.canonical]

theorem start_ends (inLogs : InLogs host body.jobUuid) (persistent : body.persistent = true)
    (expected : Expected host w body) :
    SubmitEnds host w body
      (host.run (ProcessManager.start host body.scriptName body.params body.jobUuid) w).1
      (host.run (ProcessManager.start host body.scriptName body.params body.jobUuid) w).2 := by
  rw [run_start]
  cases passed : (w.resynced host).disk.prepared host "start" body.scriptName body.params
      (describe (w.resynced host).memory.store body.scriptName) with
  | error e => exact .refused (launched_resynced host w)
  | ok ready =>
    cases located : host.logPath body.jobUuid with
    | none => exact .refused (launched_resynced host w)
    | some path =>
      have cleared := prepared_ok passed
      have passes : Passes host w body := ⟨expected, ready, by rw [if_pos persistent, passed]⟩
      apply SubmitEnds.launched
      · change (w.resynced host).launched ++ _ = w.launched ++ _
        rw [launched_resynced]
      · refine ⟨rfl, passes, fun md5 recorded => ?_⟩
        obtain ⟨ending, _, script, _⟩ := Isolation.foundFrom_ok cleared.script
        -- The script was hashed before its log was opened.
        have hashed := cleared.intact md5 recorded
        rw [script, ← text?_logOpened inLogs located] at hashed
        change (((w.resynced host).logOpened host path).disk.text? host ready.1.script).map host.md5 = _
        rw [script, hashed]

theorem writeLog_launched (jobUuid : String) (result : ScriptResult) (w : World) :
    (host.run (writeLog host jobUuid result) w).2.launched = w.launched := by
  unfold writeLog
  cases host.logPath jobUuid <;> simp

theorem runScript_ends (oneOff : ¬ body.persistent) (expected : Expected host w body)
    {next : Timestamp → ScriptResult → Action JobStatusResponse}
    (quiet : ∀ startedAt result after,
      (host.run (next startedAt result) after).2.launched = after.launched) :
    SubmitEnds host w body
      (host.run (utcNow >>= fun startedAt =>
        MonadExcept.tryCatch (runScript host body.scriptName body.params)
          (fun e => throw (jobRefusal e)) >>= next startedAt) w).1
      (host.run (utcNow >>= fun startedAt =>
        MonadExcept.tryCatch (runScript host body.scriptName body.params)
          (fun e => throw (jobRefusal e)) >>= next startedAt) w).2 := by
  simp only [run_bind, run_utcNow, follow_ok, run_tryCatch, run_runScript]
  cases passed : (w.resynced host).disk.prepared host "run" body.scriptName body.params
      (describe (w.resynced host).memory.store body.scriptName) with
  | error e => exact .refused (launched_resynced host w)
  | ok ready =>
    have passes : Passes host w body := ⟨expected, ready, by rw [if_neg oneOff, passed]⟩
    have carries : Carries host w body ⟨body.scriptName, ready.1, ready.2,
        ((w.resynced host).disk.read host ready.1.script).map (·.text)⟩ :=
      ⟨rfl, passes, (prepared_ok passed).intact⟩
    apply SubmitEnds.launched _ carries
    simp only [recoverWith_ok, follow_ok]
    rw [quiet, World.launch, launched_resynced]

theorem SubmitEnds.same_lookup {result : Except Err JobStatusResponse} {after looked : World}
    (ends : SubmitEnds host looked body result after) (same : looked.resynced host = w.resynced host) :
    SubmitEnds host w body result after := by
  have launched : looked.launched = w.launched := by
    rw [← launched_resynced host looked, same, launched_resynced]
  cases ends with
  | refused kept => exact .refused (kept.trans launched)
  | launched more carries =>
    rw [launched] at more
    obtain ⟨script, passes, intact⟩ := carries
    unfold Passes at passes
    rw [same] at passes intact
    exact .launched more ⟨script, passes, intact⟩

theorem checkExpectedMd5_launched (body : JobRequest) (w : World) :
    (host.run (checkExpectedMd5 host body) w).2.launched = w.launched := by
  unfold checkExpectedMd5
  cases body.expectedMd5 with
  | none => rfl
  | some expected =>
    simp only [run_bind, run_getState, follow_ok]
    split <;> exact launched_resynced host w

/-- Expecting an md5, a submission launches that version or nothing. -/
theorem submitJob_ends (inLogs : InLogs host body.jobUuid) :
    SubmitEnds host w body (host.run (submitJob host body) w).1 (host.run (submitJob host body) w).2 := by
  simp only [submitJob, run_bind]
  rcases @run_checkExpectedMd5 host body w with
    ⟨_, e, after, checked⟩ | ⟨expected, after, checked, same⟩
  · have kept := @checkExpectedMd5_launched host body w
    rw [checked] at kept
    simp only [checked, follow_error]
    exact .refused kept
  · have expected : Expected host after body := by
      unfold Expected at expected ⊢
      rwa [same]
    simp only [checked, follow_ok]
    apply SubmitEnds.same_lookup _ same
    by_cases persistent : body.persistent
    · rw [if_pos persistent, run_tryCatch]
      exact (start_ends inLogs persistent expected).translated jobRefusal
    · rw [if_neg persistent]
      apply runScript_ends persistent expected
      intro startedAt result after
      have kept := @writeLog_launched host body.jobUuid result after
      simp only [run_bind]
      rcases written : host.run (writeLog host body.jobUuid result) after with ⟨e | _, left⟩
      · simpa only [written, follow_error] using kept
      · simpa only [written, follow_ok, run_bind, run_utcNow, run_pure] using kept

end Csl.Agent
