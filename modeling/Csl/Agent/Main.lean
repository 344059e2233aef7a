import Csl.Agent.ProcessManager
import Csl.Shared.ScriptName

/-! The agent's HTTP endpoints for scripts and jobs. -/

set_option autoImplicit false

namespace Csl.Agent
open Csl.Shared ApprovalsManager

variable (host : Host)

/-- The exceptions submit_job answers; any other one escapes the handler. -/
def jobRefusal : Err → Err
  | .scriptNotApproved message => .http 403 (.text message)
  | .paramValidation name problem => .http 422 (.validationError name problem)
  | .scriptIntegrity message => .http 409 (.approvalError "integrity" .approved message)
  | .scriptNotFound name _ => .http 404 (.notFound name)
  | .noInterpreter script => .http 404 (.notFound (fileName script))
  | e => e

def md5Text : Option String → String
  | none => "None"
  | some md5 => md5

def md5Mismatch (found : ScriptDescriptor) (expected : String) : Err :=
  .http 409 (.approvalError "md5_mismatch" found.state
    s!"approved MD5 {md5Text found.approvedMd5} != expected {expected}")

def checkExpectedMd5 (body : JobRequest) : Action Unit :=
  match body.expectedMd5 with
  | none => pure ()
  | some expected => do
    let found ← getState host body.scriptName
    if found.approvedMd5 ≠ some expected then throw (md5Mismatch found expected)
    else pure ()

def logText (result : ScriptResult) : String :=
  result.stdout ++ result.stderr ++ (if result.timedOut then "\n[timed out]\n" else "")

def writeLog (jobUuid : String) (result : ScriptResult) : Action Unit := do
  mkdir .logs
  match host.logPath jobUuid with
  | none => throw (.cannotOpenLog jobUuid)
  | some path => writeText path (logText result) .platform

def submitJob (body : JobRequest) : Action JobStatusResponse := do
  checkExpectedMd5 host body
  if body.persistent then
    tryCatch (ProcessManager.start host body.scriptName body.params body.jobUuid)
      (fun e => throw (jobRefusal e))
  else do
    let startedAt ← utcNow
    let result ← tryCatch (runScript host body.scriptName body.params)
      (fun e => throw (jobRefusal e))
    writeLog host body.jobUuid result
    let endedAt ← utcNow
    return { jobUuid := body.jobUuid, scriptName := body.scriptName,
             status := if result.exitCode = 0 then .completed else .failed,
             persistent := false, startedAt, endedAt := some endedAt,
             exitCode := some result.exitCode }

end Csl.Agent
