import Csl.Server.Session.Agents
import Csl.Server.Session.Scripts
import Csl.Server.Web.Machines

/-! Submitting and killing jobs, with the transactions of the routes. -/

set_option autoImplicit false

namespace Csl.Server.Session
open Csl.Shared Csl.Agent

variable (runtime : Runtime) (c : Conversation)

/-- `get_script_or_raise`, its ScriptRegistryError answered with 404. -/
def getScriptOr404 (name : String) : Work Script := do
  match ← run (.findScript name) with
  | none => throw (.http 404 none ((RegistryError.notFound name).text runtime.toPlatform))
  | some script => return script

def getJobOr404 (jobUuid : String) : Work Job := do
  match ← run (.findJob jobUuid) with
  | none => throw (.http 404 none "Job not found")
  | some job => return job

/-- `session.refresh`. -/
def refreshJob (job : Job) : Work Job := do
  match ← run (.findJobById job.id) with
  | none => throw .invalidRequest
  | some fresh => return fresh

/-- A row that has not changed is not written. -/
def flushJob (job : Job) (update : JobUpdate) : Work Unit :=
  if update = {} then pure () else run (.updateJob job.id update)

def syncAndCommit (round : Nat) (machine : Machine) (script : Script) : Work TargetState := do
  let (resolved, change) ← syncScript runtime c round machine script
  change.flush
  commit
  return resolved

namespace Api

/-- What submit_job makes of the exceptions of the client's call. After a refusal the cached
state is refreshed. -/
def refusal (machine : Machine) (script : Script) (scriptName : String) : Raised → Work JobStatusResponse
  | .client (.agentValidation name problem) =>
      throw (.client (.http 422 (some .validationError) (.validation name problem)))
  | .client (.agentApproval ..) => do
      let resolved ← syncAndCommit runtime c 1 machine script
      throw (.client (Server.Api.approvalErrorResponse runtime.toPlatform resolved scriptName))
  | .client (.agentClient message) | .client (.agentNotReachable message) =>
      throw (.client (.http 502 (some .agentUnreachable) (.text message)))
  | e => throw e

/-- `jobUuid` is the new uuid4. -/
def submitJob (machineId : Nat) (body : Server.Api.SubmitJobIn) (jobUuid : String)
    (credentials : Option String) : Work Answer := do
  let user ← currentUser runtime credentials
  let machine ← getMachineOr404 machineId
  assertAccess user machineId
  let script ← getScriptOr404 runtime body.scriptName
  hear c.key
  let answer ← withAgent c do
    hear c.ensured
    let resolved ← syncAndCommit runtime c 0 machine script
    if resolved ≠ .agent .approved then do
      recordAudit "job.submit" "machine" (toString machineId) "rejected" (some user.id)
        [("script", body.scriptName), ("agent_state", resolved.text)] true
      throw (.client (Server.Api.approvalErrorResponse runtime.toPlatform resolved body.scriptName))
    else tryCatch (hear c.submitted) (refusal runtime c machine script body.scriptName)
  let job ← run (.insertJob
    (Server.Api.jobFields user.toUser machineId script body.params jobUuid answer))
  recordAudit "job.submit" "job" jobUuid "success" (some user.id)
    [("machine_id", toString machineId), ("script", body.scriptName), ("persistent", toString script.persistent)]
    false
  commit
  return .job (← refreshJob job)

def killJob (jobUuid : String) (credentials : Option String) : Work Answer := do
  let user ← currentUser runtime credentials
  let job ← getJobOr404 jobUuid
  if job.persistent = false then throw (.http 400 none "Cannot kill a non-persistent job")
  else do
    let _ ← getMachineOr404 job.machineId
    hear c.key
    withAgent c (hear c.killed)
    let now ← utcNow
    flushJob job (Server.Api.killOf job (runtime.timestamp now))
    recordAudit "job.kill" "job" jobUuid "success" (some user.id) [("machine_id", toString job.machineId)] false
    commit
    return .noContent

end Api

namespace Web

def refusedRun (status : Nat) (approvalError repr scriptName : String) : Answer :=
  .page status (Server.Web.approvalMsg approvalError repr scriptName)

/-- `form` gives the values of the submitted form for the parameters of a script's metadata,
`jobUuid` is the new uuid4. -/
def runSubmit (machineId : Nat) (scriptName : String) (form : Script → Params) (jobUuid : String)
    (access : Option String) : Work Answer := do
  let user ← webCurrentUser runtime access
  let machine ← getMachineOr404 machineId
  assertAccess user machineId
  let script ← getScriptOr404 runtime scriptName
  hear c.key
  let submitted : Except Answer JobStatusResponse ← tryCatch (withAgent c do
      hear c.ensured
      let resolved ← syncAndCommit runtime c 0 machine script
      if resolved ≠ .agent .approved then
        return .error (refusedRun 409 resolved.text (Server.Api.stateRepr runtime.toPlatform resolved) scriptName)
      else do
        let answer ← hear c.submitted
        return .ok answer)
    fun e =>
      match e with
      | .client e =>
        if e.isAgentClientError then
          return .error (refusedRun 502 "agent_error" (runtime.repr "agent_error") scriptName)
        else throw (.client e)
      | e => throw e
  match submitted with
  | .error page => return page
  | .ok answer => do
    let _ ← run (.insertJob
      (Server.Api.jobFields user.toUser machineId script (form script) jobUuid answer))
    commit
    return .redirect s!"/jobs/{jobUuid}" s!"Job started: {scriptName}" "success"

/-- One-off jobs are killed too, as far as the agent knows them. -/
def killJobWeb (jobUuid : String) (access : Option String) : Work Answer := do
  let _ ← webCurrentUser runtime access
  let job ← getJobOr404 jobUuid
  match ← run (.findMachine job.machineId) with
  | none => return .page 200 "Machine not found"
  | some _ => do
    hear c.key
    let refused : Bool ← tryCatch (do
        withAgent c (hear c.killed)
        return false)
      fun e =>
        match e with
        | .client e => if e.isAgentClientError then return true else throw (.client e)
        | e => throw e
    if refused then return .page 200 "Kill failed"
    else do
      let now ← utcNow
      flushJob job (Server.Api.killOf job (runtime.timestamp now))
      commit
      return .page 200 "Killed"

end Web

end Csl.Server.Session
