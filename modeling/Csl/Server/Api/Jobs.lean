import Csl.Server.ScriptSync

/-! The jobs API: submit, status, log streaming, kill, history. -/

set_option autoImplicit false

namespace Csl.Server.Api
open Csl.Shared Csl.Agent

structure SubmitJobIn where
  scriptName : String
  params : Params

/-- The query of list_jobs, with its bounds on the limit. -/
structure JobListQuery where
  machineId : Option Nat
  scriptName : Option String
  status : Option String
  limit : Nat
  limit_ge : 1 ≤ limit
  limit_le : limit ≤ 500

inductive StreamEvent where
  | data (line : String)
  | error (failure : Failure)
  | ended
  deriving DecidableEq, Repr

def machineNotFound : Failure := .http 404 none (.text "Machine not found")

def getMachineOr404 (machineId : Nat) : Task Machine := do
  match ← findMachine machineId with
  | none => throw machineNotFound
  | some machine => return machine

/-- Administrators need no bookmark. -/
def assertAccess (user : User) (machineId : Nat) : Task Unit :=
  if user.role = .admin then pure ()
  else do
    if ← findBookmark user.id machineId then return ()
    else throw (.http 403 none (.text "Access denied"))

def getJobOr404 (jobUuid : String) : Task Job := do
  match ← findJob jobUuid with
  | none => throw (.http 404 none (.text "Job not found"))
  | some job => return job

variable (platform : Platform)

/-- `get_script_or_raise`, its ScriptRegistryError answered with 404. -/
def getScriptOr404 (name : String) : Task Script := do
  match ← findScript name with
  | none => throw (.http 404 none (.text s!"script {platform.repr name} not found"))
  | some script => return script

/-- `repr` of a resolved state, a member of ApprovalState or a plain string. -/
def stateRepr : TargetState → String
  | .agent state => s!"<ApprovalState.{state.text}: {platform.repr state.text}>"
  | .approvedStale => platform.repr "approved_stale"

def approvalErrorResponse (agentState : TargetState) (scriptName : String) : Failure :=
  let conflict := fun error code message =>
    Failure.http 409 (some code) (.approval error agentState.text message)
  match agentState with
  | .agent .pending => conflict "pending_approval (new)" .approvalPending
      s!"Script {platform.repr scriptName} is pending approval on this machine"
  | .agent .updatePending => conflict "pending_approval (update)" .approvalPending
      s!"Script {platform.repr scriptName} has a pending update awaiting approval"
  | .agent .rejected => conflict "rejected" .approvalRejected
      s!"Script {platform.repr scriptName} was rejected on this machine"
  | _ => conflict agentState.text .approvalPending
      s!"Script {platform.repr scriptName} is not approved (state={stateRepr platform agentState})"

/-- The job for the version that was resolved: the agent is told its md5. -/
def jobRequest (script : Script) (body : SubmitJobIn) (jobUuid : String) : JobRequest :=
  { jobUuid, scriptName := body.scriptName, params := body.params, persistent := script.persistent,
    expectedMd5 := some script.md5 }

/-- What submit_job makes of the exceptions of the client's call. After a refusal the cached
state is refreshed. -/
def refusal (machine : Machine) (script : Script) (scriptName : String) :
    Failure → Task JobStatusResponse
  | .agentValidation name problem =>
      throw (.http 422 (some .validationError) (.validation name problem))
  | .agentApproval .. => do
      let resolved ← syncScript machine script
      throw (approvalErrorResponse platform resolved scriptName)
  | .agentClient message | .agentNotReachable message =>
      throw (.http 502 (some .agentUnreachable) (.text message))
  | e => throw e

def jobFields (user : User) (machineId : Nat) (script : Script) (params : Params) (jobUuid : String)
    (answer : JobStatusResponse) : JobFields :=
  { jobUuid, machineId, scriptId := some script.id, userId := user.id, params,
    status := answer.status, persistent := script.persistent, startedAt := answer.startedAt,
    endedAt := answer.endedAt, exitCode := answer.exitCode }

/-- `jobUuid` is the new uuid4. -/
def submitJob (user : User) (machineId : Nat) (body : SubmitJobIn) (jobUuid : String) : Task Job := do
  let machine ← getMachineOr404 machineId
  assertAccess user machineId
  let script ← getScriptOr404 platform body.scriptName
  let answer ← withAgent machine do
    ensureAgentRunning
    let resolved ← syncScript machine script
    if resolved ≠ .agent .approved then
      throw (approvalErrorResponse platform resolved body.scriptName)
    else
      tryCatch (AgentClient.submitJob (jobRequest script body jobUuid))
        (refusal platform machine script body.scriptName)
  insertJob (jobFields user machineId script body.params jobUuid answer)

def refreshOf (job : Job) (answer : JobStatusResponse) : JobUpdate :=
  { status := changed job.status answer.status, endedAt := changed job.endedAt answer.endedAt,
    exitCode := changed job.exitCode answer.exitCode }

/-- A running job is refreshed from the agent; whatever goes wrong, the row is answered. -/
def getJob (jobUuid : String) : Task Job := do
  let job ← getJobOr404 jobUuid
  if isActive job.status then do
    match ← findMachine job.machineId with
    | none => return job
    | some machine =>
      tryCatch (do
          let answer ← withAgent machine (AgentClient.getJobStatus jobUuid)
          updateJob jobUuid (refreshOf job answer)
          return (← findJob jobUuid).getD ((refreshOf job answer).apply job))
        fun _ => return job
  else return job

def streamJobLogs (jobUuid : String) : Task (List StreamEvent) := do
  let job ← getJobOr404 jobUuid
  match ← findMachine job.machineId with
  | none => throw machineNotFound
  | some machine => do
    let stream ← streamed machine jobUuid
    return stream.lines.map .data ++ stream.failure.toList.map .error

/-- What a kill that the agent did not refuse writes, whatever the agent answered. -/
def killOf (job : Job) (now : Timestamp) : JobUpdate :=
  { status := changed job.status .killed, endedAt := changed job.endedAt (some now) }

def killJob (jobUuid : String) : Task Unit := do
  let job ← getJobOr404 jobUuid
  if job.persistent = false then throw (.http 400 none (.text "Cannot kill a non-persistent job"))
  else do
    match ← findMachine job.machineId with
    | none => throw machineNotFound
    | some machine => do
      withAgent machine (AgentClient.killJob jobUuid)
      updateJob jobUuid (killOf job (← utcNow))

def listJobs (query : JobListQuery) : Task (List Job) :=
  let filter : JobFilter := { machineId := query.machineId, status := query.status }
  match query.scriptName with
  | none => selectJobs filter 0 query.limit
  | some name => do
    match ← findScript name with
    | none => return []
    | some script => selectJobs { filter with scriptId := some script.id } 0 query.limit

end Csl.Server.Api
