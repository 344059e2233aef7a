import Csl.Server.Api.Jobs

/-! The web routes for running scripts and for jobs. -/

set_option autoImplicit false

namespace Csl.Server.Web
open Csl.Shared Csl.Agent
open Csl.Server.Api (StreamEvent machineNotFound)

/-- What run_submit answers: the dialog again with an error, or a redirect to the new job. -/
inductive RunPage where
  | dialog (status : Nat) (approvalError detail : String)
  | redirect (location message : String)
  deriving DecidableEq, Repr

inductive KillBadge where
  | machineNotFound
  | failed (failure : Failure)
  | killed
  deriving DecidableEq, Repr

/-- The query of jobs_list; a page below 1 is read as 1. -/
structure JobListQuery where
  machineId : Option Nat
  scriptName : Option String
  status : Option String
  page : Int

structure JobRow where
  job : Job
  machine : Option Machine
  script : Option Script
  running : Bool
  deriving DecidableEq

structure JobsPage where
  user : User
  jobs : List JobRow
  machines : List Machine
  scripts : List Script
  filterMachineId : Option Nat
  filterScriptName : Option String
  filterStatus : Option String
  page : Nat
  total : Nat
  hasPrev : Bool
  hasNext : Bool
  deriving DecidableEq

structure JobPage where
  user : User
  job : Job
  machine : Option Machine
  script : Option Script
  deriving DecidableEq

def getMachineOr404 (machineId : Nat) : Task Machine := Api.getMachineOr404 machineId

def checkMachineAccess (user : User) (machineId : Nat) : Task Unit := Api.assertAccess user machineId

def getJobOr404 (jobUuid : String) : Task Job := Api.getJobOr404 jobUuid

variable (platform : Platform)

/-- `_approval_msg`; `repr` is that of the text or of the member of ApprovalState. -/
def approvalMsg (state repr scriptName : String) : String :=
  if state = "pending" then s!"Script '{scriptName}' is pending approval on this machine"
  else if state = "update_pending" then s!"Script '{scriptName}' has a pending update awaiting re-approval"
  else if state = "rejected" then s!"Script '{scriptName}' was rejected on this machine"
  else s!"Script '{scriptName}' is not approved (state={repr})"

def errorDialog (status : Nat) (approvalError repr scriptName : String) : RunPage :=
  .dialog status approvalError (approvalMsg approvalError repr scriptName)

/-- The job without the md5 of the version that was resolved. -/
def jobRequest (script : Script) (scriptName : String) (params : Params) (jobUuid : String) : JobRequest :=
  { jobUuid, scriptName, params, persistent := script.persistent, expectedMd5 := none }

/-- `form` gives the values of the submitted form for the parameters of a script's metadata,
`jobUuid` is the new uuid4. -/
def runSubmit (user : User) (machineId : Nat) (scriptName : String) (form : Script → Params)
    (jobUuid : String) : Task RunPage := do
  let machine ← getMachineOr404 machineId
  checkMachineAccess user machineId
  let script ← Api.getScriptOr404 platform scriptName
  let submitted : Except RunPage JobStatusResponse ← tryCatch (withAgent machine do
      ensureAgentRunning
      let resolved ← syncScript machine script
      if resolved ≠ .agent .approved then
        return .error (errorDialog 409 resolved.text (Api.stateRepr platform resolved) scriptName)
      else
        return .ok (← AgentClient.submitJob (jobRequest script scriptName (form script) jobUuid)))
    fun e =>
      if e.isAgentClientError then
        return .error (errorDialog 502 "agent_error" (platform.repr "agent_error") scriptName)
      else throw e
  match submitted with
  | .error page => return page
  | .ok answer => do
    let _ ← insertJob (Api.jobFields user machineId script (form script) jobUuid answer)
    return .redirect s!"/jobs/{jobUuid}" s!"Job started: {scriptName}"

def jobPageSize : Nat := 50

/-- The machines of the filter's menu, whose jobs the user may see. -/
def accessibleMachines (user : User) : Task (List Machine) :=
  if user.role = .admin then listMachines else bookmarkedMachines user.id

/-- Empty filters of the form are no filters. -/
def nonempty : Option String → Option String
  | some "" => none
  | filter => filter

def jobsList (user : User) (query : JobListQuery) : Task JobsPage := do
  let scriptName := nonempty query.scriptName
  let status := nonempty query.status
  let page := (max 1 query.page).toNat
  let offset := (page - 1) * jobPageSize
  let machines ← accessibleMachines user
  let scripts ← listScripts
  let filter : JobFilter :=
    { machineIds := some (machines.map (·.id)), machineId := query.machineId, scriptName, status }
  let total ← countJobs filter
  let rows ← selectJoinedJobs filter offset jobPageSize
  let jobs := rows.map fun (job, machine, script) => ⟨job, machine, script, isActive job.status⟩
  return { user, jobs, machines, scripts, filterMachineId := query.machineId,
           filterScriptName := scriptName, filterStatus := status, page, total,
           hasPrev := 1 < page, hasNext := offset + jobPageSize < total }

def jobDetail (user : User) (jobUuid : String) : Task JobPage := do
  let job ← getJobOr404 jobUuid
  let machine ← findMachine job.machineId
  let script ← match job.scriptId with
    | none => pure none
    | some scriptId => findScriptById scriptId
  return ⟨user, job, machine, script⟩

def jobLogStream (jobUuid : String) : Task (List StreamEvent) := do
  let job ← getJobOr404 jobUuid
  match ← findMachine job.machineId with
  | none => return [.ended]
  | some machine => do
    let stream ← streamed machine jobUuid
    return stream.lines.map .data ++
      (if stream.failure.isSome then [.data "[log not available]"] else []) ++ [.ended]

/-- One-off jobs are killed too, as far as the agent knows them. -/
def killJobWeb (jobUuid : String) : Task KillBadge := do
  let job ← getJobOr404 jobUuid
  match ← findMachine job.machineId with
  | none => return .machineNotFound
  | some machine => do
    let refused ← tryCatch (do
        withAgent machine (AgentClient.killJob jobUuid)
        return none)
      fun e => if e.isAgentClientError then return some e else throw e
    match refused with
    | some e => return .failed e
    | none => do
      updateJob jobUuid (Api.killOf job (← utcNow))
      return .killed

end Csl.Server.Web
