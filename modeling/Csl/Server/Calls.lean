import Csl.Agent.Endpoints
import Csl.Server.Queries

/-! The awaits of the control station's request handlers.

A handler reads and writes rows, opens a tunnel to a machine and sends requests through it.
Between two of its awaits other handlers may act.
-/

set_option autoImplicit false

namespace Csl.Server
open Csl.Shared Csl.Agent

inductive ErrorCode where
  | approvalPending | approvalRejected | agentUnreachable | validationError
  deriving DecidableEq, Repr

inductive Detail where
  | text (message : String)
  | approval (approvalError agentState message : String)
  | validation (name : String) (problem : ParamProblem)
  deriving DecidableEq, Repr

inductive TransportError where
  | connectTimeout | readTimeout | writeTimeout | poolTimeout
  | connectError | readError | writeError | closeError
  | localProtocolError | remoteProtocolError
  deriving DecidableEq, Repr

inductive Failure where
  /-- `HTTPException`, and `CslHTTPException` with its code. -/
  | http (status : Nat) (code : Option ErrorCode) (detail : Detail)
  | agentClient (message : String)
  | agentNotReachable (message : String)
  | agentApproval (agentState : ApprovalState) (approvalError detail : String)
  | agentValidation (name : String) (problem : ParamProblem)
  /-- `httpx.HTTPStatusError`. -/
  | httpStatus (status : Nat)
  | transport (error : TransportError)
  /-- A body that is no JSON or not of the expected model. -/
  | undecodable
  /-- The key or the token cannot be decrypted, or the SSH connection fails. -/
  | connection (message : String)
  deriving DecidableEq, Repr

/-- `AgentClientError` and its subclasses. -/
def Failure.isAgentClientError : Failure → Bool
  | .agentClient _ | .agentNotReachable _ | .agentApproval .. | .agentValidation .. => true
  | _ => false

/-- A response's body, as far as the client distinguishes bodies. -/
inductive Body where
  | descriptor (found : ScriptDescriptor)
  | staged (name : String) (state : ApprovalState)
  | job (answer : JobStatusResponse)
  | detail (detail : HttpDetail)
  /-- Any other JSON object. -/
  | other
  /-- Not a JSON object. -/
  | unreadable
  deriving DecidableEq, Repr

structure Response where
  status : Nat
  body : Body
  deriving DecidableEq, Repr

/-- The lines of a job's log as they came through, and the exception that ended the stream early. -/
structure LogStream where
  lines : List String
  failure : Option Failure
  deriving DecidableEq, Repr

inductive Op where
  | query (statement : Query)
  | utcNow
  | openTunnel (machine : Machine)
  | closeTunnel
  | ensureAgentRunning
  | send (request : Request)
  | streamLogs (jobUuid : String)

abbrev Reply : Op → Type
  | .query statement => statement.Reply
  | .utcNow => Timestamp
  | .send _ => Response
  | .streamLogs _ => LogStream
  | .openTunnel _ | .closeTunnel | .ensureAgentRunning => Unit

abbrev Task := Proc Op Reply Failure

def call (op : Op) : Task (Reply op) := Proc.perform op

def findMachine (machineId : Nat) : Task (Option Machine) := call (.query (.findMachine machineId))
def findBookmark (userId machineId : Nat) : Task Bool := call (.query (.findBookmark userId machineId))
def findScript (name : String) : Task (Option Script) := call (.query (.findScript name))
def findScriptById (scriptId : Nat) : Task (Option Script) := call (.query (.findScriptById scriptId))
def findJob (jobUuid : String) : Task (Option Job) := call (.query (.findJob jobUuid))
def listMachines : Task (List Machine) := call (.query .listMachines)
def bookmarkedMachines (userId : Nat) : Task (List Machine) := call (.query (.bookmarkedMachines userId))
def listScripts : Task (List Script) := call (.query .listScripts)
def activeJobs : Task (List Job) := call (.query .activeJobs)
def selectJobs (filter : JobFilter) (offset limit : Nat) : Task (List Job) :=
  call (.query (.selectJobs filter offset limit))
def selectJoinedJobs (filter : JobFilter) (offset limit : Nat) :
    Task (List (Job × Option Machine × Option Script)) :=
  call (.query (.selectJoinedJobs filter offset limit))
def countJobs (filter : JobFilter) : Task Nat := call (.query (.countJobs filter))
def saveTargetState (machineId scriptId : Nat) (state : TargetState)
    (approvedMd5 pendingMd5 : Option String) : Task Unit :=
  call (.query (.saveTargetState machineId scriptId state approvedMd5 pendingMd5))
def insertJob (fields : JobFields) : Task Job := call (.query (.insertJob fields))
def updateJob (jobUuid : String) (update : JobUpdate) : Task Unit :=
  call (.query (.updateJob jobUuid update))
def utcNow : Task Timestamp := call .utcNow
def openTunnel (machine : Machine) : Task Unit := call (.openTunnel machine)
def closeTunnel : Task Unit := call .closeTunnel
def ensureAgentRunning : Task Unit := call .ensureAgentRunning
def send (request : Request) : Task Response := call (.send request)
def streamLogs (jobUuid : String) : Task LogStream := call (.streamLogs jobUuid)

end Csl.Server
