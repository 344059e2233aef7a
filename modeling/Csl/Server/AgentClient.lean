import Csl.Server.Calls

/-! The typed calls of the agent's HTTP API. -/

set_option autoImplicit false

namespace Csl.Server
open Csl.Shared Csl.Agent

/-- `async with AgentClient(…)`: the tunnel is closed when the body ends and when it raises. -/
def withAgent {A : Type} (machine : Machine) (body : Task A) : Task A := do
  openTunnel machine
  let result ← tryCatch body fun e => do
    closeTunnel
    throw e
  closeTunnel
  return result

def raiseForStatus (response : Response) : Task Unit :=
  if 200 ≤ response.status ∧ response.status < 300 then pure ()
  else throw (.httpStatus response.status)

namespace AgentClient

def getScriptState (name : String) : Task ScriptDescriptor := do
  let response ← send (.getScriptState name)
  raiseForStatus response
  match response.body with
  | .descriptor found => return found
  | _ => throw .undecodable

def stageScript (name content md5 : String) (metaYaml : Option String) : Task ApprovalState := do
  let response ← send (.stageScript name content md5 metaYaml)
  raiseForStatus response
  match response.body with
  | .staged _ state => return state
  | _ => throw .undecodable

/-- The refusals that submit_job raises as exceptions of their own. -/
def raiseRefusal (response : Response) : Task Unit :=
  if response.status = 409 then
    match response.body with
    | .detail (.approvalError error agentState detail) => throw (.agentApproval agentState error detail)
    | .unreadable => throw .undecodable
    | _ => pure ()
  else if response.status = 422 then
    match response.body with
    | .detail (.validationError name problem) => throw (.agentValidation name problem)
    | .unreadable => throw .undecodable
    | _ => pure ()
  else pure ()

def submitJob (request : JobRequest) : Task JobStatusResponse := do
  let response ← send (.submitJob request)
  raiseRefusal response
  raiseForStatus response
  match response.body with
  | .job answer => return answer
  | _ => throw .undecodable

def getJobStatus (jobUuid : String) : Task JobStatusResponse := do
  let response ← send (.getJobStatus jobUuid)
  raiseForStatus response
  match response.body with
  | .job answer => return answer
  | _ => throw .undecodable

/-- The agent's answer is not looked at. -/
def killJob (jobUuid : String) : Task Unit := do
  let response ← send (.killJob jobUuid)
  raiseForStatus response

end AgentClient

/-- The log stream over a tunnel of its own. What came through before a failure is kept. -/
def streamed (machine : Machine) (jobUuid : String) : Task LogStream :=
  tryCatch (do
      openTunnel machine
      let stream ← streamLogs jobUuid
      tryCatch (do
          closeTunnel
          return stream)
        fun e => return { stream with failure := some e })
    fun e => return ⟨[], some e⟩

end Csl.Server
