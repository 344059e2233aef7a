import Csl.Agent.Main

/-! The requests the agent serves. -/

set_option autoImplicit false

namespace Csl.Agent
open Csl.Shared ApprovalsManager

/-- A name that passes `_NAME`: the pattern of the path parameter and its validator. -/
def EndpointName (name : String) : Prop :=
  name.toList ≠ [] ∧ (∀ c ∈ name.toList, allowedCharacter c = true) ∧ Accepted name

instance (name : String) : Decidable (EndpointName name) :=
  haveI : Decidable (∀ c ∈ name.toList, allowedCharacter c = true) := List.decidableBAll _ _
  inferInstanceAs (Decidable (_ ∧ _ ∧ _))

def invalidName (name : String) : Err := .http 422 (.text name)

variable (host : Host)

def getScriptState (name : String) : Action ScriptDescriptor :=
  if EndpointName name then getState host name else throw (invalidName name)

def stageRefusal : Err → Err
  | .approval message => .http 409 (.text message)
  | e => e

def stageScript (autoApprove : List String) (name content md5 : String) (metaYaml : Option String) :
    Action ApprovalState :=
  if EndpointName name then
    tryCatch (stage host autoApprove name content md5 metaYaml) fun e => throw (stageRefusal e)
  else throw (invalidName name)

inductive Request where
  | healthz
  | getScriptState (name : String)
  | stageScript (name content md5 : String) (metaYaml : Option String)
  | submitJob (body : JobRequest)
  | getJobStatus (jobUuid : String)
  | killJob (jobUuid : String)
  | streamJobLogs (jobUuid : String) (tail : Option Int)

def Request.action (autoApprove : List String) : Request → Action Unit
  | .getScriptState name => do
      let _ ← Agent.getScriptState host name
  | .stageScript name content md5 metaYaml => do
      let _ ← Agent.stageScript host autoApprove name content md5 metaYaml
  | .submitJob body => do
      let _ ← Agent.submitJob host body
  | .healthz | .getJobStatus _ | .killJob _ | .streamJobLogs .. => pure ()

/-- The requests that end with `save_state`, which writes running.json through its
temporary file. -/
def Request.savesState : Request → Bool
  | .submitJob body => body.persistent
  | .killJob _ => true
  | _ => false

end Csl.Agent
