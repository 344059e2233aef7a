import Csl.Server.AgentClient

/-! Synchronising a script between the control station and an agent. -/

set_option autoImplicit false

namespace Csl.Server
open Csl.Shared Csl.Agent

/-- The agent's state, unless it approved another version. -/
def resolve (script : Script) (found : ScriptDescriptor) : TargetState :=
  if found.state = .approved ∧ found.approvedMd5 ≠ some script.md5 then .approvedStale
  else .agent found.state

theorem resolve_approved {script : Script} {found : ScriptDescriptor}
    (approved : resolve script found = .agent .approved) :
    found.state = .approved ∧ found.approvedMd5 = some script.md5 := by
  unfold resolve at approved
  split at approved
  · cases approved
  next current =>
    have state := TargetState.agent.inj approved
    exact ⟨state, not_not.mp fun other => current ⟨state, other⟩⟩

theorem state_of_resolve {script : Script} {found : ScriptDescriptor} {state : ApprovalState}
    (resolved : resolve script found = .agent state) : found.state = state := by
  unfold resolve at resolved
  split at resolved
  · cases resolved
  · exact TargetState.agent.inj resolved

/-- A script the agent does not have, or has approved in another version, is staged. -/
def NeedsStaging (script : Script) (found : ScriptDescriptor) : Prop :=
  found.state = .absent ∨ resolve script found = .approvedStale

instance (script : Script) (found : ScriptDescriptor) : Decidable (NeedsStaging script found) := by
  unfold NeedsStaging; infer_instance

def upsertState (machineId scriptId : Nat) (resolved : TargetState) (found : ScriptDescriptor) :
    Task Unit :=
  saveTargetState machineId scriptId resolved found.approvedMd5 found.pendingMd5

def syncScript (machine : Machine) (script : Script) : Task TargetState := do
  let found ← AgentClient.getScriptState script.name
  let resolved ←
    if NeedsStaging script found then do
      let staged ← AgentClient.stageScript script.name script.content script.md5 script.metaYaml
      pure (.agent staged)
    else pure (resolve script found)
  upsertState machine.id script.id resolved found
  return resolved

/-- What the badge's re-stage button does with the script's row; nothing is returned, and the
cached row stays as it is, when the client gives up. -/
def restage (machine : Machine) (script : Script) : Task (Option TargetState) := do
  let found ← tryCatch (withAgent machine do
      ensureAgentRunning
      let _ ← AgentClient.stageScript script.name script.content script.md5 script.metaYaml
      return some (← AgentClient.getScriptState script.name))
    fun e => if e.isAgentClientError then pure none else throw e
  match found with
  | none => return none
  | some found => do
    upsertState machine.id script.id (.agent found.state) found
    return some (.agent found.state)

end Csl.Server
