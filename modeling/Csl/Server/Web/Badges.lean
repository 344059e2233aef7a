import Csl.Server.Web.Machines

/-! The approval badges of a machine's page: refreshing them all, refreshing one, and staging again. -/

set_option autoImplicit false

namespace Csl.Server.Web
open Csl.Shared Csl.Agent

/-- The states that the agent tells of; a script whose state cannot be got keeps its row. -/
def refreshed : List Script → Task (List (Script × ScriptDescriptor))
  | [] => return []
  | script :: rest => do
    let found ← tryCatch (do return [(script, ← AgentClient.getScriptState script.name)]) fun _ => return []
    return found ++ (← refreshed rest)

/-- `sts.state = …` for every state that was got, written with the commit. -/
def saveRefreshed (machineId : Nat) : List (Script × ScriptDescriptor) → Task Unit
  | [] => pure ()
  | (script, found) :: rest => do
    upsertState machineId script.id (resolve script found) found
    saveRefreshed machineId rest

/-- `staged` are the scripts that the machine's rows of script_target_state are joined with. Rows that
have been refreshed are committed also when closing the tunnel raises. -/
def syncStates (user : User) (machineId : Nat) (staged : List Script) : Task Unit := do
  let machine ← getMachineOr404 machineId
  checkMachineAccess user machineId
  if staged = [] then return ()
  else do
    let found ← tryCatch (do
        openTunnel machine
        let found ← tryCatch (do
            ensureAgentRunning
            refreshed staged) fun _ => return []
        tryCatch closeTunnel fun _ => pure ()
        return found) fun _ => return []
    saveRefreshed machineId found

/-- The badge of a script that is not in the library says absent; without the agent the cached row is
shown. -/
def scriptStateBadge (user : User) (machineId : Nat) (scriptName : String) : Task (Option TargetState) := do
  let machine ← getMachineOr404 machineId
  checkMachineAccess user machineId
  match ← findScript scriptName with
  | none => return some (.agent .absent)
  | some script => do
    let found ← tryCatch (do return some (← withAgent machine (AgentClient.getScriptState script.name)))
      fun _ => return none
    match found with
    | none => return none
    | some found => do
      upsertState machineId script.id (resolve script found) found
      return some (resolve script found)

def restage (user : User) (machineId : Nat) (scriptName : String) : Task (Option TargetState) := do
  let machine ← getMachineOr404 machineId
  checkMachineAccess user machineId
  match ← findScript scriptName with
  | none => return some (.agent .absent)
  | some script => Csl.Server.restage machine script

end Csl.Server.Web
