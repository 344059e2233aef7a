import Csl.Server.ScriptSync
import Csl.Server.Session.Machines

/-! The cached approval states: what an agent answers, and how it is written to the tables. -/

set_option autoImplicit false

namespace Csl.Server.Session
open Csl.Shared Csl.Agent

/-- What the client of a machine's agent returns or raises while a request is handled. -/
structure Conversation where
  /-- Decrypting the key. -/
  key : Except Failure Unit
  opened : Except Failure Unit
  ensured : Except Failure Unit
  /-- `get_script_state` is called once or twice for a script. -/
  state : (round : Nat) → (scriptName : String) → Except Failure ScriptDescriptor
  staged : (round : Nat) → Except Failure ApprovalState
  submitted : Except Failure JobStatusResponse
  killed : Except Failure Unit
  closed : Except Failure Unit

def hear {A : Type} : Except Failure A → Work A
  | .ok a => pure a
  | .error e => throw (.client e)

variable (runtime : Runtime) (c : Conversation)

/-- `async with AgentClient(…)`. -/
def withAgent {A : Type} (body : Work A) : Work A := do
  hear c.opened
  let result ← tryCatch body fun e => do
    hear c.closed
    throw e
  hear c.closed
  return result

/-- A cached row that is to be written: the row as it was loaded, if there was one, and what it
is to hold. -/
structure TargetChange where
  machineId : Nat
  scriptId : Nat
  loaded : Option ScriptTargetState
  state : ScriptTargetState

/-- A row that has not changed is not written. -/
def TargetChange.flush (change : TargetChange) : Work Unit :=
  match change.loaded with
  | none => run (.insertTargetState change.machineId change.scriptId change.state)
  | some loaded =>
    if change.state = loaded then pure ()
    else run (.updateTargetState change.machineId change.scriptId loaded change.state)

def stateRow (resolved : TargetState) (found : ScriptDescriptor) (now : Nat) : ScriptTargetState :=
  ⟨resolved, found.approvedMd5, found.pendingMd5, runtime.timestamp now⟩

/-- The row is written when the caller commits. -/
def upsertState (machineId scriptId : Nat) (resolved : TargetState) (found : ScriptDescriptor) :
    Work TargetChange := do
  let loaded ← run (.findTargetState machineId scriptId)
  let now ← utcNow
  return ⟨machineId, scriptId, loaded, stateRow runtime resolved found now⟩

def syncScript (round : Nat) (machine : Machine) (script : Script) : Work (TargetState × TargetChange) := do
  let found ← hear (c.state round script.name)
  let resolved ←
    if NeedsStaging script found then do
      let staged ← hear (c.staged round)
      pure (.agent staged)
    else pure (resolve script found)
  let change ← upsertState runtime machine.id script.id resolved found
  return (resolved, change)

namespace Web

/-- The rows that `sync_states` changes: those whose scripts the agent has described. -/
def refreshed (machineId now : Nat) (staged : List (ScriptTargetState × Script)) : List TargetChange :=
  match c.opened, c.ensured with
  | .ok (), .ok () => staged.filterMap fun (loaded, script) =>
      match c.state 0 script.name with
      | .ok found => some ⟨machineId, script.id, some loaded, stateRow runtime (resolve script found) found now⟩
      | .error _ => none
  | _, _ => []

def flushAll : List TargetChange → Work Unit
  | [] => pure ()
  | change :: rest => do
    change.flush
    flushAll rest

/-- All exceptions of the client are caught, for each script and for the whole. -/
def syncStates (machineId : Nat) (access : Option String) : Work Answer := do
  let user ← webCurrentUser runtime access
  let _ ← getMachineOr404 machineId
  assertAccess user machineId
  let staged ← run (.targetStatesOf machineId)
  if staged.isEmpty then return .page 200 ""
  else do
    hear c.key
    let now ← utcNow
    flushAll (refreshed runtime c machineId now staged)
    commit
    return .page 200 ""

/-- Once the client has answered, the cached row is written and committed. -/
def writeBadge (machine : Machine) (script : Script) (loaded : Option ScriptTargetState)
    (resolved : TargetState) (found : ScriptDescriptor) : Work Answer := do
  let now ← utcNow
  (⟨machine.id, script.id, loaded, stateRow runtime resolved found now⟩ : TargetChange).flush
  commit
  return .page 200 resolved.text

def cachedBadge (loaded : Option ScriptTargetState) : Answer :=
  .page 200 ((loaded.map (·.state.text)).getD "absent")

/-- A script that is not in the library is shown as absent. -/
def scriptStateBadge (machineId : Nat) (scriptName : String) (access : Option String) : Work Answer := do
  let user ← webCurrentUser runtime access
  let machine ← getMachineOr404 machineId
  assertAccess user machineId
  match ← run (.findScript scriptName) with
  | none => return .page 200 "absent"
  | some script => do
    hear c.key
    let loaded ← run (.findTargetState machineId script.id)
    let found : Option ScriptDescriptor ← tryCatch (withAgent c do
        let found ← hear (c.state 0 script.name)
        return some found)
      fun e =>
        match e with
        | .client _ => return none
        | e => throw e
    match found with
    | none => return cachedBadge loaded
    | some found => writeBadge runtime machine script loaded (resolve script found) found

/-- Only the client's own exceptions are caught. -/
def restage (machineId : Nat) (scriptName : String) (access : Option String) : Work Answer := do
  let user ← webCurrentUser runtime access
  let machine ← getMachineOr404 machineId
  assertAccess user machineId
  match ← run (.findScript scriptName) with
  | none => return .page 200 "absent"
  | some script => do
    hear c.key
    let loaded ← run (.findTargetState machineId script.id)
    let found : Option ScriptDescriptor ← tryCatch (withAgent c do
        hear c.ensured
        let _ ← hear (c.staged 0)
        let found ← hear (c.state 0 script.name)
        return some found)
      fun e =>
        match e with
        | .client e => if e.isAgentClientError then return none else throw (.client e)
        | e => throw e
    match found with
    | none => return cachedBadge loaded
    | some found => writeBadge runtime machine script loaded (.agent found.state) found

end Web

end Csl.Server.Session
