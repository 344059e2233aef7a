import Csl.Agent.Machine

/-! The per-script approval state machine of one agent installation.

Each method of the manager is one `Action`. The lock makes a method atomic within
its process; other processes may act between any two of its calls.
-/

set_option autoImplicit false

namespace Csl.Agent
open Csl.Shared

def metaFile (name : String) : String := name ++ ".meta.yaml"

/-- The text of approvals.json as `_load` understands it; any other text starts fresh. -/
def loadText (host : Host) (text : String) : ApprovalsStore :=
  (host.codec.load text).getD .empty

/-! The ApprovalErrors of the state machine. -/

def isRejected (name : String) : Err :=
  .approval s!"'{name}' is rejected; run 'csl-agent approvals clear {name}' first"

def notFound (name : String) : Err :=
  .approval s!"'{name}' not found; use stage to register it first"

def cannot (verb name : String) (state : ApprovalState) : Err :=
  .approval (s!"cannot {verb} '{name}': current state is '{state.text}'" ++
    " (expected pending or update_pending)")

def noPendingFile (host : Host) (name : String) : Err :=
  .approval s!"pending file for '{name}' not found at {host.display (.pending name)}"

def onlyIf (condition : Prop) [Decidable condition] (action : Action Unit) : Action Unit :=
  if condition then action else pure ()

namespace ApprovalsManager
variable (host : Host)

def load : Action ApprovalsStore := do
  if !(← pathExists .approvals) then return .empty
  else tryCatch (do return loadText host (← readText .approvals)) (fun _ => return .empty)

/-- `__init__`: the store is read first and the signature is taken after it. -/
def init : Action Unit := do
  let store ← load host
  setStore store
  let sig ← stat
  setSig sig

def syncFromDisk : Action Unit := do
  let sig ← stat
  let known ← getSig
  onlyIf (sig ≠ known) do
    let store ← load host
    setStore store
    setSig sig

def save : Action Unit := do
  mkdir .agent
  let store ← getStore
  writeText .approvalsTmp (host.codec.dump store) .platform
  replace .approvalsTmp .approvals
  let sig ← stat
  setSig sig

/-- `_descriptor`, for a name that has a record. -/
def descriptor (name : String) (record : ScriptRecord) : ScriptDescriptor :=
  ⟨name, record.state, record.approvedMd5, record.pendingMd5⟩

def describe (store : ApprovalsStore) (name : String) : ScriptDescriptor :=
  match store.scripts.get? name with
  | none => ⟨name, .absent, none, none⟩
  | some record => descriptor name record

def getState (name : String) : Action ScriptDescriptor := do
  syncFromDisk host
  let store ← getStore
  return describe store name

def listAll : Action (List ScriptDescriptor) := do
  syncFromDisk host
  let store ← getStore
  return store.scripts.entries.map fun entry => descriptor entry.1 entry.2

def moveIfPresent (source target : Path) : Action Unit := do
  onlyIf (← pathExists source) (replace source target)

/-- The record a stage call leaves when it does not return early. -/
def stagedRecord (autoApproved : Bool) (record : Option ScriptRecord) (md5 : String)
    (now : Timestamp) : ScriptRecord :=
  if autoApproved then
    { state := .approved, approvedMd5 := some md5, approvedAt := some now, approvedVia := some .auto }
  else match record with
    | some { state := .approved, approvedMd5, approvedAt, approvedVia, .. } =>
        { state := .updatePending, approvedMd5, approvedAt, approvedVia, pendingMd5 := some md5 }
    | _ => { state := .pending, pendingMd5 := some md5 }

def promote (name : String) : Action Unit := do
  mkdir .scripts
  replace (.pending name) (.scripts name)
  moveIfPresent (.pending (metaFile name)) (.scripts (metaFile name))

def writePending (name content : String) (metaYaml : Option String) : Action Unit := do
  mkdir .pending
  writeText (.pending name) content .exact
  match metaYaml with
  | none => pure ()
  | some text => writeText (.pending (metaFile name)) text .platform

def stage (autoApprove : List String) (name content md5 : String) (metaYaml : Option String) :
    Action ApprovalState := do
  let store ← getStore
  let record := store.scripts.get? name
  let current := store.stateOf name
  if current = .rejected then
    throw (isRejected name)
  else if current = .approved ∧ record.bind (·.approvedMd5) = some md5 then
    return .approved
  else if (current = .pending ∨ current = .updatePending) ∧
      record.bind (·.pendingMd5) = some md5 then
    return current
  else do
    writePending name content metaYaml
    let auto := decide (name ∈ autoApprove)
    let now ← utcNow
    onlyIf auto (promote name)
    let newRecord := stagedRecord auto record md5 now
    setStore ⟨store.scripts.set name newRecord⟩
    save host
    return newRecord.state

def requireRecord (name : String) : Action (ApprovalsStore × ScriptRecord) := do
  let store ← getStore
  match store.scripts.get? name with
  | none => throw (notFound name)
  | some record => return (store, record)

def requirePending (verb name : String) (state : ApprovalState) : Action Unit :=
  if state = .pending ∨ state = .updatePending then pure ()
  else throw (cannot verb name state)

def approve (name : String) : Action Unit := do
  let (store, record) ← requireRecord name
  requirePending "approve" name record.state
  if !(← pathExists (.pending name)) then
    throw (noPendingFile host name)
  else do
    promote name
    let now ← utcNow
    setStore ⟨store.scripts.set name
      { state := .approved, approvedMd5 := record.pendingMd5, approvedAt := some now,
        approvedVia := some .cli }⟩
    save host

def unlinkIfPresent (path : Path) : Action Unit := do
  onlyIf (← pathExists path) (unlink path)

def removeFiles (name : String) : Action Unit := do
  unlinkIfPresent (.scripts name)
  unlinkIfPresent (.scripts (metaFile name))
  unlinkIfPresent (.pending name)
  unlinkIfPresent (.pending (metaFile name))

def reject (name : String) : Action Unit := do
  let (store, record) ← requireRecord name
  requirePending "reject" name record.state
  removeFiles name
  let now ← utcNow
  setStore ⟨store.scripts.set name { state := .rejected, rejectedAt := some now }⟩
  save host

def clear (name : String) : Action Unit := do
  let (store, _) ← requireRecord name
  removeFiles name
  setStore ⟨store.scripts.pop name⟩
  save host

end ApprovalsManager

end Csl.Agent
