import Csl.Library.Whitespace
import Csl.Server.Auth.Dependencies

/-! Registering, deleting and bookmarking machines. -/

set_option autoImplicit false

namespace Csl.Server.Session
open Csl.Shared Csl.Agent

variable (runtime : Runtime)

def machineNotFound : Raised := .http 404 none "Machine not found"

def getMachineOr404 (machineId : Nat) : Work Machine := do
  match ← run (.findMachine machineId) with
  | none => throw machineNotFound
  | some machine => return machine

/-- Administrators need no bookmark. -/
def assertAccess (user : Account) (machineId : Nat) : Work Unit :=
  if user.role = .admin then pure ()
  else do
    if ← run (.findBookmark user.id machineId) then return ()
    else throw (.http 403 none "Access denied")

def liftRaised {A : Type} : Except Raised A → Work A
  | .ok a => pure a
  | .error e => throw e

structure RegisterMachineIn where
  name : String
  sshHost : String

structure Registration where
  body : RegisterMachineIn
  /-- The platform that the bundle names, if it can be decoded and the agent's version fits. -/
  decoded : Except Raised String
  /-- The connection test. -/
  tested : Except Raised Unit

def registerMachineFromInput (registration : Registration) (adminId : Nat) : Work Machine := do
  let body := registration.body
  let platform ← liftRaised registration.decoded
  match ← run (.findMachineByName body.name) with
  | some _ =>
    throw (.http 409 none s!"Machine with name {runtime.repr body.name} already exists")
  | none => do
    liftRaised registration.tested
    let machine ← run (.insertMachine body.name platform)
    recordAudit "machine.register" "machine" (toString machine.id) "success" (some adminId)
      [("name", machine.name), ("ssh_host", body.sshHost), ("platform", machine.platform)] false
    commit
    match ← run (.findMachine machine.id) with
    | none => throw .invalidRequest
    | some machine => return machine

namespace Api

def registerMachine (registration : Registration) (credentials : Option String) : Work Answer := do
  let admin ← requireAdmin runtime credentials
  return .machine (← registerMachineFromInput runtime registration admin.id)

/-- The row is looked up twice. -/
def deleteMachine (machineId : Nat) (credentials : Option String) : Work Answer := do
  let admin ← requireAdmin runtime credentials
  let _ ← getMachineOr404 machineId
  run (.deleteBookmarks machineId)
  match ← run (.findMachine machineId) with
  | none => throw .noResult
  | some machine => do
    run (.deleteMachine machine.id)
    recordAudit "machine.delete" "machine" (toString machineId) "success" (some admin.id)
      [("name", machine.name)] false
    commit
    return .noContent

def addBookmark (machineId : Nat) (credentials : Option String) : Work Answer := do
  let user ← currentUser runtime credentials
  let _ ← getMachineOr404 machineId
  if ← run (.findBookmark user.id machineId) then return .noContent
  else do
    run (.insertBookmark user.id machineId)
    recordAudit "machine.bookmark" "machine" (toString machineId) "success" (some user.id) [] false
    commit
    return .noContent

def removeBookmark (machineId : Nat) (credentials : Option String) : Work Answer := do
  let user ← currentUser runtime credentials
  let _ ← getMachineOr404 machineId
  run (.deleteBookmark user.id machineId)
  recordAudit "machine.unbookmark" "machine" (toString machineId) "success" (some user.id) [] false
  commit
  return .noContent

end Api

namespace Web

/-- The form's name and address without blanks around them. -/
def submitted (registration : Registration) : Registration :=
  { registration with
    body := ⟨Whitespace.strip registration.body.name, Whitespace.strip registration.body.sshHost⟩ }

/-- The fingerprint that the page shows is left out. -/
def adminMachineNewSubmit (registration : Registration) (access : Option String) : Work Answer := do
  let user ← webRequireAdmin runtime access
  tryCatch (do
      let machine ← registerMachineFromInput runtime (submitted registration) user.id
      return .redirect "/admin/machines" s!"Machine '{machine.name}' registered." "success")
    fun e =>
      match e with
      | .http _ _ detail => return .page 422 detail
      | e => throw e

end Web

end Csl.Server.Session
