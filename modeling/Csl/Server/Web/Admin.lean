import Csl.Library.Whitespace
import Csl.Server.Session.Scripts

/-! The administration pages: scripts, machines and users. -/

set_option autoImplicit false

namespace Csl.Server.Session.Web
open Csl.Shared Csl.Agent

variable (runtime : Runtime)

/-- `meta_yaml.strip() or None`. -/
def submittedMeta (metaYaml : String) : Option String :=
  if Whitespace.strip metaYaml = "" then none else some (Whitespace.strip metaYaml)

def refusedForm (e : RegistryError) : Answer := .page 422 (e.text runtime.toPlatform)

def adminScriptNewSubmit (name content metaYaml : String) (access : Option String) : Work Answer := do
  let user ← webRequireAdmin runtime access
  tryCatch (do
      let fields ← createScript runtime name content (submittedMeta metaYaml) user.id
      let _ ← run (.insertScript fields)
      commit
      return .redirect "/admin/scripts" s!"Script '{name}' created." "success")
    fun e =>
      match e with
      | .registry e => return refusedForm runtime e
      | e => throw e

def adminScriptEditSubmit (name content metaYaml : String) (access : Option String) : Work Answer := do
  let user ← webRequireAdmin runtime access
  tryCatch (do
      let (loaded, fields) ← updateScript runtime name content (submittedMeta metaYaml) user.id
      flushUpdate loaded fields
      commit
      return .redirect "/admin/scripts" s!"Script '{loaded.name}' updated." "success")
    fun e =>
      match e with
      | .registry e => do
        -- The form shows the row as it is.
        match ← run (.findScript name) with
        | none => return .redirect "/admin/scripts" "" ""
        | some _ => return refusedForm runtime e
      | e => throw e

def adminScriptDelete (name : String) (access : Option String) : Work Answer := do
  let _ ← webRequireAdmin runtime access
  tryCatch (do
      let script ← deleteScript name
      run (.deleteScript script.id)
      commit
      return .redirect "/admin/scripts" s!"Script '{name}' deleted." "success")
    fun e =>
      match e with
      | .registry _ => return .redirect "/admin/scripts" s!"Script '{name}' not found." "error"
      | e => throw e

/-- The bookmarks of the machine go with it. -/
def adminMachineDelete (machineId : Nat) (access : Option String) : Work Answer := do
  let _ ← webRequireAdmin runtime access
  match ← run (.findMachine machineId) with
  | none => return .redirect "/admin/machines" "Machine not found." "error"
  | some machine => do
    run (.deleteBookmarks machineId)
    run (.deleteMachine machine.id)
    commit
    return .redirect "/admin/machines" s!"Machine '{machine.name}' deleted." "success"

/-- A select answers the row that the session holds, as it was loaded, for the database's. -/
def heldOr (held row : Account) : Account := if row.id = held.id then held else row

theorem heldOr_other {held row : Account} (other : row.id ≠ held.id) : heldOr held row = row := if_neg other

theorem heldOr_own {held row : Account} (own : row.id = held.id) : heldOr held row = held := if_pos own

def adminUserToggle (userId : Nat) (access : Option String) : Work Answer := do
  let currentAdmin ← webRequireAdmin runtime access
  match (← run (.findUser userId)).map (heldOr currentAdmin) with
  | none => return .redirect "/admin/users" "User not found." "error"
  | some target =>
    if target.id = currentAdmin.id then
      return .redirect "/admin/users" "Cannot disable your own account." "error"
    else do
      run (.updateUser target.id none (some (!target.disabled)))
      commit
      let state := if target.disabled then "enabled" else "disabled"
      return .redirect "/admin/users" s!"User '{target.username}' {state}." "success"

def roleOf : String → Option Role
  | "admin" => some .admin
  | "user" => some .user
  | _ => none

def adminUserRole (userId : Nat) (role : String) (access : Option String) : Work Answer := do
  let currentAdmin ← webRequireAdmin runtime access
  match roleOf role with
  | none => return .redirect "/admin/users" "Invalid role." "error"
  | some newRole =>
    match (← run (.findUser userId)).map (heldOr currentAdmin) with
    | none => return .redirect "/admin/users" "User not found." "error"
    | some target =>
      if target.id = currentAdmin.id ∧ newRole ≠ .admin then
        return .redirect "/admin/users" "Cannot demote your own account." "error"
      else do
        -- A role that does not change is not written.
        if newRole = target.role then pure () else run (.updateUser target.id (some newRole) none)
        commit
        return .redirect "/admin/users" s!"User '{target.username}' role set to '{role}'." "success"

end Csl.Server.Session.Web
