import Csl.Server.Session.Scripts

/-! The script endpoints of the JSON API. -/

set_option autoImplicit false

namespace Csl.Server.Session.Api
open Csl.Shared Csl.Agent

structure ScriptIn where
  name : String
  content : String
  metaYaml : Option String

structure ScriptUpdateIn where
  content : String
  metaYaml : Option String

variable (runtime : Runtime)

/-- `session.refresh`. -/
def refreshScript (script : Script) : Work Script := do
  match ← run (.findScriptById script.id) with
  | none => throw .invalidRequest
  | some fresh => return fresh

/-- What an endpoint makes of the registry's exceptions; others go through. -/
def answerRegistry (status : RegistryError → Nat) (body : Work Answer) : Work Answer :=
  tryCatch body fun e =>
    match e with
    | .registry e => throw (.http (status e) none (e.text runtime.toPlatform))
    | e => throw e

def createScriptEndpoint (body : ScriptIn) (credentials : Option String) : Work Answer := do
  let admin ← requireAdmin runtime credentials
  answerRegistry runtime (fun _ => 409) do
    let fields ← createScript runtime body.name body.content body.metaYaml admin.id
    let script ← run (.insertScript fields)
    recordAudit "script.create" "script" script.name "success" (some admin.id) [("md5", script.md5)] false
    commit
    return .script (← refreshScript script)

/-- `"not found" in str(exc)`. -/
def saysNotFound (text : String) : Bool :=
  text.toList.tails.any fun rest => "not found".toList.isPrefixOf rest

def updateStatus (e : RegistryError) : Nat :=
  if saysNotFound (e.text runtime.toPlatform) then 404 else 422

def updateScriptEndpoint (name : String) (body : ScriptUpdateIn) (credentials : Option String) :
    Work Answer := do
  let admin ← requireAdmin runtime credentials
  answerRegistry runtime (updateStatus runtime) do
    let (loaded, fields) ← updateScript runtime name body.content body.metaYaml admin.id
    flushUpdate loaded fields
    recordAudit "script.update" "script" loaded.name "success" (some admin.id) [("md5", fields.md5)] false
    commit
    return .script (← refreshScript loaded)

def deleteScriptEndpoint (name : String) (credentials : Option String) : Work Answer := do
  let admin ← requireAdmin runtime credentials
  answerRegistry runtime (fun _ => 404) do
    let script ← deleteScript name
    run (.deleteScript script.id)
    recordAudit "script.delete" "script" name "success" (some admin.id) [] false
    commit
    return .noContent

end Csl.Server.Session.Api
