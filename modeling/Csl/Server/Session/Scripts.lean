import Csl.Server.Auth.Dependencies

/-! The script library over database sessions.

What a function adds to its session or changes in it is written when the caller flushes.
-/

set_option autoImplicit false

namespace Csl.Server.Session
open Csl.Shared Csl.Agent

variable (runtime : Runtime)

def versionFields (name content : String) (metaYaml : Option String) (userId : Nat) (now : Timestamp) :
    ScriptFields :=
  let version := version runtime.toPlatform 0 name content metaYaml userId now
  ⟨version.name, version.content, version.metaYaml, version.md5, version.persistent,
    version.updatedAt, version.updatedBy⟩

def raiseRegistry {A : Type} : Except RegistryError A → Work A
  | .ok a => pure a
  | .error e => throw (.registry e)

def createScript (name content : String) (metaYaml : Option String) (userId : Nat) : Work ScriptFields := do
  match ← run (.findScript name) with
  | some _ => throw (.registry (.alreadyExists name))
  | none => do
    raiseRegistry (validateMeta runtime.toPlatform metaYaml)
    let now ← utcNow
    return versionFields runtime name content metaYaml userId (runtime.timestamp now)

def getScriptOrRaise (name : String) : Work Script := do
  match ← run (.findScript name) with
  | none => throw (.registry (.notFound name))
  | some script => return script

/-- The row as it was loaded, and what it is changed to. -/
def updateScript (name content : String) (metaYaml : Option String) (userId : Nat) :
    Work (Script × ScriptFields) := do
  let script ← getScriptOrRaise name
  raiseRegistry (validateMeta runtime.toPlatform metaYaml)
  let now ← utcNow
  return (script, versionFields runtime script.name content metaYaml userId (runtime.timestamp now))

/-- A row that has not changed is not written. -/
def flushUpdate (loaded : Script) (fields : ScriptFields) : Work Unit :=
  if fields.row loaded.id = loaded then pure () else run (.updateScript loaded fields)

/-- The script is deleted at the flush. -/
def deleteScript (name : String) : Work Script := do
  let script ← getScriptOrRaise name
  run (.deleteTargetStates script.id)
  return script

structure BuiltinScript where
  name : String
  content : String
  metaYaml : Option String

structure SeedResult where
  created : List String
  skipped : List String

/-- Each new row is flushed before the next select, or with the commit. -/
def seedBuiltinScripts (userId : Nat) : List BuiltinScript → Work SeedResult
  | [] => return ⟨[], []⟩
  | builtin :: rest => do
    match ← run (.findScript builtin.name) with
    | some _ => do
      let seeded ← seedBuiltinScripts userId rest
      return { seeded with skipped := builtin.name :: seeded.skipped }
    | none => do
      let fields ← createScript runtime builtin.name builtin.content builtin.metaYaml userId
      let _ ← run (.insertScript fields)
      let seeded ← seedBuiltinScripts userId rest
      return { seeded with created := builtin.name :: seeded.created }

/-- `csl-admin seed-scripts`; without an administrator it exits. -/
def seedScripts (builtins : List BuiltinScript) : Work (Option SeedResult) := do
  match ← run .firstAdmin with
  | none => return none
  | some adminId => do
    let seeded ← seedBuiltinScripts runtime adminId builtins
    commit
    return some seeded

end Csl.Server.Session
