import Csl.Agent.Approvals

/-! Checking and running approved scripts. -/

set_option autoImplicit false

namespace Csl.Agent
open Csl.Shared ApprovalsManager

/-! ## Parameters -/

def checkBounds (descriptor : ParamDescriptor) (value : Number) : List ParamError :=
  let below := match descriptor.min with
    | some min => if value.lt min.number then [.belowMin descriptor.name min] else []
    | none => []
  let above := match descriptor.max with
    | some max => if max.number.lt value then [.aboveMax descriptor.name max] else []
    | none => []
  below ++ above

def validateValue (descriptor : ParamDescriptor) (value : ParamValue) : List ParamError :=
  match descriptor.type with
  | .string | .path => match value with
    | .str _ => []
    | _ => [.notString descriptor.name]
  | .bool => match value with
    | .bool _ => []
    | _ => [.notBoolean descriptor.name]
  | .int => match value with
    | .int n => checkBounds descriptor (.finite n)
    | _ => [.notInteger descriptor.name]
  | .float => match value with
    | .int n => checkBounds descriptor (.finite n)
    | .float x => checkBounds descriptor x.number
    | _ => [.notNumber descriptor.name]
  | .choice =>
    if (descriptor.choices.getD []).any value.eq then []
    else [.notChoice descriptor.name descriptor.choices]

def paramErrors (scriptMeta : ScriptMeta) (params : Params) : List ParamError :=
  ((params.keys.filter fun key => key ∉ scriptMeta.params.map (·.name)).map .unknown) ++
    scriptMeta.params.flatMap fun descriptor =>
      match params.get? descriptor.name with
      | none => if descriptor.required then [.missing descriptor.name] else []
      | some value => validateValue descriptor value

variable (host : Host)

/-- The parameter check, given the metadata file's text if there is one. -/
def checkParams (name : String) (params : Params) : Option String → Except Err Unit
  | none =>
    if params.keys = [] then .ok () else .error (.paramValidation name (.acceptsNone params.keys))
  | some text =>
    match host.parseMetaYaml text with
    | .error message => .error (.scriptMeta message)
    | .ok scriptMeta =>
      match paramErrors scriptMeta params with
      | [] => .ok ()
      | errors => .error (.paramValidation name (.invalid errors))

def liftExcept {A : Type} : Except Err A → Action A
  | .ok a => pure a
  | .error e => throw e

def validateParams (name : String) (params : Params) : Action Unit := do
  if !(← pathExists (.scripts (metaFile name))) then
    liftExcept (checkParams host name params none)
  else do
    let text ← readText (.scripts (metaFile name))
    liftExcept (checkParams host name params (some text))

/-! ## The script file -/

def extensions : List String :=
  if host.isWindows then [".ps1", ".bat", ".cmd", ""] else [".sh", ".bash", ""]

def findFrom (name : String) : List String → Action Path
  | [] => throw (.scriptNotFound name (extensions host))
  | ending :: rest => do
    if ← pathExists (.scripts (name ++ ending)) then return .scripts (name ++ ending)
    else findFrom name rest

def findScript (name : String) : Action Path := findFrom host name (extensions host)

/-- A missing approved md5 is not checked. -/
def verifyScriptIntegrity (name : String) (script : Path) : Option String → Action Unit
  | none => pure ()
  | some approvedMd5 => do
    let actual := host.md5 (← readBytes script)
    if actual ≠ approvedMd5 then
      throw (.scriptIntegrity
        s!"refusing to run '{name}': on-disk MD5 {actual} != approved {approvedMd5}")
    else pure ()

/-- `PurePath.suffix` of a file name: from its last dot, unless that dot is the
first or the last character. -/
def suffix (file : List Char) : List Char :=
  let tail := file.reverse.takeWhile (· ≠ '.')
  if tail ≠ [] ∧ tail.length + 1 < file.length then '.' :: tail.reverse else []

def fileName : Path → String
  | .scripts file | .pending file | .log file | .other file => file
  | .approvals => "approvals.json"
  | .approvalsTmp => "approvals.tmp"

def buildCommand (script : Path) : Except Err Command :=
  let ending := String.ofList ((suffix (fileName script).toList).map Char.toLower)
  if ending = ".sh" ∨ ending = ".bash" then .ok ⟨["bash"], script⟩
  else if ending = ".ps1" then
    .ok ⟨["powershell", "-ExecutionPolicy", "Bypass", "-NoProfile", "-File"], script⟩
  else if ending = ".bat" ∨ ending = ".cmd" then .ok ⟨["cmd", "/c"], script⟩
  else if host.isWindows then .error (.noInterpreter script)
  else .ok ⟨["bash"], script⟩

def buildEnv (params : Params) : Dict String String :=
  params.entries.foldl (fun env entry => env.set ("CSL_PARAM_" ++ host.upper entry.1) entry.2.text)
    host.environ

/-- The checks that run_script and ProcessManager.start make before they launch
anything, in their order; `verb` is the word in their refusals. -/
def prepare (verb name : String) (params : Params) : Action (Command × Dict String String) := do
  let found ← getState host name
  if found.state ≠ .approved then
    throw (.scriptNotApproved (s!"refusing to {verb} '{name}': approval state is" ++
      s!" '{found.state.text}' (must be approved)"))
  else do
    validateParams host name params
    let script ← findScript host name
    verifyScriptIntegrity host name script found.approvedMd5
    let command ← liftExcept (buildCommand host script)
    return (command, buildEnv host params)

def runScript (name : String) (params : Params) : Action ScriptResult := do
  let (command, env) ← prepare host "run" name params
  runToEnd name command env

end Csl.Agent
