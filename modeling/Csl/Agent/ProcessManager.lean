import Csl.Agent.ScriptRunner

/-! Starting persistent processes. -/

set_option autoImplicit false

namespace Csl.Agent
open Csl.Shared

variable (host : Host)

/-- `open(log_path, "w")`, which empties the file. -/
def openLog (jobUuid : String) : Action Unit := do
  mkdir .logs
  match host.logPath jobUuid with
  | none => throw (.cannotOpenLog jobUuid)
  | some path => writeText path "" .exact

/-- `ProcessManager.start` up to the launch and the response. -/
def ProcessManager.start (name : String) (params : Params) (jobUuid : String) :
    Action JobStatusResponse := do
  let (command, env) ← prepare host "start" name params
  openLog host jobUuid
  popen name command env
  let startedAt ← utcNow
  return { jobUuid, scriptName := name, status := .running, persistent := true, startedAt }

end Csl.Agent
