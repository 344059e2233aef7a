import Csl.Library.Dict
import Csl.Shared.ScriptMeta

/-! The data exchanged between the control station and the agent. -/

set_option autoImplicit false

namespace Csl.Shared

inductive ApprovalState where
  | absent | pending | approved | updatePending | rejected
  deriving DecidableEq, Repr

/-- The text of a state in JSON and in messages. -/
def ApprovalState.text : ApprovalState → String
  | .absent => "absent"
  | .pending => "pending"
  | .approved => "approved"
  | .updatePending => "update_pending"
  | .rejected => "rejected"

inductive JobStatus where
  | pending | running | completed | failed | killed
  deriving DecidableEq, Repr

abbrev Params := Dict String ParamValue

structure JobRequest where
  jobUuid : String
  scriptName : String
  params : Params
  persistent : Bool
  expectedMd5 : Option String

structure ScriptDescriptor where
  name : String
  state : ApprovalState
  approvedMd5 : Option String
  pendingMd5 : Option String
  deriving DecidableEq, Repr

/-- A UTC moment, by its ISO 8601 text. -/
abbrev Timestamp := String

structure JobStatusResponse where
  jobUuid : String
  scriptName : String
  status : JobStatus
  persistent : Bool
  startedAt : Timestamp
  endedAt : Option Timestamp := none
  exitCode : Option Int := none
  deriving DecidableEq, Repr

end Csl.Shared
