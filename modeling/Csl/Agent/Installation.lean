import Csl.Agent.Approvals.Text
import Csl.Agent.Disk

/-! A Linux installation: the platform functions as they are there.

The digests are those of the texts used in the runs below; the other functions
are given where these runs use them.
-/

set_option autoImplicit false

namespace Csl.Agent
open Csl.Shared

namespace Installation

def scriptOne : String := "echo one\n"

def scriptTwo : String := "echo two\n"

def md5One : String := "25846198273b866e2b096b8995ef28d9"

def md5Two : String := "bb0136d06622dc3ac6c9fc0e74653ac2"

def md5Empty : String := "d41d8cd98f00b204e9800998ecf8427e"

def digest (text : String) : String :=
  if text = scriptOne then md5One
  else if text = scriptTwo then md5Two
  else md5Empty

def waitingStore : ApprovalsStore :=
  ⟨Dict.empty.set "deploy" { state := .pending, pendingMd5 := some md5One }⟩

def approvedStore : ApprovalsStore :=
  ⟨Dict.empty.set "deploy" { state := .approved, approvedMd5 := some md5One,
                             approvedAt := some "1", approvedVia := some .cli }⟩

/-- `~/.csl/logs` joined with a job uuid: a file of logs/, or one of scripts/ when the uuid
climbs there; no log can be opened in a directory that does not exist. -/
def logPath (jobUuid : String) : Option Path :=
  match "../scripts/".toList.isPrefixOf? jobUuid.toList with
  | some rest =>
    if '/' ∈ rest then none else some (.scripts (String.ofList rest ++ ".log"))
  | none => if '/' ∈ jobUuid.toList then none else some (.log (jobUuid ++ ".log"))

theorem logPath_suffix (jobUuid : String) :
    logPath jobUuid ≠ some .approvals ∧ logPath jobUuid ≠ some .approvalsTmp := by
  unfold logPath
  split <;> split <;> simp

def display : Path → String
  | .scripts file => "/home/csl/scripts/" ++ file
  | .pending file => "/home/csl/scripts.pending/" ++ file
  | .log file => "/home/csl/logs/" ++ file
  | .approvals => "/home/csl/agent/approvals.json"
  | .approvalsTmp => "/home/csl/agent/approvals.tmp"
  | .other location => location

end Installation

open Installation

def linux : Host where
  isWindows := false
  foldsCase := false
  display := display
  environ := Dict.empty.set "PATH" "/usr/bin"
  md5 := digest
  parseMetaYaml _ := .error "metadata must be a mapping"
  upper text := String.ofList (text.toList.map Char.toUpper)
  codec := jsonCodec
  processResult _ := ⟨0, "", "", false⟩
  logPath := logPath
  logPath_suffix := logPath_suffix

end Csl.Agent
