import Csl.Agent.Disk

/-! The tables of the control station's database that scripts and jobs use. -/

set_option autoImplicit false

namespace Csl.Server
open Csl.Shared Csl.Agent

/-- The functions the control station's code calls. Metadata is parsed and md5s are computed
as on the agent, so these are the host's functions. -/
structure Platform where
  host : Host
  /-- Metadata that parses says `persistent: true`. -/
  saysPersistent : String → Bool
  /-- `repr` of a string. -/
  repr : String → String

inductive Role where
  | admin | user
  deriving DecidableEq, Repr

structure User where
  id : Nat
  role : Role
  deriving DecidableEq, Repr

structure Machine where
  id : Nat
  name : String
  platform : String
  deriving DecidableEq, Repr

/-- A row of scripts: the canonical version under its name. -/
structure Script where
  id : Nat
  name : String
  content : String
  metaYaml : Option String
  md5 : String
  persistent : Bool
  updatedAt : Timestamp
  updatedBy : Nat
  deriving DecidableEq, Repr

/-- A script's state on a machine: the agent's, or that of an approval of another version. -/
inductive TargetState where
  | agent (state : ApprovalState)
  | approvedStale
  deriving DecidableEq, Repr

def TargetState.text : TargetState → String
  | .agent state => state.text
  | .approvedStale => "approved_stale"

/-- A row of script_target_state: what was last seen of a script on a machine. -/
structure ScriptTargetState where
  state : TargetState
  approvedMd5 : Option String
  pendingMd5 : Option String
  lastRefreshedAt : Timestamp
  deriving DecidableEq, Repr

structure JobFields where
  jobUuid : String
  machineId : Nat
  scriptId : Option Nat
  userId : Nat
  params : Params
  status : JobStatus
  persistent : Bool
  startedAt : Timestamp
  endedAt : Option Timestamp
  exitCode : Option Int
  deriving DecidableEq

structure Job extends JobFields where
  id : Nat
  deriving DecidableEq

/-- The scripts table. A name has one row, which carries that name and the md5 of its content. -/
structure Library (host : Host) where
  rows : Dict String Script
  named : ∀ name script, rows.get? name = some script → script.name = name
  hashed : ∀ name script, rows.get? name = some script → script.md5 = host.md5 script.content

namespace Library
variable {host : Host}

def empty : Library host := ⟨Dict.empty, nofun, nofun⟩

def find (library : Library host) (name : String) : Option Script := library.rows.get? name

def put (library : Library host) (script : Script) (hashed : script.md5 = host.md5 script.content) :
    Library host where
  rows := library.rows.set script.name script
  named name other found := by
    rw [Dict.get?_set] at found
    split at found
    next same => rw [same, ← Option.some.inj found]
    next => exact library.named name other found
  hashed name other found := by
    rw [Dict.get?_set] at found
    split at found
    next => rw [← Option.some.inj found, hashed]
    next => exact library.hashed name other found

def remove (library : Library host) (name : String) : Library host where
  rows := library.rows.pop name
  named other script found := by
    rw [Dict.get?_pop] at found
    split at found
    · cases found
    · exact library.named other script found
  hashed other script found := by
    rw [Dict.get?_pop] at found
    split at found
    · cases found
    · exact library.hashed other script found

theorem find_put (library : Library host) (script : Script)
    (hashed : script.md5 = host.md5 script.content) (name : String) :
    (library.put script hashed).find name =
      if name = script.name then some script else library.find name := Dict.get?_set _ _ _ _

theorem find_remove (library : Library host) (name other : String) :
    (library.remove name).find other = if other = name then none else library.find other :=
  Dict.get?_pop _ _ _

/-- The id a new row gets: one more than the largest in use. -/
def nextId (library : Library host) : Nat :=
  (library.rows.entries.map fun entry => entry.2.id).foldl max 0 + 1

end Library

/-- The tables. A bookmark is a user's id with a machine's, a target state is kept for a
machine's id with a script's. -/
structure Database (host : Host) where
  machines : Dict Nat Machine
  bookmarks : List (Nat × Nat)
  scripts : Library host
  targetStates : Dict (Nat × Nat) ScriptTargetState
  jobs : Dict String Job

abbrev Tables (platform : Platform) := Database platform.host

end Csl.Server
