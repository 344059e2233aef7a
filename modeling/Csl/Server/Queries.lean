import Csl.Server.Database
import Mathlib.Data.List.Sort
import Mathlib.Data.String.Basic

/-! The statements that the control station runs against its database. -/

set_option autoImplicit false

namespace Csl.Server
open Csl.Shared Csl.Agent

def jobStatusText : JobStatus → String
  | .pending => "pending"
  | .running => "running"
  | .completed => "completed"
  | .failed => "failed"
  | .killed => "killed"

/-- `job.status in (JobStatus.running, JobStatus.pending)`. -/
def isActive (status : JobStatus) : Bool := status = .running || status = .pending

/-- The conditions of a select on jobs; what is none is not asked for. -/
structure JobFilter where
  /-- `Job.machine_id.in_(…)`. -/
  machineIds : Option (List Nat) := none
  machineId : Option Nat := none
  scriptId : Option Nat := none
  /-- The name of the joined row of scripts. -/
  scriptName : Option String := none
  status : Option String := none
  deriving DecidableEq, Repr

structure JobUpdate where
  status : Option JobStatus := none
  endedAt : Option (Option Timestamp) := none
  exitCode : Option (Option Int) := none
  deriving DecidableEq, Repr

/-- Setting a column to the value that was read writes nothing. -/
def changed {A : Type} [DecidableEq A] (read value : A) : Option A :=
  if value = read then none else some value

def JobUpdate.apply (update : JobUpdate) (job : Job) : Job :=
  { job with
    status := update.status.getD job.status
    endedAt := update.endedAt.getD job.endedAt
    exitCode := update.exitCode.getD job.exitCode }

/-- `ORDER BY started_at DESC`; the database lists equal rows by their ids. -/
def Job.Before (first second : Job) : Prop :=
  second.startedAt < first.startedAt ∨ (first.startedAt = second.startedAt ∧ first.id ≤ second.id)

instance (first second : Job) : Decidable (first.Before second) :=
  inferInstanceAs (Decidable (_ ∨ _))

def newestFirst (jobs : List Job) : List Job := jobs.insertionSort Job.Before

inductive Query where
  | findMachine (machineId : Nat)
  | findBookmark (userId machineId : Nat)
  | findScript (name : String)
  | findScriptById (scriptId : Nat)
  | findJob (jobUuid : String)
  | listMachines
  | bookmarkedMachines (userId : Nat)
  | listScripts
  | activeJobs
  | selectJobs (filter : JobFilter) (offset limit : Nat)
  | selectJoinedJobs (filter : JobFilter) (offset limit : Nat)
  | countJobs (filter : JobFilter)
  | saveTargetState (machineId scriptId : Nat) (state : TargetState) (approvedMd5 pendingMd5 : Option String)
  | insertJob (fields : JobFields)
  | updateJob (jobUuid : String) (update : JobUpdate)

abbrev Query.Reply : Query → Type
  | .findMachine _ => Option Machine
  | .findBookmark .. => Bool
  | .findScript _ | .findScriptById _ => Option Script
  | .findJob _ => Option Job
  | .listMachines | .bookmarkedMachines _ => List Machine
  | .listScripts => List Script
  | .activeJobs | .selectJobs .. => List Job
  | .selectJoinedJobs .. => List (Job × Option Machine × Option Script)
  | .countJobs _ => Nat
  | .insertJob _ => Job
  | .saveTargetState .. | .updateJob .. => Unit

namespace Database
variable {host : Host} (db : Database host)

def machineRows : List Machine := db.machines.entries.map (·.2)

def scriptRows : List Script := db.scripts.rows.entries.map (·.2)

def jobRows : List Job := db.jobs.entries.map (·.2)

def nextJobId : Nat := (db.jobRows.map (·.id)).foldl max 0 + 1

def runsScript (name : String) (job : Job) : Bool :=
  db.scriptRows.any fun script => script.name = name && job.scriptId = some script.id

def selects (filter : JobFilter) (job : Job) : Bool :=
  filter.machineIds.all (fun ids => job.machineId ∈ ids) &&
    filter.machineId.all (job.machineId = ·) &&
    filter.scriptId.all (fun id => job.scriptId = some id) &&
    filter.scriptName.all (fun name => db.runsScript name job) &&
    filter.status.all (jobStatusText job.status = ·)

def selected (filter : JobFilter) : List Job := newestFirst (db.jobRows.filter (db.selects filter))

/-- The outer joins of a job with its machine and its script. -/
def joined (job : Job) : Job × Option Machine × Option Script :=
  (job, db.machines.get? job.machineId,
    job.scriptId.bind fun scriptId => db.scriptRows.find? (·.id = scriptId))

def updateJob (jobUuid : String) (update : JobUpdate) : Database host :=
  match db.jobs.get? jobUuid with
  | none => db
  | some job => { db with jobs := db.jobs.set jobUuid (update.apply job) }

def insertJob (fields : JobFields) : Job × Database host :=
  let job : Job := { fields with id := db.nextJobId }
  (job, { db with jobs := db.jobs.set fields.jobUuid job })

end Database

def Query.run {platform : Platform} (now : Timestamp) (db : Tables platform) :
    (query : Query) → query.Reply × Tables platform
  | .findMachine machineId => (db.machines.get? machineId, db)
  | .findBookmark userId machineId => (decide ((userId, machineId) ∈ db.bookmarks), db)
  | .findScript name => (db.scripts.find name, db)
  | .findScriptById scriptId => (db.scriptRows.find? (·.id = scriptId), db)
  | .findJob jobUuid => (db.jobs.get? jobUuid, db)
  | .listMachines => (db.machineRows.insertionSort (·.name ≤ ·.name), db)
  | .bookmarkedMachines userId =>
      ((db.machineRows.filter fun machine => (userId, machine.id) ∈ db.bookmarks).insertionSort
        (·.name ≤ ·.name), db)
  | .listScripts => (db.scriptRows.insertionSort (·.name ≤ ·.name), db)
  | .activeJobs => (db.jobRows.filter (isActive ·.status), db)
  | .selectJobs filter offset limit => (((db.selected filter).drop offset).take limit, db)
  | .selectJoinedJobs filter offset limit =>
      ((((db.selected filter).drop offset).take limit).map db.joined, db)
  | .countJobs filter => ((db.selected filter).length, db)
  | .saveTargetState machineId scriptId state approvedMd5 pendingMd5 =>
      ((), { db with
        targetStates := db.targetStates.set (machineId, scriptId) ⟨state, approvedMd5, pendingMd5, now⟩ })
  | .insertJob fields => db.insertJob fields
  | .updateJob jobUuid update => ((), db.updateJob jobUuid update)

end Csl.Server
