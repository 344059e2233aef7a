import Csl.Agent.ProcessManager
import Csl.Library.Processes
import Csl.Library.Runs

/-! The records of a process manager while processes come and go.

The agent serves one call at a time. Processes of any kind start and end between its steps,
the kernel hands freed PIDs out again, and the agent itself may stop at any moment and be
booted later, when running.json is all it has.
-/

set_option autoImplicit false

namespace Csl.Agent
open Csl.Shared Processes

/-- A process as the agent sees it: the job whose start launched it, none for any other
program, and whether the agent may signal it. -/
structure Program where
  job : Option String
  permitted : Bool
  deriving DecidableEq, Repr

/-- A `Popen` of a child, or a `_ReattachedProcess`, which knows nothing but a PID. -/
inductive ProcessHandle where
  | popen (child pid : Nat) (returncode : Option Int)
  | reattached (pid : Nat) (returncode : Option Int)
  deriving DecidableEq, Repr

def ProcessHandle.pid : ProcessHandle → Nat
  | .popen _ pid _ | .reattached pid _ => pid

def ProcessHandle.returncode : ProcessHandle → Option Int
  | .popen _ _ returncode | .reattached _ returncode => returncode

structure ProcessRecord where
  jobUuid : String
  scriptName : String
  process : ProcessHandle
  logPath : Path
  startedAt : Timestamp
  status : JobStatus := .running
  endedAt : Option Timestamp := none
  exitCode : Option Int := none
  deriving DecidableEq, Repr

structure JobEntry where
  scriptName : String
  pid : Nat
  logPath : Path
  startedAt : Timestamp
  deriving DecidableEq, Repr

def ProcessRecord.entry (r : ProcessRecord) : JobEntry :=
  ⟨r.scriptName, r.process.pid, r.logPath, r.startedAt⟩

def JobEntry.reattached (entry : JobEntry) (jobUuid : String) : ProcessRecord :=
  { jobUuid, scriptName := entry.scriptName, process := .reattached entry.pid none,
    logPath := entry.logPath, startedAt := entry.startedAt }

def ProcessRecord.toResponse (r : ProcessRecord) : JobStatusResponse :=
  { jobUuid := r.jobUuid, scriptName := r.scriptName, status := r.status, persistent := true,
    startedAt := r.startedAt, endedAt := r.endedAt, exitCode := r.exitCode }

/-- Where a call of `kill` stands: about to send SIGTERM, waiting out the grace period, about
to send SIGKILL, or waiting without a limit. -/
inductive KillPhase where
  | term | grace | kill | wait
  deriving DecidableEq, Repr

structure Kill where
  jobUuid : String
  phase : KillPhase
  deriving DecidableEq, Repr

structure Signal where
  jobUuid : String
  target : Nat
  deriving DecidableEq, Repr

/-- The processes of the host, the agent's memory, and the files it shares with its successors.
`logs` tells which process a log file was last opened for, `boots` how often the agent came up;
`signals` and `killed` record what the calls of `kill` did. -/
structure System where
  os : Table Program
  up : Bool
  boots : Nat
  jobs : Dict String ProcessRecord
  killing : Option Kill
  runningJson : Dict String JobEntry
  logs : Path → Option Nat
  signals : List Signal
  killed : List String
  now : Timestamp

variable (host : Host) (procfs : Bool)

/-- `_pid_alive`. `procfs` tells zombies apart on POSIX; on Windows an exit code of 259 reads
as STILL_ACTIVE, and a process that may not be opened counts as gone. -/
def pidAlive (os : Table Program) (pid : Nat) : Bool :=
  match os.at? pid with
  | none => false
  | some p =>
    if host.isWindows then p.tag.permitted && (p.ended = none || p.ended = some 259)
    else !p.tag.permitted || p.ended = none || !procfs

/-- `poll`; the result is the return code of the handle afterwards. A Popen reaps its child. -/
def ProcessHandle.poll (os : Table Program) : ProcessHandle → Table Program × ProcessHandle
  | .popen child pid none =>
    match os.exitCode? child with
    | some code => (os.reap child, .popen child pid (some code))
    | none => (os, .popen child pid none)
  | .reattached pid none =>
    (os, .reattached pid (if pidAlive host procfs os pid then none else some (-1)))
  | done => (os, done)

/-- `_poll_record`. -/
def ProcessRecord.poll (os : Table Program) (now : Timestamp) (r : ProcessRecord) :
    Table Program × ProcessRecord :=
  if r.status = .running then
    let (os, process) := r.process.poll host procfs os
    match process.returncode with
    | none => (os, { r with process })
    | some code => (os, { r with process, exitCode := some code, endedAt := some now,
                                 status := if code = 0 then .completed else .failed })
  else (os, r)

def ProcessRecord.killed (r : ProcessRecord) (now : Timestamp) : ProcessRecord :=
  { r with status := .killed, endedAt := some now, exitCode := r.process.returncode }

namespace System
variable (s : System)

/-- Serving requests. A kill blocks the agent until it returns. -/
def Idle : Prop := s.up ∧ s.killing = none

instance : Decidable s.Idle := inferInstanceAs (Decidable (_ ∧ _))

def saveState : System :=
  { s with runningJson := s.jobs.filterMap fun _ r => if r.status = .running then some r.entry else none }

def restoreState : System :=
  { s with
    up := true
    boots := s.boots + 1
    jobs := s.runningJson.filterMap fun jobUuid entry =>
      if pidAlive host procfs s.os entry.pid then some (entry.reattached jobUuid) else none }

/-- The agent exits or crashes. Nothing is saved. -/
def stopped : System := { s with up := false, jobs := Dict.empty, killing := none }

def pollJob (jobUuid : String) : System :=
  match s.jobs.get? jobUuid with
  | none => s
  | some r =>
    let (os, r) := r.poll host procfs s.os s.now
    { s with os, jobs := s.jobs.set jobUuid r }

def pollAll : System := s.jobs.keys.foldl (pollJob host procfs) s

/-- `get_status`; none when it raises JobNotFoundError. -/
def getStatus (jobUuid : String) : Option JobStatusResponse :=
  ((s.pollJob host procfs jobUuid).jobs.get? jobUuid).map (·.toResponse)

def listJobs : List JobStatusResponse :=
  (s.pollAll host procfs).jobs.entries.map (·.2.toResponse)

def runningCount : Nat :=
  ((s.pollAll host procfs).jobs.entries.filter (·.2.status = .running)).length

def launch (path : Path) (jobUuid : String) (pid : Nat) : System :=
  { s with
    os := s.os.spawn pid ⟨some jobUuid, true⟩
    logs := Function.update s.logs (host.canonical path) (some s.os.count) }

def track (path : Path) (name jobUuid : String) (child pid : Nat) : System :=
  { s with
    jobs := s.jobs.set jobUuid { jobUuid, scriptName := name, process := .popen child pid none,
                                 logPath := path, startedAt := s.now } }

/-- `start` once its checks have passed; without a PID, Popen raised after the log was opened. -/
def start (name jobUuid : String) (pid : Option Nat) : System :=
  match host.logPath jobUuid, pid with
  | none, _ => s
  | some path, none => { s with logs := Function.update s.logs (host.canonical path) none }
  | some path, some pid =>
    if s.os.holder pid = none then
      ((s.launch host path jobUuid pid).track path name jobUuid s.os.count pid).saveState
    else s

def startCut (jobUuid : String) (pid : Nat) : System :=
  match host.logPath jobUuid with
  | none => s
  | some path => if s.os.holder pid = none then (s.launch host path jobUuid pid).stopped else s

def beginKill (jobUuid : String) : System :=
  let s := s.pollJob host procfs jobUuid
  match s.jobs.get? jobUuid with
  | none => s
  | some r => if r.status = .running then { s with killing := some ⟨jobUuid, .term⟩ } else s

/-- Whoever holds the PID is signalled. A PID nobody holds is a ProcessLookupError; taskkill's
failures are ignored, while a PermissionError of killpg leaves kill. -/
def sendSignal (jobUuid : String) (pid : Nat) (next : KillPhase) : System :=
  match s.os.holder pid, s.os.at? pid with
  | some target, some p =>
    if p.tag.permitted then
      { s with signals := s.signals ++ [⟨jobUuid, target⟩], killing := some ⟨jobUuid, next⟩ }
    else if host.isWindows then { s with killing := some ⟨jobUuid, next⟩ }
    else { s with killing := none }
  | _, _ => { s with killing := some ⟨jobUuid, if host.isWindows then next else .wait⟩ }

def finishKill (jobUuid : String) (r : ProcessRecord) : System :=
  { s with
    killing := none
    killed := s.killed ++ [jobUuid]
    jobs := s.jobs.set jobUuid (r.killed s.now) }.saveState

def waitReturns (jobUuid : String) (r : ProcessRecord) : System :=
  let (os, process) := r.process.poll host procfs s.os
  if process.returncode = none then s
  else { s with os }.finishKill jobUuid { r with process }

/-- The grace period ends first: on POSIX SIGKILL is next, on Windows kill gives up. -/
def waitTimesOut (jobUuid : String) (r : ProcessRecord) : System :=
  let (_, process) := r.process.poll host procfs s.os
  if process.returncode = none then
    if host.isWindows then s.finishKill jobUuid r else { s with killing := some ⟨jobUuid, .kill⟩ }
  else s

def continueKill (timeout : Bool) : System :=
  match s.killing with
  | none => s
  | some ⟨jobUuid, phase⟩ =>
    match s.jobs.get? jobUuid with
    | none => s
    | some r =>
      match phase, timeout with
      | .term, false => s.sendSignal host jobUuid r.process.pid .grace
      | .kill, false => s.sendSignal host jobUuid r.process.pid .wait
      | .grace, false | .wait, false => s.waitReturns host procfs jobUuid r
      | .grace, true => s.waitTimesOut host procfs jobUuid r
      | _, true => s

/-- A child whose Popen has not reaped it is left to that Popen. -/
def Awaited (child : Nat) : Prop :=
  ∃ entry ∈ s.jobs.entries, ∃ pid, entry.2.process = .popen child pid none

def awaitedBy (child : Nat) : ProcessHandle → Bool
  | .popen awaited _ none => awaited = child
  | _ => false

theorem awaited_iff (child : Nat) :
    s.Awaited child ↔ ∃ entry ∈ s.jobs.entries, awaitedBy child entry.2.process = true := by
  have same (process : ProcessHandle) :
      (∃ pid, process = .popen child pid none) ↔ awaitedBy child process = true := by
    rcases process with ⟨awaited, pid, _ | code⟩ | ⟨pid, returncode⟩ <;> simp [awaitedBy]
  unfold Awaited
  simp only [same]

instance (child : Nat) : Decidable (s.Awaited child) :=
  decidable_of_iff _ (s.awaited_iff child).symm

end System

inductive ProcessEvent where
  | clock (now : Timestamp)
  | spawn (pid : Nat) (permitted : Bool)
  | exit (process : Nat) (code : Int)
  | reap (process : Nat)
  | start (name jobUuid : String) (pid : Option Nat)
  | getStatus (jobUuid : String)
  | listJobs
  | runningCount
  | kill (jobUuid : String)
  | killProceeds
  | killTimesOut
  | stop
  | startCut (jobUuid : String) (pid : Nat)
  | boot
  deriving DecidableEq, Repr

namespace System

/-- What can happen next; an event that cannot happen changes nothing. -/
def step (s : System) : ProcessEvent → System
  | .clock now => { s with now }
  | .spawn pid permitted => { s with os := s.os.spawn pid ⟨none, permitted⟩ }
  | .exit process code => { s with os := s.os.exit process code }
  | .reap process => if s.Awaited process then s else { s with os := s.os.reap process }
  | .start name jobUuid pid => if s.Idle then s.start host name jobUuid pid else s
  | .getStatus jobUuid => if s.Idle then s.pollJob host procfs jobUuid else s
  | .listJobs | .runningCount => if s.Idle then s.pollAll host procfs else s
  | .kill jobUuid => if s.Idle then s.beginKill host procfs jobUuid else s
  | .killProceeds => s.continueKill host procfs false
  | .killTimesOut => s.continueKill host procfs true
  | .stop => s.stopped
  | .startCut jobUuid pid => if s.Idle then s.startCut host jobUuid pid else s
  | .boot => if s.up then s else s.restoreState host procfs

abbrev run (s : System) (events : List ProcessEvent) : System := Runs.run (step host procfs) s events

def fresh (os : Table Program) (now : Timestamp) : System :=
  { os, up := false, boots := 0, jobs := Dict.empty, killing := none, runningJson := Dict.empty,
    logs := fun _ => none, signals := [], killed := [], now }

end System
end Csl.Agent
