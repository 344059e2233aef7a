import Csl.Agent.ProcessManager.OneJob
import Csl.Library.Knowledge
import Csl.Server.JobReconciler
import Csl.Server.Jobs.ResolvedVersion

/-! What the handlers that write one job's row have been told about the job.

Submissions, polls and kills each write what the agent's answer told them, some time after the agent
gave it. The agent is its process manager; a request about the job may get lost on its way there or
back.
-/

set_option autoImplicit false

namespace Csl.Server
open Csl.Shared Csl.Agent

namespace FinalStatus

/-- What is in no one's hands: how the awaits of the next call come out. -/
structure Weather where
  connects : Except Failure Unit
  closes : Except Failure Unit
  wakes : Except Failure Unit
  /-- Whether a request about the job reaches the agent, and whether the answer comes back. -/
  reaches : Bool
  returns : Bool
  trouble : TransportError
  /-- The approvals and files that a posted job is checked against. -/
  world : World
  /-- The PID that a launch gets; without one Popen raises. -/
  pid : Option Nat
  /-- What goes on at the machine during a call of kill. -/
  meanwhile : List ProcessEvent
  /-- The answers to requests about anything else. -/
  elsewhere : Request → Except Failure Response
  stream : LogStream

structure Station (platform : Platform) where
  tables : Tables platform
  agent : System
  weather : Weather
  now : Timestamp

/-! ## The agent's side -/

section
variable (platform : Platform) (procfs : Bool)

def notFound (jobUuid : String) : Response := ⟨404, .detail (.text s!"job {platform.repr jobUuid} not found")⟩

def jobResponse (jobUuid : String) : Option JobStatusResponse → Response
  | some answer => ⟨200, .job answer⟩
  | none => notFound platform jobUuid

abbrev Served := Except TransportError Response × System

def getJobStatus (jobUuid : String) (agent : System) : Served :=
  (.ok (jobResponse platform jobUuid (agent.getStatus platform.host procfs jobUuid)),
    agent.step platform.host procfs (.getStatus jobUuid))

/-- The agent once its call of kill has returned, or is still waiting when the client gives up. -/
def afterKill (weather : Weather) (jobUuid : String) (agent : System) : System :=
  (agent.step platform.host procfs (.kill jobUuid)).run platform.host procfs
    (weather.meanwhile.filter (System.Passive ·))

/-- A record that runs after the kill is one whose process the agent may not signal. -/
def killJob (weather : Weather) (jobUuid : String) (agent : System) : Served :=
  let after := afterKill platform procfs weather jobUuid agent
  if after.killing ≠ none then (.error weather.trouble, after)
  else
    match after.jobs.get? jobUuid with
    | none => (.ok (notFound platform jobUuid), after)
    | some r =>
      if r.status = .running then (.ok ⟨500, .unreadable⟩, after)
      else (.ok (jobResponse platform jobUuid (some r.toResponse)), after)

/-- A one-off job leaves no record. -/
def submitJob (weather : Weather) (body : JobRequest) (agent : System) : Served :=
  let checked := (platform.host.run (Agent.submitJob platform.host body) weather.world).1
  let answer := respond (.submitJob body) (checked.map .job)
  match checked with
  | .error _ => (.ok answer, agent)
  | .ok _ =>
    if body.persistent then
      let started := agent.step platform.host procfs (.start body.scriptName body.jobUuid weather.pid)
      if weather.pid.any (fun pid => agent.os.holder pid = none) then (.ok answer, started)
      else (.ok ⟨500, .unreadable⟩, started)
    else (.ok answer, agent)

def jobOf : Request → Option String
  | .getJobStatus jobUuid | .killJob jobUuid => some jobUuid
  | .submitJob body => some body.jobUuid
  | .healthz | .getScriptState _ | .stageScript .. | .streamJobLogs .. => none

def endpoint (weather : Weather) : Request → System → Served
  | .getJobStatus jobUuid, agent => getJobStatus platform procfs jobUuid agent
  | .killJob jobUuid, agent => killJob platform procfs weather jobUuid agent
  | .submitJob body, agent => submitJob platform procfs weather body agent
  | .healthz, agent | .getScriptState _, agent | .stageScript .., agent | .streamJobLogs .., agent =>
      (.error weather.trouble, agent)

/-- An agent that is down or in a call of kill does not answer. -/
def deliver (serve : System → Served) (s : Station platform) : Except Failure Response × Station platform :=
  if s.weather.reaches ∧ s.agent.Idle then
    let served := serve s.agent
    (if s.weather.returns then served.1.mapError .transport else .error (.transport s.weather.trouble),
      { s with agent := served.2 })
  else (.error (.transport s.weather.trouble), s)

/-- The awaits of a handler. Requests about other jobs go to agents and records of their own. -/
def handle (jobUuid : String) : Handler Op Reply Failure (Station platform)
  | .query statement, s =>
      let ran := statement.run s.now s.tables
      (.ok ran.1, { s with tables := ran.2 })
  | .utcNow, s => (.ok s.now, s)
  | .openTunnel _, s => (s.weather.connects, s)
  | .closeTunnel, s => (s.weather.closes, s)
  | .ensureAgentRunning, s => (s.weather.wakes, s)
  | .send request, s =>
      if jobOf request = some jobUuid then deliver platform (endpoint platform procfs s.weather request) s
      else (s.weather.elsewhere request, s)
  | .streamLogs _, s => (.ok s.weather.stream, s)

end

/-! ## The handlers -/

/-- The requests about a job that has been submitted, and the reconciler's passes. -/
inductive Visit where
  | get
  | reconcile (setOrder : JobReconciler.SetOrder)
  | kill
  | killWeb

inductive Errand where
  | submit | refresh | reconcile | kill
  deriving DecidableEq, Repr

def Visit.errand : Visit → Errand
  | get => .refresh
  | reconcile _ => .reconcile
  | kill | killWeb => .kill

def Visit.task (jobUuid : String) : Visit → Task Unit
  | get => do
      let _ ← Api.getJob jobUuid
  | reconcile setOrder => JobReconciler.reconcileOnce setOrder
  | kill => Api.killJob jobUuid
  | killWeb => do
      let _ ← Web.killJobWeb jobUuid

/-- Number 0 submits the job. -/
def task (platform : Platform) (submission : Submission) (visits : Nat → Visit) : Nat → Task Unit
  | 0 => do
      let _ ← submission.handler platform
  | number + 1 => (visits number).task submission.jobUuid

def errand (visits : Nat → Visit) : Nat → Errand
  | 0 => .submit
  | number + 1 => (visits number).errand

/-! ## What they know -/

/-- What a handler knows of the job: nothing yet, that it has a row or was posted, or what status it
was told last. -/
inductive Knowledge where
  | unaware
  | aware
  | told (status : JobStatus)
  deriving DecidableEq, Repr

def Knowledge.noticed : Knowledge → Knowledge
  | unaware => aware
  | known => known

def Success (response : Response) : Prop := 200 ≤ response.status ∧ response.status < 300

instance (response : Response) : Decidable (Success response) := inferInstanceAs (Decidable (_ ∧ _))

def tells : Except Failure Response → Option JobStatus
  | .ok ⟨status, .job answer⟩ => if Success ⟨status, .job answer⟩ then some answer.status else none
  | _ => none

section
variable (jobUuid : String)

/-- The reconciler takes a missing answer for a failure, a kill any success for a kill. -/
def learn (errand : Errand) (known : Knowledge) : (op : Op) → Except Failure (Reply op) → Knowledge
  | .query (.findJob key), .ok (some _) => if key = jobUuid then known.noticed else known
  | .query .activeJobs, .ok jobs => if ∃ job ∈ jobs, job.jobUuid = jobUuid then known.noticed else known
  | .query (.insertJob fields), _ => if fields.jobUuid = jobUuid then .aware else known
  | .send (.getJobStatus key), reply =>
      if key = jobUuid then
        match tells reply with
        | some status => .told status
        | none => if errand = .reconcile then .told .failed else .aware
      else known
  | .send (.killJob key), .ok response => if key = jobUuid ∧ Success response then .told .killed else known
  | .send (.submitJob body), reply =>
      if body.jobUuid = jobUuid then
        match tells reply with
        | some status => .told status
        | none => .aware
      else known
  | _, _ => known

/-- Only what was told is written, and only an end over a row that is there. -/
def allowed (errand : Errand) (known : Knowledge) : Op → Prop
  | .query (.insertJob fields) => fields.jobUuid = jobUuid → errand = .submit ∧ known = .told fields.status
  | .query (.updateJob key update) => key = jobUuid → errand ≠ .submit ∧ ∃ status, known = .told status ∧
      ∀ written ∈ update.status, written = status ∧ isActive status = false
  | .send (.getJobStatus key) => key = jobUuid → (errand = .refresh ∨ errand = .reconcile) ∧ known ≠ .unaware
  | .send (.killJob key) => key = jobUuid → errand = .kill ∧ known ≠ .unaware
  | .send (.submitJob body) => body.jobUuid = jobUuid → errand = .submit ∧ known = .unaware
  | _ => True

/-- The database does not fail, and nobody tells of a pending job. -/
def credible : (op : Op) → Except Failure (Reply op) → Prop
  | .query _, .error _ => False
  | .query (.findJob key), .ok found => key = jobUuid → ∀ row ∈ found, row.status ≠ .pending
  | .send (.getJobStatus key), reply => key = jobUuid → tells reply ≠ some .pending
  | _, _ => True

def discipline (errand : Errand) : Proc.Discipline Op Reply Failure Knowledge where
  learn := learn jobUuid errand
  credible := credible jobUuid
  allowed := allowed jobUuid errand

end

end FinalStatus

end Csl.Server
