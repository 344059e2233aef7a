import Csl.Server.Api.Jobs
import Csl.Server.Installation
import Mathlib.Data.List.Dedup

/-! One pass of the reconciler over the active jobs.

The agents' answers reach it through two nested handlers: one for each job and one for each
machine. What is no AgentClientError is taken for a job that its agent does not know.
-/

set_option autoImplicit false

namespace Csl.Server
open Csl.Shared Csl.Agent

namespace JobReconciler

/-- The order in which a set of ids is walked through. -/
abbrev SetOrder := { order : List Nat → List Nat // ∀ ids, (order ids).Perm ids.dedup }

def failedOf (row : Job) : JobUpdate := { status := changed row.status .failed }

/-- The row is read again in a session of its own. -/
def settle (jobUuid : String) (update : Job → JobUpdate) : Task Unit := do
  match ← findJob jobUuid with
  | none => return ()
  | some row => updateJob jobUuid (update row)

def reconcileJob (job : Job) : Task Unit :=
  tryCatch (do
      let answer ← AgentClient.getJobStatus job.jobUuid
      if isActive answer.status then return ()
      else settle job.jobUuid fun row => Api.refreshOf row answer)
    fun e =>
      if e.isAgentClientError then return ()
      else settle job.jobUuid failedOf

def reconcileJobs : List Job → Task Unit
  | [] => return ()
  | job :: jobs => do
    reconcileJob job
    reconcileJobs jobs

/-- A machine that cannot be reached is left out of the pass. -/
def reconcileMachine (jobs : List Job) (machineId : Nat) (machine : Machine) : Task Unit :=
  tryCatch (withAgent machine (reconcileJobs (jobs.filter (·.machineId = machineId)))) fun _ => return ()

def reconcileMachines (jobs : List Job) : List (Nat × Machine) → Task Unit
  | [] => return ()
  | (machineId, machine) :: machines => do
    reconcileMachine jobs machineId machine
    reconcileMachines jobs machines

/-- The machines by their ids; ids without a row are left out. -/
def readMachines : List Nat → Task (List (Nat × Machine))
  | [] => return []
  | machineId :: machineIds => do
    let found ← findMachine machineId
    let machines ← readMachines machineIds
    return found.toList.map (machineId, ·) ++ machines

def reconcileOnce (setOrder : SetOrder) : Task Unit := do
  let jobs ← activeJobs
  if jobs = [] then return ()
  else do
    let machines ← readMachines (setOrder.val (jobs.map (·.machineId)))
    reconcileMachines jobs machines

/-! ## The agents during a pass -/

/-- What opening and closing each machine's tunnel and each job's status call come to. -/
structure Agents where
  connects : Machine → Except Failure Unit
  closes : Machine → Except Failure Unit
  status : String → Except TransportError Response

structure Pass (platform : Platform) where
  tables : Tables platform
  tunnel : Option Machine
  now : Timestamp

def Agents.handle {platform : Platform} (agents : Agents) : Handler Op Reply Failure (Pass platform)
  | .query statement, s =>
      let ran := statement.run s.now s.tables
      (.ok ran.1, { s with tables := ran.2 })
  | .utcNow, s => (.ok s.now, s)
  | .openTunnel machine, s => (agents.connects machine, { s with tunnel := some machine })
  | .closeTunnel, s => ((s.tunnel.map agents.closes).getD (.ok ()), { s with tunnel := none })
  | .send (.getJobStatus jobUuid), s => ((agents.status jobUuid).mapError .transport, s)
  | .send _, s => (.error (.transport .remoteProtocolError), s)
  | .ensureAgentRunning, s => (.ok (), s)
  | .streamLogs _, s => (.ok ⟨[], none⟩, s)

def told : Except TransportError Response → Except Failure JobStatusResponse
  | .error e => .error (.transport e)
  | .ok response =>
    if 200 ≤ response.status ∧ response.status < 300 then
      match response.body with
      | .job answer => .ok answer
      | _ => .error .undecodable
    else .error (.httpStatus response.status)

/-- The agent has said what the job's status is, or that it does not know the job. -/
def Answers : Except TransportError Response → Prop
  | .error _ => False
  | .ok response =>
    response.status = 404 ∨ (200 ≤ response.status ∧ response.status < 300) ∧ ∃ answer, response.body = .job answer

def Agents.polls {platform : Platform} (agents : Agents) (tables : Tables platform) (job : Job) : Bool :=
  isActive job.status && (tables.machines.get? job.machineId).any fun machine => (agents.connects machine).isOk

/-- A row after the agent's word: the end it tells of is taken over, a job it does not know has
failed, and without its word the row stays. -/
def onWord (outcome : Except TransportError Response) (row : Job) : Job :=
  match told outcome with
  | .ok answer =>
    if isActive answer.status then row
    else { row with status := answer.status, endedAt := answer.endedAt, exitCode := answer.exitCode }
  | .error (.httpStatus 404) => { row with status := .failed }
  | .error _ => row

def written (outcome : Except TransportError Response) (row : Job) : Job :=
  match told outcome with
  | .ok answer => if isActive answer.status then row else (Api.refreshOf row answer).apply row
  | .error e => if e.isAgentClientError then row else (failedOf row).apply row

/-! ## What a pass writes -/

@[simp] theorem getD_changed {A : Type} [DecidableEq A] (read value : A) :
    (changed read value).getD read = value := by
  by_cases same : value = read
  · simp [changed, same]
  · simp [changed, same]

theorem apply_refreshOf (row : Job) (answer : JobStatusResponse) :
    (Api.refreshOf row answer).apply row =
      { row with status := answer.status, endedAt := answer.endedAt, exitCode := answer.exitCode } := by
  simp [Api.refreshOf, JobUpdate.apply]

theorem apply_failedOf (row : Job) : (failedOf row).apply row = { row with status := .failed } := by
  simp [failedOf, JobUpdate.apply]

theorem written_written (outcome : Except TransportError Response) (row : Job) :
    written outcome (written outcome row) = written outcome row := by
  unfold written
  cases told outcome with
  | ok answer =>
    by_cases active : isActive answer.status = true
    · simp [active]
    · simp [active, apply_refreshOf]
  | error e =>
    by_cases refused : e.isAgentClientError = true
    · simp [refused]
    · simp [refused, apply_failedOf]

section
variable {platform : Platform} {agents : Agents}

/-- Between two states of a pass the rows under some uuids were written as their jobs' status
calls came to, and nothing else was written. -/
structure Settled (agents : Agents) (polled : String → Prop) (before after : Pass platform) : Prop where
  frame : after.tables = { before.tables with jobs := after.tables.jobs }
  rows : ∀ jobUuid, polled jobUuid →
    after.tables.jobs.get? jobUuid = (before.tables.jobs.get? jobUuid).map (written (agents.status jobUuid))
  others : ∀ jobUuid, ¬ polled jobUuid → after.tables.jobs.get? jobUuid = before.tables.jobs.get? jobUuid

theorem Settled.trans {first second : String → Prop} {before between after : Pass platform}
    (one : Settled agents first before between) (two : Settled agents second between after) :
    Settled agents (fun jobUuid => first jobUuid ∨ second jobUuid) before after := by
  constructor
  · rw [two.frame, one.frame]
  · intro jobUuid polled
    by_cases again : second jobUuid
    · rw [two.rows jobUuid again]
      by_cases already : first jobUuid
      · rw [one.rows jobUuid already, Option.map_map]
        congr 1
        funext row
        exact written_written _ row
      · rw [one.others jobUuid already]
    · rw [two.others jobUuid again, one.rows jobUuid (polled.resolve_right again)]
  · intro jobUuid unpolled
    rw [two.others jobUuid fun again => unpolled (.inr again), one.others jobUuid fun already => unpolled (.inl already)]

theorem Settled.of_iff {polled others : String → Prop} {before after : Pass platform}
    (settled : Settled agents polled before after) (same : ∀ jobUuid, polled jobUuid ↔ others jobUuid) :
    Settled agents others before after := by
  have equal : polled = others := funext fun jobUuid => propext (same jobUuid)
  rwa [equal] at settled

theorem Settled.unwritten {polled : String → Prop} {before after : Pass platform}
    (tables : after.tables = before.tables)
    (stays : ∀ jobUuid row, polled jobUuid → written (agents.status jobUuid) row = row) :
    Settled agents polled before after := by
  constructor
  · rw [tables]
  · intro jobUuid polled
    rw [tables]
    cases before.tables.jobs.get? jobUuid with
    | none => rfl
    | some row => exact congrArg some (stays jobUuid row polled).symm
  · intro jobUuid unpolled
    rw [tables]

def Settles (platform : Platform) (agents : Agents) (polled : String → Prop) (task : Task Unit) : Prop :=
  ∀ s : Pass platform, ∃ after, task.run agents.handle s = (.ok (), after) ∧ Settled agents polled s after

theorem settles_bind {first second : String → Prop} {one two : Task Unit} (starts : Settles platform agents first one)
    (goesOn : Settles platform agents second two) :
    Settles platform agents (fun jobUuid => first jobUuid ∨ second jobUuid) (do one; two) := by
  intro s
  obtain ⟨between, ran, settled⟩ := starts s
  obtain ⟨after, ranOn, settledOn⟩ := goesOn between
  refine ⟨after, ?_, settled.trans settledOn⟩
  rw [Proc.run_bind, ran, Proc.follow_ok, ranOn]

theorem run_findJob (s : Pass platform) (jobUuid : String) :
    (findJob jobUuid).run agents.handle s = (.ok (s.tables.jobs.get? jobUuid), s) := Proc.run_perform _ _ _

theorem run_updateJob (s : Pass platform) (jobUuid : String) (update : JobUpdate) :
    (updateJob jobUuid update).run agents.handle s = (.ok (), { s with tables := s.tables.updateJob jobUuid update }) :=
  Proc.run_perform _ _ _

theorem settles_settle {jobUuid : String} {update : Job → JobUpdate}
    (writes : ∀ row, (update row).apply row = written (agents.status jobUuid) row) :
    Settles platform agents (· = jobUuid) (settle jobUuid update) := by
  intro s
  cases found : s.tables.jobs.get? jobUuid with
  | none =>
    refine ⟨s, ?_, rfl, ?_, fun _ _ => rfl⟩
    · rw [settle, Proc.run_bind, run_findJob, Proc.follow_ok, found]
      rfl
    · intro polled same
      rw [same, found]
      rfl
  | some row =>
    have updated : s.tables.updateJob jobUuid (update row) =
        { s.tables with jobs := s.tables.jobs.set jobUuid ((update row).apply row) } := by
      rw [Database.updateJob, found]
    refine ⟨{ s with tables := s.tables.updateJob jobUuid (update row) }, ?_, ?_, ?_, ?_⟩
    · rw [settle, Proc.run_bind, run_findJob, Proc.follow_ok, found]
      exact run_updateJob s jobUuid (update row)
    · rw [updated]
    · intro polled same
      rw [updated, same, Dict.get?_set_self, found, writes row]
      rfl
    · intro other apart
      rw [updated]
      exact Dict.get?_set_of_ne _ apart _

theorem run_getJobStatus (s : Pass platform) (jobUuid : String) :
    (AgentClient.getJobStatus jobUuid).run agents.handle s = (told (agents.status jobUuid), s) := by
  have sent : (send (.getJobStatus jobUuid)).run agents.handle s =
      ((agents.status jobUuid).mapError .transport, s) := Proc.run_perform _ _ _
  rw [AgentClient.getJobStatus, Proc.run_bind, sent]
  cases agents.status jobUuid with
  | error e => rfl
  | ok response =>
    by_cases success : 200 ≤ response.status ∧ response.status < 300
    · simp only [Except.mapError, Proc.follow_ok, raiseForStatus, if_pos success, Proc.pure_bind, told]
      cases response.body <;> rfl
    · simp only [Except.mapError, Proc.follow_ok, raiseForStatus, if_neg success, Proc.throw_bind, Proc.run_throw, told]

theorem settles_reconcileJob (job : Job) : Settles platform agents (· = job.jobUuid) (reconcileJob job) := by
  intro s
  simp only [reconcileJob, Proc.run_tryCatch, Proc.run_bind, run_getJobStatus]
  cases outcome : told (agents.status job.jobUuid) with
  | ok answer =>
    simp only [Proc.follow_ok, Proc.run_ite]
    by_cases active : isActive answer.status = true
    · rw [if_pos active]
      refine ⟨s, rfl, .unwritten rfl ?_⟩
      rintro _ row rfl
      simp only [written, outcome, if_pos active]
    · rw [if_neg active]
      have settles : Settles platform agents (· = job.jobUuid)
          (settle job.jobUuid fun row => Api.refreshOf row answer) := by
        apply settles_settle
        intro row
        simp only [written, outcome, if_neg active]
      obtain ⟨after, ran, settled⟩ := settles s
      exact ⟨after, by rw [ran, Proc.recoverWith_ok], settled⟩
  | error e =>
    simp only [Proc.follow_error, Proc.recoverWith_error, Proc.run_ite]
    by_cases refused : e.isAgentClientError = true
    · rw [if_pos refused]
      refine ⟨s, rfl, .unwritten rfl ?_⟩
      rintro _ row rfl
      simp only [written, outcome, if_pos refused]
    · rw [if_neg refused]
      apply settles_settle
      intro row
      simp only [written, outcome, if_neg refused]

theorem settles_reconcileJobs (jobs : List Job) :
    Settles platform agents (fun jobUuid => ∃ job ∈ jobs, job.jobUuid = jobUuid) (reconcileJobs jobs) := by
  induction jobs with
  | nil => exact fun s => ⟨s, rfl, .unwritten rfl fun _ _ polled => by simp at polled⟩
  | cons job jobs ih =>
    intro s
    obtain ⟨after, ran, settled⟩ := settles_bind (settles_reconcileJob job) ih s
    refine ⟨after, ran, settled.of_iff fun jobUuid => ?_⟩
    simp [eq_comm]

/-- Whatever closing the tunnel comes to, the rows are settled by then. -/
theorem settles_reconcileMachine (jobs : List Job) (machineId : Nat) (machine : Machine) :
    Settles platform agents
      (fun jobUuid => (agents.connects machine).isOk ∧ ∃ job ∈ jobs, job.machineId = machineId ∧ job.jobUuid = jobUuid)
      (reconcileMachine jobs machineId machine) := by
  intro s
  let opened : Pass platform := { s with tunnel := some machine }
  have settles : Settles platform agents _ (reconcileJobs (jobs.filter (·.machineId = machineId))) :=
    settles_reconcileJobs _
  obtain ⟨between, ran, settled⟩ := settles opened
  have opens : (openTunnel machine).run agents.handle s = (agents.connects machine, opened) := Proc.run_perform _ _ _
  have closes : closeTunnel.run agents.handle between =
      ((between.tunnel.map agents.closes).getD (.ok ()), { between with tunnel := none }) := Proc.run_perform _ _ _
  rw [reconcileMachine, Proc.run_tryCatch, withAgent, Proc.run_bind, opens]
  cases connected : agents.connects machine with
  | error e =>
    refine ⟨opened, rfl, .unwritten rfl ?_⟩
    rintro jobUuid row ⟨connects, -⟩
    cases connects
  | ok connection =>
    refine ⟨{ between with tunnel := none }, ?_, ?_, ?_, ?_⟩
    · simp only [Proc.follow_ok, Proc.run_bind, Proc.run_tryCatch, ran, Proc.recoverWith_ok, closes]
      cases (between.tunnel.map agents.closes).getD (.ok ()) <;> rfl
    · exact settled.frame
    · rintro jobUuid ⟨-, job, member, on, same⟩
      exact settled.rows jobUuid ⟨job, List.mem_filter.mpr ⟨member, decide_eq_true on⟩, same⟩
    · intro jobUuid unpolled
      apply settled.others jobUuid
      rintro ⟨job, kept, same⟩
      obtain ⟨member, on⟩ := List.mem_filter.mp kept
      exact unpolled ⟨rfl, job, member, of_decide_eq_true on, same⟩

theorem settles_reconcileMachines (jobs : List Job) (machines : List (Nat × Machine)) :
    Settles platform agents
      (fun jobUuid => ∃ entry ∈ machines, (agents.connects entry.2).isOk ∧
        ∃ job ∈ jobs, job.machineId = entry.1 ∧ job.jobUuid = jobUuid)
      (reconcileMachines jobs machines) := by
  induction machines with
  | nil => exact fun s => ⟨s, rfl, .unwritten rfl fun _ _ polled => by simp at polled⟩
  | cons entry machines ih =>
    intro s
    obtain ⟨after, ran, settled⟩ := settles_bind (settles_reconcileMachine jobs entry.1 entry.2) ih s
    refine ⟨after, ran, settled.of_iff fun jobUuid => ?_⟩
    rw [List.exists_mem_cons_iff]

def known (tables : Tables platform) (machineIds : List Nat) : List (Nat × Machine) :=
  machineIds.flatMap fun machineId => (tables.machines.get? machineId).toList.map (machineId, ·)

theorem mem_known {tables : Tables platform} {machineIds : List Nat} {entry : Nat × Machine} :
    entry ∈ known tables machineIds ↔ entry.1 ∈ machineIds ∧ tables.machines.get? entry.1 = some entry.2 := by
  obtain ⟨machineId, machine⟩ := entry
  simp [known]

theorem run_readMachines (s : Pass platform) (machineIds : List Nat) :
    (readMachines machineIds).run agents.handle s = (.ok (known s.tables machineIds), s) := by
  induction machineIds with
  | nil => rfl
  | cons machineId machineIds ih =>
    have found : (findMachine machineId).run agents.handle s = (.ok (s.tables.machines.get? machineId), s) :=
      Proc.run_perform _ _ _
    rw [readMachines, Proc.run_bind, found, Proc.follow_ok, Proc.run_bind, ih]
    rfl

theorem mem_setOrder (setOrder : SetOrder) (ids : List Nat) (id : Nat) : id ∈ setOrder.val ids ↔ id ∈ ids := by
  rw [(setOrder.property ids).mem_iff, List.mem_dedup]

theorem polls_iff {tables : Tables platform} {job : Job} :
    agents.polls tables job = true ↔ isActive job.status = true ∧
      ∃ machine, tables.machines.get? job.machineId = some machine ∧ (agents.connects machine).isOk = true := by
  rw [Agents.polls, Bool.and_eq_true, Option.any_eq_true]

theorem run_reconcileOnce (setOrder : SetOrder) (s : Pass platform) :
    ∃ after, (reconcileOnce setOrder).run agents.handle s = (.ok (), after) ∧
      Settled agents (fun jobUuid => ∃ job ∈ s.tables.jobRows, agents.polls s.tables job ∧ job.jobUuid = jobUuid)
        s after := by
  have active : activeJobs.run agents.handle s = (.ok (s.tables.jobRows.filter (isActive ·.status)), s) :=
    Proc.run_perform _ _ _
  rw [reconcileOnce, Proc.run_bind, active, Proc.follow_ok, Proc.run_ite]
  generalize listed : s.tables.jobRows.filter (isActive ·.status) = jobs
  have member (job : Job) : job ∈ jobs ↔ job ∈ s.tables.jobRows ∧ isActive job.status = true := by
    rw [← listed, List.mem_filter]
  by_cases idle : jobs = []
  · rw [if_pos idle]
    refine ⟨s, rfl, .unwritten rfl ?_⟩
    rintro jobUuid row ⟨job, isRow, polls, -⟩
    have busy : job ∈ jobs := (member job).mpr ⟨isRow, (polls_iff.mp polls).1⟩
    rw [idle] at busy
    cases busy
  · rw [if_neg idle, Proc.run_bind, run_readMachines, Proc.follow_ok]
    have settles : Settles platform agents _
        (reconcileMachines jobs (known s.tables (setOrder.val (jobs.map (·.machineId))))) :=
      settles_reconcileMachines _ _
    obtain ⟨after, ran, settled⟩ := settles s
    refine ⟨after, ran, settled.of_iff fun jobUuid => ?_⟩
    constructor
    · rintro ⟨⟨machineId, machine⟩, among, connects, job, busy, on, same⟩
      obtain ⟨isRow, active⟩ := (member job).mp busy
      have found := (mem_known.mp among).2
      dsimp only at found connects on
      exact ⟨job, isRow, polls_iff.mpr ⟨active, machine, by rw [on, found], connects⟩, same⟩
    · rintro ⟨job, isRow, polls, same⟩
      obtain ⟨active, machine, found, connects⟩ := polls_iff.mp polls
      have busy : job ∈ jobs := (member job).mpr ⟨isRow, active⟩
      refine ⟨(job.machineId, machine), mem_known.mpr ⟨?_, found⟩, connects, job, busy, rfl, same⟩
      rw [mem_setOrder]
      exact List.mem_map_of_mem busy

/-! ## The agent's word -/

theorem isActive_failed : isActive .failed = false := rfl

theorem told_error {outcome : Except TransportError Response} {e : Failure} (failed : told outcome = .error e) :
    e.isAgentClientError = false ∧ (Answers outcome ↔ e = .httpStatus 404) := by
  unfold told at failed
  cases outcome with
  | error error =>
    cases failed
    exact ⟨rfl, by simp [Answers]⟩
  | ok response =>
    dsimp only at failed
    by_cases success : 200 ≤ response.status ∧ response.status < 300
    · rw [if_pos success] at failed
      have other : response.status ≠ 404 := by omega
      split at failed
      · cases failed
      next notJob =>
        cases failed
        refine ⟨rfl, ?_⟩
        simp only [Answers, other, false_or, success, and_self, true_and]
        exact iff_of_false (fun ⟨answer, body⟩ => notJob answer body) nofun
    · rw [if_neg success] at failed
      cases failed
      simp [Answers, success, Failure.isAgentClientError]

theorem told_ok {outcome : Except TransportError Response} {answer : JobStatusResponse}
    (answered : told outcome = .ok answer) : Answers outcome := by
  unfold told at answered
  cases outcome with
  | error error => cases answered
  | ok response =>
    dsimp only at answered
    split at answered
    next success =>
      split at answered
      next body => exact .inr ⟨success, _, body⟩
      next => cases answered
    next => cases answered

/-- Polling an active job leaves its row as the agent's word does, unless the agent gave none. -/
theorem written_eq_onWord {outcome : Except TransportError Response} {row : Job} (active : isActive row.status = true) :
    written outcome row = onWord outcome row ↔ Answers outcome := by
  unfold written onWord
  cases heard : told outcome with
  | ok answer => simp [told_ok heard, apply_refreshOf]
  | error e =>
    obtain ⟨notClient, word⟩ := told_error heard
    rw [word]
    dsimp only
    rw [if_neg (by rw [notClient]; nofun), apply_failedOf]
    split
    next impossible => cases impossible
    next unknown => exact iff_of_true rfl (Except.error.inj unknown)
    next other raised =>
      have known : e ≠ .httpStatus 404 := by
        intro same
        apply other
        rw [← Except.error.inj raised, same]
      refine iff_of_false (fun same => ?_) known
      have failed := congrArg (fun job : Job => isActive job.status) same
      dsimp only at failed
      rw [active, isActive_failed] at failed
      cases failed

end

/-- Every row is filed under its own job_uuid. -/
def Keyed {platform : Platform} (tables : Tables platform) : Prop :=
  ∀ jobUuid job, tables.jobs.get? jobUuid = some job → job.jobUuid = jobUuid

def nightly : Job :=
  { id := 1, jobUuid := "nightly", machineId := workstation.id, scriptId := none, userId := 1, params := Dict.empty,
    status := .running, persistent := true, startedAt := "", endedAt := none, exitCode := none }

def overnight : Pass station where
  tables :=
    { machines := Dict.ofList [(workstation.id, workstation)], bookmarks := [], scripts := Library.empty,
      targetStates := Dict.empty, jobs := Dict.ofList [(nightly.jobUuid, nightly)] }
  tunnel := none
  now := ""

theorem keyed_overnight : Keyed overnight.tables := by
  intro jobUuid job found
  have entry := Dict.mem_of_get? found
  simp only [overnight, Dict.ofList, Dict.set, Dict.assign, Dict.empty, List.foldl, List.mem_singleton] at entry
  cases entry
  rfl

def byId : SetOrder := ⟨List.dedup, fun _ => .refl _⟩

def answering (outcome : Except TransportError Response) : Agents where
  connects _ := .ok ()
  closes _ := .ok ()
  status _ := outcome

def morning : JobStatusResponse := ⟨nightly.jobUuid, "backup", .completed, true, "", some "06:00", some 0⟩

end JobReconciler

end Csl.Server
