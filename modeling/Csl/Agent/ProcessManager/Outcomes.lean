import Csl.Agent.Installation
import Csl.Agent.ProcessManager.Steps

/-! How a job is reported to have ended.

A Popen knows the exit code of its child. The handle that a restarted agent makes from
running.json does not, and reports -1: after a restart every end that is not a kill is a failure.
-/

set_option autoImplicit false

namespace Csl.Agent
open Csl.Shared Processes Runs

namespace System

/-- One started job: its process, and how many boots and finished kills there were by then. -/
structure Job where
  uuid : String
  child : Nat
  pid : Nat
  boots : Nat
  kills : Nat

def Job.restarted (job : Job) (s : System) : Bool := job.boots < s.boots

def Job.Killed (job : Job) (s : System) : Prop := job.uuid ∈ s.killed.drop job.kills

def outcome (restarted : Bool) (code : Int) : JobStatus × Option Int :=
  if restarted then (.failed, some (-1))
  else (if code = 0 then .completed else .failed, some code)

variable (host : Host) (procfs : Bool)

def Watches (s : System) (job : Job) : Prop :=
  ∃ r, s.jobs.get? job.uuid = some r ∧ r.status = .running

/-- No other process is started under the uuid of the job, none gets its PID while the agent
takes the job to be running, and the agent stops and comes up again only while the process is
alive and not killed. -/
def Undisturbed (job : Job) (s : System) : ProcessEvent → Prop
  | .spawn pid _ => s.os.holder pid = none → s.Watches job → pid ≠ job.pid
  | .start _ key (some pid) => s.Idle → key ≠ job.uuid ∧ (s.Watches job → pid ≠ job.pid)
  | .stop | .startCut _ _ => s.up → s.os.Alive job.child ∧ ¬ job.Killed s
  | .boot => s.up = false → s.os.Alive job.child
  | _ => True

structure Reported (s : System) (job : Job) (response : JobStatusResponse) : Prop where
  killed : job.Killed s → response.status = .killed
  ended : ¬ job.Killed s → response.status ≠ .running →
    ∃ code, s.os.exitCode? job.child = some code ∧
      (response.status, response.exitCode) = outcome (job.restarted s) code
  noticed : s.os.holder job.pid ≠ some job.child → response.status ≠ .running

variable {host procfs} {s : System} {job : Job}

/-! ## The course of a job -/

def Saved (s : System) (job : Job) : Prop :=
  ∃ entry, s.runningJson.get? job.uuid = some entry ∧ entry.pid = job.pid

def Job.handle (job : Job) (restarted : Bool) : ProcessHandle :=
  if restarted then .reattached job.pid none else .popen job.child job.pid none

inductive Course (job : Job) (s : System) : Prop where
  | down : s.up = false → ¬ job.Killed s → s.Saved job → Course job s
  | running {r : ProcessRecord} : s.jobs.get? job.uuid = some r → r.status = .running →
      r.process = job.handle (job.restarted s) →
      (∀ k, s.os.holder job.pid = some k → k = job.child) →
      ¬ job.Killed s → s.Saved job → Course job s
  | ended {r : ProcessRecord} {code : Int} : s.jobs.get? job.uuid = some r →
      s.os.exitCode? job.child = some code →
      (r.status, r.exitCode) = outcome (job.restarted s) code → ¬ job.Killed s → Course job s
  | killed {r : ProcessRecord} : s.jobs.get? job.uuid = some r → r.status = .killed →
      job.Killed s → Course job s

structure Followed (job : Job) (s : System) : Prop where
  launched : ∃ p, s.os.process job.child = some p ∧ p.pid = job.pid ∧ p.tag = ⟨some job.uuid, true⟩
  boots : job.boots ≤ s.boots
  kills : job.kills ≤ s.killed.length
  course : Course job s

theorem Job.handle_pid (job : Job) (restarted : Bool) : (job.handle restarted).pid = job.pid := by
  cases restarted <;> rfl

theorem Course.other (course : Course job s) {s' : System} (later : s.os.Later s'.os)
    (record : s'.jobs.get? job.uuid = s.jobs.get? job.uuid)
    (holder : s.Watches job → ∀ k, s'.os.holder job.pid = some k → s.os.holder job.pid = some k)
    (killed : job.Killed s' ↔ job.Killed s) (boots : s'.boots = s.boots)
    (up : s'.up = s.up)
    (saved : (s.up = true → ∃ r, s'.jobs.get? job.uuid = some r ∧ r.status = .running ∧
      r.process.pid = job.pid) → s.Saved job → s'.Saved job) : Course job s' := by
  have same : job.restarted s' = job.restarted s := by rw [Job.restarted, Job.restarted, boots]
  cases course with
  | down stopped spared kept =>
    refine .down (up.trans stopped) (mt killed.mp spared) (saved ?_ kept)
    intro serving
    rw [stopped] at serving
    cases serving
  | @running r found status process held spared kept =>
    refine .running (record.trans found) status (same ▸ process) ?_ (mt killed.mp spared) (saved ?_ kept)
    · intro k now
      exact held k (holder ⟨r, found, status⟩ k now)
    · intro _
      exact ⟨r, record.trans found, status, by rw [process, job.handle_pid]⟩
  | ended found code reported spared =>
    exact .ended (record.trans found) (later.exitCode? code) (same ▸ reported) (mt killed.mp spared)
  | killed found status done => exact .killed (record.trans found) status (killed.mpr done)

theorem Course.kept (course : Course job s) {s' : System} (later : s.os.Later s'.os)
    (record : s'.jobs.get? job.uuid = s.jobs.get? job.uuid)
    (holder : s.Watches job → ∀ k, s'.os.holder job.pid = some k → s.os.holder job.pid = some k)
    (killed : s'.killed = s.killed) (boots : s'.boots = s.boots) (up : s'.up = s.up)
    (runningJson : s'.runningJson = s.runningJson) : Course job s' := by
  apply course.other later record holder (by rw [Job.Killed, killed, Job.Killed]) boots up
  rintro _ ⟨entry, kept, same⟩
  exact ⟨entry, by rw [runningJson, kept], same⟩

theorem outcome_stops (restarted : Bool) (code : Int) : (outcome restarted code).1 ≠ .running := by
  unfold outcome
  split
  · nofun
  · dsimp only
    split <;> nofun

theorem Course.record (course : Course job s) (sound : s.Sound) {r : ProcessRecord}
    (found : s.jobs.get? job.uuid = some r) (running : r.status = .running) :
    r.process = job.handle (job.restarted s) ∧
      (∀ k, s.os.holder job.pid = some k → k = job.child) ∧ ¬ job.Killed s := by
  cases course with
  | down stopped =>
    rw [sound.down stopped] at found
    cases found
  | running found' _ process held spared =>
    cases found.symm.trans found'
    exact ⟨process, held, spared⟩
  | ended found' _ reported =>
    cases found.symm.trans found'
    have ended := congrArg Prod.fst reported
    rw [running] at ended
    exact absurd ended.symm (outcome_stops _ _)
  | killed found' status =>
    cases found.symm.trans found'
    rw [running] at status
    cases status

/-- A process that is gone under the PID of the job is the job's own, and has ended. -/
theorem ended_of_vanished {p : Process Program} (started : s.os.process job.child = some p)
    (pid : p.pid = job.pid) (tag : p.tag = ⟨some job.uuid, true⟩)
    (gone : pidAlive host procfs s.os job.pid = false) :
    ∃ code, s.os.exitCode? job.child = some code := by
  rw [Table.exitCode?, started]
  cases ended : p.ended with
  | some code => exact ⟨code, ended⟩
  | none =>
    have alive : pidAlive host procfs s.os p.pid = true :=
      pidAlive_of_alive started ended (by rw [tag])
    rw [pid, gone] at alive
    cases alive

theorem Followed.polled (followed : Followed job s) (sound : s.Sound) {key : String} {s' : System}
    (polled : Polled host procfs s key s') : Course job s' := by
  obtain ⟨p, started, pid, tag⟩ := followed.launched
  have course := followed.course
  cases polled with
  | unchanged => exact course
  | @exited r child pid code found running process ended =>
    by_cases same : key = job.uuid
    · subst same
      obtain ⟨handle, _, spared⟩ := course.record sound found running
      -- only a Popen sees the exit code, so there was no restart
      cases restarted : job.restarted s with
      | true =>
        rw [process, restarted] at handle
        cases handle
      | false =>
        rw [process, restarted] at handle
        cases handle
        refine @Course.ended job _ _ code (Dict.get?_set_self _ _ _) ?_ ?_ ?_
        · exact (Table.Later.reaped _ _).exitCode? ended
        · change _ = outcome (job.restarted s) code
          rw [restarted]
          rfl
        · exact spared
    · exact course.kept (.reaped _ _) (Dict.get?_set_of_ne _ (Ne.symm same) _)
        (fun _ _ => holder_of_reap) rfl rfl rfl rfl
  | @vanished r pid' found running process gone =>
    by_cases same : key = job.uuid
    · subst same
      obtain ⟨handle, _, spared⟩ := course.record sound found running
      -- a process vanishes from a PID, so there was a restart
      cases restarted : job.restarted s with
      | false =>
        rw [process, restarted] at handle
        cases handle
      | true =>
        rw [process, restarted] at handle
        cases handle
        obtain ⟨code, ended⟩ := ended_of_vanished started pid tag gone
        refine @Course.ended job _ _ code (Dict.get?_set_self _ _ _) ?_ ?_ ?_
        · exact ended
        · change _ = outcome (job.restarted s) code
          rw [restarted]
          rfl
        · exact spared
    · exact course.kept (.refl _) (Dict.get?_set_of_ne _ (Ne.symm same) _) (fun _ _ held => held)
        rfl rfl rfl rfl

theorem Followed.next (followed : Followed job s) {s' : System} (later : s.os.Later s'.os)
    (boots : s.boots ≤ s'.boots) (kills : s.killed.length ≤ s'.killed.length)
    (course : Course job s') : Followed job s' := by
  obtain ⟨p, started, pid, tag⟩ := followed.launched
  obtain ⟨p', started', pid', tag', _⟩ := later.process _ p started
  exact ⟨⟨p', started', pid'.trans pid, tag'.trans tag⟩,
    Nat.le_trans followed.boots boots, Nat.le_trans followed.kills kills, course⟩

theorem followed_pollJob (followed : Followed job s) (quiet : s.Quiet) (key : String) :
    Followed job (s.pollJob host procfs key) := by
  have polled : Polled host procfs s key _ := quiet.1.polled key
  exact followed.next polled.settles.later (Nat.le_of_eq polled.frame.2.2.2.2.2.2.symm)
    (by rw [polled.frame.2.2.2.2.2.1]) (followed.polled quiet.1 polled)

theorem followed_pollAll (followed : Followed job s) (quiet : s.Quiet) :
    Followed job (s.pollAll host procfs) := by
  have both : Quiet (s.pollAll host procfs) ∧ Followed job (s.pollAll host procfs) := by
    apply pollAll_keeps (fun s' => s'.Quiet ∧ Followed job s') _ ⟨quiet, followed⟩
    intro s' key held
    exact ⟨quiet_pollJob held.1 key, followed_pollJob held.2 held.1 key⟩
  exact both.2

/-- A kill that returns marks its job as killed and leaves the others alone. -/
theorem Followed.finishKill (followed : Followed job s) (serving : s.up = true) {key : String}
    {r : ProcessRecord} {os : Table Program} (later : s.os.Later os)
    (holder : ∀ pid k, os.holder pid = some k → s.os.holder pid = some k) :
    Course job ({ s with os }.finishKill key r) := by
  by_cases same : key = job.uuid
  · subst same
    refine .killed (Dict.get?_set_self _ _ _) rfl ?_
    change job.uuid ∈ (s.killed ++ [job.uuid]).drop job.kills
    rw [List.drop_append_of_le_length followed.kills]
    exact List.mem_append_right _ (.head _)
  · refine followed.course.other later ?_ (fun _ => holder _) ?_ rfl rfl ?_
    · exact Dict.get?_set_of_ne _ (Ne.symm same) _
    · change job.uuid ∈ (s.killed ++ [key]).drop job.kills ↔ _
      rw [List.drop_append_of_le_length followed.kills, List.mem_append, List.mem_singleton]
      exact or_iff_left (Ne.symm same)
    · intro record _
      obtain ⟨r', found, running, pid⟩ := record serving
      refine ⟨r'.entry, ?_, pid⟩
      rw [System.finishKill, get?_saveState]
      change ((s.jobs.set key _).get? job.uuid).bind _ = _
      rw [show (s.jobs.set key (r.killed s.now)).get? job.uuid = some r' from found, Option.bind_some,
        if_pos running]

theorem Followed.continued {timeout : Bool} (followed : Followed job s) (sound : s.Sound)
    {s' : System} (continued : Continued host procfs s timeout s') : Course job s' := by
  have course := followed.course
  have serving {key : String} {phase : KillPhase} (killing : s.killing = some ⟨key, phase⟩) :
      s.up = true := (sound.killing key phase killing).1
  cases continued with
  | unchanged => exact course
  | aborted | moved | signalled =>
    exact course.kept (.refl _) rfl (fun _ _ held => held) rfl rfl rfl rfl
  | reaped killing =>
    exact followed.finishKill (serving killing) (.reaped _ _) fun _ _ => holder_of_reap
  | vanished killing | gaveUp killing =>
    exact followed.finishKill (serving killing) (.refl _) fun _ _ held => held

/-! ## One step -/

theorem Followed.started (followed : Followed job s) (idle : s.Idle) {name key : String}
    {pid : Option Nat} {s' : System} (started : Started host s name key pid s')
    (undisturbed : Undisturbed job s (.start name key pid)) : Course job s' := by
  have course := followed.course
  cases started with
  | unopened | taken => exact course
  | failed => exact course.kept (.refl _) rfl (fun _ _ held => held) rfl rfl rfl rfl
  | @launched path pid located free =>
    obtain ⟨apart, fresh⟩ := undisturbed idle
    have record : (((s.launch host path key pid).track path name key s.os.count pid).saveState).jobs.get?
        job.uuid = s.jobs.get? job.uuid := Dict.get?_set_of_ne _ (Ne.symm apart) _
    refine course.other (.spawned _ _ _) record ?_ Iff.rfl rfl rfl ?_
    · intro watched k held
      change (s.os.spawn pid _).holder job.pid = some k at held
      rwa [Table.holder_spawn free, if_neg (Ne.symm (fresh watched))] at held
    · intro now _
      obtain ⟨r, found, running, same⟩ := now idle.1
      refine ⟨r.entry, ?_, same⟩
      rw [get?_saveState]
      change (((s.launch host path key pid).track path name key s.os.count pid).saveState.jobs.get?
        job.uuid).bind _ = _
      rw [found, Option.bind_some, if_pos running]

/-- The agent is gone; running.json still has the job. -/
theorem Followed.stopped (followed : Followed job s) (alive : s.os.Alive job.child)
    (spared : ¬ job.Killed s) {os : Table Program} {logs : Path → Option Nat} :
    Course job ({ s with os, logs }.stopped) := by
  cases followed.course with
  | down _ _ saved => exact .down rfl spared saved
  | running _ _ _ _ _ saved => exact .down rfl spared saved
  | ended _ code =>
    rw [s.os.exitCode?_of_alive alive] at code
    cases code
  | killed _ _ done => exact absurd done spared

theorem Followed.restored (followed : Followed job s) (sound : s.Sound) (down : s.up = false)
    (alive : s.os.Alive job.child) : Course job (s.restoreState host procfs) := by
  obtain ⟨p, started, pid, tag⟩ := followed.launched
  obtain ⟨q, started', running⟩ := alive
  cases started.symm.trans started'
  cases followed.course with
  | down _ spared saved =>
    obtain ⟨entry, saved, same⟩ := saved
    have present : pidAlive host procfs s.os entry.pid = true := by
      rw [same, ← pid]
      exact pidAlive_of_alive started running (by rw [tag])
    have restarted : job.restarted (s.restoreState host procfs) = true :=
      decide_eq_true (Nat.lt_succ_of_le followed.boots)
    refine @Course.running job _ (entry.reattached job.uuid) ?_ rfl ?_ ?_ spared ⟨entry, saved, same⟩
    · rw [get?_restoreState, saved, Option.bind_some, if_pos present]
    · rw [restarted, Job.handle, if_pos rfl, ← same]
      rfl
    · intro k held
      change s.os.holder job.pid = some k at held
      have own := s.os.alive_holds _ _ started running
      rw [pid, held] at own
      exact Option.some.inj own
  | running found | ended found | killed found =>
    rw [sound.down down] at found
    cases found

theorem followed_step (sound : s.Sound) (followed : Followed job s) (event : ProcessEvent)
    (undisturbed : Undisturbed job s event) : Followed job (s.step host procfs event) := by
  have course := followed.course
  have served (next : System) (keeps : s.Idle → Followed job next) :
      Followed job (if s.Idle then next else s) := kept_served followed keeps
  cases event with
  | clock now =>
    exact followed.next (.refl _) (Nat.le_refl _) (Nat.le_refl _)
      (course.kept (.refl _) rfl (fun _ _ held => held) rfl rfl rfl rfl)
  | spawn pid permitted =>
    refine followed.next (.spawned _ _ _) (Nat.le_refl _) (Nat.le_refl _) ?_
    refine course.kept (.spawned _ _ _) rfl ?_ rfl rfl rfl rfl
    -- nobody else gets the PID of the job while it is watched
    intro watched k held
    change (s.os.spawn pid _).holder job.pid = some k at held
    by_cases free : s.os.holder pid = none
    · rwa [Table.holder_spawn free, if_neg (Ne.symm (undisturbed free watched))] at held
    · rwa [Table.spawn_taken free] at held
  | exit process code =>
    refine followed.next (.exited _ _ _) (Nat.le_refl _) (Nat.le_refl _) ?_
    exact course.kept (.exited _ _ _) rfl (fun _ _ held => held) rfl rfl rfl rfl
  | reap process =>
    rw [step]
    split
    · exact followed
    · refine followed.next (.reaped _ _) (Nat.le_refl _) (Nat.le_refl _) ?_
      exact course.kept (.reaped _ _) rfl (fun _ _ => holder_of_reap) rfl rfl rfl rfl
  | start name key pid =>
    apply served
    intro idle
    have ends : Started host s name key pid _ := System.started s name key pid
    exact followed.next ends.later (Nat.le_of_eq ends.boots.symm) ends.kills
      (followed.started idle ends undisturbed)
  | getStatus key => exact served _ fun idle => followed_pollJob followed ⟨sound, idle⟩ key
  | listJobs | runningCount => exact served _ fun idle => followed_pollAll followed ⟨sound, idle⟩
  | kill key =>
    apply served
    intro idle
    have polled : Followed job (s.pollJob host procfs key) :=
      followed_pollJob followed ⟨sound, idle⟩ key
    unfold beginKill
    dsimp only
    split
    · exact polled
    · split
      · exact polled.next (.refl _) (Nat.le_refl _) (Nat.le_refl _)
          (polled.course.kept (.refl _) rfl (fun _ _ held => held) rfl rfl rfl rfl)
      · exact polled
  | killProceeds =>
    have ends : Continued host procfs s false _ := continued sound false
    exact followed.next ends.settles.later (Nat.le_of_eq ends.boots.symm) ends.kills
      (followed.continued sound ends)
  | killTimesOut =>
    have ends : Continued host procfs s true _ := continued sound true
    exact followed.next ends.settles.later (Nat.le_of_eq ends.boots.symm) ends.kills
      (followed.continued sound ends)
  | stop =>
    -- who stops spares the job; an agent that is down holds no records
    refine followed.next (.refl _) (Nat.le_refl _) (Nat.le_refl _) ?_
    cases up : s.up with
    | true =>
      obtain ⟨alive, spared⟩ := undisturbed up
      exact followed.stopped alive spared
    | false =>
      cases course with
      | down _ spared saved => exact .down rfl spared saved
      | running found | ended found | killed found =>
        rw [sound.down up] at found
        cases found
  | startCut key pid =>
    apply served
    intro idle
    obtain ⟨alive, spared⟩ := undisturbed idle.1
    unfold startCut
    split
    · exact followed
    · split
      · exact followed.next (.spawned _ _ _) (Nat.le_refl _) (Nat.le_refl _)
          (followed.stopped alive spared)
      · exact followed
  | boot =>
    rw [step]
    split
    next => exact followed
    next up =>
      have down : s.up = false := by simpa using up
      exact followed.next (.refl _) (Nat.le_succ _) (Nat.le_refl _)
        (followed.restored sound down (undisturbed down))

/-! ## The outcome -/

def jobOf (s : System) (uuid : String) (pid : Nat) : Job :=
  ⟨uuid, s.os.count, pid, s.boots, s.killed.length⟩

theorem followed_launched {name uuid : String} {path : Path} {pid : Nat}
    (free : s.os.holder pid = none) :
    Followed (s.jobOf uuid pid)
      ((s.launch host path uuid pid).track path name uuid s.os.count pid).saveState := by
  refine ⟨⟨_, Table.process_spawned free _, rfl, rfl⟩, Nat.le_refl _, Nat.le_refl _, ?_⟩
  have record := Dict.get?_set_self s.jobs uuid
    { jobUuid := uuid, scriptName := name, process := .popen s.os.count pid none, logPath := path,
      startedAt := s.now }
  have first : (s.jobOf uuid pid).restarted s = false := decide_eq_false (Nat.lt_irrefl _)
  refine .running record rfl ?_ ?_ ?_ ?_
  · change _ = (s.jobOf uuid pid).handle ((s.jobOf uuid pid).restarted s)
    rw [first]
    rfl
  · intro k held
    exact (Option.some.inj ((Table.holder_spawned free _).symm.trans held)).symm
  · change uuid ∉ s.killed.drop s.killed.length
    rw [List.drop_length]
    exact List.not_mem_nil
  · refine ⟨⟨name, pid, path, s.now⟩, (get?_saveState _).trans ?_, rfl⟩
    exact congrArg (Option.bind · _) record

theorem Followed.reported (followed : Followed job s) (quiet : s.Quiet) :
    ∃ response, s.getStatus host procfs job.uuid = some response ∧ Reported s job response := by
  have polled : Polled host procfs s job.uuid (s.pollJob host procfs job.uuid) :=
    quiet.1.polled job.uuid
  have after : Followed job (s.pollJob host procfs job.uuid) := followed_pollJob followed quiet _
  unfold getStatus
  generalize s.pollJob host procfs job.uuid = s' at polled after
  obtain ⟨up, _, _, _, _, killed, boots⟩ := polled.frame
  have restarted : job.restarted s' = job.restarted s := by rw [Job.restarted, Job.restarted, boots]
  have kills : job.Killed s' ↔ job.Killed s := by rw [Job.Killed, Job.Killed, killed]
  cases after.course with
  | down stopped =>
    rw [up, quiet.2.1] at stopped
    cases stopped
  | @running r found status process held spared =>
    refine ⟨r.toResponse, by rw [found]; rfl, ?_, ?_, ?_⟩
    · intro done
      exact absurd (kills.mpr done) spared
    · intro _ ended
      exact absurd status ended
    · intro freed
      -- were the PID free, the poll would have found the process gone
      exfalso
      have present := polled.present found status
      have before := polled.settles.running _ _ found status
      obtain ⟨handle, own, _⟩ := followed.course.record quiet.1 before status
      cases again : job.restarted s with
      | false =>
        rw [again] at handle
        exact freed (quiet.1.held before handle)
      | true =>
        rw [again] at handle
        rw [handle] at present
        cases holder : s.os.holder job.pid with
        | none => exact present (pidAlive_of_free holder)
        | some k => exact freed (holder.trans (congrArg some (own k holder)))
  | @ended r code found ended reported spared =>
    have stopped : r.status ≠ .running := by
      have status := congrArg Prod.fst reported
      rw [show r.status = _ from status]
      exact outcome_stops _ _
    refine ⟨r.toResponse, by rw [found]; rfl, ?_, ?_, fun _ => stopped⟩
    · intro done
      exact absurd (kills.mpr done) spared
    · intro _ _
      refine ⟨code, ?_, restarted ▸ reported⟩
      rw [Table.exitCode?, ← polled.process]
      exact ended
  | @killed r found status done =>
    have stopped : r.status ≠ .running := by
      rw [status]
      simp
    refine ⟨r.toResponse, by rw [found]; rfl, fun _ => status, ?_, fun _ => stopped⟩
    intro spared
    exact absurd (kills.mp done) spared

def ready : System := (fresh .empty "1").run linux true [.boot]

def firstStarted : System := ready.step linux true (.start "deploy" "job" (some 7))

end System
end Csl.Agent
