import Csl.Agent.Installation
import Csl.Agent.ProcessManager.Steps

/-! Every live process is tracked.

Within one lifetime of the agent a launched process stays with its record as long as no start
takes the job's uuid or its log file while it lives, its PID is in no stale record, and no kill
gives up on it.
-/

set_option autoImplicit false

namespace Csl.Agent
open Csl.Shared Processes Runs

def ProcessHandle.Holds (process : ProcessHandle) (k pid : Nat) : Prop :=
  match process with
  | .popen child _ none => child = k
  | .reattached other none => other = pid
  | _ => False

theorem ProcessHandle.Holds.returncode {process : ProcessHandle} {k pid : Nat}
    (holds : process.Holds k pid) : process.returncode = none := by
  rcases process with ⟨_, _, _ | _⟩ | ⟨_, _ | _⟩ <;> first | rfl | cases holds

namespace System

/-- The records and files account for a process of a job. -/
structure Tracked (host : Host) (s : System) (jobUuid : String) (k pid : Nat) : Prop where
  held : ∃ r, s.jobs.get? jobUuid = some r ∧ r.status = .running ∧ r.process.Holds k pid ∧
    s.logs (host.canonical r.logPath) = some k
  once : ∀ key r, s.jobs.get? key = some r → r.process.Holds k pid → key = jobUuid
  saved : ∃ entry, s.runningJson.get? jobUuid = some entry ∧ entry.pid = pid

variable (host : Host) (procfs : Bool)

/-- Besides being tracked: running_count counts the job, and kill signals the process. -/
structure Accounted (s : System) (jobUuid : String) (k pid : Nat) : Prop
    extends Tracked host s jobUuid k pid where
  counted : s.Idle → ∃ r, (jobUuid, r) ∈
    (s.pollAll host procfs).jobs.entries.filter (·.2.status = .running)
  killable : s.Idle → (s.run host procfs [.kill jobUuid, .killProceeds]).signals =
    s.signals ++ [⟨jobUuid, k⟩]

def InLifetime : ProcessEvent → Prop
  | .stop | .startCut _ _ | .boot => False
  | _ => True

def Live (s : System) (key : String) (r : ProcessRecord) : Prop :=
  ∃ k p, s.os.process k = some p ∧ p.ended = none ∧ p.tag.job = some key ∧ r.process.Holds k p.pid

/-- A start takes neither the uuid nor the log file of a job whose process is alive, and its
process does not get a PID that a reattached record still watches; no kill gives up. -/
def SparesTracked (s : System) : ProcessEvent → Prop
  | .start _ jobUuid pid => s.Idle → ∀ path, host.logPath jobUuid = some path →
      (∀ key r, s.jobs.get? key = some r → s.Live key r →
        host.canonical r.logPath ≠ host.canonical path ∧ (pid.isSome → key ≠ jobUuid)) ∧
      ∀ key r, s.jobs.get? key = some r → key ≠ jobUuid →
        ∀ taken, pid = some taken → r.process ≠ .reattached taken none
  | .killTimesOut => ¬ host.isWindows
  | _ => True

variable {host procfs} {s : System} {jobUuid : String} {k : Nat} {p : Process Program}

/-! ## One process -/

structure Alive (host : Host) (s : System) (jobUuid : String) (k : Nat) (p : Process Program) :
    Prop where
  started : s.os.process k = some p
  running : p.ended = none
  tag : p.tag = ⟨some jobUuid, true⟩
  tracked : Tracked host s jobUuid k p.pid

theorem pid_of_holds (sound : s.Sound) (started : s.os.process k = some p) {key : String}
    {r : ProcessRecord} (found : s.jobs.get? key = some r) (holds : r.process.Holds k p.pid) :
    r.process.pid = p.pid := by
  rcases process : r.process with ⟨child, pid, _ | code⟩ | ⟨pid, _ | code⟩ <;>
    rw [process] at holds
  · cases holds
    exact (s.os.pid_of_holder (sound.held found process) started).symm
  · cases holds
  · exact holds
  · cases holds

namespace Alive

theorem present (alive : Alive host s jobUuid k p) {process : ProcessHandle}
    (holds : process.Holds k p.pid) : ¬ process.Gone host procfs s.os := by
  rcases process with ⟨child, pid, _ | code⟩ | ⟨pid, _ | code⟩
  · cases holds
    rw [ProcessHandle.Gone, s.os.exitCode?_of_alive ⟨p, alive.started, alive.running⟩]
    simp
  · cases holds
  · cases holds
    rw [ProcessHandle.Gone, pidAlive_of_alive alive.started alive.running (by rw [alive.tag])]
    simp
  · cases holds

theorem holder (alive : Alive host s jobUuid k p) : s.os.holder p.pid = some k :=
  s.os.alive_holds k p alive.started alive.running

theorem apart (alive : Alive host s jobUuid k p) {key : String} {r : ProcessRecord}
    (found : s.jobs.get? key = some r) (gone : r.process.Gone host procfs s.os) : jobUuid ≠ key := by
  rintro rfl
  obtain ⟨r', found', _, holds, _⟩ := alive.tracked.held
  cases found.symm.trans found'
  exact alive.present holds gone

end Alive

theorem Tracked.replaced {pid : Nat} (tracked : Tracked host s jobUuid k pid) {key : String}
    {r : ProcessRecord} (apart : jobUuid ≠ key) (done : r.process.returncode ≠ none)
    (os : Table Program) : Tracked host { s with os, jobs := s.jobs.set key r } jobUuid k pid where
  held := by
    obtain ⟨r', found, rest⟩ := tracked.held
    exact ⟨r', (Dict.get?_set_of_ne _ apart _).trans found, rest⟩
  once := by
    intro other r' found holds
    rcases get?_set_cases found with ⟨_, rfl⟩ | ⟨_, before⟩
    · exact absurd holds.returncode done
    · exact tracked.once other r' before holds
  saved := tracked.saved

theorem Alive.polled {key : String} {s' : System} (alive : Alive host s jobUuid k p)
    (polled : Polled host procfs s key s') : Alive host s' jobUuid k p := by
  cases polled with
  | unchanged => exact alive
  | @exited r child pid code found running process ended =>
    have gone : r.process.Gone host procfs s.os := by
      rw [process]
      exact Option.isSome_iff_exists.mpr ⟨code, ended⟩
    exact ⟨by rw [Table.process_reap, alive.started], alive.running, alive.tag,
      alive.tracked.replaced (alive.apart found gone) (by nofun) _⟩
  | @vanished r pid found running process gone =>
    have gone : r.process.Gone host procfs s.os := by rwa [process]
    exact ⟨alive.started, alive.running, alive.tag,
      alive.tracked.replaced (alive.apart found gone) (by nofun) _⟩

theorem Alive.pollAll (alive : Alive host s jobUuid k p) (quiet : s.Quiet) :
    Alive host (s.pollAll host procfs) jobUuid k p := by
  have both : Quiet (s.pollAll host procfs) ∧ Alive host (s.pollAll host procfs) jobUuid k p := by
    apply pollAll_keeps (fun s' => s'.Quiet ∧ Alive host s' jobUuid k p) _ ⟨quiet, alive⟩
    intro s' key held
    exact ⟨quiet_pollJob held.1 key, held.2.polled (held.1.1.polled key)⟩
  exact both.2

theorem alive_saved (sound : s.Sound) (started : s.os.process k = some p) (running : p.ended = none)
    (tag : p.tag = ⟨some jobUuid, true⟩)
    (held : ∃ r, s.jobs.get? jobUuid = some r ∧ r.status = .running ∧ r.process.Holds k p.pid ∧
      s.logs (host.canonical r.logPath) = some k)
    (once : ∀ key r, s.jobs.get? key = some r → r.process.Holds k p.pid → key = jobUuid) :
    Alive host s.saveState jobUuid k p := by
  refine ⟨started, running, tag, held, once, ?_⟩
  obtain ⟨r, found, status, holds, _⟩ := held
  refine ⟨r.entry, ?_, pid_of_holds sound started found holds⟩
  rw [get?_saveState, found, Option.bind_some, if_pos status]

theorem Alive.finishKill (alive : Alive host s jobUuid k p) (sound : s.Sound) {key : String}
    {r r' : ProcessRecord} {os : Table Program} (found : s.jobs.get? key = some r)
    (gone : r.process.Gone host procfs s.os) (done : r'.process.returncode ≠ none)
    (named : r'.jobUuid = r.jobUuid) (later : s.os.Later os) (processes : os.process = s.os.process)
    (held : ∀ key' r₀ child pid, key' ≠ key → s.jobs.get? key' = some r₀ →
      r₀.process = .popen child pid none → os.holder pid = some child) :
    Alive host ({ s with os }.finishKill key r') jobUuid k p := by
  have replaced : Alive host
      { s with os, killing := none, killed := s.killed ++ [key], jobs := s.jobs.set key (r'.killed s.now) }
      jobUuid k p := by
    have tracked := alive.tracked.replaced (r := r'.killed s.now) (alive.apart found gone) done os
    exact ⟨by rw [processes]; exact alive.started, alive.running, alive.tag, tracked.held,
      tracked.once, tracked.saved⟩
  have finished := sound.finishKill found later held named done
  exact alive_saved (finished.frame rfl rfl rfl rfl) replaced.started replaced.running replaced.tag
    replaced.tracked.held replaced.tracked.once

theorem Alive.continued {timeout : Bool} {s' : System} (alive : Alive host s jobUuid k p)
    (sound : s.Sound) (continued : Continued host procfs s timeout s')
    (patient : timeout → ¬ host.isWindows) :
    Alive host s' jobUuid k p := by
  cases continued with
  | unchanged => exact alive
  | aborted | moved | signalled =>
    exact ⟨alive.started, alive.running, alive.tag, alive.tracked.held, alive.tracked.once,
      alive.tracked.saved⟩
  | @reaped key phase r child pid code killing found process ended =>
    have gone : r.process.Gone host procfs s.os := by
      rw [process]
      exact Option.isSome_iff_exists.mpr ⟨code, ended⟩
    exact alive.finishKill sound found gone (by nofun) rfl (.reaped _ _)
      (funext fun _ => Table.process_reap _ _) fun _ _ _ _ => sound.held_reap found process ended
  | @vanished key phase r pid killing found process gone =>
    have gone : r.process.Gone host procfs s.os := by rwa [process]
    exact alive.finishKill sound found gone (by nofun) rfl (.refl _) rfl
      fun _ _ _ _ _ => sound.held
  | gaveUp _ _ expired windows => exact absurd windows (patient expired)


theorem Alive.spared {name key : String} {pid : Option Nat} {s' : System}
    (alive : Alive host s jobUuid k p) (sound : s.Sound) (idle : s.Idle)
    (started : Started host s name key pid s') (spares : SparesTracked host s (.start name key pid)) :
    Alive host s' jobUuid k p := by
  obtain ⟨r, found, running, holds, logged⟩ := alive.tracked.held
  have live : s.Live jobUuid r :=
    ⟨k, p, alive.started, alive.running, by rw [alive.tag], holds⟩
  cases started with
  | unopened | taken => exact alive
  | @failed path located =>
    have apart := ((spares idle path located).1 jobUuid r found live).1
    refine ⟨alive.started, alive.running, alive.tag, ⟨r, found, running, holds, ?_⟩,
      alive.tracked.once, alive.tracked.saved⟩
    exact (Function.update_of_ne apart _ _).trans logged
  | @launched path pid located free =>
    obtain ⟨elsewhere, other⟩ := (spares idle path located).1 jobUuid r found live
    have older : k ≠ s.os.count := Nat.ne_of_lt (s.os.process_lt alive.started)
    apply alive_saved (sound.started idle free path name key)
    · exact (Table.process_spawn free _ _).trans ((if_neg older).trans alive.started)
    · exact alive.running
    · exact alive.tag
    · refine ⟨r, ?_, running, holds, ?_⟩
      · exact (Dict.get?_set_of_ne _ (other rfl) _).trans found
      · exact (Function.update_of_ne elsewhere _ _).trans logged
    · intro other r' found' holds'
      rcases get?_set_cases found' with ⟨_, rfl⟩ | ⟨_, before⟩
      · exact absurd holds'.symm older
      · exact alive.tracked.once other r' before holds'

theorem launched_alive {name key : String} {path : Path} {pid : Nat} (sound : s.Sound) (idle : s.Idle)
    (located : host.logPath key = some path) (free : s.os.holder pid = none)
    (spares : SparesTracked host s (.start name key (some pid))) :
    Alive host ((s.launch host path key pid).track path name key s.os.count pid).saveState key
      s.os.count ⟨pid, ⟨some key, true⟩, none⟩ := by
  apply alive_saved (sound.started idle free path name key)
  · exact Table.process_spawned free _
  · rfl
  · rfl
  · exact ⟨_, Dict.get?_set_self _ _ _, rfl, rfl, Function.update_self _ _ _⟩
  · intro other r found holds
    rcases get?_set_cases found with ⟨same, rfl⟩ | ⟨apart, before⟩
    · exact same
    · exfalso
      rcases process : r.process with ⟨child, pid', _ | code⟩ | ⟨pid', _ | code⟩ <;>
        rw [process] at holds
      · cases holds
        obtain ⟨_, p, started, _⟩ := sound.child other r _ pid' before process
        rw [s.os.process_count] at started
        cases started
      · cases holds
      · cases holds
        exact (spares idle path located).2 other r before apart _ rfl process
      · cases holds

/-! ## Runs -/

def AllTracked (host : Host) (mine : Nat → Prop) (s : System) : Prop :=
  ∀ k p jobUuid, s.os.process k = some p → p.ended = none → p.tag.job = some jobUuid → mine k →
    Alive host s jobUuid k p

theorem AllTracked.kept {mine : Nat → Prop} (all : AllTracked host mine s) {s' : System}
    (later : s.os.Later s'.os)
    (new : ∀ k p jobUuid, s.os.count ≤ k → s'.os.process k = some p → p.tag.job = some jobUuid →
      Alive host s' jobUuid k p)
    (kept : ∀ k p jobUuid, Alive host s jobUuid k p → s'.os.process k = some p →
      Alive host s' jobUuid k p) : AllTracked host mine s' := by
  intro k p' jobUuid started running job member
  rcases Nat.lt_or_ge k s.os.count with old | young
  · obtain ⟨p, before, ended⟩ := later.alive old ⟨p', started, running⟩
    obtain ⟨q, after, pid, tag, _⟩ := later.process k p before
    cases started.symm.trans after
    have same : p = p' := by
      cases p
      cases p'
      cases pid
      cases tag
      cases ended
      cases running
      rfl
    subst same
    exact kept k p jobUuid (all k p jobUuid before ended job member) started
  · exact new k p' jobUuid young started job

theorem AllTracked.settles {mine : Nat → Prop} (all : AllTracked host mine s) {s' : System}
    (settles : Settles s s')
    (kept : ∀ k p jobUuid, Alive host s jobUuid k p → Alive host s' jobUuid k p) :
    AllTracked host mine s' := by
  apply all.kept settles.later
  · intro k p jobUuid young started
    have below := s'.os.process_lt started
    have same := settles.count
    omega
  · intro k p jobUuid alive _
    exact kept k p jobUuid alive

theorem Alive.frame (alive : Alive host s jobUuid k p) {s' : System}
    (started : s'.os.process k = some p) (jobs : s'.jobs = s.jobs)
    (runningJson : s'.runningJson = s.runningJson) (logs : s'.logs = s.logs) :
    Alive host s' jobUuid k p := by
  refine ⟨started, alive.running, alive.tag, ?_, ?_, ?_⟩
  · rw [jobs, logs]
    exact alive.tracked.held
  · rw [jobs]
    exact alive.tracked.once
  · rw [runningJson]
    exact alive.tracked.saved

theorem Alive.beginKill (alive : Alive host s jobUuid k p) (sound : s.Sound) (key : String) :
    Alive host (s.beginKill host procfs key) jobUuid k p := by
  have polled : Alive host (s.pollJob host procfs key) jobUuid k p :=
    alive.polled (sound.polled key)
  unfold System.beginKill
  dsimp only
  split
  · exact polled
  · split
    · exact polled.frame polled.started rfl rfl rfl
    · exact polled

theorem allTracked_start {mine : Nat → Prop} (sound : s.Sound) (idle : s.Idle)
    (all : AllTracked host mine s) {name key : String} {pid : Option Nat} {s' : System}
    (started : Started host s name key pid s') (spares : SparesTracked host s (.start name key pid)) :
    AllTracked host mine s' := by
  have old (k : Nat) (p : Process Program) (jobUuid : String) (alive : Alive host s jobUuid k p) :
      Alive host s' jobUuid k p := alive.spared sound idle started spares
  cases started with
  | unopened | taken => exact all
  | failed located => exact all.settles ⟨.refl _, rfl, fun _ _ found _ => found, fun _ _ held => held⟩ old
  | @launched path pid located free =>
    apply all.kept (.spawned _ _ _)
    · intro k p jobUuid young launched job
      have below := Table.process_lt _ launched
      have grown : (s.os.spawn pid ⟨some key, true⟩).count = s.os.count + 1 := Table.count_spawn free _
      change k < (s.os.spawn pid ⟨some key, true⟩).count at below
      obtain rfl : k = s.os.count := by omega
      cases launched.symm.trans (Table.process_spawned free _)
      cases job
      exact launched_alive sound idle located free spares
    · intro k p jobUuid alive _
      exact old k p jobUuid alive

/-- One step of a lifetime. -/
theorem allTracked_step {mine : Nat → Prop} (sound : s.Sound) (all : AllTracked host mine s)
    (event : ProcessEvent) (within : InLifetime event) (spares : SparesTracked host s event) :
    AllTracked host mine (s.step host procfs event) := by
  have served (next : System) (keeps : s.Idle → AllTracked host mine next) :
      AllTracked host mine (if s.Idle then next else s) := kept_served all keeps
  cases event with
  | clock now =>
    have settles : Settles s { s with now } := ⟨.refl _, rfl, fun _ _ found _ => found, fun _ _ held => held⟩
    exact all.settles settles fun _ _ _ alive => alive.frame alive.started rfl rfl rfl
  | spawn pid permitted =>
    apply all.kept (.spawned _ _ _)
    -- a process that was just spawned is of no job
    · intro k p jobUuid young started job
      by_cases free : s.os.holder pid = none
      · change (s.os.spawn pid _).process k = some p at started
        rw [Table.process_spawn free] at started
        split at started
        · cases started
          cases job
        · have below := s.os.process_lt started
          omega
      · change (s.os.spawn pid _).process k = some p at started
        rw [Table.spawn_taken free] at started
        have below := s.os.process_lt started
        omega
    · intro k p jobUuid alive started
      exact alive.frame started rfl rfl rfl
  | exit process code =>
    apply all.kept (.exited _ _ _)
    · intro k p jobUuid young started
      have below := Table.process_lt _ started
      change k < (s.os.exit process code).count at below
      rw [Table.count_exit] at below
      omega
    · intro k p jobUuid alive started
      exact alive.frame started rfl rfl rfl
  | reap process =>
    rw [step]
    split
    · exact all
    · have settles : Settles s { s with os := s.os.reap process } :=
        ⟨.reaped _ _, Table.count_reap _, fun _ _ found _ => found, fun _ _ => holder_of_reap⟩
      exact all.settles settles fun _ _ _ alive =>
        alive.frame ((Table.process_reap _ _).trans alive.started) rfl rfl rfl
  | start name key pid =>
    exact served _ fun idle => allTracked_start sound idle all (started s name key pid) spares
  | getStatus key =>
    apply served
    intro idle
    have polled : Polled host procfs s key _ := sound.polled key
    exact all.settles polled.settles fun _ _ _ alive => alive.polled polled
  | listJobs | runningCount =>
    apply served
    intro idle
    exact all.settles (pollAll_settles ⟨sound, idle⟩) fun _ _ _ alive => alive.pollAll ⟨sound, idle⟩
  | kill key =>
    apply served
    intro idle
    exact all.settles (beginKill_settles sound key) fun _ _ _ alive => alive.beginKill sound key
  | killProceeds =>
    have ends : Continued host procfs s false _ := continued sound false
    exact all.settles ends.settles fun _ _ _ alive => alive.continued sound ends (by simp)
  | killTimesOut =>
    have ends : Continued host procfs s true _ := continued sound true
    exact all.settles ends.settles fun _ _ _ alive => alive.continued sound ends fun _ => spares
  | stop | startCut | boot => cases within

/-! ## What tracking gives -/

theorem Alive.pollJob (alive : Alive host s jobUuid k p) :
    s.pollJob host procfs jobUuid = s := by
  obtain ⟨r, found, _, holds, _⟩ := alive.tracked.held
  have present : ¬ r.process.Gone host procfs s.os := alive.present holds
  rw [pollJob_found found, r.poll_unchanged fun _ => present, Dict.set_found found]

theorem Alive.counted (alive : Alive host s jobUuid k p) (quiet : s.Quiet) :
    ∃ r, (jobUuid, r) ∈ (s.pollAll host procfs).jobs.entries.filter (·.2.status = .running) := by
  have after : Alive host (s.pollAll host procfs) jobUuid k p := alive.pollAll quiet
  obtain ⟨r, found, running, _⟩ := after.tracked.held
  exact ⟨r, List.mem_filter.mpr ⟨Dict.mem_of_get? found, decide_eq_true running⟩⟩

theorem Alive.signalled (alive : Alive host s jobUuid k p) (quiet : s.Quiet) :
    (s.run host procfs [.kill jobUuid, .killProceeds]).signals = s.signals ++ [⟨jobUuid, k⟩] := by
  obtain ⟨r, found, running, holds, _⟩ := alive.tracked.held
  have begins : s.step host procfs (.kill jobUuid) = { s with killing := some ⟨jobUuid, .term⟩ } := by
    rw [step, if_pos quiet.2, System.beginKill, alive.pollJob]
    simp only [found, if_pos running]
  have present : s.os.at? p.pid = some p := (s.os.at?_of_holder alive.holder).trans alive.started
  have permitted : p.tag.permitted = true := by rw [alive.tag]
  rw [run, run_cons, run_cons, run_nil, begins, step, continueKill]
  simp only [found, sendSignal, pid_of_holds quiet.1 alive.started found holds, alive.holder, present,
    permitted, if_true]

theorem Alive.accounted (alive : Alive host s jobUuid k p) (sound : s.Sound) :
    Accounted host procfs s jobUuid k p.pid :=
  ⟨alive.tracked, fun idle => alive.counted ⟨sound, idle⟩, fun idle => alive.signalled ⟨sound, idle⟩⟩

def booted (host : Host) (procfs : Bool) (s : System) : System := s.stopped.restoreState host procfs

end System
end Csl.Agent
