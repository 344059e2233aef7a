import Csl.Agent.ProcessManager.Tracking

/-! The life of a record: it runs, and ends once.

What `running_count` counts is compared with the processes that are alive.
-/

set_option autoImplicit false

namespace Csl.Agent
open Csl.Shared Processes Runs

/-- What a record tells of its job: its end, and how it ended, once it does not run. -/
structure ProcessRecord.Coherent (r : ProcessRecord) : Prop where
  running : r.status = .running → r.endedAt = none ∧ r.exitCode = none
  ended : r.status ≠ .running → r.endedAt ≠ none ∧ r.exitCode ≠ none
  terminal : r.status ≠ .running → r.status = .completed ∨ r.status = .failed ∨ r.status = .killed
  completed : r.status = .completed → r.exitCode = some 0
  failed : r.status = .failed → ∃ code, code ≠ 0 ∧ r.exitCode = some code

inductive ProcessRecord.Ends (r : ProcessRecord) : ProcessRecord → Prop where
  | finished {process : ProcessHandle} {code : Int} (now : Timestamp) : r.status = .running →
      process.returncode = some code → r.Ends (r.finished process code now)
  | killed {process : ProcessHandle} {code : Int} (now : Timestamp) : r.status = .running →
      process.returncode = some code → r.Ends ({ r with process }.killed now)

namespace ProcessRecord
variable {r r' : ProcessRecord}

theorem Ends.was (ends : r.Ends r') : r.status = .running := by
  cases ends <;> assumption

theorem Ends.stops (ends : r.Ends r') : r'.status ≠ .running := by
  cases ends with
  | finished => exact System.finished_stops _ _ _ _
  | killed => nofun

theorem Ends.returncode (ends : r.Ends r') : r'.process.returncode ≠ none := by
  have resolved : ∃ code, r'.process.returncode = some code := by
    cases ends with
    | finished _ _ done => exact ⟨_, done⟩
    | killed _ _ done => exact ⟨_, done⟩
  obtain ⟨code, done⟩ := resolved
  rw [done]
  nofun

theorem Ends.coherent (ends : r.Ends r') : r'.Coherent := by
  cases ends with
  | @finished process code now _ done =>
    by_cases zero : code = 0
    · subst zero
      exact ⟨nofun, fun _ => ⟨nofun, nofun⟩, fun _ => .inl rfl, fun _ => rfl, nofun⟩
    · have status : (r.finished process code now).status = .failed := if_neg zero
      constructor
      · rw [status]
        nofun
      · exact fun _ => ⟨nofun, nofun⟩
      · exact fun _ => .inr (.inl status)
      · rw [status]
        nofun
      · exact fun _ => ⟨code, zero, rfl⟩
  | @killed process code now _ done =>
    have exitCode : ({ r with process }.killed now).exitCode = some code := done
    constructor
    · nofun
    · intro _
      rw [exitCode]
      exact ⟨nofun, nofun⟩
    · exact fun _ => .inr (.inr rfl)
    · nofun
    · nofun

end ProcessRecord

namespace System
variable {host : Host} {procfs : Bool} {s s' s'' : System} {jobUuid key : String} {r : ProcessRecord}

/-! ## Records over a step -/

structure Moves (s s' : System) : Prop where
  stays : ∀ key r, s.jobs.get? key = some r →
    s'.jobs.get? key = some r ∨ ∃ r', s'.jobs.get? key = some r' ∧ r.Ends r'
  comes : ∀ key r', s'.jobs.get? key = some r' →
    s.jobs.get? key = some r' ∨ ∃ r, s.jobs.get? key = some r ∧ r.Ends r'

theorem Moves.refl (s : System) : Moves s s := ⟨fun _ _ found => .inl found, fun _ _ found => .inl found⟩

theorem Moves.of_jobs (same : s'.jobs = s.jobs) : Moves s s' := by
  constructor
  · intro key r found
    rw [same]
    exact .inl found
  · intro key r found
    rw [same] at found
    exact .inl found

theorem Moves.trans (first : Moves s s') (second : Moves s' s'') : Moves s s'' where
  stays := by
    intro key r found
    rcases first.stays key r found with still | ⟨r', ended, ends⟩
    · exact second.stays key r still
    · rcases second.stays key r' ended with still | ⟨_, _, again⟩
      · exact .inr ⟨r', still, ends⟩
      · exact absurd again.was ends.stops
  comes := by
    intro key r'' found
    rcases second.comes key r'' found with before | ⟨r', before, ends⟩
    · exact first.comes key r'' before
    · rcases first.comes key r' before with there | ⟨_, _, ended⟩
      · exact .inr ⟨r', there, ends⟩
      · exact absurd ends.was ended.stops

theorem moves_set {r' : ProcessRecord} (found : s.jobs.get? jobUuid = some r) (ends : r.Ends r')
    (jobs : s'.jobs = s.jobs.set jobUuid r') : Moves s s' := by
  constructor
  · intro key other there
    rw [jobs, Dict.get?_set]
    split_ifs with same
    · subst same
      cases found.symm.trans there
      exact .inr ⟨r', rfl, ends⟩
    · exact .inl there
  · intro key other there
    rw [jobs] at there
    rcases get?_set_cases there with ⟨rfl, rfl⟩ | ⟨_, before⟩
    · exact .inr ⟨r, found, ends⟩
    · exact .inl before

theorem Polled.moves (polled : Polled host procfs s jobUuid s') : Moves s s' := by
  cases polled with
  | unchanged => exact .refl s
  | exited found running => exact moves_set found (.finished _ running rfl) rfl
  | vanished found running => exact moves_set found (.finished _ running rfl) rfl

theorem pollAll_moves (quiet : s.Quiet) : Moves s (s.pollAll host procfs) := by
  have both : Quiet (s.pollAll host procfs) ∧ Moves s (s.pollAll host procfs) := by
    apply pollAll_keeps (fun s' => s'.Quiet ∧ Moves s s') _ ⟨quiet, .refl s⟩
    intro s' jobUuid held
    exact ⟨quiet_pollJob held.1 jobUuid, held.2.trans (held.1.1.polled jobUuid).moves⟩
  exact both.2

theorem beginKill_moves (sound : s.Sound) (jobUuid : String) : Moves s (s.beginKill host procfs jobUuid) := by
  have polled : Moves s (s.pollJob host procfs jobUuid) := (sound.polled jobUuid).moves
  unfold beginKill
  generalize s.pollJob host procfs jobUuid = after at polled
  dsimp only
  split
  · exact polled
  · split_ifs
    · exact polled.trans (.of_jobs rfl)
    · exact polled

theorem Continued.moves {timeout : Bool} (continued : Continued host procfs s timeout s') (sound : s.Sound)
    (waits : timeout = true → ¬ host.isWindows) : Moves s s' := by
  cases continued with
  | unchanged | aborted | moved | signalled => exact .of_jobs rfl
  | reaped killing found =>
    obtain ⟨_, r, there, running⟩ := sound.killing _ _ killing
    cases found.symm.trans there
    exact moves_set found (.killed _ running rfl) rfl
  | vanished killing found =>
    obtain ⟨_, r, there, running⟩ := sound.killing _ _ killing
    cases found.symm.trans there
    exact moves_set found (.killed _ running rfl) rfl
  | gaveUp _ _ late windows => exact absurd windows (waits late)

theorem Started.records {name : String} {pid : Option Nat} (started : Started host s name jobUuid pid s') :
    s'.jobs = s.jobs ∨ ∃ path pid, s'.jobs = s.jobs.set jobUuid
      { jobUuid, scriptName := name, process := .popen s.os.count pid none, logPath := path, startedAt := s.now } := by
  cases started with
  | unopened | taken | failed => exact .inl rfl
  | launched => exact .inr ⟨_, _, rfl⟩

/-! ## Which processes are alive -/

/-- The process of a record is alive; for a reattached record, the one that was launched for its
job. -/
def jobAlive (s : System) (jobUuid : String) (r : ProcessRecord) : Bool :=
  match r.process with
  | .popen child _ none => (s.os.process child).any fun p => p.ended = none
  | .reattached pid none => (s.os.at? pid).any fun p => p.ended = none && p.tag = ⟨some jobUuid, true⟩
  | _ => false

def Recognised (host : Host) (procfs : Bool) (s : System) : Prop :=
  ∀ key r, s.jobs.get? key = some r → r.status = .running → ∀ pid, r.process = .reattached pid none →
    pidAlive host procfs s.os pid = true → s.jobAlive key r = true

def mistakes (host : Host) (procfs : Bool) (s : System) (jobUuid : String) (r : ProcessRecord) : Bool :=
  match r.process with
  | .reattached pid none => r.status = .running && pidAlive host procfs s.os pid && !s.jobAlive jobUuid r
  | _ => false

theorem recognised_iff : Recognised host procfs s ↔
    ∀ entry ∈ s.jobs.entries, s.mistakes host procfs entry.1 entry.2 = false := by
  constructor
  · intro recognised entry member
    unfold mistakes
    split
    next pid process =>
      have found : s.jobs.get? entry.1 = some entry.2 := Dict.get?_of_mem member
      by_cases running : entry.2.status = .running
      · by_cases alive : pidAlive host procfs s.os pid = true
        · simp [recognised entry.1 entry.2 found running pid process alive]
        · simp [alive]
      · simp [running]
    · rfl
  · intro none key r found running pid process alive
    have right := none (key, r) (Dict.mem_of_get? found)
    simpa [mistakes, process, running, alive] using right

instance : Decidable (Recognised host procfs s) := decidable_of_iff _ recognised_iff.symm

theorem jobAlive_returncode (alive : s.jobAlive key r = true) : r.process.returncode = none := by
  unfold jobAlive at alive
  split at alive
  next same =>
    rw [same]
    rfl
  next same =>
    rw [same]
    rfl
  · cases alive

theorem present_of_jobAlive (alive : s.jobAlive key r = true) : ¬ r.process.Gone host procfs s.os := by
  unfold jobAlive at alive
  split at alive
  next child pid process =>
    obtain ⟨p, started, running⟩ := (Option.any_eq_true _ _).mp alive
    rw [process, ProcessHandle.Gone, s.os.exitCode?_of_alive ⟨p, started, of_decide_eq_true running⟩]
    simp
  next pid process =>
    obtain ⟨p, there, running⟩ := (Option.any_eq_true _ _).mp alive
    obtain ⟨k, held, started⟩ := s.os.at?_eq_some.mp there
    obtain ⟨running, tag⟩ := Bool.and_eq_true_iff.mp running
    have permitted : p.tag.permitted = true := by rw [of_decide_eq_true tag]
    have found : pidAlive host procfs s.os p.pid = true :=
      pidAlive_of_alive started (of_decide_eq_true running) permitted
    rw [s.os.pid_of_holder held started] at found
    rw [process, ProcessHandle.Gone, found]
    simp
  · cases alive

theorem jobAlive_of_present (sound : s.Sound) (recognised : Recognised host procfs s)
    (found : s.jobs.get? key = some r) (running : r.status = .running)
    (present : ¬ r.process.Gone host procfs s.os) : s.jobAlive key r = true := by
  have none := sound.settled key r found running
  cases process : r.process with
  | popen child pid returncode =>
    rw [process] at none present
    cases none
    obtain ⟨_, p, started, _⟩ := sound.child key r child pid found process
    have alive : p.ended = Option.none := by simpa [ProcessHandle.Gone, Table.exitCode?, started] using present
    simp [jobAlive, process, started, alive]
  | reattached pid returncode =>
    rw [process] at none present
    cases none
    exact recognised key r found running pid process (by simpa [ProcessHandle.Gone] using present)

/-! ## What running_count counts -/

/-- Polling reads the process table: who is alive stays so, and nobody comes. -/
structure Reads (s s' : System) : Prop where
  quiet : s'.Quiet
  moves : Moves s s'
  settles : Settles s s'
  process : s'.os.process = s.os.process
  keys : s'.jobs.keys = s.jobs.keys

theorem Reads.refl (quiet : s.Quiet) : Reads s s := ⟨quiet, .refl s, .refl s, rfl, rfl⟩

theorem Reads.trans (first : Reads s s') (second : Reads s' s'') : Reads s s'' where
  quiet := second.quiet
  moves := first.moves.trans second.moves
  settles := first.settles.trans second.settles
  process := second.process.trans first.process
  keys := second.keys.trans first.keys

theorem reads_pollJob (quiet : s.Quiet) (jobUuid : String) : Reads s (s.pollJob host procfs jobUuid) where
  quiet := quiet_pollJob quiet jobUuid
  moves := (quiet.1.polled jobUuid).moves
  settles := (quiet.1.polled jobUuid).settles
  process := (quiet.1.polled jobUuid).process
  keys := by
    have polled : Polled host procfs s jobUuid _ := quiet.1.polled jobUuid
    generalize s.pollJob host procfs jobUuid = after at polled
    cases polled with
    | unchanged => rfl
    | exited found => exact Dict.keys_set found _
    | vanished found => exact Dict.keys_set found _

theorem at?_alive {os : Table Program} {pid : Nat} {is : Process Program → Prop} :
    (∃ p, os.at? pid = some p ∧ p.ended = none ∧ is p) ↔
      ∃ k p, os.process k = some p ∧ p.pid = pid ∧ p.ended = none ∧ is p := by
  constructor
  · rintro ⟨p, there, running, isP⟩
    obtain ⟨k, held, started⟩ := os.at?_eq_some.mp there
    exact ⟨k, p, started, os.pid_of_holder held started, running, isP⟩
  · rintro ⟨k, p, started, rfl, running, isP⟩
    refine ⟨p, os.at?_eq_some.mpr ⟨k, ?_, started⟩, running, isP⟩
    exact os.alive_holds k p started running

theorem jobAlive_of_process (same : s'.os.process = s.os.process) : s'.jobAlive key r = s.jobAlive key r := by
  have reattached : ∀ pid, ((s'.os.at? pid).any fun p => p.ended = none && p.tag = ⟨some key, true⟩) =
      (s.os.at? pid).any fun p => p.ended = none && p.tag = ⟨some key, true⟩ := by
    intro pid
    rw [Bool.eq_iff_iff, Option.any_eq_true, Option.any_eq_true]
    simp only [Bool.and_eq_true, decide_eq_true_eq, at?_alive, same]
  unfold jobAlive
  split
  · rw [same]
  · exact reattached _
  · rfl

theorem reads_polls (keys : List String) (quiet : s.Quiet) :
    Reads s (keys.foldl (fun s key => s.pollJob host procfs key) s) := by
  induction keys generalizing s with
  | nil => exact .refl quiet
  | cons key rest ih =>
    have first : Reads s (s.pollJob host procfs key) := reads_pollJob quiet key
    exact first.trans (ih first.quiet)

theorem reads_pollAll (quiet : s.Quiet) : Reads s (s.pollAll host procfs) := reads_polls _ quiet

theorem polled_in_pollAll (host : Host) (procfs : Bool) (quiet : s.Quiet) (member : key ∈ s.jobs.keys) :
    ∃ before, Reads s before ∧ Reads (before.pollJob host procfs key) (s.pollAll host procfs) := by
  have reached : ∀ (keys : List String) (s' : System), Reads s s' → key ∈ keys →
      ∃ before, Reads s before ∧ Reads (before.pollJob host procfs key)
        (keys.foldl (fun s key => s.pollJob host procfs key) s') := by
    intro keys
    induction keys with
    | nil =>
      intro s' _ none
      cases none
    | cons first rest ih =>
      intro s' reads member
      rcases List.mem_cons.mp member with rfl | later
      · refine ⟨s', reads, ?_⟩
        exact reads_polls rest (quiet_pollJob reads.quiet key)
      · exact ih _ (reads.trans (reads_pollJob reads.quiet first)) later
  exact reached s.jobs.keys s (.refl quiet) member

theorem recognised_reads (reads : Reads s s') (recognised : Recognised host procfs s) :
    Recognised host procfs s' := by
  intro key r found running pid process alive
  have before := reads.settles.running key r found running
  rw [jobAlive_of_process reads.process]
  apply recognised key r before running pid process
  unfold pidAlive at alive ⊢
  cases there : s'.os.at? pid with
  | none =>
    rw [there] at alive
    cases alive
  | some p =>
    obtain ⟨k, held, started⟩ := s'.os.at?_eq_some.mp there
    have same : s.os.at? pid = some p := by
      rw [reads.process] at started
      exact s.os.at?_eq_some.mpr ⟨k, reads.settles.holder pid k held, started⟩
    rw [there] at alive
    rw [same]
    exact alive

theorem Polled.keeps_alive {other : String} (polled : Polled host procfs s other s')
    (found : s.jobs.get? key = some r) (alive : s.jobAlive key r = true) : s'.jobs.get? key = some r := by
  have apart : ∀ r', s.jobs.get? other = some r' → r'.process.Gone host procfs s.os → key ≠ other := by
    rintro r' there gone rfl
    cases found.symm.trans there
    exact present_of_jobAlive alive gone
  cases polled with
  | unchanged => exact found
  | exited there _ process ended =>
    rw [Dict.get?_set_of_ne _ (apart _ there _), found]
    rw [process, ProcessHandle.Gone, ended]
    rfl
  | vanished there _ process gone =>
    rw [Dict.get?_set_of_ne _ (apart _ there _), found]
    rw [process]
    exact gone

/-- The jobs that run after all have been polled are those whose process is alive. -/
theorem running_pollAll (quiet : s.Quiet) (recognised : Recognised host procfs s) :
    ((s.pollAll host procfs).jobs.get? key = some r ∧ r.status = .running) ↔
      s.jobs.get? key = some r ∧ r.status = .running ∧ s.jobAlive key r = true := by
  constructor
  · rintro ⟨found, running⟩
    have all : Reads s (s.pollAll host procfs) := reads_pollAll quiet
    have there := all.settles.running key r found running
    refine ⟨there, running, ?_⟩
    have member : key ∈ s.jobs.keys := List.mem_map_of_mem (f := Prod.fst) (Dict.mem_of_get? there)
    obtain ⟨before, reads, rest⟩ := polled_in_pollAll host procfs quiet member
    have polled : Polled host procfs before key _ := reads.quiet.1.polled key
    have present := polled.present (rest.settles.running key r found running) running
    rw [← jobAlive_of_process reads.process]
    apply jobAlive_of_present reads.quiet.1 (recognised_reads reads recognised) _ running present
    exact polled.settles.running key r (rest.settles.running key r found running) running
  · rintro ⟨found, running, alive⟩
    have kept : Quiet (s.pollAll host procfs) ∧ (s.pollAll host procfs).jobs.get? key = some r ∧
        (s.pollAll host procfs).jobAlive key r = true := by
      apply pollAll_keeps (fun s' => s'.Quiet ∧ s'.jobs.get? key = some r ∧ s'.jobAlive key r = true) _
        ⟨quiet, found, alive⟩
      intro s' other held
      have reads : Reads s' (s'.pollJob host procfs other) := reads_pollJob held.1 other
      refine ⟨reads.quiet, ?_, (jobAlive_of_process reads.process).trans held.2.2⟩
      have polled : Polled host procfs s' other _ := held.1.1.polled other
      exact polled.keeps_alive held.2.1 held.2.2
    exact ⟨kept.2.1, running⟩

def Resolved (s : System) : Prop :=
  ∀ key r, s.jobs.get? key = some r → r.status ≠ .running → r.process.returncode ≠ none

theorem runningCount_eq (quiet : s.Quiet) (recognised : Recognised host procfs s) (resolved : s.Resolved) :
    s.runningCount host procfs = (s.jobs.entries.filter fun entry => s.jobAlive entry.1 entry.2).length := by
  have reads : Reads s (s.pollAll host procfs) := reads_pollAll quiet
  apply Dict.length_filter_eq reads.keys
  intro key r' r after before
  rw [Bool.eq_iff_iff, decide_eq_true_eq]
  constructor
  · intro running
    obtain ⟨same, _, alive⟩ := (running_pollAll quiet recognised).mp ⟨after, running⟩
    cases before.symm.trans same
    exact alive
  · intro alive
    have running : r.status = .running := by
      by_contra ended
      exact resolved key r before ended (jobAlive_returncode alive)
    obtain ⟨same, _⟩ := (running_pollAll quiet recognised).mpr ⟨before, running, alive⟩
    cases after.symm.trans same
    exact running

theorem Moves.resolved (moves : Moves s s') (resolved : s.Resolved) : s'.Resolved := by
  intro key r found ended
  rcases moves.comes key r found with before | ⟨_, _, ends⟩
  · exact resolved key r before ended
  · exact ends.returncode

theorem resolved_start (resolved : s.Resolved) {name : String} {pid : Option Nat}
    (started : Started host s name jobUuid pid s') : s'.Resolved := by
  rcases started.records with same | ⟨path, pid, jobs⟩
  · exact (Moves.of_jobs same).resolved resolved
  · intro key r found ended
    rw [jobs] at found
    rcases get?_set_cases found with ⟨_, rfl⟩ | ⟨_, before⟩
    · exact absurd rfl ended
    · exact resolved key r before ended

/-! ## Every run -/

def Waits (host : Host) : ProcessEvent → Prop
  | .killTimesOut => ¬ host.isWindows
  | _ => True

def IsStart : ProcessEvent → Prop
  | .start .. => True
  | _ => False

/-- But for the starts, running records end and nothing else happens to the records. -/
theorem moves_step (sound : s.Sound) {event : ProcessEvent} (within : InLifetime event)
    (waits : Waits host event) (noStart : ¬ IsStart event) : Moves s (s.step host procfs event) := by
  have served (next : System) (moves : s.Idle → Moves s next) : Moves s (if s.Idle then next else s) :=
    kept_served (.refl s) moves
  cases event with
  | start => exact absurd trivial noStart
  | stop | startCut | boot => cases within
  | clock | spawn | exit => exact .of_jobs rfl
  | reap process =>
    rw [step]
    split
    · exact .refl s
    · exact .of_jobs rfl
  | getStatus jobUuid => exact served _ fun _ => (sound.polled jobUuid).moves
  | listJobs | runningCount => exact served _ fun idle => pollAll_moves ⟨sound, idle⟩
  | kill jobUuid => exact served _ fun _ => beginKill_moves sound jobUuid
  | killProceeds => exact (continued sound false).moves sound (by simp)
  | killTimesOut => exact (continued sound true).moves sound fun _ => waits

theorem resolved_step (sound : s.Sound) (resolved : s.Resolved) {event : ProcessEvent}
    (within : InLifetime event) (waits : Waits host event) : (s.step host procfs event).Resolved := by
  by_cases isStart : IsStart event
  · cases event with
    | start name jobUuid pid =>
      rw [step]
      split
      next => exact resolved_start resolved (started s name jobUuid pid)
      next => exact resolved
    | _ => cases isStart
  · exact (moves_step sound within waits isStart).resolved resolved

def FreshUuid (s : System) : ProcessEvent → Prop
  | .start _ jobUuid _ => s.jobs.get? jobUuid = none
  | _ => True

structure Recorded (s : System) : Prop where
  sound : s.Sound
  resolved : s.Resolved
  coherent : ∀ key r, s.jobs.get? key = some r → r.Coherent
  launched : ∀ key r, s.jobs.get? key = some r → r.status = .running → ∀ pid, r.process ≠ .reattached pid none

theorem Recorded.recognised (recorded : s.Recorded) : Recognised host procfs s := by
  intro key r found running pid process
  exact absurd process (recorded.launched key r found running pid)

theorem Moves.recorded (moves : Moves s s') (sound : s'.Sound) (recorded : s.Recorded) : s'.Recorded where
  sound := sound
  resolved := moves.resolved recorded.resolved
  coherent := by
    intro key r found
    rcases moves.comes key r found with before | ⟨_, _, ends⟩
    · exact recorded.coherent key r before
    · exact ends.coherent
  launched := by
    intro key r found running
    rcases moves.comes key r found with before | ⟨_, _, ends⟩
    · exact recorded.launched key r before running
    · exact absurd running ends.stops

theorem recorded_start (recorded : s.Recorded) (idle : s.Idle) {name : String} {pid : Option Nat}
    (started : Started host s name jobUuid pid s') : s'.Recorded := by
  have sound := started.sound recorded.sound idle
  rcases started.records with same | ⟨path, pid', jobs⟩
  · exact (Moves.of_jobs same).recorded sound recorded
  · constructor
    · exact sound
    · exact resolved_start recorded.resolved started
    · intro key r found
      rw [jobs] at found
      rcases get?_set_cases found with ⟨_, rfl⟩ | ⟨_, before⟩
      · exact ⟨fun _ => ⟨rfl, rfl⟩, fun ended => absurd rfl ended, fun ended => absurd rfl ended, nofun, nofun⟩
      · exact recorded.coherent key r before
    · intro key r found running
      rw [jobs] at found
      rcases get?_set_cases found with ⟨_, rfl⟩ | ⟨_, before⟩
      · nofun
      · exact recorded.launched key r before running

theorem recorded_step (recorded : s.Recorded) {event : ProcessEvent} (within : InLifetime event)
    (waits : Waits host event) : (s.step host procfs event).Recorded := by
  by_cases isStart : IsStart event
  · cases event with
    | start name jobUuid pid =>
      rw [step]
      split
      next idle => exact recorded_start recorded idle (started s name jobUuid pid)
      next => exact recorded
    | _ => cases isStart
  · exact (moves_step recorded.sound within waits isStart).recorded (sound_step recorded.sound event) recorded

theorem ended_step (sound : s.Sound) {event : ProcessEvent} (within : InLifetime event)
    (waits : Waits host event) (fresh : FreshUuid s event) (found : s.jobs.get? key = some r)
    (ended : r.status ≠ .running) : (s.step host procfs event).jobs.get? key = some r := by
  by_cases isStart : IsStart event
  · cases event with
    | start name jobUuid pid =>
      have apart : key ≠ jobUuid := by
        rintro rfl
        cases found.symm.trans fresh
      rw [step]
      split
      next =>
        have began : Started host s name jobUuid pid _ := started s name jobUuid pid
        rcases began.records with same | ⟨_, _, jobs⟩
        · rw [same, found]
        · rw [jobs, Dict.get?_set_of_ne _ apart, found]
      next => exact found
    | _ => cases isStart
  · rcases (moves_step sound within waits isStart).stays key r found with still | ⟨_, _, ends⟩
    · exact still
    · exact absurd ends.was ended

theorem ended_run (sound : s.Sound) {events : List ProcessEvent}
    (meets : Meets (step host procfs) (fun s event => (InLifetime event ∧ Waits host event) ∧ FreshUuid s event)
      s events) (found : s.jobs.get? key = some r) (ended : r.status ≠ .running) :
    (s.run host procfs events).jobs.get? key = some r := by
  induction events generalizing s with
  | nil => exact found
  | cons event rest ih =>
    obtain ⟨⟨⟨within, waits⟩, fresh⟩, later⟩ := meets
    exact ih (sound_step sound event) later (ended_step sound within waits fresh found ended)

/-- In every run of a manager on POSIX that begins without jobs, whatever starts, exits, polls and
kills: records are coherent, one that has ended never changes, and running_count counts the jobs
whose process is alive. -/
theorem records_are_one_way (host : Host) (procfs : Bool) (posix : host.isWindows = false)
    (os : Table Program) (now : Timestamp) (events : List ProcessEvent)
    (within : ∀ event ∈ events, InLifetime event)
    (fresh : Meets (step host procfs) FreshUuid ((fresh os now).booted host procfs) events) :
    ∀ first rest, events = first ++ rest →
      let s := ((System.fresh os now).booted host procfs).run host procfs first
      (∀ key r, s.jobs.get? key = some r → r.Coherent ∧ (r.status ≠ .running →
        (((System.fresh os now).booted host procfs).run host procfs events).jobs.get? key = some r)) ∧
      (s.Idle → s.runningCount host procfs =
        (s.jobs.entries.filter fun entry => s.jobAlive entry.1 entry.2).length) := by
  intro first rest split
  subst split
  -- on POSIX no kill gives up
  have waits : ∀ event, Waits host event := by
    intro event
    cases event with
    | killTimesOut => simp [Waits, posix]
    | _ => trivial
  have initial : ((System.fresh os now).booted host procfs).Recorded := by
    constructor
    · exact (sound_down rfl rfl).restored rfl
    · exact fun _ _ found => absurd found not_in_empty
    · exact fun _ _ found => absurd found not_in_empty
    · exact fun _ _ found => absurd found not_in_empty
  have steps : Meets (step host procfs)
      (fun s event => (InLifetime event ∧ Waits host event) ∧ FreshUuid s event)
      ((System.fresh os now).booted host procfs) (first ++ rest) := by
    apply meets_and.mpr ⟨meets_of_mem _, fresh⟩
    exact fun event member => ⟨within event member, waits event⟩
  obtain ⟨before, later⟩ := meets_append.mp steps
  have recorded : (((System.fresh os now).booted host procfs).run host procfs first).Recorded :=
    invariant_run Recorded (fun _ _ recorded meets => recorded_step recorded meets.1.1 meets.1.2) initial before
  constructor
  · intro key r found
    refine ⟨recorded.coherent key r found, ?_⟩
    intro ended
    rw [run, run_append]
    exact ended_run recorded.sound later found ended
  · intro idle
    exact runningCount_eq ⟨recorded.sound, idle⟩ recorded.recognised recorded.resolved

def polledTwice : List ProcessEvent :=
  [.start "deploy" "job" (some 7), .exit 0 3, .getStatus "job", .clock "2", .kill "job", .listJobs]

theorem records_are_one_way_failed :
    ∃ r, (((fresh .empty "1").booted linux true).run linux true polledTwice).jobs.get? "job" = some r ∧
      r.status = .failed ∧ r.exitCode = some 3 ∧ r.endedAt = some "1" := by
  have polled : ((((fresh .empty "1").booted linux true).run linux true
      [.start "deploy" "job" (some 7), .exit 0 3, .getStatus "job"]).jobs.get? "job").map
        (fun r => (r.status, r.exitCode, r.endedAt)) = some (.failed, some 3, some "1") := by
    decide +kernel
  obtain ⟨r, found, fields⟩ := Option.map_eq_some_iff.mp polled
  obtain ⟨status, exitCode, endedAt⟩ := by simpa using fields
  have within : ∀ event ∈ polledTwice, InLifetime event := by
    intro event member
    simp only [polledTwice, List.mem_cons, List.not_mem_nil, or_false] at member
    rcases member with rfl | rfl | rfl | rfl | rfl | rfl <;> trivial
  have holds := records_are_one_way linux true rfl .empty "1" polledTwice within
    ⟨rfl, trivial, trivial, trivial, trivial, trivial, trivial⟩
    [.start "deploy" "job" (some 7), .exit 0 3, .getStatus "job"] [.clock "2", .kill "job", .listJobs] rfl
  refine ⟨r, (holds.1 "job" r found).2 ?_, status, exitCode, endedAt⟩
  rw [status]
  nofun

end System
end Csl.Agent
