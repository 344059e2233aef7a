import Csl.Agent.ProcessManager.Lifetime
import Csl.Agent.ScriptRunner.Specs

/-! What a poll and a call of kill can do, and what every step preserves. -/

set_option autoImplicit false

namespace Csl.Agent
open Csl.Shared Processes

variable {host : Host} {procfs : Bool}

def ProcessHandle.Gone (host : Host) (procfs : Bool) (os : Table Program) : ProcessHandle → Prop
  | .popen child _ none => (os.exitCode? child).isSome
  | .reattached pid none => pidAlive host procfs os pid = false
  | _ => True

/-- The record of a job whose process was found to be gone. -/
def ProcessRecord.finished (r : ProcessRecord) (process : ProcessHandle) (code : Int)
    (now : Timestamp) : ProcessRecord :=
  { r with process, exitCode := some code, endedAt := some now,
           status := if code = 0 then .completed else .failed }

theorem pidAlive_of_free {os : Table Program} {pid : Nat} (free : os.holder pid = none) :
    pidAlive host procfs os pid = false := by
  rw [pidAlive, os.at?_of_free free]

theorem pidAlive_of_alive {os : Table Program} {k : Nat} {p : Process Program}
    (found : os.process k = some p) (running : p.ended = none) (permitted : p.tag.permitted) :
    pidAlive host procfs os p.pid = true := by
  have held := os.alive_holds k p found running
  rw [pidAlive, os.at?_of_holder held, found]
  simp [running, permitted]

namespace ProcessHandle
variable {os : Table Program}

theorem poll_exited {child pid : Nat} {code : Int} (ended : os.exitCode? child = some code) :
    (popen child pid none).poll host procfs os = (os.reap child, .popen child pid (some code)) := by
  simp only [poll, ended]

theorem poll_vanished {pid : Nat} (gone : pidAlive host procfs os pid = false) :
    (reattached pid none).poll host procfs os = (os, .reattached pid (some (-1))) := by
  simp [poll, gone]

theorem gone_cases {process : ProcessHandle} (gone : process.Gone host procfs os)
    (none : process.returncode = none) :
    (∃ child pid code, process = .popen child pid Option.none ∧ os.exitCode? child = some code) ∨
      ∃ pid, process = .reattached pid Option.none ∧ pidAlive host procfs os pid = false := by
  cases process with
  | popen child pid returncode =>
    cases none
    obtain ⟨code, ended⟩ := Option.isSome_iff_exists.mp gone
    exact .inl ⟨child, pid, code, rfl, ended⟩
  | reattached pid returncode =>
    cases none
    exact .inr ⟨pid, rfl, gone⟩

theorem poll_present {process : ProcessHandle} (present : ¬ process.Gone host procfs os) :
    process.poll host procfs os = (os, process) ∧ process.returncode = none := by
  rcases process with ⟨child, pid, _ | code⟩ | ⟨pid, _ | code⟩
  · have running : os.exitCode? child = none := by simpa [Gone] using present
    simp [poll, running, returncode]
  · exact absurd trivial present
  · have alive : pidAlive host procfs os pid = true := by simpa [Gone] using present
    simp [poll, alive, returncode]
  · exact absurd trivial present

end ProcessHandle

namespace ProcessRecord
variable {os : Table Program} {now : Timestamp} (r : ProcessRecord)

theorem poll_finished {os' : Table Program} {process : ProcessHandle} {code : Int}
    (running : r.status = .running) (polled : r.process.poll host procfs os = (os', process))
    (done : process.returncode = some code) :
    r.poll host procfs os now = (os', r.finished process code now) := by
  simp only [poll, if_pos running, polled, done, finished]

theorem poll_unchanged (present : r.status = .running → ¬ r.process.Gone host procfs os) :
    r.poll host procfs os now = (os, r) := by
  unfold poll
  split
  next running =>
    obtain ⟨same, none⟩ := ProcessHandle.poll_present (present running)
    rw [same]
    simp only [none]
  next => rfl

end ProcessRecord

namespace System
variable {s : System}

@[simp] theorem saveState_os : s.saveState.os = s.os := rfl
@[simp] theorem saveState_up : s.saveState.up = s.up := rfl
@[simp] theorem saveState_jobs : s.saveState.jobs = s.jobs := rfl
@[simp] theorem saveState_killing : s.saveState.killing = s.killing := rfl
@[simp] theorem saveState_logs : s.saveState.logs = s.logs := rfl
@[simp] theorem saveState_signals : s.saveState.signals = s.signals := rfl
@[simp] theorem saveState_killed : s.saveState.killed = s.killed := rfl

theorem get?_saveState (key : String) :
    s.saveState.runningJson.get? key =
      (s.jobs.get? key).bind fun r => if r.status = .running then some r.entry else none :=
  Dict.get?_filterMap _ _ _

theorem get?_restoreState (key : String) :
    (s.restoreState host procfs).jobs.get? key =
      (s.runningJson.get? key).bind fun entry =>
        if pidAlive host procfs s.os entry.pid then some (entry.reattached key) else none :=
  Dict.get?_filterMap _ _ _

/-! ## Polls -/

inductive Polled (host : Host) (procfs : Bool) (s : System) (jobUuid : String) : System → Prop where
  | unchanged : (∀ r, s.jobs.get? jobUuid = some r → r.status = .running →
      ¬ r.process.Gone host procfs s.os) → Polled host procfs s jobUuid s
  | exited {r : ProcessRecord} {child pid : Nat} {code : Int} :
      s.jobs.get? jobUuid = some r → r.status = .running → r.process = .popen child pid none →
      s.os.exitCode? child = some code → Polled host procfs s jobUuid
        { s with os := s.os.reap child
                 jobs := s.jobs.set jobUuid (r.finished (.popen child pid (some code)) code s.now) }
  | vanished {r : ProcessRecord} {pid : Nat} :
      s.jobs.get? jobUuid = some r → r.status = .running → r.process = .reattached pid none →
      pidAlive host procfs s.os pid = false → Polled host procfs s jobUuid
        { s with jobs := s.jobs.set jobUuid (r.finished (.reattached pid (some (-1))) (-1) s.now) }

theorem pollJob_found {jobUuid : String} {r : ProcessRecord} (found : s.jobs.get? jobUuid = some r) :
    s.pollJob host procfs jobUuid =
      { s with os := (r.poll host procfs s.os s.now).1
               jobs := s.jobs.set jobUuid (r.poll host procfs s.os s.now).2 } := by
  simp only [pollJob, found]

theorem polled (jobUuid : String)
    (settled : ∀ r, s.jobs.get? jobUuid = some r → r.status = .running →
      r.process.returncode = none) :
    Polled host procfs s jobUuid (s.pollJob host procfs jobUuid) := by
  cases found : s.jobs.get? jobUuid with
  | none =>
    have same : s.pollJob host procfs jobUuid = s := by simp only [pollJob, found]
    rw [same]
    apply Polled.unchanged
    intro r other
    cases found.symm.trans other
  | some r =>
    rw [pollJob_found found]
    by_cases running : r.status = .running
    · by_cases gone : r.process.Gone host procfs s.os
      · rcases ProcessHandle.gone_cases gone (settled r found running) with
          ⟨child, pid, code, process, ended⟩ | ⟨pid, process, gone⟩
        · rw [r.poll_finished running (process ▸ ProcessHandle.poll_exited ended) rfl]
          exact .exited found running process ended
        · rw [r.poll_finished running (process ▸ ProcessHandle.poll_vanished gone) rfl]
          exact .vanished found running process gone
      · rw [r.poll_unchanged fun _ => gone, Dict.set_found found]
        apply Polled.unchanged
        intro other again _
        cases found.symm.trans again
        exact gone
    · rw [r.poll_unchanged fun still => absurd still running, Dict.set_found found]
      apply Polled.unchanged
      intro other again still
      cases found.symm.trans again
      exact absurd still running

/-! ## The bookkeeping of every run -/

/-- What holds of the records whatever happens. A Popen whose child it has not reaped keeps
the child's PID from being freed. -/
structure Sound (s : System) : Prop where
  child : ∀ key r child pid, s.jobs.get? key = some r → r.process = .popen child pid none →
    s.os.holder pid = some child ∧ ∃ p, s.os.process child = some p ∧ p.tag = ⟨some key, true⟩
  settled : ∀ key r, s.jobs.get? key = some r → r.status = .running → r.process.returncode = none
  named : ∀ key r, s.jobs.get? key = some r → r.jobUuid = key
  killing : ∀ jobUuid phase, s.killing = some ⟨jobUuid, phase⟩ →
    s.up ∧ ∃ r, s.jobs.get? jobUuid = some r ∧ r.status = .running
  down : s.up = false → s.jobs = Dict.empty

theorem Sound.polled (sound : s.Sound) (jobUuid : String) :
    Polled host procfs s jobUuid (s.pollJob host procfs jobUuid) :=
  System.polled jobUuid (sound.settled jobUuid)

theorem Sound.child_key (sound : s.Sound) {key key' : String} {r r' : ProcessRecord}
    {child pid pid' : Nat} (found : s.jobs.get? key = some r) (found' : s.jobs.get? key' = some r')
    (process : r.process = .popen child pid none) (process' : r'.process = .popen child pid' none) :
    key = key' := by
  obtain ⟨_, p, first, tag⟩ := sound.child key r child pid found process
  obtain ⟨_, q, second, tag'⟩ := sound.child key' r' child pid' found' process'
  cases first.symm.trans second
  rw [tag] at tag'
  cases tag'
  rfl

/-- The kernel's moves: no child that a Popen awaits loses its PID. -/
theorem Sound.move (sound : s.Sound) {os : Table Program} (later : s.os.Later os)
    (held : ∀ key r child pid, s.jobs.get? key = some r → r.process = .popen child pid none →
      os.holder pid = some child) : Sound { s with os } where
  child := by
    intro key r child pid found process
    obtain ⟨_, p, started, tag⟩ := sound.child key r child pid found process
    obtain ⟨p', started', _, tag', _⟩ := later.process child p started
    exact ⟨held key r child pid found process, p', started', tag'.trans tag⟩
  settled := sound.settled
  named := sound.named
  killing := sound.killing
  down := sound.down

theorem Sound.held (sound : s.Sound) {key : String} {r : ProcessRecord} {child pid : Nat}
    (found : s.jobs.get? key = some r) (process : r.process = .popen child pid none) :
    s.os.holder pid = some child := (sound.child key r child pid found process).1

theorem held_spawn {os : Table Program} {pid : Nat} {child : Nat} (held : os.holder pid = some child)
    (other : Nat) (tag : Program) : (os.spawn other tag).holder pid = some child := by
  by_cases free : os.holder other = none
  · rw [Table.holder_spawn free, if_neg, held]
    intro same
    rw [same, free] at held
    cases held
  · rw [Table.spawn_taken free, held]

theorem get?_set_cases {Value : Type} {dict : Dict String Value} {key other : String}
    {value found : Value} (lookup : (dict.set key value).get? other = some found) :
    (other = key ∧ found = value) ∨ (other ≠ key ∧ dict.get? other = some found) := by
  rw [Dict.get?_set] at lookup
  split at lookup
  next same => exact .inl ⟨same, (Option.some.inj lookup).symm⟩
  next apart => exact .inr ⟨apart, lookup⟩

theorem Sound.settle (sound : s.Sound) {jobUuid : String} {r r' : ProcessRecord} {os : Table Program}
    (killing : s.killing = none) (found : s.jobs.get? jobUuid = some r)
    (child : ∀ key r child pid, (s.jobs.set jobUuid r').get? key = some r → r.process = .popen child pid none →
      os.holder pid = some child ∧ ∃ p, os.process child = some p ∧ p.tag = ⟨some key, true⟩)
    (named : r'.jobUuid = r.jobUuid) (ended : r'.status ≠ .running) :
    Sound { s with os, jobs := s.jobs.set jobUuid r' } where
  child := child
  settled := by
    intro key other lookup running
    rcases get?_set_cases lookup with ⟨_, rfl⟩ | ⟨_, before⟩
    · exact absurd running ended
    · exact sound.settled key other before running
  named := by
    intro key other lookup
    rcases get?_set_cases lookup with ⟨same, rfl⟩ | ⟨_, before⟩
    · exact same ▸ named.trans (sound.named jobUuid r found)
    · exact sound.named key other before
  killing := by
    intro key phase now
    rw [killing] at now
    cases now
  down := by
    intro down
    rw [sound.down down] at found
    cases found

theorem Sound.finish (sound : s.Sound) {jobUuid : String} {r r' : ProcessRecord} {os : Table Program}
    (killing : s.killing = none)
    (found : s.jobs.get? jobUuid = some r) (later : s.os.Later os)
    (held : ∀ key r child pid, key ≠ jobUuid → s.jobs.get? key = some r →
      r.process = .popen child pid none → os.holder pid = some child)
    (done : r'.process.returncode ≠ none) (named : r'.jobUuid = r.jobUuid) (ended : r'.status ≠ .running) :
    Sound { s with os, jobs := s.jobs.set jobUuid r' } := by
  apply sound.settle killing found _ named ended
  intro key other child pid lookup process
  rcases get?_set_cases lookup with ⟨_, rfl⟩ | ⟨apart, before⟩
  · rw [process] at done
    exact absurd rfl done
  · obtain ⟨_, p, started, tag⟩ := sound.child key other child pid before process
    obtain ⟨p', started', _, tag', _⟩ := later.process child p started
    exact ⟨held key other child pid apart before process, p', started', tag'.trans tag⟩

theorem Sound.frame (sound : s.Sound) {s' : System} (os : s'.os = s.os) (jobs : s'.jobs = s.jobs)
    (up : s'.up = s.up) (killing : s'.killing = s.killing) : s'.Sound := by
  constructor
  · rw [os, jobs]
    exact sound.child
  · rw [jobs]
    exact sound.settled
  · rw [jobs]
    exact sound.named
  · rw [killing, up, jobs]
    exact sound.killing
  · rw [up, jobs]
    exact sound.down

theorem Sound.released (sound : s.Sound) : Sound { s with killing := none } :=
  ⟨sound.child, sound.settled, sound.named, nofun, sound.down⟩

theorem Sound.held_reap (sound : s.Sound) {jobUuid : String} {r : ProcessRecord} {child pid : Nat}
    {code : Int} (found : s.jobs.get? jobUuid = some r) (process : r.process = .popen child pid none)
    (ended : s.os.exitCode? child = some code) {key : String} {r' : ProcessRecord} {child' pid' : Nat}
    (apart : key ≠ jobUuid) (found' : s.jobs.get? key = some r')
    (process' : r'.process = .popen child' pid' none) :
    (s.os.reap child).holder pid' = some child' := by
  have held := sound.held found' process'
  rw [Table.holder_reap (by rw [ended]; rfl), held, if_neg]
  intro same
  cases same
  exact apart (sound.child_key found' found process' process)

theorem finished_stops (r : ProcessRecord) (process : ProcessHandle) (code : Int) (now : Timestamp) :
    (r.finished process code now).status ≠ .running := by
  unfold ProcessRecord.finished
  dsimp only
  split <;> decide

theorem Polled.sound {jobUuid : String} {s' : System} (polled : Polled host procfs s jobUuid s')
    (sound : s.Sound) (idle : s.killing = none) : s'.Sound := by
  cases polled with
  | unchanged => exact sound
  | exited found running process ended =>
    exact sound.finish idle found (.reaped _ _) (fun _ _ _ _ => sound.held_reap found process ended)
      nofun rfl (finished_stops _ _ _ _)
  | vanished found running process gone =>
    exact sound.finish idle found (.refl _) (fun _ _ _ _ _ => sound.held) nofun rfl
      (finished_stops _ _ _ _)

theorem Polled.frame {jobUuid : String} {s' : System} (polled : Polled host procfs s jobUuid s') :
    s'.up = s.up ∧ s'.killing = s.killing ∧ s'.runningJson = s.runningJson ∧ s'.logs = s.logs ∧
      s'.signals = s.signals ∧ s'.killed = s.killed ∧ s'.boots = s.boots := by
  cases polled <;> exact ⟨rfl, rfl, rfl, rfl, rfl, rfl, rfl⟩

theorem Polled.process {jobUuid : String} {s' : System} (polled : Polled host procfs s jobUuid s') :
    s'.os.process = s.os.process := by
  cases polled with
  | unchanged | vanished => rfl
  | exited => exact funext fun _ => Table.process_reap _ _

theorem Polled.present {jobUuid : String} {s' : System} (polled : Polled host procfs s jobUuid s')
    {r : ProcessRecord} (found : s'.jobs.get? jobUuid = some r) (running : r.status = .running) :
    ¬ r.process.Gone host procfs s.os := by
  cases polled with
  | unchanged present => exact present r found running
  | exited | vanished =>
    rw [Dict.get?_set_self] at found
    cases found
    exact absurd running (finished_stops _ _ _ _)

def Quiet (s : System) : Prop := s.Sound ∧ s.Idle

theorem quiet_pollJob (quiet : s.Quiet) (jobUuid : String) :
    (s.pollJob host procfs jobUuid).Quiet := by
  have polled : Polled host procfs s jobUuid _ := quiet.1.polled jobUuid
  obtain ⟨up, killing, _⟩ := polled.frame
  exact ⟨polled.sound quiet.1 quiet.2.2, up.trans quiet.2.1, killing.trans quiet.2.2⟩

theorem pollAll_keeps (inv : System → Prop)
    (kept : ∀ s jobUuid, inv s → inv (s.pollJob host procfs jobUuid)) (holds : inv s) :
    inv (s.pollAll host procfs) := by
  unfold pollAll
  generalize s.jobs.keys = keys
  induction keys generalizing s with
  | nil => exact holds
  | cons jobUuid rest ih => exact ih (kept s jobUuid holds)

/-! ## Calls of kill -/

inductive Continued (host : Host) (procfs : Bool) (s : System) (timeout : Bool) : System → Prop where
  | unchanged : Continued host procfs s timeout s
  | aborted : Continued host procfs s timeout { s with killing := none }
  | moved {jobUuid : String} {phase next : KillPhase} : s.killing = some ⟨jobUuid, phase⟩ →
      Continued host procfs s timeout { s with killing := some ⟨jobUuid, next⟩ }
  | signalled {jobUuid : String} {phase next : KillPhase} {r : ProcessRecord} {target : Nat} :
      s.killing = some ⟨jobUuid, phase⟩ → s.jobs.get? jobUuid = some r →
      s.os.holder r.process.pid = some target → Continued host procfs s timeout
        { s with signals := s.signals ++ [⟨jobUuid, target⟩], killing := some ⟨jobUuid, next⟩ }
  | reaped {jobUuid : String} {phase : KillPhase} {r : ProcessRecord} {child pid : Nat} {code : Int} :
      s.killing = some ⟨jobUuid, phase⟩ → s.jobs.get? jobUuid = some r →
      r.process = .popen child pid none → s.os.exitCode? child = some code → Continued host procfs s timeout
        ({ s with os := s.os.reap child }.finishKill jobUuid
          { r with process := .popen child pid (some code) })
  | vanished {jobUuid : String} {phase : KillPhase} {r : ProcessRecord} {pid : Nat} :
      s.killing = some ⟨jobUuid, phase⟩ → s.jobs.get? jobUuid = some r →
      r.process = .reattached pid none → pidAlive host procfs s.os pid = false →
      Continued host procfs s timeout (s.finishKill jobUuid { r with process := .reattached pid (some (-1)) })
  | gaveUp {jobUuid : String} {phase : KillPhase} {r : ProcessRecord} :
      s.killing = some ⟨jobUuid, phase⟩ → s.jobs.get? jobUuid = some r → timeout → host.isWindows →
      ¬ r.process.Gone host procfs s.os → Continued host procfs s timeout (s.finishKill jobUuid r)

theorem sendSignal_continued {jobUuid : String} {phase : KillPhase} {r : ProcessRecord}
    (killing : s.killing = some ⟨jobUuid, phase⟩) (found : s.jobs.get? jobUuid = some r)
    (timeout : Bool) (next : KillPhase) :
    Continued host procfs s timeout (s.sendSignal host jobUuid r.process.pid next) := by
  unfold sendSignal
  split
  next target p held _ =>
    split
    · exact .signalled killing found held
    · split
      · exact .moved killing
      · exact .aborted
  next => exact .moved killing

theorem waitReturns_continued {jobUuid : String} {phase : KillPhase}
    {r : ProcessRecord} (killing : s.killing = some ⟨jobUuid, phase⟩)
    (found : s.jobs.get? jobUuid = some r) (timeout : Bool)
    (none : r.process.returncode = none) :
    Continued host procfs s timeout (s.waitReturns host procfs jobUuid r) := by
  unfold waitReturns
  by_cases gone : r.process.Gone host procfs s.os
  · rcases ProcessHandle.gone_cases gone none with ⟨child, pid, code, process, ended⟩ |
      ⟨pid, process, gone⟩
    · rw [process, ProcessHandle.poll_exited ended]
      exact .reaped killing found process ended
    · rw [process, ProcessHandle.poll_vanished gone]
      exact .vanished killing found process gone
  · obtain ⟨same, none⟩ := ProcessHandle.poll_present gone
    rw [same]
    simp only [if_pos none]
    exact .unchanged

theorem continued (sound : s.Sound) (timeout : Bool) :
    Continued host procfs s timeout (s.continueKill host procfs timeout) := by
  unfold continueKill
  split
  next => exact .unchanged
  next jobUuid phase killing =>
    obtain ⟨_, r, found, running⟩ := sound.killing _ _ killing
    have none := sound.settled _ _ found running
    simp only [found]
    split
    next => exact sendSignal_continued killing found _ _
    next => exact sendSignal_continued killing found _ _
    next => exact waitReturns_continued killing found _ none
    next => exact waitReturns_continued killing found _ none
    next =>
      unfold waitTimesOut
      by_cases gone : r.process.Gone host procfs s.os
      · have done : (r.process.poll host procfs s.os).2.returncode ≠ Option.none := by
          rcases ProcessHandle.gone_cases gone none with ⟨child, pid, code, process, ended⟩ |
            ⟨pid, process, gone⟩
          · rw [process, ProcessHandle.poll_exited ended]
            nofun
          · rw [process, ProcessHandle.poll_vanished gone]
            nofun
        simp only [if_neg done]
        exact .unchanged
      · obtain ⟨same, none⟩ := ProcessHandle.poll_present gone
        rw [same]
        simp only [if_pos none]
        split
        next windows => exact .gaveUp killing found rfl windows gone
        next => exact .moved killing
    next => exact .unchanged

theorem quiet_pollAll (quiet : s.Quiet) : (s.pollAll host procfs).Quiet :=
  pollAll_keeps Quiet (fun _ jobUuid quiet => quiet_pollJob quiet jobUuid) quiet

/-- kill gives up on a process that is still there, which stays with its Popen. -/
theorem Sound.giveUp (sound : s.Sound) (idle : s.killing = none) {jobUuid : String}
    {r r' : ProcessRecord} (found : s.jobs.get? jobUuid = some r) (process : r'.process = r.process)
    (named : r'.jobUuid = r.jobUuid) (ended : r'.status ≠ .running) :
    Sound { s with jobs := s.jobs.set jobUuid r' } := by
  apply sound.settle idle found _ named ended
  intro key other child pid lookup popen
  rcases get?_set_cases lookup with ⟨rfl, rfl⟩ | ⟨_, before⟩
  · exact sound.child key r child pid found (process ▸ popen)
  · exact sound.child key other child pid before popen

theorem Sound.finishKill (sound : s.Sound) {jobUuid : String} {r r' : ProcessRecord}
    {os : Table Program} (found : s.jobs.get? jobUuid = some r) (later : s.os.Later os)
    (held : ∀ key r child pid, key ≠ jobUuid → s.jobs.get? key = some r →
      r.process = .popen child pid none → os.holder pid = some child)
    (named : r'.jobUuid = r.jobUuid) (done : r'.process.returncode ≠ none) :
    Sound ({ s with os }.finishKill jobUuid r') := by
  have finished : Sound { s with os, killing := none, jobs := s.jobs.set jobUuid (r'.killed s.now) } :=
    sound.released.finish rfl found later held done named nofun
  exact finished.frame rfl rfl rfl rfl

theorem Continued.sound {timeout : Bool} {s' : System}
    (continued : Continued host procfs s timeout s') (sound : s.Sound) :
    s'.Sound := by
  cases continued with
  | unchanged => exact sound
  | aborted => exact sound.released
  | moved killing =>
    refine ⟨sound.child, sound.settled, sound.named, ?_, sound.down⟩
    intro key phase now
    cases now
    exact sound.killing _ _ killing
  | signalled killing found held =>
    refine ⟨sound.child, sound.settled, sound.named, ?_, sound.down⟩
    intro key phase now
    cases now
    exact sound.killing _ _ killing
  | reaped killing found process ended =>
    exact sound.finishKill found (.reaped _ _) (fun _ _ _ _ => sound.held_reap found process ended)
      rfl nofun
  | vanished killing found process gone =>
    exact sound.finishKill found (.refl _) (fun _ _ _ _ _ => sound.held) rfl nofun
  | gaveUp killing found _ windows present =>
    have finished : Sound { s with killing := none, jobs := s.jobs.set _ (ProcessRecord.killed _ s.now) } :=
      sound.released.giveUp rfl found rfl rfl nofun
    exact finished.frame rfl rfl rfl rfl

/-! ## Starts, restarts and the kernel -/

theorem Sound.started (sound : s.Sound) (idle : s.Idle) {pid : Nat} (free : s.os.holder pid = none)
    (path : Path) (name jobUuid : String) :
    ((s.launch host path jobUuid pid).track path name jobUuid s.os.count pid).Sound where
  child := by
    intro key r child pid' lookup process
    rcases get?_set_cases lookup with ⟨rfl, rfl⟩ | ⟨_, before⟩
    · cases process
      exact ⟨Table.holder_spawned free _, _, Table.process_spawned free _, rfl⟩
    · obtain ⟨held, p, running, tag⟩ := sound.child key r child pid' before process
      obtain ⟨p', running', _, tag', _⟩ := (Table.Later.spawned s.os pid _).process child p running
      exact ⟨held_spawn held _ _, p', running', tag'.trans tag⟩
  settled := by
    intro key r lookup running
    rcases get?_set_cases lookup with ⟨_, rfl⟩ | ⟨_, before⟩
    · rfl
    · exact sound.settled key r before running
  named := by
    intro key r lookup
    rcases get?_set_cases lookup with ⟨same, rfl⟩ | ⟨_, before⟩
    · exact same.symm
    · exact sound.named key r before
  killing := by
    intro key phase now
    change s.killing = some ⟨key, phase⟩ at now
    rw [idle.2] at now
    cases now
  down := by
    intro down
    exact absurd idle.1 (by simp [show s.up = false from down])

inductive Started (host : Host) (s : System) (name jobUuid : String) : Option Nat → System → Prop where
  | unopened {pid : Option Nat} : host.logPath jobUuid = none → Started host s name jobUuid pid s
  | taken {pid : Nat} : s.os.holder pid ≠ none → Started host s name jobUuid (some pid) s
  | failed {path : Path} : host.logPath jobUuid = some path → Started host s name jobUuid none
      { s with logs := Function.update s.logs (host.canonical path) none }
  | launched {path : Path} {pid : Nat} : host.logPath jobUuid = some path → s.os.holder pid = none →
      Started host s name jobUuid (some pid)
        ((s.launch host path jobUuid pid).track path name jobUuid s.os.count pid).saveState

theorem started (s : System) (name jobUuid : String) (pid : Option Nat) :
    Started host s name jobUuid pid (s.start host name jobUuid pid) := by
  unfold start
  cases located : host.logPath jobUuid with
  | none => exact .unopened located
  | some path =>
    cases pid with
    | none => exact .failed located
    | some pid =>
      dsimp only
      split
      next free => exact .launched located free
      next taken => exact .taken taken

theorem Started.later {name jobUuid : String} {pid : Option Nat} {s' : System}
    (started : Started host s name jobUuid pid s') : s.os.Later s'.os := by
  cases started with
  | unopened | taken | failed => exact .refl _
  | launched => exact .spawned _ _ _

theorem Started.boots {name jobUuid : String} {pid : Option Nat} {s' : System}
    (started : Started host s name jobUuid pid s') : s'.boots = s.boots := by
  cases started <;> rfl

theorem Started.kills {name jobUuid : String} {pid : Option Nat} {s' : System}
    (started : Started host s name jobUuid pid s') : s.killed.length ≤ s'.killed.length := by
  cases started <;> exact Nat.le_refl _

theorem start_tracks {name jobUuid : String} {params : Params} {w w' : World}
    {response : JobStatusResponse} {pid : Nat}
    (ran : host.run (ProcessManager.start host name params jobUuid) w = (.ok response, w'))
    (now : s.now = (w.resynced host).now) (free : s.os.holder pid = none) :
    ∃ r, (s.start host name jobUuid (some pid)).jobs.get? jobUuid = some r ∧
      r.toResponse = response ∧ host.logPath jobUuid = some r.logPath := by
  rw [run_start] at ran
  generalize (w.resynced host).disk.prepared host "start" name params
    (ApprovalsManager.describe (w.resynced host).memory.store name) = ready at ran
  rcases ready with e | ⟨command, env⟩
  · cases congrArg Prod.fst ran
  · cases located : host.logPath jobUuid with
    | none =>
      rw [located] at ran
      cases congrArg Prod.fst ran
    | some path =>
      rw [located] at ran
      have answer := Except.ok.inj (congrArg Prod.fst ran)
      simp only [start, located, if_pos free]
      refine ⟨_, Dict.get?_set_self _ _ _, ?_, rfl⟩
      rw [← answer, ← now]
      rfl

theorem Started.sound {name jobUuid : String} {pid : Option Nat} {s' : System}
    (started : Started host s name jobUuid pid s') (sound : s.Sound) (idle : s.Idle) : s'.Sound := by
  cases started with
  | unopened | taken => exact sound
  | failed located => exact sound.frame rfl rfl rfl rfl
  | launched located free => exact (sound.started idle free _ _ _).frame rfl rfl rfl rfl

theorem not_in_empty {key : String} {r : ProcessRecord} :
    (Dict.empty : Dict String ProcessRecord).get? key ≠ some r := by
  rw [Dict.get?_empty]
  exact (Option.some_ne_none r).symm

theorem sound_down (jobs : s.jobs = Dict.empty) (killing : s.killing = none) : s.Sound := by
  constructor
  · intro key r child pid found
    rw [jobs] at found
    cases found
  · intro key r found
    rw [jobs] at found
    cases found
  · intro key r found
    rw [jobs] at found
    cases found
  · intro jobUuid phase now
    rw [killing] at now
    cases now
  · intro _
    exact jobs

theorem Sound.restored (sound : s.Sound) (down : s.up = false) :
    (s.restoreState host procfs).Sound := by
  have reattached : ∀ key r, (s.restoreState host procfs).jobs.get? key = some r →
      r.status = .running ∧ r.jobUuid = key ∧ ∃ pid, r.process = .reattached pid none := by
    intro key r lookup
    rw [get?_restoreState] at lookup
    obtain ⟨entry, _, alive⟩ := Option.bind_eq_some_iff.mp lookup
    split at alive
    · cases alive
      exact ⟨rfl, rfl, entry.pid, rfl⟩
    · cases alive
  constructor
  · intro key r child pid lookup process
    obtain ⟨_, _, pid', handle⟩ := reattached key r lookup
    rw [process] at handle
    cases handle
  · intro key r lookup _
    obtain ⟨_, _, pid, handle⟩ := reattached key r lookup
    rw [handle]
    rfl
  · intro key r lookup
    exact (reattached key r lookup).2.1
  · intro key phase killing
    have up := (sound.killing key phase killing).1
    rw [down] at up
    cases up
  · nofun

/-- Requests are served between calls of kill only. -/
theorem kept_served {holds : System → Prop} {next : System} (before : holds s) (keeps : s.Idle → holds next) :
    holds (if s.Idle then next else s) := by
  split
  next idle => exact keeps idle
  next => exact before

theorem sound_step (sound : s.Sound) (event : ProcessEvent) : (s.step host procfs event).Sound := by
  have served (next : System) (keeps : s.Idle → next.Sound) : Sound (if s.Idle then next else s) :=
    kept_served sound keeps
  cases event with
  | clock now => exact sound.frame rfl rfl rfl rfl
  | spawn pid permitted =>
    exact sound.move (.spawned _ _ _) fun _ _ _ _ found process => held_spawn (sound.held found process) _ _
  | exit process code => exact sound.move (.exited _ _ _) fun _ _ _ _ => sound.held
  | reap process =>
    simp only [step]
    split
    next => exact sound
    next orphan =>
      apply sound.move (.reaped _ _)
      -- who is reaped is not awaited by a Popen, or has not ended
      intro key r child pid found popen
      have held := sound.held found popen
      by_cases done : (s.os.exitCode? process).isSome
      · rw [Table.holder_reap done, held, if_neg]
        intro same
        cases same
        exact orphan ⟨(key, r), Dict.mem_of_get? found, pid, popen⟩
      · rw [Table.reap_alive done, held]
  | start name jobUuid pid =>
    apply served
    intro idle
    exact (started s name jobUuid pid).sound sound idle
  | getStatus jobUuid => exact served _ fun idle => (quiet_pollJob ⟨sound, idle⟩ jobUuid).1
  | listJobs | runningCount => exact served _ fun idle => (quiet_pollAll ⟨sound, idle⟩).1
  | kill jobUuid =>
    apply served
    intro idle
    have quiet : Quiet (s.pollJob host procfs jobUuid) := quiet_pollJob ⟨sound, idle⟩ jobUuid
    unfold beginKill
    generalize s.pollJob host procfs jobUuid = polled at quiet
    dsimp only
    split
    next => exact quiet.1
    next r found =>
      split
      next running =>
        -- the kill begins with a record that its poll has found running
        refine ⟨quiet.1.child, quiet.1.settled, quiet.1.named, ?_, quiet.1.down⟩
        intro key phase now
        cases now
        exact ⟨quiet.2.1, r, found, running⟩
      next => exact quiet.1
  | killProceeds => exact (continued sound false).sound sound
  | killTimesOut => exact (continued sound true).sound sound
  | stop => exact sound_down rfl rfl
  | startCut jobUuid pid =>
    apply served
    intro idle
    unfold startCut
    split
    next => exact sound
    next =>
      split
      next => exact sound_down rfl rfl
      next => exact sound
  | boot =>
    simp only [step]
    split
    next => exact sound
    next down => exact sound.restored (by simpa using down)

theorem sound_fresh (os : Table Program) (now : Timestamp) : (fresh os now).Sound :=
  sound_down rfl rfl

theorem sound_run (sound : s.Sound) (events : List ProcessEvent) : (s.run host procfs events).Sound :=
  Runs.invariant_run_of_forall Sound (fun _ event sound => sound_step sound event) sound events

/-! ## Time passing without a start or a boot -/

structure Settles (s s' : System) : Prop where
  later : s.os.Later s'.os
  count : s'.os.count = s.os.count
  running : ∀ key r, s'.jobs.get? key = some r → r.status = .running → s.jobs.get? key = some r
  holder : ∀ pid k, s'.os.holder pid = some k → s.os.holder pid = some k

theorem Settles.refl (s : System) : Settles s s :=
  ⟨.refl _, rfl, fun _ _ found _ => found, fun _ _ held => held⟩

theorem Settles.trans {s' s'' : System} (first : Settles s s') (second : Settles s' s'') :
    Settles s s'' where
  later := first.later.trans second.later
  count := second.count.trans first.count
  running := fun key r found running =>
    first.running key r (second.running key r found running) running
  holder := fun pid k held => first.holder pid k (second.holder pid k held)

theorem holder_of_reap {os : Table Program} {child pid k : Nat}
    (held : (os.reap child).holder pid = some k) : os.holder pid = some k := by
  by_cases done : (os.exitCode? child).isSome
  · rw [Table.holder_reap done] at held
    split at held
    · cases held
    · exact held
  · rwa [Table.reap_alive done] at held

theorem running_set {jobUuid : String} {r' : ProcessRecord} (ended : r'.status ≠ .running)
    (key : String) (r : ProcessRecord) (found : (s.jobs.set jobUuid r').get? key = some r)
    (running : r.status = .running) : s.jobs.get? key = some r := by
  rcases get?_set_cases found with ⟨_, rfl⟩ | ⟨_, before⟩
  · exact absurd running ended
  · exact before

theorem Polled.settles {jobUuid : String} {s' : System} (polled : Polled host procfs s jobUuid s') :
    Settles s s' := by
  cases polled with
  | unchanged => exact .refl s
  | exited =>
    exact ⟨.reaped _ _, Table.count_reap _, running_set (finished_stops _ _ _ _), fun _ _ => holder_of_reap⟩
  | vanished => exact ⟨.refl _, rfl, running_set (finished_stops _ _ _ _), fun _ _ held => held⟩

theorem pollAll_settles (quiet : s.Quiet) : Settles s (s.pollAll host procfs) := by
  have both : Quiet (s.pollAll host procfs) ∧ Settles s (s.pollAll host procfs) := by
    apply pollAll_keeps (fun s' => s'.Quiet ∧ Settles s s') _ ⟨quiet, .refl s⟩
    intro s' jobUuid held
    exact ⟨quiet_pollJob held.1 jobUuid, held.2.trans (held.1.1.polled jobUuid).settles⟩
  exact both.2

theorem Continued.settles {timeout : Bool} {s' : System}
    (continued : Continued host procfs s timeout s') : Settles s s' := by
  cases continued with
  | unchanged | aborted | moved | signalled =>
    exact ⟨.refl _, rfl, fun _ _ found _ => found, fun _ _ held => held⟩
  | reaped => exact ⟨.reaped _ _, Table.count_reap _, running_set nofun, fun _ _ => holder_of_reap⟩
  | vanished | gaveUp => exact ⟨.refl _, rfl, running_set nofun, fun _ _ held => held⟩

theorem Continued.boots {timeout : Bool} {s' : System}
    (continued : Continued host procfs s timeout s') : s'.boots = s.boots := by
  cases continued <;> rfl

theorem Continued.kills {timeout : Bool} {s' : System}
    (continued : Continued host procfs s timeout s') : s.killed.length ≤ s'.killed.length := by
  cases continued with
  | unchanged | aborted | moved | signalled => exact Nat.le_refl _
  | reaped | vanished | gaveUp => simp [finishKill]

theorem beginKill_settles (sound : s.Sound) (jobUuid : String) :
    Settles s (s.beginKill host procfs jobUuid) := by
  have polled : Settles s (s.pollJob host procfs jobUuid) := (sound.polled jobUuid).settles
  unfold beginKill
  generalize s.pollJob host procfs jobUuid = polled at polled
  dsimp only
  split
  · exact polled
  · split
    · exact ⟨polled.later, polled.count, polled.running, polled.holder⟩
    · exact polled

end System
end Csl.Agent
