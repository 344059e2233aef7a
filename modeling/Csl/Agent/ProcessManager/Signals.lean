import Csl.Agent.Installation
import Csl.Agent.ProcessManager.Steps

/-! Whom a kill signals.

A record that outlived a restart knows its process by the PID alone, and running.json keeps
the PIDs of jobs that have ended by themselves. A kill reaches a stranger exactly when the
kernel has given such a PID away.
-/

set_option autoImplicit false

namespace Csl.Agent
open Csl.Shared Processes Runs

namespace System

def LaunchedFor (s : System) (jobUuid : String) (k : Nat) : Prop :=
  ∃ p, s.os.process k = some p ∧ p.tag.job = some jobUuid

/-- Every signal went to a process of the job that was killed, and whoever holds the PID of a
running record is a process of its job. -/
structure Targeted (s : System) : Prop where
  signals : ∀ signal ∈ s.signals, s.LaunchedFor signal.jobUuid signal.target
  running : ∀ jobUuid r k, s.jobs.get? jobUuid = some r → r.status = .running →
    s.os.holder r.process.pid = some k → s.LaunchedFor jobUuid k

variable (host : Host) (procfs : Bool)

/-- A process that starts does not get the PID of a running record of another job, and at a
boot the PIDs in running.json that are alive belong to the processes they were saved for. -/
def PidsKept (s : System) : ProcessEvent → Prop
  | .spawn pid _ => s.os.holder pid = none →
      ∀ key r, s.jobs.get? key = some r → r.status = .running → r.process.pid ≠ pid
  | .start _ jobUuid (some pid) =>
      s.Idle → (host.logPath jobUuid).isSome → s.os.holder pid = none →
        ∀ key r, s.jobs.get? key = some r → r.status = .running → key ≠ jobUuid → r.process.pid ≠ pid
  | .boot => s.up = false → ∀ key entry k, s.runningJson.get? key = some entry →
      pidAlive host procfs s.os entry.pid → s.os.holder entry.pid = some k → s.LaunchedFor key k
  | _ => True

variable {host procfs} {s : System}

theorem LaunchedFor.later {jobUuid : String} {k : Nat} (launched : s.LaunchedFor jobUuid k)
    {s' : System} (later : s.os.Later s'.os) : s'.LaunchedFor jobUuid k := by
  obtain ⟨p, started, job⟩ := launched
  obtain ⟨p', started', _, tag, _⟩ := later.process k p started
  exact ⟨p', started', tag ▸ job⟩

theorem Targeted.settles (targeted : s.Targeted) {s' : System} (settles : Settles s s')
    (signals : s'.signals = s.signals) : s'.Targeted where
  signals := by
    intro signal member
    rw [signals] at member
    exact (targeted.signals signal member).later settles.later
  running := by
    intro jobUuid r k found running held
    exact (targeted.running jobUuid r k (settles.running _ _ found running) running
      (settles.holder _ _ held)).later settles.later

theorem pollAll_signals (quiet : s.Quiet) : (s.pollAll host procfs).signals = s.signals := by
  have both : Quiet (s.pollAll host procfs) ∧ (s.pollAll host procfs).signals = s.signals := by
    apply pollAll_keeps (fun s' => s'.Quiet ∧ s'.signals = s.signals) _ ⟨quiet, rfl⟩
    intro s' jobUuid held
    have polled : Polled host procfs s' jobUuid _ := held.1.1.polled jobUuid
    exact ⟨quiet_pollJob held.1 jobUuid, polled.frame.2.2.2.2.1.trans held.2⟩
  exact both.2

theorem beginKill_signals (sound : s.Sound) (jobUuid : String) :
    (s.beginKill host procfs jobUuid).signals = s.signals := by
  have polled : Polled host procfs s jobUuid (s.pollJob host procfs jobUuid) := sound.polled jobUuid
  have same := polled.frame.2.2.2.2.1
  unfold beginKill
  dsimp only
  split
  · exact same
  · split <;> exact same

theorem Continued.targeted {timeout : Bool} {s' : System}
    (continued : Continued host procfs s timeout s') (sound : s.Sound) (targeted : s.Targeted) : s'.Targeted := by
  have settles := continued.settles
  cases continued with
  | unchanged => exact targeted
  | aborted | moved | reaped | vanished | gaveUp => exact targeted.settles settles rfl
  | @signalled jobUuid phase next r target killing found held =>
    obtain ⟨_, r', found', running⟩ := sound.killing _ _ killing
    cases found.symm.trans found'
    constructor
    · intro signal member
      rcases List.mem_append.mp member with old | new
      · exact targeted.signals signal old
      · rw [List.mem_singleton.mp new]
        exact targeted.running jobUuid r target found running held
    · exact targeted.running

/-! ## Processes that start, and boots -/

theorem launchedFor_spawn {pid : Nat} (free : s.os.holder pid = none) (tag : Program)
    (jobUuid : String) :
    (∃ p, (s.os.spawn pid tag).process s.os.count = some p ∧ p.tag.job = some jobUuid) ↔
      tag.job = some jobUuid := by
  rw [Table.process_spawned free]
  simp

theorem targeted_spawn (targeted : s.Targeted) (pid : Nat) (permitted : Bool) :
    (s.step host procfs (.spawn pid permitted)).Targeted ↔
      PidsKept host procfs s (.spawn pid permitted) := by
  constructor
  · intro after free key r found running same
    have launched := after.running key r s.os.count found running
      ((Table.holder_spawn free _ _).trans (if_pos same))
    have job := (launchedFor_spawn free ⟨none, permitted⟩ key).mp launched
    cases job
  · intro kept
    have later := Table.Later.spawned s.os pid ⟨none, permitted⟩
    constructor
    · intro signal member
      exact (targeted.signals signal member).later later
    · intro key r k found running held
      by_cases free : s.os.holder pid = none
      · change (s.os.spawn pid _).holder r.process.pid = some k at held
        rw [Table.holder_spawn free, if_neg (kept free key r found running)] at held
        exact (targeted.running key r k found running held).later later
      · change (s.os.spawn pid _).holder r.process.pid = some k at held
        rw [Table.spawn_taken free] at held
        exact (targeted.running key r k found running held).later later

theorem targeted_start (targeted : s.Targeted) (name jobUuid : String) (pid : Option Nat) :
    (s.step host procfs (.start name jobUuid pid)).Targeted ↔
      PidsKept host procfs s (.start name jobUuid pid) := by
  by_cases idle : s.Idle
  · rw [step, if_pos idle]
    have ends : Started host s name jobUuid pid _ := started s name jobUuid pid
    generalize s.start host name jobUuid pid = s' at ends ⊢
    cases ends with
    | unopened none =>
      -- the log cannot be opened, and nothing is launched
      refine iff_of_true targeted ?_
      cases pid with
      | none => trivial
      | some pid =>
        intro _ located
        rw [none] at located
        cases located
    | taken taken =>
      -- a PID that is taken is not given out
      refine iff_of_true targeted ?_
      intro _ _ free
      exact absurd free taken
    | failed located => exact iff_of_true ⟨targeted.signals, targeted.running⟩ trivial
    | @launched path pid located free =>
      have later := Table.Later.spawned s.os pid ⟨some jobUuid, true⟩
      constructor
      -- a record that watches the PID would be one of the process that starts
      · intro after _ _ _ key r found running apart same
        have launched := after.running key r s.os.count
          ((Dict.get?_set_of_ne _ apart _).trans found) running
          ((Table.holder_spawn free _ _).trans (if_pos same))
        have job := (launchedFor_spawn free ⟨some jobUuid, true⟩ key).mp launched
        exact apart (Option.some.inj job).symm
      · intro kept
        constructor
        · intro signal member
          exact (targeted.signals signal member).later later
        · intro key r k found running held
          change (s.os.spawn pid _).holder r.process.pid = some k at held
          rw [Table.holder_spawn free] at held
          rcases get?_set_cases found with ⟨rfl, rfl⟩ | ⟨apart, before⟩
          · change (if pid = pid then some s.os.count else _) = some k at held
            rw [if_pos rfl] at held
            cases held
            exact (launchedFor_spawn free ⟨some key, true⟩ key).mpr rfl
          · rw [if_neg (kept idle (by rw [located]; rfl) free key r before running apart)] at held
            exact (targeted.running key r k before running held).later later
  · rw [step, if_neg idle]
    refine iff_of_true targeted ?_
    cases pid with
    | none => trivial
    | some pid =>
      intro now
      exact absurd now idle

theorem targeted_boot (targeted : s.Targeted) :
    (s.step host procfs .boot).Targeted ↔ PidsKept host procfs s .boot := by
  cases up : s.up with
  | true =>
    rw [step, if_pos up]
    refine iff_of_true targeted ?_
    intro down
    rw [up] at down
    cases down
  | false =>
    rw [step, if_neg (by simp [up])]
    constructor
    · intro after _ key entry k saved alive held
      apply after.running key (entry.reattached key) k _ rfl held
      rw [get?_restoreState, saved, Option.bind_some, if_pos alive]
    · intro kept
      refine ⟨targeted.signals, ?_⟩
      intro key r k found _ held
      rw [get?_restoreState] at found
      obtain ⟨entry, saved, restored⟩ := Option.bind_eq_some_iff.mp found
      split at restored
      next alive =>
        cases restored
        exact kept up key entry k saved alive held
      next => cases restored

/-! ## Runs -/

/-- One step keeps every target right just when it gives no PID away. -/
theorem targeted_step (sound : s.Sound) (targeted : s.Targeted) (event : ProcessEvent) :
    (s.step host procfs event).Targeted ↔ PidsKept host procfs s event := by
  have served (next : System) (keeps : s.Idle → next.Targeted) : Targeted (if s.Idle then next else s) :=
    kept_served targeted keeps
  cases event with
  | clock now => exact iff_of_true ⟨targeted.signals, targeted.running⟩ trivial
  | spawn pid permitted => exact targeted_spawn targeted pid permitted
  | exit process code =>
    have settles : Settles s { s with os := s.os.exit process code } :=
      ⟨.exited _ _ _, Table.count_exit _ _, fun _ _ found _ => found, fun _ _ held => held⟩
    exact iff_of_true (targeted.settles settles rfl) trivial
  | reap process =>
    refine iff_of_true ?_ trivial
    rw [step]
    split
    · exact targeted
    · have settles : Settles s { s with os := s.os.reap process } :=
        ⟨.reaped _ _, Table.count_reap _, fun _ _ found _ => found, fun _ _ => holder_of_reap⟩
      exact targeted.settles settles rfl
  | start name jobUuid pid => exact targeted_start targeted name jobUuid pid
  | getStatus jobUuid =>
    refine iff_of_true (served _ fun idle => ?_) trivial
    have polled : Polled host procfs s jobUuid _ := sound.polled jobUuid
    exact targeted.settles polled.settles polled.frame.2.2.2.2.1
  | listJobs | runningCount =>
    refine iff_of_true (served _ fun idle => ?_) trivial
    exact targeted.settles (pollAll_settles ⟨sound, idle⟩) (pollAll_signals ⟨sound, idle⟩)
  | kill jobUuid =>
    refine iff_of_true (served _ fun idle => ?_) trivial
    exact targeted.settles (beginKill_settles sound jobUuid) (beginKill_signals sound jobUuid)
  | killProceeds => exact iff_of_true ((continued sound false).targeted sound targeted) trivial
  | killTimesOut => exact iff_of_true ((continued sound true).targeted sound targeted) trivial
  | stop => exact iff_of_true ⟨targeted.signals, fun _ _ _ found => absurd found not_in_empty⟩ trivial
  | startCut jobUuid pid =>
    refine iff_of_true (served _ fun idle => ?_) trivial
    unfold startCut
    split
    · exact targeted
    · split
      -- the agent is gone before it has recorded the process
      · constructor
        · intro signal member
          exact (targeted.signals signal member).later (.spawned s.os pid ⟨some jobUuid, true⟩)
        · intro key r k found
          exact absurd found not_in_empty
      · exact targeted
  | boot => exact targeted_boot targeted

/-- A run signals strangers, or reports one as a job, exactly when some step of it gave the
PID of a running record away or booted on a PID in running.json that had been given away. -/
theorem kill_signals_only_its_job (os : Table Program) (now : Timestamp) (events : List ProcessEvent) :
    (∀ before after, events = before ++ after → ((fresh os now).run host procfs before).Targeted) ↔
      Meets (step host procfs) (PidsKept host procfs) (fresh os now) events := by
  have exact : ∀ (s : System) (event : ProcessEvent), s.Sound ∧ s.Targeted →
      ((s.step host procfs event).Sound ∧ (s.step host procfs event).Targeted ↔
        PidsKept host procfs s event) := by
    intro s event held
    rw [← targeted_step held.1 held.2 event]
    exact and_iff_right (sound_step held.1 event)
  have initial : (fresh os now).Sound ∧ (fresh os now).Targeted :=
    ⟨sound_fresh os now, fun _ member => absurd member List.not_mem_nil,
      fun _ _ _ found => absurd found not_in_empty⟩
  rw [meets_iff_reached _ exact initial]
  constructor
  · intro targeted before after split
    exact ⟨sound_run (sound_fresh os now) before, targeted before after split⟩
  · intro reached before after split
    exact (reached before after split).2

/-- The job ends by itself, the agent stops, another program gets the PID, and the agent that
is booted then kills that program for the job. -/
def reusedPid : List ProcessEvent :=
  [.boot, .start "deploy" "job" (some 7), .exit 0 0, .getStatus "job", .stop, .spawn 7 true, .boot,
   .kill "job", .killProceeds]

theorem kill_signals_stranger :
    let s := (fresh .empty "1").run linux true reusedPid
    ⟨"job", 1⟩ ∈ s.signals ∧ ¬ s.LaunchedFor "job" 1 := by
  have sent : ((fresh .empty "1").run linux true reusedPid).signals = [⟨"job", 1⟩] := by
    decide +kernel
  have stranger : (((fresh .empty "1").run linux true reusedPid).os.process 1).map (·.tag) =
      some ⟨none, true⟩ := by decide +kernel
  constructor
  · rw [sent]
    exact .head _
  · rintro ⟨p, found, job⟩
    rw [found] at stranger
    have tag : p.tag = ⟨none, true⟩ := Option.some.inj stranger
    rw [tag] at job
    cases job

end System
end Csl.Agent
