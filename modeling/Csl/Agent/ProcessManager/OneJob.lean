import Csl.Agent.ProcessManager.Records

/-! The record of one job, once it has been started or before it is.

Whatever the agent does short of starting the job or coming back with it, a record that is there
stays or ends, and no record comes. A call of kill that has begun with a running record ends it as
killed or leaves it running.
-/

set_option autoImplicit false

namespace Csl.Agent
open Csl.Shared Processes Runs

namespace System
variable {host : Host} {procfs : Bool} {s s' s'' : System} {jobUuid : String}

def Unheard (jobUuid : String) (s : System) : Prop :=
  s.jobs.get? jobUuid = none ∧ s.runningJson.get? jobUuid = none

structure Lingers (jobUuid : String) (s s' : System) : Prop where
  record : ∀ r', s'.jobs.get? jobUuid = some r' → ∃ r, s.jobs.get? jobUuid = some r ∧
    (r'.status = r.status ∨ r.status = .running ∧ r'.status ≠ .pending)
  unheard : Unheard jobUuid s → Unheard jobUuid s'

def Renews (host : Host) (procfs : Bool) (jobUuid : String) (s : System) : ProcessEvent → Prop
  | .start _ key _ => key = jobUuid
  | .boot => s.up = false ∧ (s.restoreState host procfs).jobs.get? jobUuid ≠ none
  | _ => False

def Passive : ProcessEvent → Prop
  | .clock _ | .spawn .. | .exit .. | .reap _ | .killProceeds | .killTimesOut => True
  | _ => False

instance : DecidablePred Passive
  | .clock _ | .spawn .. | .exit .. | .reap _ | .killProceeds | .killTimesOut => isTrue trivial
  | .start .. | .getStatus _ | .listJobs | .runningCount | .kill _ | .stop | .startCut .. | .boot => isFalse id

/-! ## One step -/

theorem Lingers.refl (jobUuid : String) (s : System) : Lingers jobUuid s s :=
  ⟨fun r found => ⟨r, found, .inl rfl⟩, id⟩

theorem Lingers.trans (first : Lingers jobUuid s s') (second : Lingers jobUuid s' s'') : Lingers jobUuid s s'' where
  record := by
    intro r'' found
    obtain ⟨r', between, later⟩ := second.record r'' found
    obtain ⟨r, before, earlier⟩ := first.record r' between
    refine ⟨r, before, ?_⟩
    rcases later with same | ⟨running, notPending⟩
    · rwa [same]
    · rcases earlier with still | ⟨was, _⟩
      · exact .inr ⟨still.symm.trans running, notPending⟩
      · exact .inr ⟨was, notPending⟩
  unheard := fun none => second.unheard (first.unheard none)

theorem Lingers.none (lingers : Lingers jobUuid s s') (unknown : s.jobs.get? jobUuid = none) :
    s'.jobs.get? jobUuid = none := by
  cases found : s'.jobs.get? jobUuid with
  | none => rfl
  | some r' =>
    obtain ⟨r, before, _⟩ := lingers.record r' found
    cases unknown.symm.trans before

theorem Lingers.status (lingers : Lingers jobUuid s s') {r r' : ProcessRecord}
    (before : s.jobs.get? jobUuid = some r) (ended : r.status ≠ .running)
    (found : s'.jobs.get? jobUuid = some r') : r'.status = r.status := by
  obtain ⟨_, there, later⟩ := lingers.record r' found
  cases before.symm.trans there
  exact later.resolve_right fun both => ended both.1

theorem Lingers.of_records (json : s'.runningJson = s.runningJson)
    (record : ∀ r', s'.jobs.get? jobUuid = some r' → ∃ r, s.jobs.get? jobUuid = some r ∧
      (r'.status = r.status ∨ r.status = .running ∧ r'.status ≠ .pending)) : Lingers jobUuid s s' where
  record := record
  unheard := by
    rintro ⟨noRecord, noEntry⟩
    refine ⟨?_, by rw [json, noEntry]⟩
    cases found : s'.jobs.get? jobUuid with
    | none => rfl
    | some r' =>
      obtain ⟨r, before, _⟩ := record r' found
      cases noRecord.symm.trans before

theorem Lingers.of_same (json : s'.runningJson = s.runningJson)
    (same : s'.jobs.get? jobUuid = s.jobs.get? jobUuid) : Lingers jobUuid s s' :=
  .of_records json fun r found => ⟨r, same ▸ found, .inl rfl⟩

theorem Lingers.saved (lingers : Lingers jobUuid s s') : Lingers jobUuid s s'.saveState where
  record := lingers.record
  unheard := by
    intro unheard
    have noRecord := (lingers.unheard unheard).1
    exact ⟨noRecord, by rw [get?_saveState, noRecord]; rfl⟩

theorem Moves.lingers (moves : Moves s s') (json : s'.runningJson = s.runningJson) : Lingers jobUuid s s' := by
  refine .of_records json ?_
  intro r' found
  rcases moves.comes jobUuid r' found with before | ⟨r, before, ends⟩
  · exact ⟨r', before, .inl rfl⟩
  · refine ⟨r, before, .inr ⟨ends.was, ?_⟩⟩
    rcases ends.coherent.terminal ends.stops with status | status | status
    all_goals rw [status]; decide

theorem Polled.lingers {key : String} (polled : Polled host procfs s key s') : Lingers jobUuid s s' :=
  polled.moves.lingers polled.frame.2.2.1

theorem pollAll_lingers (quiet : s.Quiet) : Lingers jobUuid s (s.pollAll host procfs) := by
  have both : Quiet (s.pollAll host procfs) ∧ Lingers jobUuid s (s.pollAll host procfs) := by
    apply pollAll_keeps (fun s' => s'.Quiet ∧ Lingers jobUuid s s') _ ⟨quiet, .refl jobUuid s⟩
    intro s' key held
    exact ⟨quiet_pollJob held.1 key, held.2.trans (held.1.1.polled key).lingers⟩
  exact both.2

theorem beginKill_lingers (sound : s.Sound) (key : String) : Lingers jobUuid s (s.beginKill host procfs key) := by
  have polled : Lingers jobUuid s (s.pollJob host procfs key) := (sound.polled key).lingers
  unfold beginKill
  generalize s.pollJob host procfs key = after at polled
  dsimp only
  split
  · exact polled
  · split_ifs
    · exact polled.trans (.of_same rfl rfl)
    · exact polled

theorem finishKill_lingers (os : Table Program) {key : String} {r r' : ProcessRecord}
    (found : s.jobs.get? key = some r) (running : r.status = .running) :
    Lingers jobUuid s ({ s with os }.finishKill key r') := by
  have ends : Lingers jobUuid s
      { s with os, killing := none, killed := s.killed ++ [key], jobs := s.jobs.set key (r'.killed s.now) } := by
    refine .of_records rfl ?_
    intro other lookup
    rcases get?_set_cases lookup with ⟨rfl, rfl⟩ | ⟨_, before⟩
    · exact ⟨r, found, .inr ⟨running, nofun⟩⟩
    · exact ⟨other, before, .inl rfl⟩
  exact ends.saved

theorem Continued.lingers {timeout : Bool} (continued : Continued host procfs s timeout s') (sound : s.Sound) :
    Lingers jobUuid s s' := by
  have was {key : String} {phase : KillPhase} {r : ProcessRecord} (killing : s.killing = some ⟨key, phase⟩)
      (found : s.jobs.get? key = some r) : r.status = .running := by
    obtain ⟨_, other, there, running⟩ := sound.killing _ _ killing
    cases found.symm.trans there
    exact running
  cases continued with
  | unchanged | aborted | moved | signalled => exact .of_same rfl rfl
  | reaped killing found => exact finishKill_lingers _ found (was killing found)
  | vanished killing found | gaveUp killing found => exact finishKill_lingers s.os found (was killing found)

theorem Started.lingers {name key : String} {pid : Option Nat} (started : Started host s name key pid s')
    (apart : jobUuid ≠ key) : Lingers jobUuid s s' := by
  cases started with
  | unopened | taken => exact .refl jobUuid s
  | failed => exact .of_same rfl rfl
  | launched => exact Lingers.saved (.of_same rfl (Dict.get?_set_of_ne _ apart _))

theorem lingers_stopped (s : System) (os : Table Program) (logs : Path → Option Nat) :
    Lingers jobUuid s { s with os, logs }.stopped :=
  .of_records rfl fun _ found => absurd found not_in_empty

theorem lingers_step (sound : s.Sound) {event : ProcessEvent} (same : ¬ Renews host procfs jobUuid s event) :
    Lingers jobUuid s (s.step host procfs event) := by
  have served (next : System) (lingers : s.Idle → Lingers jobUuid s next) :
      Lingers jobUuid s (if s.Idle then next else s) := kept_served (.refl jobUuid s) lingers
  cases event with
  | clock | spawn | exit => exact .of_same rfl rfl
  | reap process =>
    rw [step]
    split
    · exact .refl jobUuid s
    · exact .of_same rfl rfl
  | start name key pid => exact served _ fun _ => (started s name key pid).lingers (Ne.symm same)
  | getStatus key => exact served _ fun _ => (sound.polled key).lingers
  | listJobs | runningCount => exact served _ fun idle => pollAll_lingers ⟨sound, idle⟩
  | kill key => exact served _ fun _ => beginKill_lingers sound key
  | killProceeds => exact (continued sound false).lingers sound
  | killTimesOut => exact (continued sound true).lingers sound
  | stop => exact lingers_stopped s s.os s.logs
  | startCut key pid =>
    apply served
    intro idle
    unfold startCut
    split
    · exact .refl jobUuid s
    · split
      · exact lingers_stopped s _ _
      · exact .refl jobUuid s
  | boot =>
    rw [step]
    split
    next => exact .refl jobUuid s
    next down =>
      -- a record that comes back would be renewed
      have noRecord : (s.restoreState host procfs).jobs.get? jobUuid = none := by
        by_contra back
        exact same ⟨by simpa using down, back⟩
      refine .of_records rfl ?_
      intro r found
      cases noRecord.symm.trans found

/-! ## A call of kill -/

theorem lingers_passive (sound : s.Sound) {events : List ProcessEvent} (passive : ∀ event ∈ events, Passive event) :
    Lingers jobUuid s (s.run host procfs events) ∧ (s.run host procfs events).Sound := by
  apply invariant_run (fun s' : System => Lingers jobUuid s s' ∧ s'.Sound) _ ⟨.refl jobUuid s, sound⟩ (meets_of_mem passive)
  intro s' event held quiet
  refine ⟨held.1.trans (lingers_step held.2 ?_), sound_step held.2 event⟩
  cases event <;> first | exact id | exact quiet.elim

/-- The agent is in the call that kills the job, or has left it with a record that runs or was killed. -/
def Killing (jobUuid : String) (s : System) : Prop :=
  (∃ phase, s.killing = some ⟨jobUuid, phase⟩) ∨
    s.killing = none ∧ ∀ r, s.jobs.get? jobUuid = some r → r.status = .running ∨ r.status = .killed

theorem killing_finished (os : Table Program) {r : ProcessRecord} :
    Killing jobUuid ({ s with os }.finishKill jobUuid r) := by
  refine .inr ⟨rfl, ?_⟩
  intro other found
  change (s.jobs.set jobUuid _).get? jobUuid = some other at found
  rw [Dict.get?_set_self] at found
  cases found
  exact .inr rfl

theorem Continued.killing {timeout : Bool} (continued : Continued host procfs s timeout s') (sound : s.Sound)
    {phase : KillPhase} (now : s.killing = some ⟨jobUuid, phase⟩) : Killing jobUuid s' := by
  cases continued with
  | unchanged => exact .inl ⟨phase, now⟩
  | aborted =>
    obtain ⟨_, r, found, running⟩ := sound.killing _ _ now
    refine .inr ⟨rfl, ?_⟩
    intro other there
    cases found.symm.trans there
    exact .inl running
  | moved killing | signalled killing =>
    cases now.symm.trans killing
    exact .inl ⟨_, rfl⟩
  | reaped killing =>
    cases now.symm.trans killing
    exact killing_finished _
  | vanished killing | gaveUp killing =>
    cases now.symm.trans killing
    exact killing_finished s.os

theorem killing_step (sound : s.Sound) (killing : Killing jobUuid s) {event : ProcessEvent} (passive : Passive event) :
    Killing jobUuid (s.step host procfs event) := by
  have goesOn (timeout : Bool) : Killing jobUuid (s.continueKill host procfs timeout) := by
    rcases killing with ⟨phase, now⟩ | ⟨finished, records⟩
    · exact (continued sound timeout).killing sound now
    · have same : s.continueKill host procfs timeout = s := by
        unfold continueKill
        rw [finished]
      rw [same]
      exact .inr ⟨finished, records⟩
  cases event with
  | clock | spawn | exit => exact killing
  | reap process =>
    rw [step]
    split <;> exact killing
  | killProceeds => exact goesOn false
  | killTimesOut => exact goesOn true
  | _ => exact passive.elim

theorem killed_of_ended (quiet : s.Quiet) {events : List ProcessEvent} (passive : ∀ event ∈ events, Passive event)
    {r r' : ProcessRecord} (found : (s.pollJob host procfs jobUuid).jobs.get? jobUuid = some r)
    (running : r.status = .running)
    (finished : ((s.step host procfs (.kill jobUuid)).run host procfs events).killing = none)
    (after : ((s.step host procfs (.kill jobUuid)).run host procfs events).jobs.get? jobUuid = some r')
    (ended : r'.status ≠ .running) : r'.status = .killed := by
  have begun : Killing jobUuid (s.step host procfs (.kill jobUuid)) := by
    simp only [step, if_pos quiet.2, beginKill, found, if_pos running]
    exact .inl ⟨.term, rfl⟩
  have killing : ((s.step host procfs (.kill jobUuid)).run host procfs events).Sound ∧
      Killing jobUuid ((s.step host procfs (.kill jobUuid)).run host procfs events) := by
    apply invariant_run (fun s' : System => s'.Sound ∧ Killing jobUuid s') _ ⟨sound_step quiet.1 _, begun⟩
      (meets_of_mem passive)
    intro s' event held quiet
    exact ⟨sound_step held.1 event, killing_step held.1 held.2 quiet⟩
  rcases killing.2 with ⟨phase, still⟩ | ⟨_, records⟩
  · cases finished.symm.trans still
  · exact (records r' after).resolve_left ended

end System
end Csl.Agent
