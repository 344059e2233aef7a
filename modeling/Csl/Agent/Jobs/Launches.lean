import Csl.Agent.Approvals.Agreement
import Csl.Agent.Installation
import Csl.Agent.ScriptRunner.Specs

/-! Only approved content reaches a process launch.

One manager serves stage, approve, reject and clear calls on any names, with any
contents and md5 strings, and job submissions through either launch path. A
launch is justified by the record, by the hash of the launched file, and by the
call that put the approved md5 there. The one way a launch goes wrong is a log
file that is the script itself: opening it empties the script after the hash check.
-/

set_option autoImplicit false

namespace Csl.Agent
open Csl.Shared ApprovalsManager Runs Installation

namespace Launches

inductive Call where
  | mutate (mutation : Mutation)
  | runScript (name : String) (params : Params)
  | start (name : String) (params : Params) (jobUuid : String)

abbrev Event := Timestamp × Call

variable (host : Host) (autoApprove : List String)

def Call.action : Call → Action Unit
  | .mutate mutation => mutation.action host autoApprove
  | .runScript name params => do let _ ← Csl.Agent.runScript host name params
  | .start name params jobUuid => do let _ ← ProcessManager.start host name params jobUuid

def serve (w : World) (event : Event) : World :=
  (host.run (event.2.action host autoApprove) (w.atTime event.1)).2

def Call.submits : Call → Option String
  | .mutate _ => none
  | .runScript name _ | .start name _ _ => some name

def Grants (name md5 : String) : Call → Prop
  | .mutate (.approve approved) => approved = name
  | .mutate (.stage staged _ stagedMd5 _) => staged = name ∧ name ∈ autoApprove ∧ stagedMd5 = md5
  | _ => False

/-- The record a name has at the end of a run was put there, with this approved md5, by
an approve or by a stage of an auto-approved name, and no later call changed it. -/
def Granted (name md5 : String) (past : List Event) : Prop :=
  ∃ before event after, past = before ++ event :: after ∧ Grants autoApprove name md5 event.2 ∧
    let reached := run (serve host autoApprove) World.fresh before
    (serve host autoApprove reached event).record name ≠ reached.record name ∧
    ((serve host autoApprove reached event).record name).bind (·.approvedMd5) = some md5 ∧
    Keeps (serve host autoApprove) (fun w => w.record name) (serve host autoApprove reached event)
      after

structure Justified (past : List Event) (name : String) (launch : Launch) : Prop where
  approved : (run (serve host autoApprove) World.fresh past).memory.store.stateOf name = .approved
  hash : ∃ md5, ((run (serve host autoApprove) World.fresh past).record name).bind (·.approvedMd5) =
    some md5 ∧ launch.content.map host.md5 = some md5 ∧ Granted host autoApprove name md5 past

/-- A submission does not open its log on the approved script it is about to launch,
unless that script is empty already. -/
def SparesScript (w : World) (event : Event) : Prop :=
  match event.2 with
  | .start name _ jobUuid => w.memory.store.stateOf name = .approved →
      ∀ script ∈ (w.disk.foundScript host name).toOption, ∀ path ∈ host.logPath jobUuid,
        host.canonical path = host.canonical script → w.disk.text? host script = some ""
  | _ => True

instance (w : World) (event : Event) : Decidable (SparesScript host w event) := by
  obtain ⟨_, call⟩ := event
  cases call <;> unfold SparesScript <;> infer_instance

variable {host autoApprove} {w : World}

/-! ## One call -/

theorem logOpened_synced (synced : w.Synced host) {jobUuid : String} {path : Path}
    (located : host.logPath jobUuid = some path) : (w.logOpened host path).Synced host := by
  obtain ⟨notStore, _⟩ := host.logPath_suffix jobUuid
  have apart : ¬ host.canonical .approvals = host.canonical path := by
    intro same
    apply notStore
    rw [located]
    cases path <;> simp_all [Host.canonical]
  have kept : (w.logOpened host path).disk.read host .approvals = w.disk.read host .approvals := by
    rw [World.logOpened, Disk.read_write, if_neg apart]
  constructor
  · have sig := synced.sig
    unfold Disk.currentSig at sig ⊢
    rw [kept]
    exact sig
  · have store := synced.store
    unfold Disk.loaded at store ⊢
    rw [kept]
    exact store

/-- How a submission ends when the manager is in step with the disk: nothing is launched,
or one launch follows checks that passed. -/
inductive Submitted (host : Host) (w : World) : Call → World → Prop where
  | refused {call : Call} : Submitted host w call w
  | ran {name : String} {params : Params} {command : Command} {env : Dict String String} :
      Cleared host w.disk name params (describe w.memory.store name) command env →
      Submitted host w (.runScript name params) (w.launch host name command env)
  | started {name : String} {params : Params} {jobUuid : String} {path : Path} {command : Command}
      {env : Dict String String} :
      Cleared host w.disk name params (describe w.memory.store name) command env →
      host.logPath jobUuid = some path →
      Submitted host w (.start name params jobUuid)
        ((w.logOpened host path).launch host name command env)

theorem submitted (synced : w.Synced host) {call : Call} {name : String}
    (submits : call.submits = some name) :
    Submitted host w call (host.run (call.action host autoApprove) w).2 := by
  cases call with
  | mutate mutation => cases submits
  | runScript name params =>
    simp only [Call.action, Proc.run_bind, run_runScript, synced.resynced_eq]
    cases passed : w.disk.prepared host "run" name params (describe w.memory.store name) with
    | error e => exact .refused
    | ok ready => exact .ran (prepared_ok passed)
  | start name params jobUuid =>
    simp only [Call.action, Proc.run_bind, run_start, synced.resynced_eq]
    cases passed : w.disk.prepared host "start" name params (describe w.memory.store name) with
    | error e => exact .refused
    | ok ready =>
      cases located : host.logPath jobUuid with
      | none => exact .refused
      | some path => exact .started (prepared_ok passed) located

theorem serve_cases (autoApprove : List String) (synced : w.Synced host) (event : Event) :
    (∃ mutation, event.2 = .mutate mutation ∧
      serve host autoApprove w event =
        (host.run (mutation.action host autoApprove) (w.atTime event.1)).2) ∨
    Submitted host (w.atTime event.1) event.2 (serve host autoApprove w event) := by
  obtain ⟨now, call⟩ := event
  have before : (w.atTime now).Synced host := (World.synced_atTime host w now).mpr synced
  cases call with
  | mutate mutation => exact .inl ⟨mutation, rfl, rfl⟩
  | runScript name params => exact .inr (submitted before rfl)
  | start name params jobUuid => exact .inr (submitted before rfl)

theorem synced_serve (autoApprove : List String) (synced : w.Synced host) (event : Event) :
    (serve host autoApprove w event).Synced host := by
  have before := (World.synced_atTime host w event.1).mpr synced
  rcases serve_cases autoApprove synced event with ⟨mutation, _, ends⟩ | ends
  · rw [ends]
    exact mutation.synced_run before
  · generalize serve host autoApprove w event = after, event.2 = call at ends
    cases ends with
    | refused => exact before
    | ran => exact ⟨before.sig, before.store⟩
    | started _ located =>
      have opened := logOpened_synced before located
      exact ⟨opened.sig, opened.store⟩

theorem record_submitted {call : Call} {after : World} (ends : Submitted host w call after)
    (name : String) : after.record name = w.record name := by
  cases ends <;> rfl

/-! ## The records along a run -/

def Stamped (w : World) : Prop :=
  ∀ name record, w.record name = some record →
    (record.state = .approved → record.approvedMd5.isSome) ∧
      (Waiting record.state → record.pendingMd5.isSome)

theorem stamped_stagedRecord (auto : Bool) (record : Option ScriptRecord) (md5 : String)
    (now : Timestamp) :
    ((stagedRecord auto record md5 now).state = .approved →
      (stagedRecord auto record md5 now).approvedMd5.isSome) ∧
    (Waiting (stagedRecord auto record md5 now).state →
      (stagedRecord auto record md5 now).pendingMd5.isSome) := by
  unfold stagedRecord
  split
  · simp [Waiting]
  · split <;> simp

theorem stamped_mutation (stamped : Stamped w) (mutation : Mutation) :
    Stamped (host.run (mutation.action host autoApprove) w).2 := by
  have ends := mutation.outcome host autoApprove w
  generalize host.run (mutation.action host autoApprove) w = result at ends ⊢
  intro name record found
  cases ends with
  | refused | unchanged => exact stamped name record found
  | staged =>
    rw [World.record_staged] at found
    split at found
    · cases found
      exact stamped_stagedRecord _ _ _ _
    · exact stamped name record found
  | approved before waiting =>
    rw [World.record_approved] at found
    split at found
    · cases found
      exact ⟨fun _ => (stamped _ _ before).2 waiting, by simp [Waiting]⟩
    · exact stamped name record found
  | rejected =>
    rw [World.record_rejected] at found
    split at found
    · cases found
      simp [Waiting]
    · exact stamped name record found
  | cleared =>
    rw [World.record_cleared] at found
    split at found
    · cases found
    · exact stamped name record found

theorem stamped_serve (synced : w.Synced host) (stamped : Stamped w) (event : Event) :
    Stamped (serve host autoApprove w event) := by
  rcases serve_cases autoApprove synced event with ⟨mutation, _, ends⟩ | ends
  · rw [ends]
    exact stamped_mutation (w := w.atTime event.1) stamped mutation
  · intro name record found
    rw [record_submitted ends] at found
    exact stamped name record found

/-- A call after which a name has a different record, and an approved one, is an approve of
that name or a stage of that auto-approved name. -/
theorem grants_of_change (synced : w.Synced host) {event : Event} {name md5 : String}
    (changed : (serve host autoApprove w event).record name ≠ w.record name)
    (approved : (serve host autoApprove w event).memory.store.stateOf name = .approved)
    (recorded : ((serve host autoApprove w event).record name).bind (·.approvedMd5) = some md5) :
    Grants autoApprove name md5 event.2 := by
  rcases serve_cases autoApprove synced event with ⟨mutation, call, ends⟩ | ends
  · rw [ends] at changed approved recorded
    have own : name = mutation.name := by
      by_contra apart
      exact changed (mutation.record_run_of_ne host autoApprove (w.atTime event.1) apart)
    have outcome := mutation.outcome host autoApprove (w.atTime event.1)
    generalize host.run (mutation.action host autoApprove) (w.atTime event.1) = result at *
    rw [call]
    cases outcome with
    | refused | unchanged => exact absurd rfl changed
    | staged =>
      have after := World.record_staged host (w.atTime event.1) autoApprove
      subst own
      rw [World.stateOf_of_record ((after _ _ _ _ _).trans (if_pos rfl))] at approved
      rw [after, if_pos rfl] at recorded
      obtain ⟨auto, md5⟩ := stagedRecord_approved approved
      refine ⟨rfl, of_decide_eq_true auto, ?_⟩
      exact Option.some.inj (md5.symm.trans recorded)
    | approved => exact own.symm
    | rejected =>
      subst own
      have after := World.record_rejected host (w.atTime event.1)
      rw [World.stateOf_of_record ((after _ _).trans (if_pos rfl))] at approved
      cases approved
    | cleared =>
      subst own
      rw [World.record_cleared, if_pos rfl] at recorded
      cases recorded
  · exact absurd (record_submitted ends name) changed

structure Sound (host : Host) (w : World) : Prop where
  synced : w.Synced host
  stamped : Stamped w

theorem sound_run (host : Host) (autoApprove : List String) (events : List Event) :
    Sound host (run (serve host autoApprove) World.fresh events) :=
  invariant_run_of_forall (Sound host)
    (fun _ event sound => ⟨synced_serve autoApprove sound.synced event,
      stamped_serve sound.synced sound.stamped event⟩)
    ⟨fresh_synced host, nofun⟩ events

/-- An approved record goes back to the call that granted its md5. -/
theorem approved_granted (events : List Event) {name : String}
    (approved : (run (serve host autoApprove) World.fresh events).memory.store.stateOf name =
      .approved) :
    ∃ md5, ((run (serve host autoApprove) World.fresh events).record name).bind (·.approvedMd5) =
      some md5 ∧ Granted host autoApprove name md5 events := by
  have sound := sound_run host autoApprove events
  cases found : (run (serve host autoApprove) World.fresh events).record name with
  | none =>
    have absent : ((Option.none : Option ScriptRecord).map (·.state)).getD .absent = .approved := by
      rw [← found]; exact approved
    cases absent
  | some record =>
    have state := World.stateOf_of_record found
    rw [approved] at state
    obtain ⟨md5, stamp⟩ := Option.isSome_iff_exists.mp ((sound.stamped name record found).1 state.symm)
    refine ⟨md5, stamp, ?_⟩
    have changed : (run (serve host autoApprove) World.fresh events).record name ≠
        World.fresh.record name := by
      rw [found]; exact nofun
    obtain ⟨before, event, after, split, differs, reached, kept⟩ :=
      last_change (fun w => w.record name) World.fresh events changed
    have stamped : ((serve host autoApprove (run (serve host autoApprove) World.fresh before)
        event).record name).bind (·.approvedMd5) = some md5 := by
      rw [reached, found]; exact stamp
    refine ⟨before, event, after, split, ?_, differs, stamped, kept⟩
    refine grants_of_change (sound_run host autoApprove before).synced differs ?_ stamped
    rw [World.stateOf_of_record (reached.trans found), state]

/-- The checks of a submission and a spared log make its launch carry the approved content. -/
theorem launch_intact {event : Event} {launch : Launch} (synced : w.Synced host)
    (spares : SparesScript host w event)
    (launches : (serve host autoApprove w event).launched = w.launched ++ [launch]) :
    event.2.submits = some launch.script ∧ w.memory.store.stateOf launch.script = .approved ∧
      ∀ md5, (w.record launch.script).bind (·.approvedMd5) = some md5 →
        launch.content.map host.md5 = some md5 := by
  rcases serve_cases autoApprove synced event with ⟨mutation, _, ends⟩ | ends
  -- mutations launch nothing
  · rw [ends, mutation.launched_run] at launches
    simp [World.atTime] at launches
  generalize reached : serve host autoApprove w event = after, called : event.2 = call at ends
  rw [reached] at launches
  cases ends with
  | refused => simp [World.atTime] at launches
  | ran cleared =>
    have one := List.append_cancel_left launches
    obtain ⟨rfl⟩ := List.cons.inj one |>.1.symm
    refine ⟨rfl, by simpa [describe_state] using cleared.approved, fun md5 recorded => ?_⟩
    exact cleared.intact md5 (by simpa [describe_approvedMd5, World.record] using recorded)
  | @started name params jobUuid path command env cleared located =>
    have one := List.append_cancel_left launches
    obtain ⟨rfl⟩ := List.cons.inj one |>.1.symm
    refine ⟨rfl, by simpa [describe_state] using cleared.approved, fun md5 recorded => ?_⟩
    have intact := cleared.intact md5 (by simpa [describe_approvedMd5, World.record] using recorded)
    -- the script is as it was, since opening the log spares it
    have content : (w.logOpened host path).disk.text? host command.script =
        w.disk.text? host command.script := by
      rw [World.logOpened, Disk.text?_write]
      split
      next aliased =>
        have found : w.disk.foundScript host name = .ok command.script := cleared.script
        rw [SparesScript, called] at spares
        refine (spares (by simpa [describe_state] using cleared.approved) _ ?_ _ located
          aliased.symm).symm
        rw [found]
        rfl
      · rfl
    change ((w.logOpened host path).disk.text? host command.script).map host.md5 = some md5
    rw [content]
    exact intact

/-- Whatever is staged, approved, rejected, cleared or submitted, in any order and under any
names, only approved content is launched, as long as no log is opened on the script itself. -/
theorem launches_are_justified (host : Host) (autoApprove : List String) (events : List Event)
    (spares : Meets (serve host autoApprove) (SparesScript host) World.fresh events) :
    ∀ before event after launch, events = before ++ event :: after →
      (serve host autoApprove (run (serve host autoApprove) World.fresh before) event).launched =
        (run (serve host autoApprove) World.fresh before).launched ++ [launch] →
      event.2.submits = some launch.script ∧
        Justified host autoApprove before launch.script launch := by
  intro before event after launch split launches
  subst split
  obtain ⟨_, spared, _⟩ := meets_append.mp spares
  have sound := sound_run host autoApprove before
  obtain ⟨submits, approved, intact⟩ := launch_intact sound.synced spared launches
  obtain ⟨md5, recorded, granted⟩ := approved_granted before approved
  exact ⟨submits, approved, md5, recorded, intact md5 recorded, granted⟩

def approvedRun (name : String) : List Event :=
  [("1", .mutate (.stage name scriptOne md5One none)), ("2", .mutate (.approve name))]

def launchOf (name : String) (content : String) : Launch :=
  ⟨name, ⟨["bash"], .scripts name⟩, linux.environ, some content⟩

theorem launches_are_justified_job :
    Justified linux [] (approvedRun "deploy") "deploy" (launchOf "deploy" scriptOne) :=
  (launches_are_justified linux []
    (approvedRun "deploy" ++ [("3", .start "deploy" Dict.empty "job-1")]) (by decide +kernel)
    (approvedRun "deploy") ("3", .start "deploy" Dict.empty "job-1") []
    (launchOf "deploy" scriptOne) rfl (by decide +kernel)).2

theorem aliased_log_empties {now : Timestamp} {name : String} {params : Params} {jobUuid : String}
    {script path : Path} {launch : Launch} (synced : w.Synced host)
    (found : w.disk.foundScript host name = .ok script) (located : host.logPath jobUuid = some path)
    (aliased : host.canonical path = host.canonical script)
    (launches : (serve host autoApprove w (now, .start name params jobUuid)).launched =
      w.launched ++ [launch]) : launch.content = some "" := by
  rcases serve_cases autoApprove synced (now, .start name params jobUuid) with ⟨_, call, _⟩ | ends
  · cases call
  generalize serve host autoApprove w (now, .start name params jobUuid) = after at ends launches
  cases ends with
  | refused => simp [World.atTime] at launches
  | @started _ _ _ opened command env cleared openedAt =>
    have one := List.append_cancel_left launches
    obtain ⟨rfl⟩ := List.cons.inj one |>.1.symm
    have same : opened = path := Option.some.inj (openedAt.symm.trans located)
    have here : command.script = script := Except.ok.inj (cleared.script.symm.trans found)
    subst same here
    change (((w.atTime now).logOpened host opened).disk.text? host command.script) = some ""
    rw [World.logOpened, Disk.text?_write, if_pos aliased.symm]

/-- A job uuid that climbs into scripts/ has an approved script launched empty. -/
theorem aliased_log_launches_unapproved :
    let reached := run (serve linux []) World.fresh (approvedRun "victim.log")
    let launch := launchOf "victim.log" ""
    (serve linux [] reached ("3", .start "victim.log" Dict.empty "../scripts/victim")).launched =
      reached.launched ++ [launch] ∧ ¬ Justified linux [] (approvedRun "victim.log") "victim.log" launch := by
  refine ⟨by decide +kernel, fun justified => ?_⟩
  obtain ⟨md5, recorded, hash, _⟩ := justified.hash
  have approved : ((run (serve linux []) World.fresh (approvedRun "victim.log")).record
      "victim.log").bind (·.approvedMd5) = some md5One := by decide +kernel
  rw [approved] at recorded
  rw [← recorded] at hash
  exact absurd hash (by decide)

end Launches

end Csl.Agent
