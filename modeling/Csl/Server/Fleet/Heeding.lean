import Csl.Server.Fleet
import Csl.Server.Jobs.Heeding

/-! What the handlers stage and post is what they have read.

A script is staged as its row was read. A job is posted once, for the script that was asked for, to the
machine that was asked for, and after the machine's bookmark was found.
-/

set_option autoImplicit false

namespace Csl.Server
open Csl.Shared Csl.Agent Proc

namespace Fleets

/-- What a handler has read last, the machine its tunnel leads to, and whether it has posted a job. -/
structure Knowledge where
  machine : Option Machine
  bookmarked : Bool
  script : Option Script
  tunnel : Option Machine
  posted : Bool
  deriving DecidableEq

namespace Knowledge

def nothing : Knowledge := ⟨none, false, none, none, false⟩

def learn (known : Knowledge) : (op : Op) → Except Failure (Reply op) → Knowledge
  | .query (.findMachine _), .ok (some machine) => { known with machine := some machine }
  | .query (.findBookmark ..), .ok true => { known with bookmarked := true }
  | .query (.findScript _), .ok (some script) => { known with script := some script }
  | .openTunnel machine, .ok _ => { known with tunnel := some machine }
  | .closeTunnel, _ => { known with tunnel := none }
  -- a reply that gets lost leaves open whether the agent has launched the job
  | .send (.submitJob _), _ => { known with posted := true }
  | _, _ => known

end Knowledge

def Visit.submission : Visit → Option Submission
  | submit submission => some submission
  | _ => none

/-- A submission reads what it was asked for, and posts its job to the machine that it has read. -/
def Allowed (visit : Visit) (known : Knowledge) : Op → Prop
  | .query (.findMachine machineId) => ∀ submission ∈ visit.submission, machineId = submission.machineId
  | .query (.findBookmark userId machineId) => ∀ submission ∈ visit.submission,
      userId = submission.user.id ∧ machineId = submission.machineId
  | .send (.stageScript name content md5 _) => ∃ script, known.script = some script ∧ name = script.name ∧
      content = script.content ∧ md5 = script.md5
  | .send (.submitJob body) => ∃ submission, visit.submission = some submission ∧ known.posted = false ∧
      body.jobUuid = submission.jobUuid ∧ body.scriptName = submission.scriptName ∧
      (submission.user.role = .admin ∨ known.bookmarked = true) ∧ known.machine.isSome ∧ known.tunnel = known.machine
  | _ => True

def discipline (visit : Visit) : Proc.Discipline Op Reply Failure Knowledge where
  learn := Knowledge.learn
  credible _ _ := True
  allowed := Allowed visit

variable {visit : Visit} {known : Knowledge}

abbrev Heeds {A : Type} (visit : Visit) (ends : Knowledge → Except Failure A → Prop) (task : Task A)
    (known : Knowledge) : Prop :=
  Proc.Heeds (discipline visit) ends task known

abbrev Steady (visit : Visit) (known : Knowledge) (op : Op) : Prop := (discipline visit).Steady known op

/-! ## The checks -/

structure Admitted (user : User) (machine : Machine) (known : Knowledge) : Prop where
  machine : known.machine = some machine
  bookmarked : user.role = .admin ∨ known.bookmarked = true
  unposted : known.posted = false

theorem heeds_findMachine {machineId : Nat} (own : ∀ submission ∈ visit.submission, machineId = submission.machineId) :
    Heeds visit (Returns fun after machine => after.machine = some machine ∧ after.posted = known.posted)
      (Api.getMachineOr404 machineId) known := by
  apply heeds_returns fun after found => ∀ machine, found = some machine →
    after.machine = some machine ∧ after.posted = known.posted
  · refine heeds_perform own fun reply _ => ?_
    rcases reply with e | found
    · trivial
    · rintro machine rfl
      exact ⟨rfl, rfl⟩
  · intro after found reads
    cases found with
    | none => exact heeds_throw trivial
    | some machine => exact heeds_pure (reads machine rfl)

theorem heeds_assertAccess {user : User} {machineId : Nat} {machine : Machine} (reads : known.machine = some machine)
    (unposted : known.posted = false) (own : ∀ submission ∈ visit.submission, user = submission.user ∧
      machineId = submission.machineId) :
    Heeds visit (Returns fun after _ => Admitted user machine after) (Api.assertAccess user machineId) known := by
  unfold Api.assertAccess
  split
  -- no bookmark is looked for where an administrator asks
  next admin => exact heeds_pure ⟨reads, .inl admin, unposted⟩
  next =>
    apply heeds_returns fun after found => found = true → Admitted user machine after
    · refine heeds_perform ?_ fun reply _ => ?_
      · intro submission asked
        obtain ⟨rfl, same⟩ := own submission asked
        exact ⟨rfl, same⟩
      · rcases reply with e | found
        · trivial
        · rintro rfl
          exact ⟨reads, .inr rfl, unposted⟩
    · intro after found admitted
      split
      next bookmarked => exact heeds_pure (admitted bookmarked)
      · exact heeds_throw trivial

/-- The checks that every page of a machine begins with. -/
theorem heeds_checked {A : Type} {user : User} {machineId : Nat} {rest : Machine → Task A}
    (own : ∀ submission ∈ visit.submission, user = submission.user ∧ machineId = submission.machineId)
    (goesOn : ∀ machine known, Admitted user machine known → Heeds visit (fun _ _ => True) (rest machine) known) :
    Heeds visit (fun _ _ => True) (Api.getMachineOr404 machineId >>= fun machine =>
      Api.assertAccess user machineId >>= fun _ => rest machine) .nothing := by
  apply heeds_then _ (heeds_findMachine fun submission asked => (own submission asked).2)
  rintro known machine ⟨reads, unposted⟩
  apply heeds_then _ (heeds_assertAccess reads unposted own)
  exact fun known _ admitted => goesOn machine known admitted

theorem heeds_findScript {A : Type} {name : String} {rest : Option Script → Task A} {ends : Knowledge → Except Failure A → Prop}
    (raises : ∀ known e, ends known (.error e)) (absent : ∀ known, Heeds visit ends (rest none) known)
    (present : ∀ script, Heeds visit ends (rest (some script)) { known with script := some script }) :
    Heeds visit ends (findScript name >>= rest) known := by
  apply heeds_bind (Returns fun after found => ∀ script, found = some script → after = { known with script := some script })
  · refine heeds_perform trivial fun reply _ => ?_
    rcases reply with e | found
    · trivial
    · rintro script rfl
      rfl
  · exact fun _ _ _ => raises _ _
  · intro after found reads
    cases found with
    | none => exact absent after
    | some script =>
      rw [reads script rfl]
      exact present script

/-! ## In the tunnel -/

theorem heeds_withAgent {A : Type} {machine : Machine} {body : Task A} {good : Knowledge → A → Prop}
    (closes : ∀ known a, good known a → good { known with tunnel := none } a)
    (heeds : Heeds visit (Returns good) body { known with tunnel := some machine }) :
    Heeds visit (Returns good) (withAgent machine body) known := by
  apply heeds_returns fun after _ => after = { known with tunnel := some machine }
  · refine heeds_perform trivial fun reply _ => ?_
    cases reply with
    | error e => trivial
    | ok _ => rfl
  · rintro _ _ rfl
    apply heeds_returns good
    · apply heeds_tryCatch (Returns good) heeds fun _ _ fit => fit
      -- the tunnel is closed and the exception raised again, so nothing is returned
      exact fun after e _ => heeds_bind (fun _ _ => True) (heeds_perform trivial fun _ _ => trivial)
        (fun _ _ _ => trivial) fun _ _ _ => heeds_throw trivial
    · intro after a fits
      apply heeds_returns fun later _ => later = { after with tunnel := none }
      · refine heeds_perform trivial fun reply _ => ?_
        cases reply with
        | error e => trivial
        | ok _ => rfl
      · rintro _ _ rfl
        exact heeds_pure (closes after a fits)

/-- Synchronising stages what the row says, and teaches nothing. -/
theorem uses_synchronised {script : Script} (reads : known.script = some script) (machine : Machine) :
    (syncScript machine script).Uses (Steady visit known) := by
  refine uses_bind (uses_getScriptState ⟨trivial, fun _ => rfl⟩) fun found => ?_
  have saved : ∀ resolved, (do
      upsertState machine.id script.id resolved found
      return resolved : Task TargetState).Uses (Steady visit known) :=
    fun resolved => uses_bind (uses_perform ⟨trivial, fun _ => rfl⟩) fun _ => uses_pure
  split
  · refine uses_bind (uses_stageScript ⟨⟨script, reads, rfl, rfl, rfl⟩, fun _ => rfl⟩) fun staged => ?_
    exact saved _
  · exact saved _

structure Ready (submission : Submission) (machine : Machine) (script : Script) (known : Knowledge) : Prop where
  admitted : Admitted submission.user machine known
  script : known.script = some script
  tunnel : known.tunnel = some machine

theorem heeds_submitJob {submission : Submission} {machine : Machine} {script : Script} {request : JobRequest}
    (uuid : request.jobUuid = submission.jobUuid) (name : request.scriptName = submission.scriptName)
    (ready : Ready submission machine script known) :
    Heeds (.submit submission) (fun after _ => after = { known with posted := true }) (AgentClient.submitJob request)
      known := by
  apply heeds_bind fun after _ => after = { known with posted := true }
  · refine heeds_perform ?_ fun _ _ => rfl
    refine ⟨submission, rfl, ready.admitted.unposted, uuid, name, ready.admitted.bookmarked, ?_, ?_⟩
    · rw [ready.admitted.machine]
      rfl
    · rw [ready.tunnel, ready.admitted.machine]
  · exact fun _ _ same => same
  · rintro _ response rfl
    refine heeds_after (uses_raiseRefusal response) (fun _ => rfl) fun _ => ?_
    refine heeds_after (uses_raiseForStatus response) (fun _ => rfl) fun _ => ?_
    cases response.body with
    | job answer => exact heeds_pure rfl
    | _ => exact heeds_throw rfl

theorem heeds_refusal {platform : Platform} {machine : Machine} {script : Script} {name : String}
    (reads : known.script = some script) (e : Failure) :
    Heeds visit (fun _ _ => True) (Api.refusal platform machine script name e) known := by
  cases e with
  | agentApproval =>
    refine heeds_past (uses_synchronised reads machine) (fun _ => trivial) fun _ => ?_
    exact heeds_throw trivial
  | _ => exact heeds_throw trivial

/-! ## The handlers -/

section
variable {platform : Platform} {A : Type}

theorem heeds_synchronised (submission : Submission) {machine : Machine} {script : Script}
    {rest : TargetState → Task A} (admitted : Admitted submission.user machine known)
    (reads : known.script = some script)
    (goesOn : ∀ resolved known, Ready submission machine script known →
      Heeds (.submit submission) (fun _ _ => True) (rest resolved) known) :
    Heeds (.submit submission) (fun _ _ => True) (withAgent machine do
      ensureAgentRunning
      rest (← syncScript machine script)) known := by
  have ready : Ready submission machine script { known with tunnel := some machine } :=
    ⟨⟨admitted.machine, admitted.bookmarked, admitted.unposted⟩, reads, rfl⟩
  have body : Heeds (.submit submission) (Returns fun _ _ => True) (do
      ensureAgentRunning
      rest (← syncScript machine script)) { known with tunnel := some machine } := by
    refine heeds_past (uses_perform ⟨trivial, fun _ => rfl⟩) (fun _ => trivial) fun _ => ?_
    refine heeds_past (uses_synchronised ready.script machine) (fun _ => trivial) fun resolved => ?_
    apply (goesOn resolved _ ready).mono
    intro _ result _
    cases result <;> trivial
  exact (heeds_withAgent (fun _ _ _ => trivial) body).mono fun _ _ _ => trivial

end

theorem heeds_resolved {platform : Platform} {A : Type} (submission : Submission) {name : String}
    {rest : Machine → Script → Task A}
    (goesOn : ∀ machine script known, Admitted submission.user machine known → known.script = some script →
      Heeds (.submit submission) (fun _ _ => True) (rest machine script) known) :
    Heeds (.submit submission) (fun _ _ => True) (Api.getMachineOr404 submission.machineId >>= fun machine =>
      Api.assertAccess submission.user submission.machineId >>= fun _ => Api.getScriptOr404 platform name >>=
        rest machine) .nothing := by
  apply heeds_checked
  · rintro _ ⟨⟩
    exact ⟨rfl, rfl⟩
  · intro machine known admitted
    apply heeds_then fun after script => after = { known with script := some script }
    · apply heeds_findScript (fun _ _ => trivial)
      · exact fun _ => heeds_throw trivial
      · exact fun script => heeds_pure rfl
    · rintro _ script rfl
      exact goesOn machine script _ ⟨admitted.machine, admitted.bookmarked, admitted.unposted⟩ rfl

theorem heeds_insertJob (fields : JobFields) : Heeds visit (fun _ _ => True) (insertJob fields) known :=
  heeds_perform trivial fun _ _ => trivial

theorem heeds_json (platform : Platform) (user : User) (machineId : Nat) (body : Api.SubmitJobIn) (jobUuid : String) :
    Heeds (.submit (.json user machineId body jobUuid)) (fun _ _ => True)
      (Api.submitJob platform user machineId body jobUuid) .nothing := by
  apply heeds_resolved (.json user machineId body jobUuid)
  intro machine script known admitted reads
  apply heeds_seq
  · apply heeds_synchronised (.json user machineId body jobUuid) admitted reads
    intro resolved known ready
    split
    · exact heeds_throw trivial
    · apply heeds_tryCatch fun after _ => after = { known with posted := true }
      · exact heeds_submitJob rfl rfl ready
      · exact fun _ _ _ => trivial
      · rintro _ e rfl
        have reads : ({ known with posted := true } : Knowledge).script = some script := ready.script
        exact heeds_refusal reads e
  · exact fun _ _ => heeds_insertJob _

theorem heeds_web (platform : Platform) (user : User) (machineId : Nat) (name : String) (form : Script → Params)
    (jobUuid : String) :
    Heeds (.submit (.web user machineId name form jobUuid)) (fun _ _ => True)
      (Web.runSubmit platform user machineId name form jobUuid) .nothing := by
  apply heeds_resolved (.web user machineId name form jobUuid)
  intro machine script known admitted reads
  apply heeds_seq
  · apply heeds_caught
    · apply heeds_synchronised (.web user machineId name form jobUuid) admitted reads
      intro resolved known ready
      split
      · exact heeds_pure trivial
      · exact heeds_map ((heeds_submitJob rfl rfl ready).mono fun _ _ _ => trivial)
    · intro _ e
      split
      · exact heeds_pure trivial
      · exact heeds_throw trivial
  · intro _ submitted
    cases submitted with
    | error page => exact heeds_pure trivial
    | ok answer => exact heeds_map (heeds_insertJob _)

/-! ## The badges -/

theorem unasked {submission : Submission} {holds : Prop} (unasked : visit.submission = none)
    (asked : submission ∈ visit.submission) : holds := by
  rw [unasked] at asked
  cases asked

theorem heeds_upsertState {machineId scriptId : Nat} {resolved : TargetState} {found : ScriptDescriptor} :
    Heeds visit (fun _ _ => True) (upsertState machineId scriptId resolved found) known :=
  heeds_perform trivial fun _ _ => trivial

theorem heeds_getScriptState (name : String) :
    Heeds visit (fun _ _ => True) (AgentClient.getScriptState name) known :=
  heeds_indifferent (uses_getScriptState fun _ => ⟨trivial, fun _ => rfl⟩) fun _ => trivial

theorem heeds_restaged {machine : Machine} {script : Script} (reads : known.script = some script) :
    Heeds visit (fun _ _ => True) (Csl.Server.restage machine script) known := by
  have body : Heeds visit (Returns fun _ _ => True) (do
      ensureAgentRunning
      let _ ← AgentClient.stageScript script.name script.content script.md5 script.metaYaml
      return some (← AgentClient.getScriptState script.name)) { known with tunnel := some machine } := by
    apply heeds_steady _ fun result => by cases result <;> trivial
    refine uses_bind (uses_perform ⟨trivial, fun _ => rfl⟩) fun _ => ?_
    refine uses_bind (uses_stageScript ⟨⟨script, reads, rfl, rfl, rfl⟩, fun _ => rfl⟩) fun _ => ?_
    exact uses_bind (uses_getScriptState ⟨trivial, fun _ => rfl⟩) fun _ => uses_pure
  apply heeds_seq
  · apply heeds_caught
    · exact (heeds_withAgent (fun _ _ _ => trivial) body).mono fun _ _ _ => trivial
    · intro _ e
      split
      · exact heeds_pure trivial
      · exact heeds_throw trivial
  · intro _ found
    cases found with
    | none => exact heeds_pure trivial
    | some found => exact heeds_map heeds_upsertState

theorem heeds_call {A : Type} {op : Op} {rest : Reply op → Task A} (may : ∀ known, Allowed visit known op)
    (goesOn : ∀ reply known, Heeds visit (fun _ _ => True) (rest reply) known) :
    Heeds visit (fun _ _ => True) (call op >>= rest) known :=
  heeds_seq (heeds_perform (may known) fun _ _ => trivial) fun known reply => goesOn reply known

theorem heeds_stateBadge (user : User) (machineId : Nat) (name : String) :
    Heeds (.stateBadge user machineId name) (fun _ _ => True) (Web.scriptStateBadge user machineId name) .nothing := by
  apply heeds_checked (fun _ asked => unasked rfl asked)
  intro machine known _
  apply heeds_findScript (fun _ _ => trivial)
  · exact fun _ => heeds_pure trivial
  · intro script
    apply heeds_seq
    · apply heeds_caught
      · apply heeds_map
        refine heeds_call (fun _ => trivial) fun _ known => ?_
        apply heeds_seq
        · apply heeds_caught (heeds_getScriptState _)
          exact fun _ _ => heeds_call (fun _ => trivial) fun _ _ => heeds_throw trivial
        · exact fun _ _ => heeds_call (fun _ => trivial) fun _ _ => heeds_pure trivial
      · exact fun _ _ => heeds_pure trivial
    · intro _ found
      cases found with
      | none => exact heeds_pure trivial
      | some found => exact heeds_map heeds_upsertState

theorem heeds_refreshed (staged : List Script) : Heeds visit (fun _ _ => True) (Web.refreshed staged) known := by
  induction staged generalizing known with
  | nil => exact heeds_pure trivial
  | cons script rest ih =>
    apply heeds_seq
    · exact heeds_caught (heeds_map (heeds_getScriptState _)) fun _ _ => heeds_pure trivial
    · exact fun _ _ => heeds_map ih

theorem heeds_saveRefreshed (machineId : Nat) (found : List (Script × ScriptDescriptor)) :
    Heeds visit (fun _ _ => True) (Web.saveRefreshed machineId found) known := by
  induction found generalizing known with
  | nil => exact heeds_pure trivial
  | cons entry rest ih =>
    exact heeds_seq heeds_upsertState fun _ _ => ih

theorem heeds_syncStates (user : User) (machineId : Nat) (staged : List Script) :
    Heeds (.syncStates user machineId staged) (fun _ _ => True) (Web.syncStates user machineId staged) .nothing := by
  apply heeds_checked (fun _ asked => unasked rfl asked)
  intro machine known _
  split
  · exact heeds_pure trivial
  · apply heeds_seq
    · apply heeds_caught _ fun _ _ => heeds_pure trivial
      refine heeds_call (fun _ => trivial) fun _ known => ?_
      apply heeds_seq
      · apply heeds_caught _ fun _ _ => heeds_pure trivial
        exact heeds_call (fun _ => trivial) fun _ _ => heeds_refreshed staged
      · intro found _
        apply heeds_seq
        · apply heeds_caught _ fun _ _ => heeds_pure trivial
          exact heeds_perform trivial fun _ _ => trivial
        · exact fun _ _ => heeds_pure trivial
    · exact fun _ _ => heeds_saveRefreshed machineId _

/-! ## All of them -/

theorem heeds_task (platform : Platform) (visit : Visit) :
    Heeds visit (fun _ _ => True) (visit.task platform) .nothing := by
  cases visit with
  | submit submission =>
    apply heeds_map
    cases submission with
    | json user machineId body jobUuid => exact heeds_map (heeds_json platform user machineId body jobUuid)
    | web user machineId name form jobUuid => exact heeds_map (heeds_web platform user machineId name form jobUuid)
  | restage user machineId name =>
    apply heeds_map
    apply heeds_checked (fun _ asked => unasked rfl asked)
    intro machine known _
    apply heeds_findScript (fun _ _ => trivial)
    · exact fun _ => heeds_pure trivial
    · exact fun script => heeds_restaged rfl
  | stateBadge user machineId name => exact heeds_map (heeds_stateBadge user machineId name)
  | syncStates user machineId staged => exact heeds_syncStates user machineId staged

end Fleets

end Csl.Server
