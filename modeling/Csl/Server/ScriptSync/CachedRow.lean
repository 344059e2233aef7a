import Csl.Server.Installation
import Csl.Server.ScriptSync.Deployment

/-! The cached row of a synchronised script against what the agent holds then.

The row takes the md5s of the descriptor that was fetched first, and a script that is staged
after that has others.
-/

set_option autoImplicit false

namespace Csl.Server
open Csl.Shared Csl.Agent ApprovalsManager Sharing Runs

namespace CachedRow

/-- A row that tells what the agent's descriptor tells; an approved version that is not the
canonical one is shown as stale. -/
def Shows (row : ScriptTargetState) (script : Script) (found : ScriptDescriptor) : Prop :=
  row.state = resolve script found ∧ row.approvedMd5 = found.approvedMd5 ∧ row.pendingMd5 = found.pendingMd5

instance (row : ScriptTargetState) (script : Script) (found : ScriptDescriptor) : Decidable (Shows row script found) :=
  inferInstanceAs (Decidable (_ ∧ _ ∧ _))

/-- The md5s that staging the script will record are in the descriptor already. -/
def Foretold (auto : Bool) (script : Script) (found : ScriptDescriptor) : Prop :=
  (auto = true → found.approvedMd5 = some script.md5 ∧ found.pendingMd5 = none) ∧
    (auto = false → (found.state ≠ .approved → found.approvedMd5 = none) ∧ found.pendingMd5 = some script.md5)

/-- A descriptor as the manager's own records make it: no md5 of a script that is absent, and none
that waits beside an approved one. -/
def Regular (found : ScriptDescriptor) : Prop :=
  (found.state = .absent → found.approvedMd5 = none) ∧
    (found.state = .absent ∨ found.state = .approved → found.pendingMd5 = none)

variable {platform : Platform} {autoApprove : Party → List String}

/-- The row that was cached for the script, and what `get_state` answers, agree. -/
def Current (platform : Platform) (autoApprove : Party → List String) (machine : Machine) (script : Script)
    (s : Deployment platform) : Prop :=
  ∃ row found, s.tables.targetStates.get? (machine.id, script.id) = some row ∧
    (s.perform platform autoApprove (AgentClient.getScriptState script.name)).1 = .ok found ∧ Shows row script found

theorem current_cached (w : World) {machine : Machine} {script : Script} {s : Deployment platform}
    (endpoint : EndpointName script.name) (now : w.now = s.now) (synced : w.resynced platform.host = w)
    (state : TargetState) (approvedMd5 pendingMd5 : Option String) :
    Current platform autoApprove machine script
        ((s.left w).cached machine.id script.id state approvedMd5 pendingMd5) ↔
      Shows ⟨state, approvedMd5, pendingMd5, s.now⟩ script (describe w.memory.store script.name) := by
  have world : ((s.left w).cached machine.id script.id state approvedMd5 pendingMd5).world = w := s.world_left w now
  have cached : ((s.left w).cached machine.id script.id state approvedMd5 pendingMd5).tables.targetStates.get?
      (machine.id, script.id) = some ⟨state, approvedMd5, pendingMd5, s.now⟩ := Dict.get?_set_self ..
  rw [Current, cached, perform_getScriptState, if_pos endpoint, world, synced]
  constructor
  · rintro ⟨row, found, same, answered, shows⟩
    cases same
    cases answered
    exact shows
  · exact fun shows => ⟨_, _, rfl, rfl, shows⟩

theorem resolve_staged (auto : Bool) (script : Script) (record : Option ScriptRecord) (now : Timestamp) :
    resolve script (descriptor script.name (stagedRecord auto record script.md5 now)) =
      .agent (stagedRecord auto record script.md5 now).state := by
  apply if_neg
  rintro ⟨approved, other⟩
  exact other (stagedRecord_approved approved).2

/-- The md5s of a staged record are those of the record before where they were foretold. -/
theorem md5s_staged {auto : Bool} {script : Script} {store : ApprovalsStore} {now : Timestamp} :
    ((describe store script.name).approvedMd5 =
          (stagedRecord auto (store.scripts.get? script.name) script.md5 now).approvedMd5 ∧
        (describe store script.name).pendingMd5 =
          (stagedRecord auto (store.scripts.get? script.name) script.md5 now).pendingMd5) ↔
      Foretold auto script (describe store script.name) := by
  cases auto with
  | true => simp [Foretold, stagedRecord]
  | false =>
    unfold describe
    cases found : store.scripts.get? script.name with
    | none => simp [Foretold, stagedRecord]
    | some record =>
      obtain ⟨kind, approvedMd5, approvedAt, approvedVia, pendingMd5, rejectedAt⟩ := record
      cases kind <;> simp [Foretold, stagedRecord, descriptor]

theorem not_foretold {auto : Bool} {script : Script} {found : ScriptDescriptor} (regular : Regular found)
    (needs : NeedsStaging script found) : ¬ Foretold auto script found := by
  rintro ⟨foretoldAuto, foretoldManual⟩
  have stale (resolved : resolve script found = .approvedStale) :
      found.state = .approved ∧ found.approvedMd5 ≠ some script.md5 := by
    by_contra current
    rw [resolve, if_neg current] at resolved
    cases resolved
  have nothingWaits : found.pendingMd5 = none :=
    regular.2 (needs.imp_right fun resolved => (stale resolved).1)
  cases auto with
  | true =>
    have approved := (foretoldAuto rfl).1
    rcases needs with absent | resolved
    · rw [regular.1 absent] at approved
      cases approved
    · exact (stale resolved).2 approved
  | false =>
    have waits := (foretoldManual rfl).2
    rw [nothingWaits] at waits
    cases waits

section
variable {s : Deployment platform} {machine : Machine} {script : Script}

/-- Without staging the row is the descriptor that was fetched, and nothing has changed since. -/
theorem current_unstaged (endpoint : EndpointName script.name)
    (stays : ¬ NeedsStaging script (describe (s.world.resynced platform.host).memory.store script.name)) :
    Current platform autoApprove machine script (s.perform platform autoApprove (syncScript machine script)).2 := by
  rw [perform_syncScript, if_pos endpoint]
  dsimp only
  rw [if_neg stays]
  apply (current_cached _ endpoint _ _ _ _ _).mpr
  · exact ⟨rfl, rfl, rfl⟩
  · exact World.now_resynced _ _
  · exact World.resynced_resynced _ _

theorem current_staged (endpoint : EndpointName script.name)
    (needs : NeedsStaging script (describe (s.world.resynced platform.host).memory.store script.name)) :
    Current platform autoApprove machine script (s.perform platform autoApprove (syncScript machine script)).2 ↔
      Foretold (decide (script.name ∈ autoApprove .agent)) script
        (describe (s.world.resynced platform.host).memory.store script.name) := by
  have now := s.world.now_resynced platform.host
  rw [perform_syncScript, if_pos endpoint]
  dsimp only
  rw [if_pos needs]
  have recorded : describe ((s.world.resynced platform.host).staged platform.host (autoApprove .agent) script.name
      script.content script.md5 script.metaYaml).memory.store script.name =
        descriptor script.name (stagedRecord (decide (script.name ∈ autoApprove .agent))
          ((s.world.resynced platform.host).memory.store.scripts.get? script.name) script.md5 s.now) := by
    simp only [World.staged, World.saved, describe, Dict.get?_set_self, now]
    rfl
  refine (current_cached (World.staged _ _ _ _ _ _ _) endpoint now (resynced_staged _ _ _ _ _ _ _) _ _ _).trans ?_
  rw [recorded, Shows, resolve_staged, ← md5s_staged]
  exact and_iff_right rfl

end

/-- The cached row agrees with the agent when nothing was staged, or the md5s were foretold; and of
a record as the manager makes them, only when nothing was staged. -/
theorem cached_row_is_agents (platform : Platform) (autoApprove : Party → List String) (machine : Machine)
    (script : Script) (s : Deployment platform) (resolved : TargetState) :
    let ends := s.perform platform autoApprove (syncScript machine script)
    let found := describe (s.world.resynced platform.host).memory.store script.name
    ends.1 = .ok resolved →
      (Current platform autoApprove machine script ends.2 ↔
          (NeedsStaging script found → Foretold (decide (script.name ∈ autoApprove .agent)) script found)) ∧
        (Regular found → (Current platform autoApprove machine script ends.2 ↔ ¬ NeedsStaging script found)) := by
  intro ends found returns
  have endpoint : EndpointName script.name := by
    by_contra refused
    have failed := congrArg Prod.fst (@perform_syncScript platform autoApprove s machine script)
    rw [if_neg refused] at failed
    cases returns.symm.trans failed
  by_cases needs : NeedsStaging script found
  · have current : Current platform autoApprove machine script ends.2 ↔ _ := current_staged endpoint needs
    constructor
    · exact current.trans ⟨fun foretold _ => foretold, fun staged => staged needs⟩
    · intro regular
      exact iff_of_false (fun holds => not_foretold regular needs (current.mp holds)) (not_not.mpr needs)
  · have current : Current platform autoApprove machine script ends.2 := current_unstaged endpoint needs
    exact ⟨iff_of_true current fun staged => absurd staged needs, fun _ => iff_of_true current needs⟩

/-! ## The first deployment of a script -/

open Installation Csl.Agent.Installation

def firstVersion : Script := Csl.Server.version station 1 "deploy" scriptOne (some plainMeta) 1 ""

def firstStaged : Deployment station :=
  ((installed station).perform station (fun _ => []) (syncScript workstation firstVersion)).2

/-- Once the first version waits, synchronising again brings the row up to date. -/
theorem cached_row_is_agents_again :
    (firstStaged.perform station (fun _ => []) (syncScript workstation firstVersion)).1 = .ok (.agent .pending) ∧
      Current station (fun _ => []) workstation firstVersion
        (firstStaged.perform station (fun _ => []) (syncScript workstation firstVersion)).2 := by
  have returned : (firstStaged.perform station (fun _ => []) (syncScript workstation firstVersion)).1 =
      .ok (.agent .pending) := by decide +kernel
  have rows := cached_row_is_agents station (fun _ => []) workstation firstVersion firstStaged (.agent .pending) returned
  have stays : ¬ NeedsStaging firstVersion
      (describe (firstStaged.world.resynced station.host).memory.store firstVersion.name) := by decide +kernel
  exact ⟨returned, rows.1.mpr fun needs => absurd needs stays⟩

/-- The row of a script that was just staged has no md5, and the agent holds that of the pending
version. -/
theorem staged_row_lacks_md5 :
    firstStaged.tables.targetStates.get? (1, 1) = some ⟨.agent .pending, none, none, ""⟩ ∧
      (firstStaged.perform station (fun _ => []) (AgentClient.getScriptState "deploy")).1 =
        .ok ⟨"deploy", .pending, none, some md5One⟩ ∧
      ¬ Current station (fun _ => []) workstation firstVersion firstStaged := by
  have row : firstStaged.tables.targetStates.get? (workstation.id, firstVersion.id) =
      some ⟨.agent .pending, none, none, ""⟩ := by decide +kernel
  have answer : (firstStaged.perform station (fun _ => []) (AgentClient.getScriptState firstVersion.name)).1 =
      .ok ⟨"deploy", .pending, none, some md5One⟩ := by decide +kernel
  refine ⟨row, answer, ?_⟩
  rintro ⟨_, _, cached, answered, shows⟩
  cases row.symm.trans cached
  cases answer.symm.trans answered
  cases shows.2.2

end CachedRow

end Csl.Server
