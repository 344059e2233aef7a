import Csl.Agent.Approvals.Mutations

/-! The record of a script and its files agree.

One manager serves calls on one name, each staged with the md5 of its content.
The agreement is an invariant: every call keeps it, whether it takes effect,
finds nothing to do, or raises.
-/

set_option autoImplicit false

namespace Csl.Agent
open Csl.Shared ApprovalsManager Runs

namespace Agreement

/-- A call on the one name; a staged version comes with its own md5. -/
inductive Request where
  | stage (content : String) (metaYaml : Option String)
  | approve
  | reject
  | clear
  deriving DecidableEq, Repr

variable (host : Host) (autoApprove : List String) (name : String)

def Request.mutation : Request → Mutation
  | .stage content metaYaml => .stage name content (host.md5 content) metaYaml
  | .approve => .approve name
  | .reject => .reject name
  | .clear => .clear name

def serve (w : World) (request : Timestamp × Request) : World :=
  (host.run ((request.2.mutation host name).action host autoApprove) (w.atTime request.1)).2

def Holds (w : World) (path : Path) (md5 : Option String) : Prop :=
  ∃ content, w.disk.text? host path = some content ∧ md5 = some (host.md5 content)

end Agreement

open Agreement

structure Agrees (host : Host) (name : String) (w : World) : Prop where
  approved : w.memory.store.stateOf name = .approved →
    Holds host w (.scripts name) ((w.record name).bind (·.approvedMd5)) ∧
      w.disk.text? host (.pending name) = none
  pending : w.memory.store.stateOf name = .pending →
    Holds host w (.pending name) ((w.record name).bind (·.pendingMd5))
  updatePending : w.memory.store.stateOf name = .updatePending →
    Holds host w (.scripts name) ((w.record name).bind (·.approvedMd5)) ∧
      Holds host w (.pending name) ((w.record name).bind (·.pendingMd5))
  removed : w.memory.store.stateOf name = .rejected ∨ w.memory.store.stateOf name = .absent →
    w.disk.text? host (.scripts name) = none ∧
      w.disk.text? host (.scripts (metaFile name)) = none ∧
      w.disk.text? host (.pending name) = none ∧
      w.disk.text? host (.pending (metaFile name)) = none
  reloaded : w.disk.loaded host = w.memory.store

namespace Agreement
variable {host : Host} {autoApprove : List String} {name : String} {w : World}

/-- A waiting version agrees with its record, whichever of the two waiting states it is in. -/
theorem waiting_holds (agrees : Agrees host name w) {record : ScriptRecord}
    (found : w.record name = some record) (waiting : Waiting record.state) :
    Holds host w (.pending name) record.pendingMd5 := by
  have state := World.stateOf_of_record found
  rcases waiting with waiting | waiting
  · simpa [found] using agrees.pending (state.trans waiting)
  · simpa [found] using (agrees.updatePending (state.trans waiting)).2

theorem agrees_staged (agrees : Agrees host name w) (content : String) (metaYaml : Option String) :
    Agrees host name (w.staged host autoApprove name content (host.md5 content) metaYaml) := by
  have record := World.record_staged host w autoApprove name content
    (host.md5 content) metaYaml name
  rw [if_pos rfl] at record
  have state := World.stateOf_of_record record
  -- a whitelisted version goes straight into scripts/
  by_cases auto : name ∈ autoApprove
  · have approved : (stagedRecord (decide (name ∈ autoApprove)) (w.record name)
        (host.md5 content) w.now).state = .approved := by simp [auto, stagedRecord]
    rw [approved] at state
    refine ⟨fun _ => ⟨⟨content, ?_, ?_⟩, ?_⟩, ?_, ?_, ?_, Disk.loaded_saved _⟩
    · simp [World.staged, World.saved, auto, Disk.text?_promoted, Disk.text?_staged]
    · simp [record, auto, stagedRecord]
    · simp [World.staged, World.saved, auto, Disk.text?_promoted]
    all_goals simp [state]
  · have written : (w.staged host autoApprove name content (host.md5 content)
        metaYaml).disk.text? host (.pending name) = some content := by
      simp [World.staged, World.saved, auto, Disk.text?_staged]
    have kept : (w.staged host autoApprove name content (host.md5 content)
        metaYaml).disk.text? host (.scripts name) = w.disk.text? host (.scripts name) := by
      simp [World.staged, World.saved, auto]
    by_cases current : w.memory.store.stateOf name = .approved
    · -- the approved version stays in place and the new one waits beside it
      obtain ⟨⟨old, oldText, oldMd5⟩, _⟩ := agrees.approved current
      cases found : w.record name with
      | none => simp [found] at oldMd5
      | some before =>
        have beforeState : before.state = .approved := by
          rw [← World.stateOf_of_record found, current]
        have updated : (stagedRecord (decide (name ∈ autoApprove)) (w.record name)
            (host.md5 content) w.now) =
              { state := .updatePending, approvedMd5 := before.approvedMd5,
                approvedAt := before.approvedAt, approvedVia := before.approvedVia,
                pendingMd5 := some (host.md5 content) } := by
          obtain ⟨beforeState', _, _, _, _, _⟩ := before
          cases beforeState
          simp [auto, stagedRecord, found]
        rw [updated] at state record
        refine ⟨?_, ?_, fun _ => ⟨⟨old, kept.trans oldText, ?_⟩, ⟨content, written, ?_⟩⟩, ?_,
          Disk.loaded_saved _⟩
        · simp [state]
        · simp [state]
        · simpa [record, found] using oldMd5
        · simp [record]
        · simp [state]
    -- nothing was approved before, and the version waits alone
    · have waiting : (stagedRecord (decide (name ∈ autoApprove)) (w.record name)
          (host.md5 content) w.now) = { state := .pending, pendingMd5 := some (host.md5 content) } := by
        cases found : w.record name with
        | none => simp [auto, stagedRecord]
        | some before =>
          have beforeState : before.state ≠ .approved := by
            rw [← World.stateOf_of_record found]; exact current
          obtain ⟨beforeState', _, _, _, _, _⟩ := before
          cases beforeState' <;> simp_all [stagedRecord]
      rw [waiting] at state record
      refine ⟨?_, fun _ => ⟨content, written, by simp [record]⟩, ?_, ?_, Disk.loaded_saved _⟩
      all_goals simp [state]

theorem agrees_approved (agrees : Agrees host name w) {record : ScriptRecord}
    (found : w.record name = some record) (waiting : Waiting record.state) :
    Agrees host name (w.approved host name record.pendingMd5) := by
  obtain ⟨content, text, md5⟩ := waiting_holds agrees found waiting
  have after := World.record_approved host w name record.pendingMd5 name
  rw [if_pos rfl] at after
  have state := World.stateOf_of_record after
  refine ⟨fun _ => ⟨⟨content, ?_, ?_⟩, ?_⟩, ?_, ?_, ?_, Disk.loaded_saved _⟩
  · simpa [World.approved, World.saved, Disk.text?_promoted] using text
  · simpa [after] using md5
  · simp [World.approved, World.saved, Disk.text?_promoted]
  all_goals simp [state]

theorem removed_files (name : String) (disk : Disk) (store : ApprovalsStore) :
    let after := (disk.removed host name).saved host store
    after.text? host (.scripts name) = none ∧ after.text? host (.scripts (metaFile name)) = none ∧
      after.text? host (.pending name) = none ∧ after.text? host (.pending (metaFile name)) = none := by
  simp [Disk.text?_removed]

theorem agrees_rejected : Agrees host name (w.rejected host name) := by
  have after := World.record_rejected host w name name
  rw [if_pos rfl] at after
  have state := World.stateOf_of_record after
  refine ⟨?_, ?_, ?_, fun _ => removed_files name _ _, Disk.loaded_saved _⟩
  all_goals simp [state]

theorem agrees_cleared : Agrees host name (w.cleared host name) := by
  have state : (w.cleared host name).memory.store.stateOf name = .absent := by
    simp [World.cleared, World.saved, ApprovalsStore.stateOf]
  refine ⟨?_, ?_, ?_, fun _ => removed_files name _ _, Disk.loaded_saved _⟩
  all_goals simp [state]

theorem agrees_atTime (agrees : Agrees host name w) (now : Timestamp) :
    Agrees host name (w.atTime now) :=
  ⟨agrees.approved, agrees.pending, agrees.updatePending, agrees.removed, agrees.reloaded⟩

theorem agrees_serve (agrees : Agrees host name w) (request : Timestamp × Request) :
    Agrees host name (serve host autoApprove name w request) := by
  obtain ⟨now, request⟩ := request
  have before := agrees_atTime agrees now
  have ends := (request.mutation host name).outcome host autoApprove (w.atTime now)
  unfold serve
  generalize host.run ((request.mutation host name).action host autoApprove) (w.atTime now) =
    result at ends
  cases request with
  | stage content metaYaml =>
    cases ends with
    | refused | unchanged => exact before
    | staged => exact agrees_staged before content metaYaml
  | approve =>
    cases ends with
    | refused => exact before
    | approved found waiting => exact agrees_approved before found waiting
  | reject =>
    cases ends with
    | refused => exact before
    | rejected => exact agrees_rejected
  | clear =>
    cases ends with
    | refused => exact before
    | cleared => exact agrees_cleared

theorem agrees_fresh : Agrees host name World.fresh :=
  ⟨nofun, nofun, nofun, fun _ => ⟨rfl, rfl, rfl, rfl⟩, rfl⟩

end Agreement

end Csl.Agent
