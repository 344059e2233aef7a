import Csl.Agent.Approvals.Runnable

/-! What becomes of a staged version of a whitelisted script.

The comparison with the md5s on record comes before the policy: a version that waits for the owner
goes on waiting when the same version is staged again, whitelisted or not.
-/

set_option autoImplicit false

namespace Csl.Agent.Whitelist
open Csl.Shared ApprovalsManager Runs Isolation Agreement

def WaitsFor (w : World) (name md5 : String) : Prop :=
  Waiting (w.memory.store.stateOf name) ∧ (w.record name).bind (·.pendingMd5) = some md5

def Approved (w : World) (name md5 : String) : Prop :=
  w.memory.store.stateOf name = .approved ∧ (w.record name).bind (·.approvedMd5) = some md5

/-- The version is approved: stage says so, the record has its md5, and scripts/ holds its content. -/
structure Lands (host : Host) (name content : String) (result : Except Err ApprovalState × World) : Prop where
  answer : result.1 = .ok .approved
  recorded : Approved result.2 name (host.md5 content)
  stored : result.2.disk.text? host (.scripts name) = some content

structure Promotes (host : Host) (autoApprove : List String) (w : World) (name content : String)
    (metaYaml : Option String) : Prop where
  waits : WaitsFor w name (host.md5 content) →
    host.run (stage host autoApprove name content (host.md5 content) metaYaml) w =
      (.ok (w.memory.store.stateOf name), w)
  repeated : Approved w name (host.md5 content) →
    host.run (stage host autoApprove name content (host.md5 content) metaYaml) w = (.ok .approved, w)
  lands : ¬ WaitsFor w name (host.md5 content) → ¬ Approved w name (host.md5 content) →
    Lands host name content (host.run (stage host autoApprove name content (host.md5 content) metaYaml) w)

abbrev Step := List String × Runnable.Call

def serve (host : Host) (w : World) (step : Step) : World := Runnable.serve host step.1 w step.2

def Apart (host : Host) (w : World) (step : Step) : Prop := Runnable.Apart host w step.2

instance (host : Host) (w : World) (step : Step) : Decidable (Apart host w step) :=
  inferInstanceAs (Decidable (Runnable.Apart host w step.2))

variable {host : Host} {autoApprove : List String} {w : World} {name content : String} {metaYaml : Option String}

theorem alreadyStaged_iff (w : World) (name md5 : String) :
    AlreadyStaged w.memory.store name md5 ↔ Approved w name md5 ∨ WaitsFor w name md5 := Iff.rfl

theorem lands_staged (listed : name ∈ autoApprove) (content : String) (metaYaml : Option String) :
    Lands host name content (.ok .approved, w.staged host autoApprove name content (host.md5 content) metaYaml) := by
  have record : (w.staged host autoApprove name content (host.md5 content) metaYaml).record name =
      some { state := .approved, approvedMd5 := some (host.md5 content), approvedAt := some w.now,
             approvedVia := some .auto } := by
    rw [World.record_staged, if_pos rfl]
    simp [stagedRecord, listed]
  constructor
  · rfl
  · refine ⟨World.stateOf_of_record record, ?_⟩
    rw [record]
    rfl
  · simp [World.staged, World.saved, listed, Disk.text?_promoted, Disk.text?_staged]

theorem promotes (listed : name ∈ autoApprove) (notRejected : w.memory.store.stateOf name ≠ .rejected)
    (content : String) (metaYaml : Option String) : Promotes host autoApprove w name content metaYaml := by
  constructor
  · intro waits
    rw [run_stage, if_neg notRejected, if_pos ((alreadyStaged_iff _ _ _).mpr (.inr waits))]
  · intro approved
    rw [run_stage, if_neg notRejected, if_pos ((alreadyStaged_iff _ _ _).mpr (.inl approved)), approved.1]
  · intro notWaiting notApproved
    have moves : ¬ AlreadyStaged w.memory.store name (host.md5 content) :=
      fun already => ((alreadyStaged_iff _ _ _).mp already).elim notApproved notWaiting
    have state : (stagedRecord (decide (name ∈ autoApprove)) (w.memory.store.scripts.get? name)
        (host.md5 content) w.now).state = .approved := by simp [stagedRecord, listed]
    rw [run_stage, if_neg notRejected, if_neg moves, state]
    exact lands_staged listed content metaYaml

theorem orderly_run {steps : List Step} (apart : Meets (serve host) (Apart host) World.fresh steps) :
    Runnable.Orderly host (run (serve host) World.fresh steps) := by
  apply invariant_run (Runnable.Orderly host) _ (Runnable.orderly_fresh host) apart
  exact fun _ _ orderly apart => Runnable.orderly_serve orderly apart

theorem holds_approved {steps : List Step} (apart : Meets (serve host) (Apart host) World.fresh steps)
    {md5 : String} (approved : Approved (run (serve host) World.fresh steps) name md5) :
    Holds host (run (serve host) World.fresh steps) (.scripts name) (some md5) := by
  obtain ⟨state, recorded⟩ := approved
  have known : ((run (serve host) World.fresh steps).record name).isSome := by
    by_contra unknown
    rw [Option.not_isSome_iff_eq_none.mp unknown] at recorded
    cases recorded
  have agrees := (orderly_run apart).agrees name known
  rw [← recorded]
  exact (agrees.approved state).1

def waits : Step := ([], "deploy", "1", .stage Installation.scriptOne none)

def undecided : World := run (serve linux) World.fresh [waits]

def whitelistedNext : Step := (["deploy"], "deploy", "2", .stage Installation.scriptTwo none)

end Csl.Agent.Whitelist
