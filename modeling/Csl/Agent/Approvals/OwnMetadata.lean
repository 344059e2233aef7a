import Csl.Agent.Approvals.Mutations
import Csl.Agent.Installation

/-! Which metadata a version is promoted with.

Staging writes a metadata file only when there is metadata, and promotion moves one only when there
is one: a version that comes without metadata takes over what an earlier one has left.
-/

set_option autoImplicit false

namespace Csl.Agent.OwnMetadata
open Csl.Shared ApprovalsManager Runs

/-- One name's files and record, and the metadata of the call that supplied the last version. -/
structure History where
  world : World
  supplied : Option String

def History.fresh : History := ⟨World.fresh, none⟩

variable (host : Host) (autoApprove : List String)

def supplies (w : World) (supplied : Option String) : Mutation → Option String
  | .stage name content md5 metaYaml =>
    if Mutation.Effective host w (.stage name content md5 metaYaml) then metaYaml else supplied
  | .approve _ | .reject _ | .clear _ => supplied

def serve (history : History) (event : Timestamp × Mutation) : History where
  world := Mutation.serve host autoApprove history.world event
  supplied := supplies host (history.world.atTime event.1) history.supplied event.2

def Promotes (w : World) : Mutation → Prop
  | .stage name content md5 metaYaml =>
    Mutation.Effective host w (.stage name content md5 metaYaml) ∧ name ∈ autoApprove
  | .approve name => Mutation.Effective host w (.approve name)
  | .reject _ | .clear _ => False

instance (w : World) : (mutation : Mutation) → Decidable (Promotes host autoApprove w mutation)
  | .stage name content md5 metaYaml =>
    inferInstanceAs (Decidable (Mutation.Effective host w (.stage name content md5 metaYaml) ∧ name ∈ autoApprove))
  | .approve name => inferInstanceAs (Decidable (Mutation.Effective host w (.approve name)))
  | .reject _ | .clear _ => isFalse id

/-- The metadata file of the approved version is what its call supplied, as it is written there. -/
def HasOwnMetadata (name : String) (history : History) : Prop :=
  history.world.disk.text? host (.scripts (metaFile name)) = history.supplied.map (encode host .platform)

def NoneLeft (name : String) (w : World) : Prop :=
  w.disk.text? host (.pending (metaFile name)) = none ∧ w.disk.text? host (.scripts (metaFile name)) = none

def Kept (name : String) (history : History) : Prop :=
  Waiting (history.world.memory.store.stateOf name) → ∀ metaYaml, history.supplied = some metaYaml →
    history.world.disk.text? host (.pending (metaFile name)) = some (encode host .platform metaYaml)

section
variable {host autoApprove} {history : History} {event : Timestamp × Mutation} {name : String}

theorem serve_of_not_effective (idle : ¬ Mutation.Effective host (history.world.atTime event.1) event.2) :
    (serve host autoApprove history event).world = history.world.atTime event.1 :=
  (event.2.run_cases autoApprove (history.world.atTime event.1)).resolve_right idle

theorem serve_effective (effective : Mutation.Effective host (history.world.atTime event.1) event.2) :
    (serve host autoApprove history event).world =
      World.saved host { history.world.atTime event.1 with
        disk := Mutation.finished host autoApprove event.2 history.world.disk }
        (Mutation.newStore autoApprove (history.world.atTime event.1) event.2) :=
  congrArg Prod.snd (Mutation.run_effective effective)

theorem supplies_of_not_effective {w : World} {supplied : Option String} {mutation : Mutation}
    (idle : ¬ Mutation.Effective host w mutation) : supplies host w supplied mutation = supplied := by
  cases mutation with
  | stage => exact if_neg idle
  | approve | reject | clear => rfl

theorem kept_serve (kept : Kept host name history) (own : event.2.name = name) :
    Kept host name (serve host autoApprove history event) := by
  by_cases effective : Mutation.Effective host (history.world.atTime event.1) event.2
  · intro waiting metaYaml supplied
    have world : (serve host autoApprove history event).world = _ := serve_effective effective
    rw [world] at waiting ⊢
    obtain ⟨now, mutation⟩ := event
    subst own
    cases mutation with
    | stage name content md5 given =>
      have same : given = some metaYaml := (if_pos effective).symm.trans supplied
      subst same
      have stored := ApprovalsStore.stateOf_of_get? (Dict.get?_set_self history.world.memory.store.scripts name
        (stagedRecord (decide (name ∈ autoApprove)) (history.world.record name) md5 now))
      -- a version waits only where its name is not auto-approved
      have manual : decide (name ∈ autoApprove) = false := (stagedRecord_waiting (stored ▸ waiting)).1
      have listed : name ∉ autoApprove := of_decide_eq_false manual
      simp [World.saved, Mutation.name, Mutation.finished, listed, Disk.text?_staged]
    | approve name =>
      have stored := ApprovalsStore.stateOf_of_get? (Dict.get?_set_self history.world.memory.store.scripts name
        { state := .approved, approvedMd5 := (history.world.record name).bind (·.pendingMd5),
          approvedAt := some now, approvedVia := some .cli })
      -- an approved version no longer waits, and neither does a rejected or a cleared one
      rcases stored ▸ waiting with waits | waits <;> cases waits
    | reject name =>
      have stored := ApprovalsStore.stateOf_of_get? (Dict.get?_set_self history.world.memory.store.scripts name
        { state := .rejected, rejectedAt := some now })
      rcases stored ▸ waiting with waits | waits <;> cases waits
    | clear name =>
      have absent : (Mutation.newStore autoApprove (history.world.atTime now) (.clear name)).stateOf name =
          .absent := by
        simp [Mutation.newStore, ApprovalsStore.stateOf]
      rcases absent ▸ waiting with waits | waits <;> cases waits
  · have world : (serve host autoApprove history event).world = _ := serve_of_not_effective effective
    have supplied : (serve host autoApprove history event).supplied = history.supplied :=
      supplies_of_not_effective effective
    unfold Kept
    rw [world, supplied]
    exact kept

/-- What a promotion leaves at the metadata file. -/
theorem own_metadata_iff (kept : Kept host name history) (own : event.2.name = name)
    (promotes : Promotes host autoApprove (history.world.atTime event.1) event.2) :
    HasOwnMetadata host name (serve host autoApprove history event) ↔
      ((serve host autoApprove history event).supplied = none → NoneLeft host name history.world) := by
  obtain ⟨now, mutation⟩ := event
  subst own
  unfold HasOwnMetadata NoneLeft
  cases mutation with
  | stage name content md5 given =>
    obtain ⟨effective, auto⟩ := promotes
    rw [serve_effective effective]
    have supplied : (serve host autoApprove history (now, .stage name content md5 given)).supplied = given :=
      if_pos effective
    rw [supplied]
    cases given with
    | none => simp [World.saved, Mutation.name, Mutation.finished, auto, Disk.text?_promoted, Disk.text?_staged]
    | some metaYaml =>
      simp [World.saved, Mutation.name, Mutation.finished, auto, Disk.text?_promoted, Disk.text?_staged]
  | approve name =>
    have effective : Mutation.Effective host (history.world.atTime now) (.approve name) := promotes
    obtain ⟨⟨record, found, waiting⟩, _⟩ := promotes
    have world : (serve host autoApprove history (now, .approve name)).world = _ := serve_effective effective
    rw [world]
    have state : history.world.memory.store.stateOf name = record.state := World.stateOf_of_record found
    have waits : Waiting (history.world.memory.store.stateOf name) := state ▸ waiting
    have supplied : (serve host autoApprove history (now, .approve name)).supplied = history.supplied := rfl
    rw [supplied]
    cases given : history.supplied with
    | none => simp [World.saved, Mutation.name, Mutation.finished, Disk.text?_promoted]
    | some metaYaml =>
      -- the metadata beside the pending file moves along with it
      have beside : history.world.disk.text? host (.pending (metaFile name)) =
          some (encode host .platform metaYaml) := kept waits metaYaml given
      simp [World.saved, Mutation.name, Mutation.finished, Disk.text?_promoted, beside]
  | reject | clear => cases promotes

end

def describedOnce : List (Timestamp × Mutation) :=
  [("1", .stage "deploy" Installation.scriptOne Installation.md5One (some "params: []")), ("2", .approve "deploy"),
    ("3", .stage "deploy" Installation.scriptTwo Installation.md5Two none)]

end Csl.Agent.OwnMetadata
