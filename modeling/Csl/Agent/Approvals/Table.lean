import Csl.Agent.Approvals.Mutations
import Csl.Agent.Installation

/-! The transitions of the approval state machine, as a table over one name's record.

The table has no row for a stage of an update_pending script with a third version.
-/

set_option autoImplicit false

namespace Csl.Agent.Table
open Csl.Shared ApprovalsManager Runs

/-- The rows of the table: what is recorded before and after. -/
inductive Transition (now : Timestamp) (auto : Bool) :
    Mutation → Option ScriptRecord → Option ScriptRecord → Prop where
  | promoted {name content md5 : String} {metaYaml : Option String} {record : Option ScriptRecord} :
      auto = true → Transition now auto (.stage name content md5 metaYaml) record
        (some { state := .approved, approvedMd5 := some md5, approvedAt := some now, approvedVia := some .auto })
  | first {name content md5 : String} {metaYaml : Option String} :
      auto = false → Transition now auto (.stage name content md5 metaYaml) none
        (some { state := .pending, pendingMd5 := some md5 })
  | restaged {name content md5 : String} {metaYaml : Option String} {record : ScriptRecord} :
      auto = false → record.state = .pending → Transition now auto (.stage name content md5 metaYaml)
        (some record) (some { state := .pending, pendingMd5 := some md5 })
  | updated {name content md5 : String} {metaYaml : Option String} {record : ScriptRecord} :
      auto = false → record.state = .approved → Transition now auto (.stage name content md5 metaYaml)
        (some record) (some
          { state := .updatePending, approvedMd5 := record.approvedMd5, approvedAt := record.approvedAt,
            approvedVia := record.approvedVia, pendingMd5 := some md5 })
  | approved {name : String} {record : ScriptRecord} :
      Waiting record.state → Transition now auto (.approve name) (some record)
        (some
          { state := .approved, approvedMd5 := record.pendingMd5, approvedAt := some now,
            approvedVia := some .cli })
  | rejected {name : String} {record : ScriptRecord} :
      Waiting record.state → Transition now auto (.reject name) (some record)
        (some { state := .rejected, rejectedAt := some now })
  | cleared {name : String} {record : ScriptRecord} : Transition now auto (.clear name) (some record) none

/-- From which states an operation succeeds; approve asks for the file of the waiting version too. -/
def Permitted (host : Host) (w : World) : Mutation → Prop
  | .stage name .. => w.memory.store.stateOf name ≠ .rejected
  | .approve name =>
    Waiting (w.memory.store.stateOf name) ∧ (w.disk.text? host (.pending name)).isSome
  | .reject name => Waiting (w.memory.store.stateOf name)
  | .clear name => w.memory.store.stateOf name ≠ .absent

def Repeats (w : World) : Mutation → Prop
  | .stage name _ md5 _ => AlreadyStaged w.memory.store name md5
  | .approve _ | .reject _ | .clear _ => False

def Overtakes (auto : Bool) (w : World) : Mutation → Prop
  | .stage name .. => auto = false ∧ w.memory.store.stateOf name = .updatePending
  | .approve _ | .reject _ | .clear _ => False

structure Follows (host : Host) (auto : Bool) (w : World) (mutation : Mutation)
    (result : Except Err Unit × World) : Prop where
  succeeds : result.1 = .ok () ↔ Permitted host w mutation
  refused : ∀ e, result.1 = .error e → (∃ message, e = .approval message) ∧ result.2 = w
  repeats : Repeats w mutation → result.2 = w
  moves : Permitted host w mutation → ¬ Repeats w mutation → ¬ Overtakes auto w mutation →
    Transition w.now auto mutation (w.record mutation.name) (result.2.record mutation.name)
  others : ∀ other, other ≠ mutation.name → result.2.record other = w.record other

abbrev Operation := Timestamp × List String × Mutation

def serve (host : Host) (w : World) (operation : Operation) : World :=
  Mutation.serve host operation.2.1 w (operation.1, operation.2.2)

def Listed (w : World) : Prop := ∀ name record, w.record name = some record → record.state ≠ .absent

section
variable {host : Host} {w : World} {autoApprove : List String}

theorem stagedRecord_present (auto : Bool) (record : Option ScriptRecord) (md5 : String) (now : Timestamp) :
    (stagedRecord auto record md5 now).state ≠ .absent := by
  unfold stagedRecord
  split_ifs
  · nofun
  · split <;> nofun

theorem listed_serve (listed : Listed w) (operation : Operation) : Listed (serve host w operation) := by
  obtain ⟨now, autoApprove, mutation⟩ := operation
  intro name record found
  have ends := mutation.outcome host autoApprove (w.atTime now)
  unfold serve Mutation.serve at found
  dsimp only at found
  generalize host.run (mutation.action host autoApprove) (w.atTime now) = result at ends found
  cases ends with
  | refused | unchanged => exact listed name record found
  | staged =>
    rw [World.record_staged] at found
    split_ifs at found
    · cases found
      exact stagedRecord_present _ _ _ _
    · exact listed name record found
  | approved =>
    rw [World.record_approved] at found
    split_ifs at found
    · cases found
      nofun
    · exact listed name record found
  | rejected =>
    rw [World.record_rejected] at found
    split_ifs at found
    · cases found
      nofun
    · exact listed name record found
  | cleared =>
    rw [World.record_cleared] at found
    split_ifs at found
    exact listed name record found

theorem listed_run (operations : List Operation) : Listed (run (serve host) World.fresh operations) := by
  apply invariant_run_of_forall Listed
  · exact fun _ operation listed => listed_serve listed operation
  · intro name record found
    cases found

theorem stateOf_cases (listed : Listed w) (name : String) :
    (w.record name = none ∧ w.memory.store.stateOf name = .absent) ∨
      ∃ record, w.record name = some record ∧ w.memory.store.stateOf name = record.state ∧
        record.state ≠ .absent := by
  cases found : w.record name with
  | none =>
    refine .inl ⟨rfl, ?_⟩
    rw [ApprovalsStore.stateOf, show w.memory.store.scripts.get? name = none from found]
    rfl
  | some record =>
    exact .inr ⟨record, rfl, World.stateOf_of_record found, listed name record found⟩

theorem follows_stage (listed : Listed w) (name content md5 : String) (metaYaml : Option String) :
    Follows host (decide (name ∈ autoApprove)) w (.stage name content md5 metaYaml)
      (host.run (Mutation.action host autoApprove (.stage name content md5 metaYaml)) w) := by
  have others (other : String) := @Mutation.record_run_of_ne (.stage name content md5 metaYaml) host autoApprove w other
  by_cases rejected : w.memory.store.stateOf name = .rejected
  · have ran : host.run (Mutation.action host autoApprove (.stage name content md5 metaYaml)) w =
        (.error (isRejected name), w) := by
      simp [Mutation.action, run_stage, rejected]
    rw [ran] at others ⊢
    exact ⟨iff_of_false (by intro same; cases same) (absurd rejected), fun e raised => ⟨⟨_, (Except.error.inj raised).symm⟩, rfl⟩,
      fun _ => rfl, fun permitted => absurd rejected permitted, others⟩
  by_cases repeats : AlreadyStaged w.memory.store name md5
  · have ran : host.run (Mutation.action host autoApprove (.stage name content md5 metaYaml)) w = (.ok (), w) := by
      simp [Mutation.action, run_stage, rejected, repeats]
    rw [ran] at others ⊢
    exact ⟨iff_of_true rfl rejected, (by intro e raised; cases raised), fun _ => rfl, fun _ fresh => absurd repeats fresh, others⟩
  · have ran : host.run (Mutation.action host autoApprove (.stage name content md5 metaYaml)) w =
        (.ok (), w.staged host autoApprove name content md5 metaYaml) := by
      simp [Mutation.action, run_stage, rejected, repeats]
    rw [ran] at others ⊢
    refine ⟨iff_of_true rfl rejected, (by intro e raised; cases raised), fun same => absurd same repeats, ?_, others⟩
    intro _ _ ahead
    change Transition w.now _ _ (w.record name) ((w.staged host autoApprove name content md5 metaYaml).record name)
    rw [World.record_staged, if_pos rfl]
    generalize decide (name ∈ autoApprove) = auto at ahead ⊢
    cases auto with
    | true => exact .promoted rfl
    | false =>
      rcases stateOf_cases listed name with ⟨none, _⟩ | ⟨record, found, state, present⟩
      · rw [none]
        exact .first rfl
      · rw [found]
        rw [state] at rejected
        -- a third version over a waiting update is in no row of the table
        have waits : record.state ≠ .updatePending := fun same => ahead ⟨rfl, state.trans same⟩
        obtain ⟨kind, approvedMd5, approvedAt, approvedVia, pendingMd5, rejectedAt⟩ := record
        cases kind with
        | absent => exact absurd rfl present
        | pending => exact .restaged rfl rfl
        | approved => exact .updated rfl rfl
        | updatePending => exact absurd rfl waits
        | rejected => exact absurd rfl rejected

theorem follows_refused {auto : Bool} {mutation : Mutation} {message : String}
    (forbidden : ¬ Permitted host w mutation) (never : ¬ Repeats w mutation) :
    Follows host auto w mutation (.error (.approval message), w) where
  succeeds := iff_of_false nofun forbidden
  refused := fun _ raised => ⟨⟨message, (Except.error.inj raised).symm⟩, rfl⟩
  repeats := fun same => absurd same never
  moves := fun permitted => absurd permitted forbidden
  others := fun _ _ => rfl

theorem follows_moved {auto : Bool} {mutation : Mutation} {after : World}
    (permitted : Permitted host w mutation) (never : ¬ Repeats w mutation)
    (moves : Transition w.now auto mutation (w.record mutation.name) (after.record mutation.name))
    (others : ∀ other, other ≠ mutation.name → after.record other = w.record other) :
    Follows host auto w mutation (.ok (), after) where
  succeeds := iff_of_true rfl permitted
  refused := nofun
  repeats := fun same => absurd same never
  moves := fun _ _ _ => moves
  others := others

theorem waiting_iff (listed : Listed w) (name : String) :
    Waiting (w.memory.store.stateOf name) ↔ ∃ record, w.record name = some record ∧ Waiting record.state := by
  rcases stateOf_cases listed name with ⟨none, absent⟩ | ⟨record, found, state, _⟩
  · rw [absent, none]
    apply iff_of_false
    · rintro (waiting | waiting) <;> cases waiting
    · rintro ⟨_, found, _⟩
      cases found
  · rw [state, found]
    constructor
    · exact fun waiting => ⟨record, rfl, waiting⟩
    · rintro ⟨_, same, waiting⟩
      cases same
      exact waiting

theorem follows_approve (listed : Listed w) (auto : Bool) (name : String) :
    Follows host auto w (.approve name) (host.run (Mutation.action host autoApprove (.approve name)) w) := by
  rw [Mutation.action, run_approve]
  have permitted := waiting_iff listed name
  split
  next none =>
    apply follows_refused _ id
    rintro ⟨waiting, _⟩
    obtain ⟨_, found, _⟩ := permitted.mp waiting
    cases none.symm.trans found
  next record found =>
    split_ifs with waiting present
    · apply follows_moved _ id
      · change Transition _ _ _ (w.record name) ((w.approved host name record.pendingMd5).record name)
        rw [World.record_approved, if_pos rfl, show w.record name = some record from found]
        exact .approved waiting
      · intro other apart
        rw [World.record_approved]
        exact if_neg apart
      · rw [← Disk.isSome_text?] at present
        exact ⟨permitted.mpr ⟨record, found, waiting⟩, present⟩
    · apply follows_refused _ id
      rintro ⟨_, here⟩
      rw [Disk.isSome_text?] at here
      exact present here
    · apply follows_refused _ id
      rintro ⟨waits, _⟩
      obtain ⟨_, same, waits⟩ := permitted.mp waits
      cases found.symm.trans same
      exact waiting waits

theorem follows_reject (listed : Listed w) (auto : Bool) (name : String) :
    Follows host auto w (.reject name) (host.run (Mutation.action host autoApprove (.reject name)) w) := by
  rw [Mutation.action, run_reject]
  have permitted := waiting_iff listed name
  split
  next none =>
    apply follows_refused _ id
    intro waiting
    obtain ⟨_, found, _⟩ := permitted.mp waiting
    cases none.symm.trans found
  next record found =>
    split_ifs with waiting
    · apply follows_moved _ id
      · change Transition _ _ _ (w.record name) ((w.rejected host name).record name)
        rw [World.record_rejected, if_pos rfl, show w.record name = some record from found]
        exact .rejected waiting
      · intro other apart
        rw [World.record_rejected]
        exact if_neg apart
      · exact permitted.mpr ⟨record, found, waiting⟩
    · apply follows_refused _ id
      intro waits
      obtain ⟨_, same, waits⟩ := permitted.mp waits
      cases found.symm.trans same
      exact waiting waits

theorem follows_clear (listed : Listed w) (auto : Bool) (name : String) :
    Follows host auto w (.clear name) (host.run (Mutation.action host autoApprove (.clear name)) w) := by
  rw [Mutation.action, run_clear]
  rcases stateOf_cases listed name with ⟨missing, absent⟩ | ⟨record, found, state, present⟩
  · rw [show w.memory.store.scripts.get? name = none from missing]
    exact follows_refused (fun permitted => permitted absent) id
  · rw [show w.memory.store.scripts.get? name = some record from found]
    apply follows_moved _ id
    · change Transition _ _ _ (w.record name) ((w.cleared host name).record name)
      rw [World.record_cleared, if_pos rfl, found]
      exact .cleared
    · intro other apart
      rw [World.record_cleared]
      exact if_neg apart
    · intro absent
      exact present (state.symm.trans absent)

end

theorem stage_answers {host : Host} {w w' : World} {autoApprove : List String} {name content md5 : String}
    {metaYaml : Option String} {state : ApprovalState}
    (ran : host.run (stage host autoApprove name content md5 metaYaml) w = (.ok state, w')) :
    w'.memory.store.stateOf name = state := by
  rw [run_stage] at ran
  split_ifs at ran with rejected repeats
  · cases ran
  · cases ran
    rfl
  · cases ran
    apply World.stateOf_of_record
    rw [World.record_staged, if_pos rfl]
    rfl

def whitelisted : World :=
  run (serve linux) World.fresh
    [("1", ["deploy"], .stage "deploy" "echo one" "md5-one" none),
      ("2", ["deploy"], .stage "deploy" "echo two" "md5-two" none)]

def overtaken : World :=
  run (serve linux) World.fresh
    [("1", [], .stage "deploy" "echo one" "md5-one" none), ("2", [], .approve "deploy"),
      ("3", [], .stage "deploy" "echo two" "md5-two" none), ("4", [], .stage "deploy" "echo six" "md5-six" none)]

end Csl.Agent.Table
