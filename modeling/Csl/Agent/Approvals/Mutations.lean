import Csl.Agent.Approvals.Specs
import Csl.Library.Runs

/-! The four calls that change approvals, as data, and what each can do.

A mutation is refused, finds nothing to do, or takes effect; when it is refused or
finds nothing to do it leaves the world as it was.
-/

set_option autoImplicit false

namespace Csl.Agent
open Csl.Shared ApprovalsManager Runs

inductive Mutation where
  | stage (name content md5 : String) (metaYaml : Option String)
  | approve (name : String)
  | reject (name : String)
  | clear (name : String)
  deriving DecidableEq, Repr

namespace Mutation

def name : Mutation → String
  | .stage name .. | .approve name | .reject name | .clear name => name

def action (host : Host) (autoApprove : List String) : Mutation → Action Unit
  | .stage name content md5 metaYaml => do
      let _ ← ApprovalsManager.stage host autoApprove name content md5 metaYaml
  | .approve name => ApprovalsManager.approve host name
  | .reject name => ApprovalsManager.reject host name
  | .clear name => ApprovalsManager.clear host name

inductive Outcome (host : Host) (autoApprove : List String) (w : World) :
    Mutation → Except Err Unit × World → Prop where
  | refused {mutation : Mutation} {e : Err} : Outcome host autoApprove w mutation (.error e, w)
  | unchanged {name content md5 : String} {metaYaml : Option String} :
      AlreadyStaged w.memory.store name md5 →
      Outcome host autoApprove w (.stage name content md5 metaYaml) (.ok (), w)
  | staged {name content md5 : String} {metaYaml : Option String} :
      w.memory.store.stateOf name ≠ .rejected → ¬ AlreadyStaged w.memory.store name md5 →
      Outcome host autoApprove w (.stage name content md5 metaYaml)
        (.ok (), w.staged host autoApprove name content md5 metaYaml)
  | approved {name : String} {record : ScriptRecord} :
      w.memory.store.scripts.get? name = some record → Waiting record.state →
      (w.disk.read host (.pending name)).isSome →
      Outcome host autoApprove w (.approve name) (.ok (), w.approved host name record.pendingMd5)
  | rejected {name : String} {record : ScriptRecord} :
      w.memory.store.scripts.get? name = some record → Waiting record.state →
      Outcome host autoApprove w (.reject name) (.ok (), w.rejected host name)
  | cleared {name : String} {record : ScriptRecord} :
      w.memory.store.scripts.get? name = some record →
      Outcome host autoApprove w (.clear name) (.ok (), w.cleared host name)

variable (host : Host) (autoApprove : List String)

theorem outcome (mutation : Mutation) (w : World) :
    Outcome host autoApprove w mutation (host.run (mutation.action host autoApprove) w) := by
  cases mutation with
  | stage name content md5 metaYaml =>
    simp only [action, Proc.run_bind, run_stage]
    split
    · exact .refused
    next notRejected =>
      split
      next same => exact .unchanged same
      next moves => exact .staged notRejected moves
  | approve name =>
    rw [action, run_approve]
    split
    · exact .refused
    next record found =>
      split
      next waiting =>
        split
        next present => exact .approved found waiting present
        · exact .refused
      · exact .refused
  | reject name =>
    rw [action, run_reject]
    split
    · exact .refused
    next record found =>
      split
      next waiting => exact .rejected found waiting
      · exact .refused
  | clear name =>
    rw [action, run_clear]
    split
    · exact .refused
    next record found => exact .cleared found

end Mutation

namespace World

def record (w : World) (name : String) : Option ScriptRecord := w.memory.store.scripts.get? name

theorem stateOf_of_record {w : World} {name : String} {record : ScriptRecord}
    (found : w.record name = some record) : w.memory.store.stateOf name = record.state :=
  ApprovalsStore.stateOf_of_get? found

def atTime (w : World) (now : Timestamp) : World := { w with now }

variable (host : Host) (w : World)

@[simp] theorem record_atTime (now : Timestamp) (name : String) : (w.atTime now).record name = w.record name := rfl

@[simp] theorem atTime_memory (now : Timestamp) : (w.atTime now).memory = w.memory := rfl

@[simp] theorem atTime_disk (now : Timestamp) : (w.atTime now).disk = w.disk := rfl

@[simp] theorem synced_atTime (now : Timestamp) : (w.atTime now).Synced host ↔ w.Synced host :=
  ⟨fun synced => ⟨synced.sig, synced.store⟩, fun synced => ⟨synced.sig, synced.store⟩⟩

theorem record_staged (autoApprove : List String) (name content md5 : String)
    (metaYaml : Option String) (other : String) :
    (w.staged host autoApprove name content md5 metaYaml).record other =
      if other = name then
        some (stagedRecord (decide (name ∈ autoApprove)) (w.record name) md5 w.now)
      else w.record other := Dict.get?_set _ _ _ _

theorem record_approved (name : String) (md5 : Option String) (other : String) :
    (w.approved host name md5).record other =
      if other = name then
        some { state := .approved, approvedMd5 := md5, approvedAt := some w.now,
               approvedVia := some .cli }
      else w.record other := Dict.get?_set _ _ _ _

theorem record_rejected (name other : String) :
    (w.rejected host name).record other =
      if other = name then some { state := .rejected, rejectedAt := some w.now }
      else w.record other := Dict.get?_set _ _ _ _

theorem record_cleared (name other : String) :
    (w.cleared host name).record other = if other = name then none else w.record other :=
  Dict.get?_pop _ _ _

end World

theorem stagedRecord_approved {auto : Bool} {record : Option ScriptRecord} {md5 : String}
    {now : Timestamp} (approved : (stagedRecord auto record md5 now).state = .approved) :
    auto = true ∧ (stagedRecord auto record md5 now).approvedMd5 = some md5 := by
  cases auto with
  | true => exact ⟨rfl, rfl⟩
  | false =>
    simp only [stagedRecord, Bool.false_eq_true, if_false] at approved
    split at approved <;> cases approved

theorem stagedRecord_waiting {auto : Bool} {record : Option ScriptRecord} {md5 : String}
    {now : Timestamp} (waiting : Waiting (stagedRecord auto record md5 now).state) :
    auto = false ∧ (stagedRecord auto record md5 now).pendingMd5 = some md5 := by
  cases auto with
  | true => rcases waiting with waiting | waiting <;> cases waiting
  | false =>
    refine ⟨rfl, ?_⟩
    simp only [stagedRecord, Bool.false_eq_true, if_false]
    split <;> rfl

theorem waiting_stagedRecord (record : Option ScriptRecord) (md5 : String) (now : Timestamp) :
    Waiting (stagedRecord false record md5 now).state := by
  simp only [stagedRecord, Bool.false_eq_true, if_false]
  split
  · exact .inr rfl
  · exact .inl rfl

namespace Mutation
variable {host : Host} {autoApprove : List String}

theorem synced_run (mutation : Mutation) {w : World} (synced : w.Synced host) :
    (host.run (mutation.action host autoApprove) w).2.Synced host := by
  have ends := mutation.outcome host autoApprove w
  generalize host.run (mutation.action host autoApprove) w = result at ends ⊢
  cases ends with
  | refused | unchanged => exact synced
  | staged | approved | rejected | cleared => exact World.saved_synced _

/-- A mutation touches the record of its own name only. -/
theorem record_run_of_ne (mutation : Mutation) (host : Host) (autoApprove : List String) (w : World)
    {other : String}
    (apart : other ≠ mutation.name) :
    (host.run (mutation.action host autoApprove) w).2.record other = w.record other := by
  have ends := mutation.outcome host autoApprove w
  generalize host.run (mutation.action host autoApprove) w = result at ends ⊢
  cases ends with
  | refused | unchanged => rfl
  | staged => exact (World.record_staged _ _ _ _ _ _ _ _).trans (if_neg apart)
  | approved => exact (World.record_approved _ _ _ _ _).trans (if_neg apart)
  | rejected => exact (World.record_rejected _ _ _ _).trans (if_neg apart)
  | cleared => exact (World.record_cleared _ _ _ _).trans (if_neg apart)

theorem launched_run (mutation : Mutation) (w : World) :
    (host.run (mutation.action host autoApprove) w).2.launched = w.launched := by
  have ends := mutation.outcome host autoApprove w
  generalize host.run (mutation.action host autoApprove) w = result at ends ⊢
  cases ends <;> rfl

theorem run_stage_moves (host : Host) (autoApprove : List String) {w : World} {name md5 : String}
    (notRejected : w.memory.store.stateOf name ≠ .rejected)
    (moves : ¬ AlreadyStaged w.memory.store name md5) (content : String) (metaYaml : Option String) :
    (host.run ((stage name content md5 metaYaml).action host autoApprove) w).2 =
      w.staged host autoApprove name content md5 metaYaml := by
  simp [action, run_stage, notRejected, moves]

theorem run_stage_absent (host : Host) (autoApprove : List String) {w : World} {name : String}
    (absent : w.record name = none) (content md5 : String) (metaYaml : Option String) :
    (host.run ((stage name content md5 metaYaml).action host autoApprove) w).2 =
      w.staged host autoApprove name content md5 metaYaml := by
  have record : w.memory.store.scripts.get? name = none := absent
  have state : w.memory.store.stateOf name = .absent := by
    rw [ApprovalsStore.stateOf, record]
    rfl
  apply run_stage_moves host autoApprove
  · simp [state]
  · simp [AlreadyStaged, state]

/-- The files a mutation leaves when it takes effect, before the store is saved. -/
def finished (host : Host) (autoApprove : List String) (mutation : Mutation) (disk : Disk) : Disk :=
  match mutation with
  | .stage name content _ metaYaml =>
    if name ∈ autoApprove then (disk.staged host name content metaYaml).promoted host name
    else disk.staged host name content metaYaml
  | .approve name => disk.promoted host name
  | .reject name | .clear name => disk.removed host name

def Effective (host : Host) (w : World) : Mutation → Prop
  | .stage name _ md5 _ =>
    w.memory.store.stateOf name ≠ .rejected ∧ ¬ AlreadyStaged w.memory.store name md5
  | .approve name => (∃ record, w.record name = some record ∧ Waiting record.state) ∧
      (w.disk.text? host (.pending name)).isSome
  | .reject name => ∃ record, w.record name = some record ∧ Waiting record.state
  | .clear name => ∃ record, w.record name = some record

instance (w : World) (mutation : Mutation) : Decidable (Effective host w mutation) := by
  have waits : ∀ name, Decidable (∃ record, w.record name = some record ∧ Waiting record.state) :=
    fun name => decidable_of_iff (∃ record ∈ w.record name, Waiting record.state) Iff.rfl
  have known : ∀ name, Decidable (∃ record, w.record name = some record) :=
    fun name => decidable_of_iff ((w.record name).isSome) Option.isSome_iff_exists
  cases mutation <;> unfold Effective <;> infer_instance

def newStore (autoApprove : List String) (w : World) : Mutation → ApprovalsStore
  | .stage name _ md5 _ => ⟨w.memory.store.scripts.set name
      (stagedRecord (decide (name ∈ autoApprove)) (w.record name) md5 w.now)⟩
  | .approve name => ⟨w.memory.store.scripts.set name
      { state := .approved, approvedMd5 := (w.record name).bind (·.pendingMd5),
        approvedAt := some w.now, approvedVia := some .cli }⟩
  | .reject name =>
    ⟨w.memory.store.scripts.set name { state := .rejected, rejectedAt := some w.now }⟩
  | .clear name => ⟨w.memory.store.scripts.pop name⟩

theorem run_effective {w : World} {mutation : Mutation} (effective : Effective host w mutation) :
    host.run (mutation.action host autoApprove) w =
      (.ok (), ({ w with disk := finished host autoApprove mutation w.disk }).saved host
        (newStore autoApprove w mutation)) := by
  cases mutation with
  | stage name content md5 metaYaml =>
    obtain ⟨notRejected, moves⟩ := effective
    simp only [Mutation.action, Proc.run_bind, run_stage, if_neg notRejected, if_neg moves]
    rfl
  | approve name =>
    obtain ⟨⟨record, found, waiting⟩, present⟩ := effective
    rw [Disk.isSome_text?] at present
    rw [Mutation.action, run_approve, show w.memory.store.scripts.get? name = _ from found]
    simp only [if_pos waiting, if_pos present, newStore, found]
    rfl
  | reject name =>
    obtain ⟨record, found, waiting⟩ := effective
    rw [Mutation.action, run_reject, show w.memory.store.scripts.get? name = _ from found]
    simp only [if_pos waiting]
    rfl
  | clear name =>
    obtain ⟨record, found⟩ := effective
    rw [Mutation.action, run_clear, show w.memory.store.scripts.get? name = _ from found]
    rfl

/-- A mutation changes nothing or takes effect. -/
theorem run_cases (autoApprove : List String) (mutation : Mutation) (w : World) :
    (host.run (mutation.action host autoApprove) w).2 = w ∨ Effective host w mutation := by
  have ends := mutation.outcome host autoApprove w
  generalize host.run (mutation.action host autoApprove) w = result at ends ⊢
  cases ends with
  | refused | unchanged => exact .inl rfl
  | staged notRejected moves => exact .inr ⟨notRejected, moves⟩
  | approved found waiting present =>
    refine .inr ⟨⟨_, found, waiting⟩, ?_⟩
    rwa [Disk.isSome_text?]
  | rejected found waiting => exact .inr ⟨_, found, waiting⟩
  | cleared found => exact .inr ⟨_, found⟩

/-- The files of a name, the only ones a mutation of that name writes, moves or removes. -/
def Touches (host : Host) (name : String) (path : Path) : Prop :=
  host.canonical path = host.canonical (.scripts name) ∨
    host.canonical path = host.canonical (.scripts (metaFile name)) ∨
    host.canonical path = host.canonical (.pending name) ∨
    host.canonical path = host.canonical (.pending (metaFile name))

theorem text?_run_of_not_touched (mutation : Mutation) (w : World) {path : Path}
    (apart : ¬ Touches host mutation.name path) (notStore : path ≠ .approvals)
    (notTmp : path ≠ .approvalsTmp) :
    (host.run (mutation.action host autoApprove) w).2.disk.text? host path =
      w.disk.text? host path := by
  have ends := mutation.outcome host autoApprove w
  generalize host.run (mutation.action host autoApprove) w = result at ends ⊢
  unfold Touches at apart
  simp only [not_or] at apart
  obtain ⟨script, scriptMeta, pending, pendingMeta⟩ := apart
  cases ends with
  | refused | unchanged => rfl
  | staged =>
    simp only [name] at script scriptMeta pending pendingMeta
    simp only [World.staged, World.saved, Disk.text?_saved_of_ne notStore notTmp]
    split
    · simp [Disk.text?_promoted, Disk.text?_staged, script, scriptMeta, pending, pendingMeta]
    · simp [Disk.text?_staged, pending, pendingMeta]
  | approved =>
    simp only [name] at script scriptMeta pending pendingMeta
    simp only [World.approved, World.saved, Disk.text?_saved_of_ne notStore notTmp]
    simp [Disk.text?_promoted, script, scriptMeta, pending, pendingMeta]
  | rejected =>
    simp only [name] at script scriptMeta pending pendingMeta
    simp only [World.rejected, World.saved, Disk.text?_saved_of_ne notStore notTmp]
    simp [Disk.text?_removed, script, scriptMeta, pending, pendingMeta]
  | cleared =>
    simp only [name] at script scriptMeta pending pendingMeta
    simp only [World.cleared, World.saved, Disk.text?_saved_of_ne notStore notTmp]
    simp [Disk.text?_removed, script, scriptMeta, pending, pendingMeta]

end Mutation

/-! ## Modification times -/

section
variable (host : Host) (disk : Disk)

@[simp] theorem writes_write (path : Path) (text : String) :
    (disk.write host path text).writes = disk.writes + 1 := rfl

@[simp] theorem writes_rename (source target : Path) :
    (disk.rename host source target).writes = disk.writes := rfl

theorem writes_promoted (name : String) : (disk.promoted host name).writes = disk.writes := by
  unfold Disk.promoted Disk.movedIfPresent
  split <;> rfl

theorem writes_staged (name content : String) (metaYaml : Option String) :
    disk.writes ≤ (disk.staged host name content metaYaml).writes := by
  cases metaYaml <;> simp [Disk.staged]
  omega

theorem writes_finished (autoApprove : List String) (mutation : Mutation) :
    disk.writes ≤ (mutation.finished host autoApprove disk).writes := by
  cases mutation with
  | stage name content md5 metaYaml =>
    have staged := writes_staged host disk name content metaYaml
    by_cases auto : name ∈ autoApprove
    · simpa [Mutation.finished, auto, writes_promoted] using staged
    · simpa [Mutation.finished, auto] using staged
  | approve name => exact (writes_promoted host disk name).ge
  | reject name | clear name => exact le_rfl

theorem currentSig_saved (store : ApprovalsStore) :
    ((disk.saved host store).currentSig host).1 = disk.writes + 1 := by
  simp [Disk.currentSig, Disk.saved, Disk.read_rename, Disk.read_write, Host.canonical]

end

/-! ## Runs of mutations -/

/-- An installation nothing has been staged on, and a manager just constructed on it. -/
def World.fresh : World := ⟨⟨.empty, (0, 0)⟩, .empty, "", []⟩

theorem fresh_synced (host : Host) : World.fresh.Synced host := ⟨rfl, rfl⟩

def Mutation.serve (host : Host) (autoApprove : List String) (w : World)
    (event : Timestamp × Mutation) : World :=
  (host.run (event.2.action host autoApprove) (w.atTime event.1)).2

def Reached (host : Host) (autoApprove : List String) (w : World) : Prop :=
  ∃ events, w = run (Mutation.serve host autoApprove) World.fresh events

theorem Reached.synced {host : Host} {autoApprove : List String} {w : World}
    (reached : Reached host autoApprove w) : w.Synced host := by
  obtain ⟨events, rfl⟩ := reached
  apply invariant_run_of_forall (World.Synced host) _ (fresh_synced host)
  intro before event synced
  exact event.2.synced_run ((World.synced_atTime host before event.1).mpr synced)

theorem Reached.serve {host : Host} {autoApprove : List String} {w : World}
    (reached : Reached host autoApprove w) (event : Timestamp × Mutation) :
    Reached host autoApprove (Mutation.serve host autoApprove w event) := by
  obtain ⟨events, rfl⟩ := reached
  exact ⟨events ++ [event], (run_snoc _ _ _ _).symm⟩

end Csl.Agent
