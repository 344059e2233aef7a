import Csl.Agent.Cli.Approvals
import Csl.Agent.Installation

/-! The command that purges records whose files are gone.

For each record of a snapshot one file is looked for, and a record without it is
cleared, with all files that go by its name. What is looked for is decided by the
state, and the files may be those of another record too.
-/

set_option autoImplicit false

namespace Csl.Agent.Purge
open Csl.Shared ApprovalsManager

structure Tally where
  wouldRemove : List ScriptDescriptor := []
  removed : Nat := 0
  skipped : Nat := 0
  /-- The names that could not be cleared, each with the reason. -/
  warnings : List (String × String) := []

def backing (descriptor : ScriptDescriptor) : Option Path :=
  match descriptor.state with
  | .approved => some (.scripts descriptor.name)
  | .pending | .updatePending => some (.pending descriptor.name)
  | .absent | .rejected => none

variable (host : Host)

def purgeOne (dryRun : Bool) (tally : Tally) (descriptor : ScriptDescriptor) : Action Tally :=
  match backing descriptor with
  | none => return { tally with skipped := tally.skipped + 1 }
  | some file => do
    if (← pathExists file) then
      return { tally with skipped := tally.skipped + 1 }
    else if dryRun then
      return { tally with wouldRemove := tally.wouldRemove ++ [descriptor] }
    else
      tryCatch (do
        ApprovalsManager.clear host descriptor.name
        return { tally with removed := tally.removed + 1 })
        fun
          | .approval message => return { tally with
              warnings := tally.warnings ++ [(descriptor.name, message)] }
          | e => throw e

/-- The loop over the snapshot. -/
def purgeAll (dryRun : Bool) : Tally → List ScriptDescriptor → Action Tally
  | tally, [] => return tally
  | tally, descriptor :: rest => do
    let next ← purgeOne host dryRun tally descriptor
    purgeAll dryRun next rest

def cmdApprovalsPurge (dryRun : Bool) : Action Tally := do
  ApprovalsManager.init host
  let descriptors ← listAll host
  purgeAll host dryRun {} descriptors

/-! ## Run to its end -/

def Orphan (disk : Disk) (descriptor : ScriptDescriptor) : Prop :=
  ∃ file ∈ backing descriptor, disk.text? host file = none

instance (disk : Disk) (descriptor : ScriptDescriptor) : Decidable (Orphan host disk descriptor) :=
  decidable_of_iff ((backing descriptor).any fun file => disk.text? host file = none) (by
    cases found : backing descriptor <;> simp [Orphan, found])

/-- What the command leaves of a world: every record that is an orphan when its turn comes is cleared. -/
def swept : List ScriptDescriptor → World → World
  | [], w => w
  | descriptor :: rest, w =>
    swept rest (if Orphan host w.disk descriptor then w.cleared host descriptor.name else w)

variable {host}

theorem run_purgeOne_dry (tally : Tally) (descriptor : ScriptDescriptor) (w : World) :
    host.run (purgeOne host true tally descriptor) w =
      (.ok (if Orphan host w.disk descriptor then { tally with wouldRemove := tally.wouldRemove ++ [descriptor] }
        else { tally with skipped := tally.skipped + 1 }), w) := by
  cases found : backing descriptor with
  | none => simp [purgeOne, Orphan, found]
  | some file =>
    cases there : w.disk.read host file with
    | none => simp [purgeOne, Orphan, found, there, Disk.text?]
    | some stored => simp [purgeOne, Orphan, found, there, Disk.text?]

theorem run_purgeOne {tally : Tally} {descriptor : ScriptDescriptor} {w : World}
    (known : (w.memory.store.scripts.get? descriptor.name).isSome) :
    ∃ next, host.run (purgeOne host false tally descriptor) w =
      (.ok next, if Orphan host w.disk descriptor then w.cleared host descriptor.name else w) := by
  cases found : backing descriptor with
  | none => exact ⟨_, by simp [purgeOne, Orphan, found]; rfl⟩
  | some file =>
    cases there : w.disk.read host file with
    | some stored => exact ⟨_, by simp [purgeOne, Orphan, found, there, Disk.text?]; rfl⟩
    | none =>
      obtain ⟨record, has⟩ := Option.isSome_iff_exists.mp known
      have cleared : host.run (clear host descriptor.name) w = _ := run_clear descriptor.name w
      rw [has] at cleared
      exact ⟨_, by simp [purgeOne, Orphan, found, there, Disk.text?, cleared]; rfl⟩

theorem run_purgeAll_dry (tally : Tally) (descriptors : List ScriptDescriptor) (w : World) :
    ∃ last, host.run (purgeAll host true tally descriptors) w = (.ok last, w) ∧
      last.wouldRemove = tally.wouldRemove ++ descriptors.filter (fun d => Orphan host w.disk d) := by
  induction descriptors generalizing tally with
  | nil => exact ⟨tally, Proc.run_pure _ _ _, by simp⟩
  | cons descriptor rest ih =>
    obtain ⟨last, done, removed⟩ := ih (if Orphan host w.disk descriptor then
      { tally with wouldRemove := tally.wouldRemove ++ [descriptor] } else { tally with skipped := tally.skipped + 1 })
    refine ⟨last, ?_, ?_⟩
    · simp only [purgeAll, Proc.run_bind, run_purgeOne_dry, Proc.follow_ok]
      exact done
    · rw [removed]
      by_cases orphan : Orphan host w.disk descriptor <;> simp [orphan]

/-! ## Clearing -/

def Removes (host : Host) (name : String) (path : Path) : Prop :=
  host.canonical path = host.canonical (.scripts name) ∨
    host.canonical path = host.canonical (.scripts (metaFile name)) ∨
    host.canonical path = host.canonical (.pending name) ∨
    host.canonical path = host.canonical (.pending (metaFile name))

instance (name : String) (path : Path) : Decidable (Removes host name path) := inferInstanceAs (Decidable (_ ∨ _))

def ScriptFile (path : Path) : Prop := ∃ file, path = .scripts file ∨ path = .pending file

theorem text?_cleared {path : Path} (script : ScriptFile path) (name : String) (w : World) :
    (w.cleared host name).disk.text? host path = if Removes host name path then none else w.disk.text? host path := by
  have notStore : path ≠ .approvals := by
    rintro rfl
    obtain ⟨_, same | same⟩ := script <;> cases same
  have notTmp : path ≠ .approvalsTmp := by
    rintro rfl
    obtain ⟨_, same | same⟩ := script <;> cases same
  exact (Disk.text?_saved_of_ne notStore notTmp).trans (Disk.text?_removed name path)

theorem get?_cleared (name other : String) (w : World) : (w.cleared host name).memory.store.scripts.get? other =
    if other = name then none else w.memory.store.scripts.get? other := Dict.get?_pop _ _ _

theorem scriptFile_backing {descriptor : ScriptDescriptor} {file : Path} (looked : file ∈ backing descriptor) :
    ScriptFile file := by
  obtain ⟨name, state, _, _⟩ := descriptor
  cases state <;> cases looked
  · exact ⟨name, .inr rfl⟩
  · exact ⟨name, .inl rfl⟩
  · exact ⟨name, .inr rfl⟩

/-- Files only go, so an orphan stays one. -/
theorem orphan_cleared {descriptor : ScriptDescriptor} {w : World} (orphan : Orphan host w.disk descriptor) (name : String) :
    Orphan host (w.cleared host name).disk descriptor := by
  obtain ⟨file, looked, gone⟩ := orphan
  refine ⟨file, looked, ?_⟩
  rw [text?_cleared (scriptFile_backing looked), gone, ite_self]

def turn (host : Host) (w : World) (descriptor : ScriptDescriptor) : World :=
  if Orphan host w.disk descriptor then w.cleared host descriptor.name else w

theorem swept_cons (descriptor : ScriptDescriptor) (rest : List ScriptDescriptor) (w : World) :
    swept host (descriptor :: rest) w = swept host rest (turn host w descriptor) := rfl

theorem text?_turn_none {path : Path} (script : ScriptFile path) {w : World} (gone : w.disk.text? host path = none)
    (descriptor : ScriptDescriptor) : (turn host w descriptor).disk.text? host path = none := by
  rw [turn]
  split_ifs
  · rw [text?_cleared script, gone, ite_self]
  · exact gone

theorem get?_of_turn {name : String} {record : ScriptRecord} {w : World} {descriptor : ScriptDescriptor}
    (left : (turn host w descriptor).memory.store.scripts.get? name = some record) :
    w.memory.store.scripts.get? name = some record := by
  rw [turn] at left
  split_ifs at left
  · rw [get?_cleared] at left
    split_ifs at left
    exact left
  · exact left

theorem orphan_turn {descriptor : ScriptDescriptor} {w : World} (orphan : Orphan host w.disk descriptor)
    (other : ScriptDescriptor) : Orphan host (turn host w other).disk descriptor := by
  rw [turn]
  split_ifs
  · exact orphan_cleared orphan other.name
  · exact orphan

theorem synced_turn {w : World} (synced : w.Synced host) (descriptor : ScriptDescriptor) :
    (turn host w descriptor).Synced host := by
  rw [turn]
  split_ifs
  · exact World.saved_synced _
  · exact synced

/-! ## The whole loop -/

section
variable {descriptors : List ScriptDescriptor} {w : World}

theorem synced_swept (synced : w.Synced host) : (swept host descriptors w).Synced host := by
  induction descriptors generalizing w with
  | nil => exact synced
  | cons descriptor rest ih => exact ih (synced_turn synced descriptor)

theorem text?_swept_none {path : Path} (script : ScriptFile path) (gone : w.disk.text? host path = none) :
    (swept host descriptors w).disk.text? host path = none := by
  induction descriptors generalizing w with
  | nil => exact gone
  | cons descriptor rest ih => exact ih (text?_turn_none script gone descriptor)

theorem get?_of_swept {name : String} {record : ScriptRecord}
    (left : (swept host descriptors w).memory.store.scripts.get? name = some record) :
    w.memory.store.scripts.get? name = some record := by
  induction descriptors generalizing w with
  | nil => exact left
  | cons descriptor rest ih => exact get?_of_turn (ih left)

/-- Of an orphan neither the record nor a file is left. -/
theorem swept_orphan {descriptor : ScriptDescriptor} (member : descriptor ∈ descriptors)
    (orphan : Orphan host w.disk descriptor) :
    (swept host descriptors w).memory.store.scripts.get? descriptor.name = none ∧
      ∀ path, ScriptFile path → Removes host descriptor.name path →
        (swept host descriptors w).disk.text? host path = none := by
  induction descriptors generalizing w with
  | nil => cases member
  | cons head rest ih =>
    rw [swept_cons]
    rcases List.mem_cons.mp member with same | later
    · subst same
      have cleared : turn host w descriptor = w.cleared host descriptor.name := if_pos orphan
      rw [cleared]
      constructor
      · cases left : (swept host rest (w.cleared host descriptor.name)).memory.store.scripts.get? descriptor.name with
        | none => rfl
        | some record =>
          have still := get?_of_swept left
          rw [get?_cleared, if_pos rfl] at still
          cases still
      · intro path script removes
        apply text?_swept_none script
        rw [text?_cleared script, if_pos removes]
    · exact ih later (orphan_turn orphan head)

/-- What the loop looks for is kept, where no orphan's files are among it. -/
theorem swept_kept (kept : Path → Prop) (script : ∀ path, kept path → ScriptFile path)
    (spared : ∀ d ∈ descriptors, Orphan host w.disk d → ∀ path, kept path → ¬ Removes host d.name path)
    (backed : ∀ d ∈ descriptors, ¬ Orphan host w.disk d → ∀ file ∈ backing d, kept file) :
    (∀ path, kept path → (swept host descriptors w).disk.text? host path = w.disk.text? host path) ∧
      ∀ name, (∀ d ∈ descriptors, d.name = name → ¬ Orphan host w.disk d) →
        (swept host descriptors w).memory.store.scripts.get? name = w.memory.store.scripts.get? name := by
  induction descriptors generalizing w with
  | nil => exact ⟨fun _ _ => rfl, fun _ _ => rfl⟩
  | cons head rest ih =>
    have files : ∀ path, kept path → (turn host w head).disk.text? host path = w.disk.text? host path := by
      intro path keeps
      rw [turn]
      split_ifs with orphan
      · rw [text?_cleared (script path keeps), if_neg (spared head List.mem_cons_self orphan path keeps)]
      · rfl
    -- so the others are orphans after this turn as before
    have same : ∀ d ∈ rest, Orphan host (turn host w head).disk d ↔ Orphan host w.disk d := by
      intro d member
      refine ⟨fun orphan => ?_, fun orphan => orphan_turn orphan head⟩
      by_contra present
      obtain ⟨file, looked, gone⟩ := orphan
      have keeps := backed d (List.mem_cons_of_mem head member) present file looked
      rw [files file keeps] at gone
      exact present ⟨file, looked, gone⟩
    obtain ⟨later, records⟩ := ih (w := turn host w head)
      (fun d member orphan => spared d (List.mem_cons_of_mem head member) ((same d member).mp orphan))
      (fun d member present => backed d (List.mem_cons_of_mem head member) (fun orphan => present ((same d member).mpr orphan)))
    rw [swept_cons]
    refine ⟨fun path keeps => (later path keeps).trans (files path keeps), fun name present => ?_⟩
    have first : (turn host w head).memory.store.scripts.get? name = w.memory.store.scripts.get? name := by
      rw [turn]
      split_ifs with orphan
      · have apart : name ≠ head.name := fun own => present head List.mem_cons_self own.symm orphan
        rw [get?_cleared, if_neg apart]
      · rfl
    rw [← first]
    exact records name (fun d member own orphan =>
      present d (List.mem_cons_of_mem head member) own ((same d member).mp orphan))

theorem run_purgeAll (tally : Tally) (names : (descriptors.map (·.name)).Nodup)
    (known : ∀ d ∈ descriptors, (w.memory.store.scripts.get? d.name).isSome) :
    ∃ last, host.run (purgeAll host false tally descriptors) w = (.ok last, swept host descriptors w) := by
  induction descriptors generalizing w tally with
  | nil => exact ⟨tally, Proc.run_pure _ _ _⟩
  | cons head rest ih =>
    obtain ⟨fresh, names⟩ := List.nodup_cons.mp names
    obtain ⟨next, first⟩ : ∃ next, host.run (purgeOne host false tally head) w = (.ok next, turn host w head) :=
      run_purgeOne (known head List.mem_cons_self)
    have still : ∀ d ∈ rest, ((turn host w head).memory.store.scripts.get? d.name).isSome := by
      intro d member
      have there := known d (List.mem_cons_of_mem head member)
      rw [turn]
      split_ifs
      · have apart : d.name ≠ head.name := by
          intro same
          exact fresh (List.mem_map.mpr ⟨d, member, same⟩)
        rw [get?_cleared, if_neg apart]
        exact there
      · exact there
    obtain ⟨last, done⟩ := ih next names still
    refine ⟨last, ?_⟩
    simp only [purgeAll, Proc.run_bind, first, Proc.follow_ok]
    exact done

end

/-! ## Exact purges -/

def HasFiles (host : Host) (disk : Disk) (name : String) : ApprovalState → Prop
  | .approved => disk.text? host (.scripts name) ≠ none
  | .pending => disk.text? host (.pending name) ≠ none
  | .updatePending => disk.text? host (.scripts name) ≠ none ∧ disk.text? host (.pending name) ≠ none
  | .absent | .rejected => True

def HasApproved (state : ApprovalState) : Prop := state = .approved ∨ state = .updatePending

def snapshot (store : ApprovalsStore) : List ScriptDescriptor :=
  store.scripts.entries.map fun entry => descriptor entry.1 entry.2

/-- After a purge every record has its files, those that had them are as they were, no approved version
of a record is lost, and the dry run lists the records that are gone. -/
structure PurgesExactly (host : Host) (w : World) : Prop where
  runs : ∃ tally, (host.run (cmdApprovalsPurge host false) w).1 = .ok tally
  complete : ∀ name record,
    ((host.run (cmdApprovalsPurge host false) w).2.disk.loaded host).scripts.get? name = some record →
      HasFiles host (host.run (cmdApprovalsPurge host false) w).2.disk name record.state
  kept : ∀ name record, (w.disk.loaded host).scripts.get? name = some record →
    HasFiles host w.disk name record.state →
      ((host.run (cmdApprovalsPurge host false) w).2.disk.loaded host).scripts.get? name = some record
  intact : ∀ name record, (w.disk.loaded host).scripts.get? name = some record → HasApproved record.state →
    w.disk.text? host (.scripts name) ≠ none →
      (host.run (cmdApprovalsPurge host false) w).2.disk.text? host (.scripts name) = w.disk.text? host (.scripts name)
  listed : ∃ tally, (host.run (cmdApprovalsPurge host true) w).1 = .ok tally ∧
    ∀ name, name ∈ tally.wouldRemove.map (·.name) ↔ name ∈ (w.disk.loaded host).scripts.keys ∧
      name ∉ ((host.run (cmdApprovalsPurge host false) w).2.disk.loaded host).scripts.keys

/-- A waiting update has both its files or none, and no record whose file is gone shares a file name
with a record whose file is there. -/
structure Consistent (host : Host) (disk : Disk) : Prop where
  updates : ∀ name record, (disk.loaded host).scripts.get? name = some record → record.state = .updatePending →
    (disk.text? host (.scripts name) = none ↔ disk.text? host (.pending name) = none)
  apart : ∀ gone there, gone ∈ snapshot (disk.loaded host) → there ∈ snapshot (disk.loaded host) →
    Orphan host disk gone → ¬ Orphan host disk there → backing there ≠ none →
      ¬ host.SameFile there.name gone.name ∧ ¬ host.SameFile there.name (metaFile gone.name)

theorem mem_snapshot {store : ApprovalsStore} {d : ScriptDescriptor} :
    d ∈ snapshot store ↔ ∃ record, store.scripts.get? d.name = some record ∧ d = descriptor d.name record := by
  constructor
  · intro member
    obtain ⟨⟨name, record⟩, listed, same⟩ := List.mem_map.mp member
    subst same
    exact ⟨record, Dict.get?_of_mem listed, rfl⟩
  · rintro ⟨record, found, same⟩
    rw [same]
    exact List.mem_map.mpr ⟨(d.name, record), Dict.mem_of_get? found, rfl⟩

theorem names_snapshot (store : ApprovalsStore) : (snapshot store).map (·.name) = store.scripts.keys := by
  rw [snapshot, List.map_map]
  rfl

variable {w : World}

def purged (host : Host) (w : World) : World := swept host (snapshot (w.disk.loaded host)) (w.opened host)

variable (host) in
theorem run_purge (w : World) : ∃ tally, host.run (cmdApprovalsPurge host false) w = (.ok tally, purged host w) := by
  have listing : host.run (listAll host) (w.opened host) = (.ok (snapshot (w.disk.loaded host)), w.opened host) := by
    rw [run_listAll, (opened_synced w).resynced_eq]
    rfl
  obtain ⟨tally, done⟩ : ∃ tally, host.run (purgeAll host false {} (snapshot (w.disk.loaded host))) (w.opened host) =
      (.ok tally, purged host w) := by
    apply run_purgeAll
    · rw [names_snapshot]
      exact (w.disk.loaded host).scripts.distinct
    · intro d member
      obtain ⟨record, found, -⟩ := mem_snapshot.mp member
      have there : (w.opened host).memory.store.scripts.get? d.name = some record := found
      rw [there]
      rfl
  refine ⟨tally, ?_⟩
  simp only [cmdApprovalsPurge, Proc.run_bind, run_init_opened, Proc.follow_ok, listing]
  exact done

variable (host) in
theorem run_purge_dry (w : World) : ∃ tally, host.run (cmdApprovalsPurge host true) w = (.ok tally, w.opened host) ∧
    tally.wouldRemove = (snapshot (w.disk.loaded host)).filter (fun d => Orphan host w.disk d) := by
  have listing : host.run (listAll host) (w.opened host) = (.ok (snapshot (w.disk.loaded host)), w.opened host) := by
    rw [run_listAll, (opened_synced w).resynced_eq]
    rfl
  obtain ⟨tally, done, removed⟩ := run_purgeAll_dry {} (snapshot (w.disk.loaded host)) (w.opened host)
  refine ⟨tally, ?_, removed⟩
  simp only [cmdApprovalsPurge, Proc.run_bind, run_init_opened, Proc.follow_ok, listing]
  exact done

theorem loaded_purged (w : World) : (purged host w).disk.loaded host = (purged host w).memory.store :=
  (synced_swept (opened_synced w)).store.symm

theorem removes_scripts {name file : String} :
    Removes host name (.scripts file) ↔ host.SameFile file name ∨ host.SameFile file (metaFile name) := by
  simp [Removes]

theorem removes_pending {name file : String} :
    Removes host name (.pending file) ↔ host.SameFile file name ∨ host.SameFile file (metaFile name) := by
  simp [Removes]

theorem not_orphan_of_hasFiles {disk : Disk} {name : String} {record : ScriptRecord}
    (has : HasFiles host disk name record.state) : ¬ Orphan host disk (descriptor name record) := by
  rintro ⟨file, looked, gone⟩
  cases state : record.state <;> simp only [backing, descriptor, state, HasFiles] at looked has <;> cases looked
  · exact has gone
  · exact has gone
  · exact has.2 gone

/-- Of records without their file nothing is left, and the others are as they were, with their files. -/
theorem purged_of_consistent (consistent : Consistent host w.disk) :
    (∀ d ∈ snapshot (w.disk.loaded host), ¬ Orphan host w.disk d → backing d ≠ none → ∀ file,
      file = .scripts d.name ∨ file = .pending d.name → (purged host w).disk.text? host file = w.disk.text? host file) ∧
      ∀ d ∈ snapshot (w.disk.loaded host), ¬ Orphan host w.disk d →
        (purged host w).memory.store.scripts.get? d.name = (w.disk.loaded host).scripts.get? d.name := by
  let kept (path : Path) : Prop := ∃ d ∈ snapshot (w.disk.loaded host), ¬ Orphan host w.disk d ∧ backing d ≠ none ∧
    (path = .scripts d.name ∨ path = .pending d.name)
  have script : ∀ path, kept path → ScriptFile path := fun path ⟨d, _, _, _, named⟩ => ⟨d.name, named⟩
  have spared : ∀ gone ∈ snapshot (w.disk.loaded host), Orphan host w.disk gone → ∀ path, kept path →
      ¬ Removes host gone.name path := by
    rintro gone member orphan path ⟨there, listed, present, backed, named⟩ removes
    obtain ⟨own, meta_⟩ := consistent.apart gone there member listed orphan present backed
    -- a kept file that is removed with another record has that record's name
    have shared : host.SameFile there.name gone.name ∨ host.SameFile there.name (metaFile gone.name) := by
      rcases named with same | same
      · rw [same] at removes
        exact removes_scripts.mp removes
      · rw [same] at removes
        exact removes_pending.mp removes
    rcases shared with same | same
    · exact own same
    · exact meta_ same
  have backed : ∀ d ∈ snapshot (w.disk.loaded host), ¬ Orphan host w.disk d → ∀ file ∈ backing d, kept file := by
    intro d member present file looked
    have some_ : backing d ≠ none := by
      rw [looked]
      exact Option.some_ne_none file
    refine ⟨d, member, present, some_, ?_⟩
    obtain ⟨name, state, _, _⟩ := d
    cases state <;> cases looked
    · exact .inr rfl
    · exact .inl rfl
    · exact .inr rfl
  obtain ⟨files, records⟩ := swept_kept (w := w.opened host) kept script spared backed
  refine ⟨fun d member present backed file named => files file ⟨d, member, present, backed, named⟩, fun d member present => ?_⟩
  apply records d.name
  intro other listed same
  -- names are keys: what was cleared under the name was the record itself
  obtain ⟨record, found, own⟩ := mem_snapshot.mp member
  obtain ⟨record', found', own'⟩ := mem_snapshot.mp listed
  rw [same, found] at found'
  rw [own', same, ← Option.some.inj found', ← own]
  exact present

theorem descriptor_mem {store : ApprovalsStore} {name : String} {record : ScriptRecord}
    (found : store.scripts.get? name = some record) : descriptor name record ∈ snapshot store :=
  mem_snapshot.mpr ⟨record, found, rfl⟩

theorem left_purged {name : String} {record : ScriptRecord}
    (left : (purged host w).memory.store.scripts.get? name = some record) :
    (w.disk.loaded host).scripts.get? name = some record ∧ ¬ Orphan host w.disk (descriptor name record) := by
  have found : (w.disk.loaded host).scripts.get? name = some record := get?_of_swept left
  refine ⟨found, fun orphan => ?_⟩
  have gone := (swept_orphan (w := w.opened host) (descriptor_mem found) orphan).1
  change (purged host w).memory.store.scripts.get? name = none at gone
  rw [gone] at left
  cases left

theorem mem_keys_iff {dict : Dict String ScriptRecord} {name : String} :
    name ∈ dict.keys ↔ ∃ record, dict.get? name = some record := by
  rw [← Option.isSome_iff_exists, Option.isSome_iff_ne_none, Ne, Dict.get?_eq_none_iff, not_not]

theorem exact_of_consistent (consistent : Consistent host w.disk) : PurgesExactly host w := by
  obtain ⟨tally, ran⟩ := run_purge host w
  obtain ⟨dry, ranDry, wouldRemove⟩ := run_purge_dry host w
  obtain ⟨files, records⟩ := purged_of_consistent consistent
  -- a record that is no orphan keeps its files and itself
  have keeps {name : String} {record : ScriptRecord} (found : (w.disk.loaded host).scripts.get? name = some record)
      (present : ¬ Orphan host w.disk (descriptor name record)) :
      (purged host w).memory.store.scripts.get? name = some record := by
    have same := records _ (descriptor_mem found) present
    exact same.trans found
  have after : (host.run (cmdApprovalsPurge host false) w).2 = purged host w := by rw [ran]
  refine ⟨⟨tally, by rw [ran]⟩, ?_, ?_, ?_, dry, by rw [ranDry], ?_⟩
  · rw [after, loaded_purged]
    intro name record left
    obtain ⟨found, present⟩ := left_purged left
    have scripts (backed : backing (descriptor name record) ≠ none) :
        (purged host w).disk.text? host (.scripts name) = w.disk.text? host (.scripts name) :=
      files _ (descriptor_mem found) present backed _ (.inl rfl)
    have pending (backed : backing (descriptor name record) ≠ none) :
        (purged host w).disk.text? host (.pending name) = w.disk.text? host (.pending name) :=
      files _ (descriptor_mem found) present backed _ (.inr rfl)
    have there : ∀ file ∈ backing (descriptor name record), w.disk.text? host file ≠ none :=
      fun file looked gone => present ⟨file, looked, gone⟩
    cases state : record.state <;> simp only [backing, descriptor, state] at scripts pending there
    · trivial
    · rw [HasFiles, pending nofun]
      exact there _ rfl
    · rw [HasFiles, scripts nofun]
      exact there _ rfl
    · have both := consistent.updates name record found state
      rw [HasFiles, scripts nofun, pending nofun]
      exact ⟨fun gone => there _ rfl (both.mp gone), there _ rfl⟩
    · trivial
  · rw [after, loaded_purged]
    intro name record found has
    exact keeps found (not_orphan_of_hasFiles has)
  · rw [after]
    intro name record found version there
    have has : HasFiles host w.disk name record.state := by
      rcases version with state | state
      · rw [state]
        exact there
      · rw [state]
        exact ⟨there, fun gone => there ((consistent.updates name record found state).mpr gone)⟩
    have backed : backing (descriptor name record) ≠ none := by
      rcases version with state | state <;> simp [backing, descriptor, state]
    exact files _ (descriptor_mem found) (not_orphan_of_hasFiles has) backed _ (.inl rfl)
  · rw [after, loaded_purged, wouldRemove]
    intro name
    constructor
    · intro listed
      obtain ⟨d, member, same⟩ := List.mem_map.mp listed
      obtain ⟨inside, orphan⟩ := List.mem_filter.mp member
      have gone := (swept_orphan (w := w.opened host) inside (of_decide_eq_true orphan)).1
      obtain ⟨record, found, -⟩ := mem_snapshot.mp inside
      rw [← same]
      exact ⟨mem_keys_iff.mpr ⟨record, found⟩, (Dict.get?_eq_none_iff _ _).mp gone⟩
    · rintro ⟨known, gone⟩
      obtain ⟨record, found⟩ := mem_keys_iff.mp known
      have orphan : Orphan host w.disk (descriptor name record) := by
        by_contra present
        exact gone (mem_keys_iff.mpr ⟨record, keeps found present⟩)
      exact List.mem_map.mpr ⟨descriptor name record,
        List.mem_filter.mpr ⟨descriptor_mem found, decide_eq_true orphan⟩, rfl⟩

theorem consistent_of_exact (exactly : PurgesExactly host w) : Consistent host w.disk := by
  obtain ⟨tally, ran⟩ := run_purge host w
  obtain ⟨dry, ranDry, wouldRemove⟩ := run_purge_dry host w
  have after : (host.run (cmdApprovalsPurge host false) w).2 = purged host w := by rw [ran]
  obtain ⟨-, complete, -, intact, other, sameDry, listed⟩ := exactly
  rw [ranDry] at sameDry
  have dryTally : dry = other := Except.ok.inj sameDry
  subst dryTally
  rw [after, loaded_purged] at complete listed
  rw [after] at intact
  -- a record that is no orphan is not listed, so it is left, with its files
  have left {name : String} {record : ScriptRecord} (found : (w.disk.loaded host).scripts.get? name = some record)
      (present : ¬ Orphan host w.disk (descriptor name record)) :
      HasFiles host (purged host w).disk name record.state := by
    by_cases still : name ∈ (purged host w).memory.store.scripts.keys
    · obtain ⟨record', kept⟩ := mem_keys_iff.mp still
      have same := (left_purged kept).1
      rw [found] at same
      rw [Option.some.inj same]
      exact complete name record' kept
    · have among := (listed name).mpr ⟨mem_keys_iff.mpr ⟨record, found⟩, still⟩
      rw [wouldRemove] at among
      obtain ⟨d, member, own⟩ := List.mem_map.mp among
      obtain ⟨inside, orphan⟩ := List.mem_filter.mp member
      obtain ⟨record', found', whole⟩ := mem_snapshot.mp inside
      rw [own, found] at found'
      rw [whole, own, ← Option.some.inj found'] at orphan
      exact absurd (of_decide_eq_true orphan) present
  have lost {path : Path} (script : ScriptFile path) (gone : w.disk.text? host path = none) :
      (purged host w).disk.text? host path = none := text?_swept_none script gone
  refine ⟨fun name record found state => ⟨fun noScript => ?_, fun noPending => ?_⟩, ?_⟩
  · by_contra there
    have present : ¬ Orphan host w.disk (descriptor name record) := by
      rintro ⟨file, looked, gone⟩
      simp only [backing, descriptor, state] at looked
      cases looked
      exact there gone
    have files := left found present
    rw [state] at files
    exact files.1 (lost ⟨name, .inl rfl⟩ noScript)
  · by_contra there
    have orphan : Orphan host w.disk (descriptor name record) :=
      ⟨.pending name, by simp [backing, descriptor, state], noPending⟩
    have gone := (swept_orphan (w := w.opened host) (descriptor_mem found) orphan).2 (.scripts name) ⟨name, .inl rfl⟩ (.inl rfl)
    have kept := intact name record found (.inr state) there
    exact there (kept.symm.trans gone)
  · intro gone there listedGone listedThere orphan present backed
    have removed := (swept_orphan (w := w.opened host) listedGone orphan).2
    obtain ⟨record, found, same⟩ := mem_snapshot.mp listedThere
    rw [same] at present
    have files := left found present
    have none_left (shared : host.SameFile there.name gone.name ∨ host.SameFile there.name (metaFile gone.name)) : False := by
      have script := removed (.scripts there.name) ⟨_, .inl rfl⟩ (removes_scripts.mpr shared)
      have pending := removed (.pending there.name) ⟨_, .inr rfl⟩ (removes_pending.mpr shared)
      rw [same] at backed
      cases state : record.state <;> simp only [backing, descriptor, state, HasFiles] at backed files
      · exact backed rfl
      · exact files pending
      · exact files script
      · exact files.1 script
      · exact backed rfl
    exact ⟨fun shared => none_left (.inl shared), fun shared => none_left (.inr shared)⟩

/-- A purge is exact exactly when the files and the records are consistent. -/
theorem purges_exactly_iff (host : Host) (w : World) : PurgesExactly host w ↔ Consistent host w.disk :=
  ⟨consistent_of_exact, exact_of_consistent⟩

/-! ## A waiting update that lost its pending file -/

def waitingUpdate : ScriptRecord :=
  { state := .updatePending, approvedMd5 := some Installation.md5One, pendingMd5 := some Installation.md5Two }

def teardown : World where
  memory := ⟨.empty, (0, 0)⟩
  disk := (Disk.empty.write linux (.scripts "deploy") Installation.scriptOne).saved linux
    ⟨Dict.empty.set "deploy" waitingUpdate⟩
  now := "1"
  launched := []

/-- The approved version is there, and is deleted with the record. -/
theorem purge_deletes_approved_version : ¬ PurgesExactly linux teardown := by
  intro exactly
  have consistent := consistent_of_exact exactly
  have store : teardown.disk.loaded linux = ⟨Dict.empty.set "deploy" waitingUpdate⟩ := Disk.loaded_saved _
  have found : (teardown.disk.loaded linux).scripts.get? "deploy" = some waitingUpdate := by
    rw [store]
    exact Dict.get?_set_self _ _ _
  have noPending : teardown.disk.text? linux (.pending "deploy") = none := by
    simp only [teardown, Disk.text?_saved_pending, Disk.text?_write]
    rfl
  have script := (consistent.updates "deploy" waitingUpdate found rfl).mpr noPending
  simp [teardown, Disk.text?_write] at script

end Csl.Agent.Purge
