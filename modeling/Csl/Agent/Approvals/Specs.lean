import Csl.Agent.Approvals

/-! What each method of the approvals manager does when nothing interrupts it. -/

set_option autoImplicit false

namespace Csl.Agent
open Csl.Shared

section
variable {host : Host}

@[simp] theorem not_sameFile_metaFile (name : String) : ¬ host.SameFile name (metaFile name) := by
  intro same
  have lengths := same.length_eq
  simp [metaFile] at lengths

@[simp] theorem not_metaFile_sameFile (name : String) : ¬ host.SameFile (metaFile name) name :=
  fun same => not_sameFile_metaFile name same.symm

@[simp] theorem sameFile_metaFile_iff (a b : String) :
    host.SameFile (metaFile a) (metaFile b) ↔ host.SameFile a b :=
  host.sameFile_append_right a b _

end

/-! ## The files the operations leave -/

namespace Disk
variable (host : Host) (disk : Disk)

def loaded : ApprovalsStore :=
  match disk.read host .approvals with
  | none => .empty
  | some file => loadText host (Newlines.universal file.text)

def saved (store : ApprovalsStore) : Disk :=
  (disk.write host .approvalsTmp (encode host .platform (host.codec.dump store))).rename
    host .approvalsTmp .approvals

def staged (name content : String) (metaYaml : Option String) : Disk :=
  let written := disk.write host (.pending name) content
  match metaYaml with
  | none => written
  | some text => written.write host (.pending (metaFile name)) (encode host .platform text)

def movedIfPresent (source target : Path) : Disk :=
  if (disk.read host source).isSome then disk.rename host source target else disk

def promoted (name : String) : Disk :=
  (disk.rename host (.pending name) (.scripts name)).movedIfPresent host
    (.pending (metaFile name)) (.scripts (metaFile name))

def removed (name : String) : Disk :=
  (((disk.unlink host (.scripts name)).unlink host (.scripts (metaFile name))).unlink host
    (.pending name)).unlink host (.pending (metaFile name))

variable {host disk}

theorem universal_encode (store : ApprovalsStore) :
    Newlines.universal (encode host .platform (host.codec.dump store)) = host.codec.dump store := by
  have plain := host.codec.dump_plain store
  simp only [encode]
  split
  · exact Newlines.universal_crlf _ plain
  · exact Newlines.universal_plain _ plain

@[simp] theorem loaded_saved (store : ApprovalsStore) : (disk.saved host store).loaded host = store := by
  simp [loaded, saved, read_rename, read_write, Host.canonical, universal_encode, loadText,
    host.codec.load_dump]

theorem read_saved_of_ne {store : ApprovalsStore} {path : Path} (notStore : path ≠ .approvals)
    (notTmp : path ≠ .approvalsTmp) : (disk.saved host store).read host path = disk.read host path := by
  cases path with
  | approvals => exact absurd rfl notStore
  | approvalsTmp => exact absurd rfl notTmp
  | scripts file | pending file | log file | other location =>
    simp [saved, read_rename, read_write, Host.canonical]

theorem text?_saved_of_ne {store : ApprovalsStore} {path : Path} (notStore : path ≠ .approvals)
    (notTmp : path ≠ .approvalsTmp) :
    (disk.saved host store).text? host path = disk.text? host path := by
  simp only [text?, read_saved_of_ne notStore notTmp]

@[simp] theorem text?_saved_scripts (store : ApprovalsStore) (file : String) :
    (disk.saved host store).text? host (.scripts file) = disk.text? host (.scripts file) :=
  text?_saved_of_ne nofun nofun

@[simp] theorem text?_saved_pending (store : ApprovalsStore) (file : String) :
    (disk.saved host store).text? host (.pending file) = disk.text? host (.pending file) :=
  text?_saved_of_ne nofun nofun

theorem text?_staged (name content : String) (metaYaml : Option String) (path : Path) :
    (disk.staged host name content metaYaml).text? host path =
      if host.canonical path = host.canonical (.pending name) then some content
      else if host.canonical path = host.canonical (.pending (metaFile name)) then
        (metaYaml.map (encode host .platform)).or (disk.text? host path)
      else disk.text? host path := by
  cases metaYaml with
  | none =>
    simp only [staged, text?_write, Option.map_none, Option.none_or, ite_self]
  | some text =>
    simp only [staged, text?_write, Option.map_some, Option.some_or]
    by_cases atMeta : host.canonical path = host.canonical (.pending (metaFile name))
    · simp [atMeta]
    · simp only [if_neg atMeta]

@[simp] theorem text?_staged_scripts (name content : String) (metaYaml : Option String)
    (file : String) :
    (disk.staged host name content metaYaml).text? host (.scripts file) =
      disk.text? host (.scripts file) := by
  simp [text?_staged]

theorem text?_movedIfPresent (source target other : Path) :
    (disk.movedIfPresent host source target).text? host other =
      if host.canonical other = host.canonical source then none
      else if host.canonical other = host.canonical target then
        (disk.text? host source).or (disk.text? host other)
      else disk.text? host other := by
  unfold movedIfPresent
  split
  next present =>
    obtain ⟨file, found⟩ := Option.isSome_iff_exists.mp present
    rw [text?_rename]
    simp [text?, found]
  next absent =>
    have missing : disk.read host source = none := by simpa using absent
    split
    next same =>
      rw [text?_eq_none]
      simpa only [read, same] using missing
    · simp [text?, missing]

theorem text?_promoted (name : String) (path : Path) :
    (disk.promoted host name).text? host path =
      if host.canonical path = host.canonical (.pending name) ∨
          host.canonical path = host.canonical (.pending (metaFile name)) then none
      else if host.canonical path = host.canonical (.scripts name) then
        disk.text? host (.pending name)
      else if host.canonical path = host.canonical (.scripts (metaFile name)) then
        (disk.text? host (.pending (metaFile name))).or (disk.text? host path)
      else disk.text? host path := by
  simp only [promoted, text?_movedIfPresent, text?_rename, Host.canonical_pending_eq,
    not_metaFile_sameFile, if_false]
  by_cases atMeta : host.canonical path = host.canonical (.pending (metaFile name))
  · simp [atMeta]
  by_cases atScript : host.canonical path = host.canonical (.pending name)
  · simp [atScript]
  by_cases atTarget : host.canonical path = host.canonical (.scripts name)
  · simp [atTarget]
  · simp [atMeta, atScript, atTarget]

theorem text?_removed (name : String) (path : Path) :
    (disk.removed host name).text? host path =
      if host.canonical path = host.canonical (.scripts name) ∨
          host.canonical path = host.canonical (.scripts (metaFile name)) ∨
          host.canonical path = host.canonical (.pending name) ∨
          host.canonical path = host.canonical (.pending (metaFile name)) then none
      else disk.text? host path := by
  simp only [removed, text?_unlink]
  split_ifs <;> simp_all

end Disk

/-! ## The methods, run to their end -/

namespace World
variable (host : Host) (w : World)

def saved (store : ApprovalsStore) : World :=
  { w with memory := ⟨store, (w.disk.saved host store).currentSig host⟩
           disk := w.disk.saved host store }

/-- The world after `_sync_from_disk`. -/
def resynced : World :=
  if w.disk.currentSig host = w.memory.sig then w
  else { w with memory := ⟨w.disk.loaded host, w.disk.currentSig host⟩ }

structure Synced : Prop where
  sig : w.memory.sig = w.disk.currentSig host
  store : w.memory.store = w.disk.loaded host

variable {host w}

theorem saved_synced (store : ApprovalsStore) : (w.saved host store).Synced host :=
  ⟨rfl, (Disk.loaded_saved store).symm⟩

theorem Synced.resynced_eq (synced : w.Synced host) : w.resynced host = w := by
  simp [resynced, synced.sig]

variable (host w)

theorem resynced_resynced : (w.resynced host).resynced host = w.resynced host := by
  by_cases same : w.disk.currentSig host = w.memory.sig
  · have unchanged : w.resynced host = w := if_pos same
    rw [unchanged, unchanged]
  · have read : w.resynced host = { w with memory := ⟨w.disk.loaded host, w.disk.currentSig host⟩ } := if_neg same
    rw [read]
    exact if_pos rfl

theorem now_resynced : (w.resynced host).now = w.now := by
  unfold resynced
  split <;> rfl

end World

namespace ApprovalsManager
variable {host : Host}

@[simp] theorem run_onlyIf (condition : Prop) [Decidable condition] (action : Action Unit)
    (w : World) :
    host.run (onlyIf condition action) w = if condition then host.run action w else (.ok (), w) :=
  Proc.run_ite _ _ _ _ _

theorem run_load (w : World) : host.run (load host) w = (.ok (w.disk.loaded host), w) := by
  cases found : w.disk.read host .approvals with
  | none => simp [load, Disk.loaded, found]
  | some file => simp [load, Disk.loaded, found, run_readText]

theorem run_init (w : World) :
    host.run (init host) w =
      (.ok (), { w with memory := ⟨w.disk.loaded host, w.disk.currentSig host⟩ }) := by
  simp [init, run_load]

theorem run_syncFromDisk (w : World) :
    host.run (syncFromDisk host) w = (.ok (), w.resynced host) := by
  by_cases same : w.disk.currentSig host = w.memory.sig
  · simp [syncFromDisk, World.resynced, same]
  · simp [syncFromDisk, World.resynced, same, run_load]

theorem describe_state (store : ApprovalsStore) (name : String) :
    (describe store name).state = store.stateOf name := by
  unfold describe ApprovalsStore.stateOf
  cases store.scripts.get? name <;> rfl

theorem describe_approvedMd5 (store : ApprovalsStore) (name : String) :
    (describe store name).approvedMd5 = (store.scripts.get? name).bind (·.approvedMd5) := by
  unfold describe
  cases store.scripts.get? name <;> rfl

theorem run_getState (name : String) (w : World) :
    host.run (getState host name) w =
      (.ok (describe (w.resynced host).memory.store name), w.resynced host) := by
  simp [getState, run_syncFromDisk]

theorem run_listAll (w : World) :
    host.run (listAll host) w =
      (.ok ((w.resynced host).memory.store.scripts.entries.map fun entry =>
        descriptor entry.1 entry.2), w.resynced host) := by
  simp [listAll, run_syncFromDisk]

theorem run_save (w : World) :
    host.run (save host) w = (.ok (), w.saved host w.memory.store) := by
  have written : ((w.disk.write host .approvalsTmp
      (encode host .platform (host.codec.dump w.memory.store))).read host .approvalsTmp).isSome := by
    simp [Disk.read_write]
  simp [save, run_replace, written, World.saved, Disk.saved]

/-- Moving a file that is there, or nothing. -/
theorem run_moveIfPresent (source target : Path) (w : World) :
    host.run (moveIfPresent source target) w =
      (.ok (), { w with disk := w.disk.movedIfPresent host source target }) := by
  by_cases present : (w.disk.read host source).isSome
  · simp [moveIfPresent, run_replace, present, Disk.movedIfPresent]
  · simp [moveIfPresent, present, Disk.movedIfPresent]

theorem run_unlinkIfPresent (path : Path) (w : World) :
    host.run (unlinkIfPresent path) w = (.ok (), { w with disk := w.disk.unlink host path }) := by
  by_cases present : (w.disk.read host path).isSome
  · simp [unlinkIfPresent, run_unlink, present]
  · have absent : w.disk.read host path = none := by simpa using present
    simp [unlinkIfPresent, absent, Disk.unlink_absent absent]

theorem run_removeFiles (name : String) (w : World) :
    host.run (removeFiles name) w = (.ok (), { w with disk := w.disk.removed host name }) := by
  simp [removeFiles, run_unlinkIfPresent, Disk.removed]

theorem run_promote (name : String) (w : World)
    (present : (w.disk.read host (.pending name)).isSome) :
    host.run (promote name) w = (.ok (), { w with disk := w.disk.promoted host name }) := by
  simp [promote, run_replace, present, run_moveIfPresent, Disk.promoted]

theorem run_writePending (name content : String) (metaYaml : Option String) (w : World) :
    host.run (writePending name content metaYaml) w =
      (.ok (), { w with disk := w.disk.staged host name content metaYaml }) := by
  cases metaYaml <;> simp [writePending, Disk.staged, encode]

end ApprovalsManager

/-- The staged md5 is the one already recorded, so that a stage call changes nothing. -/
def AlreadyStaged (store : ApprovalsStore) (name md5 : String) : Prop :=
  (store.stateOf name = .approved ∧
    (store.scripts.get? name).bind (·.approvedMd5) = some md5) ∨
  ((store.stateOf name = .pending ∨ store.stateOf name = .updatePending) ∧
    (store.scripts.get? name).bind (·.pendingMd5) = some md5)

instance (store : ApprovalsStore) (name md5 : String) : Decidable (AlreadyStaged store name md5) :=
  inferInstanceAs (Decidable (_ ∨ _))

namespace World
variable (host : Host) (w : World)

def staged (autoApprove : List String) (name content md5 : String) (metaYaml : Option String) :
    World :=
  let pending := w.disk.staged host name content metaYaml
  let disk := if name ∈ autoApprove then pending.promoted host name else pending
  ({ w with disk := disk }).saved host ⟨w.memory.store.scripts.set name
    (ApprovalsManager.stagedRecord (decide (name ∈ autoApprove))
      (w.memory.store.scripts.get? name) md5 w.now)⟩

def approved (name : String) (md5 : Option String) : World :=
  ({ w with disk := w.disk.promoted host name }).saved host ⟨w.memory.store.scripts.set name
    { state := .approved, approvedMd5 := md5, approvedAt := some w.now, approvedVia := some .cli }⟩

def rejected (name : String) : World :=
  ({ w with disk := w.disk.removed host name }).saved host
    ⟨w.memory.store.scripts.set name { state := .rejected, rejectedAt := some w.now }⟩

def cleared (name : String) : World :=
  ({ w with disk := w.disk.removed host name }).saved host ⟨w.memory.store.scripts.pop name⟩

end World

namespace ApprovalsManager
variable {host : Host}

theorem run_stage (autoApprove : List String) (name content md5 : String)
    (metaYaml : Option String) (w : World) :
    host.run (stage host autoApprove name content md5 metaYaml) w =
      if w.memory.store.stateOf name = .rejected then
        (.error (isRejected name), w)
      else if AlreadyStaged w.memory.store name md5 then (.ok (w.memory.store.stateOf name), w)
      else
        (.ok (stagedRecord (decide (name ∈ autoApprove)) (w.memory.store.scripts.get? name) md5
          w.now).state, w.staged host autoApprove name content md5 metaYaml) := by
  have written : ((w.disk.staged host name content metaYaml).read host (.pending name)).isSome := by
    rw [← Disk.isSome_text?]
    simp [Disk.text?_staged]
  by_cases rejected : w.memory.store.stateOf name = .rejected
  · simp [stage, rejected]
  by_cases approvedSame : w.memory.store.stateOf name = .approved ∧
      (w.memory.store.scripts.get? name).bind (·.approvedMd5) = some md5
  · simp [stage, AlreadyStaged, approvedSame]
  by_cases pendingSame : (w.memory.store.stateOf name = .pending ∨
      w.memory.store.stateOf name = .updatePending) ∧
        (w.memory.store.scripts.get? name).bind (·.pendingMd5) = some md5
  · have same : AlreadyStaged w.memory.store name md5 := .inr pendingSame
    simp only [stage, Proc.run_bind, run_getStore, Proc.follow_ok, if_neg rejected,
      if_neg approvedSame, if_pos pendingSame, Proc.run_pure, if_pos same]
  · have moves : ¬ AlreadyStaged w.memory.store name md5 := not_or.mpr ⟨approvedSame, pendingSame⟩
    simp only [stage, Proc.run_bind, run_getStore, Proc.follow_ok, if_neg rejected,
      if_neg approvedSame, if_neg pendingSame, if_neg moves, run_writePending, run_utcNow,
      run_onlyIf, decide_eq_true_eq]
    by_cases auto : name ∈ autoApprove
    · simp [auto, run_promote, written, run_save, World.staged, World.saved]
    · simp [auto, run_save, World.staged, World.saved]

theorem run_requireRecord (name : String) (w : World) :
    host.run (requireRecord name) w =
      match w.memory.store.scripts.get? name with
      | none => (.error (notFound name), w)
      | some record => (.ok (w.memory.store, record), w) := by
  cases found : w.memory.store.scripts.get? name <;> simp [requireRecord, found]

def Waiting (state : ApprovalState) : Prop := state = .pending ∨ state = .updatePending

instance (state : ApprovalState) : Decidable (Waiting state) := inferInstanceAs (Decidable (_ ∨ _))

theorem run_requirePending (verb name : String) (state : ApprovalState) (w : World) :
    host.run (requirePending verb name state) w =
      if Waiting state then (.ok (), w)
      else (.error (cannot verb name state), w) := by
  by_cases waiting : Waiting state
  · simp only [requirePending, if_pos waiting, if_pos (show state = .pending ∨ _ from waiting),
      Proc.run_pure]
  · simp only [requirePending, if_neg waiting, if_neg (show ¬ (state = .pending ∨ _) from waiting),
      Proc.run_throw]

theorem run_approve (name : String) (w : World) :
    host.run (approve host name) w =
      match w.memory.store.scripts.get? name with
      | none => (.error (notFound name), w)
      | some record =>
        if Waiting record.state then
          if (w.disk.read host (.pending name)).isSome then
            (.ok (), w.approved host name record.pendingMd5)
          else (.error (noPendingFile host name), w)
        else (.error (cannot "approve" name record.state), w) := by
  cases found : w.memory.store.scripts.get? name with
  | none => simp [approve, run_requireRecord, found]
  | some record =>
    by_cases waiting : Waiting record.state
    · by_cases present : (w.disk.read host (.pending name)).isSome
      · simp [approve, run_requireRecord, run_requirePending, found, waiting, present, run_promote,
          run_save, World.approved, World.saved]
      · simp [approve, run_requireRecord, run_requirePending, found, waiting, present]
    · simp [approve, run_requireRecord, run_requirePending, found, waiting]

theorem run_reject (name : String) (w : World) :
    host.run (reject host name) w =
      match w.memory.store.scripts.get? name with
      | none => (.error (notFound name), w)
      | some record =>
        if Waiting record.state then (.ok (), w.rejected host name)
        else (.error (cannot "reject" name record.state), w) := by
  cases found : w.memory.store.scripts.get? name with
  | none => simp [reject, run_requireRecord, found]
  | some record =>
    by_cases waiting : Waiting record.state
    · simp [reject, run_requireRecord, run_requirePending, found, waiting, run_removeFiles,
        run_save, World.rejected, World.saved]
    · simp [reject, run_requireRecord, run_requirePending, found, waiting]

theorem run_clear (name : String) (w : World) :
    host.run (clear host name) w =
      match w.memory.store.scripts.get? name with
      | none => (.error (notFound name), w)
      | some _ => (.ok (), w.cleared host name) := by
  cases found : w.memory.store.scripts.get? name with
  | none => simp [clear, run_requireRecord, found]
  | some record =>
    simp [clear, run_requireRecord, found, run_removeFiles, run_save, World.cleared, World.saved]

end ApprovalsManager

end Csl.Agent
