import Csl.Agent.Approvals.Elsewhere
import Csl.Agent.Installation

/-! The manager's cache of approvals.json against another writer.

Between any two file operations of the manager another process may rename a file
of its own over approvals.json. Resynchronising takes the signature before it
reads, and so pairs what it read with a signature that is no newer. The
constructor and `_save` take it after the contents are fixed, and a rename in
between is lost on them.
-/

set_option autoImplicit false

namespace Csl.Agent
open Csl.Shared ApprovalsManager Proc Installation

namespace Cache
variable (host : Host)

/-- The manager has the contents of approvals.json, from its read or its own rename, and has
yet to take the signature that it will keep with them. -/
def Exposed (past : List Op) (disk : Disk) : Prop :=
  .stat ∉ past ∧ (.readText .approvals ∈ past ∨ .replace .approvalsTmp .approvals ∈ past ∨
    .exists? .approvals ∈ past ∧ disk.read host .approvals = none)

/-- The other writer renames a file with any text over approvals.json, under a modification
time of its own. -/
def Renames (disk after : Disk) : Prop := ∃ text, after = disk.write host .approvals text

def RenamesUnexposed (past : List Op) (disk after : Disk) : Prop :=
  ¬ Exposed host past disk ∧ Renames host disk after

inductive Operation where
  | getState (name : String)
  | listAll
  | mutate (mutation : Mutation)

def Operation.action (autoApprove : List String) : Operation → Action Unit
  | .getState name => do let _ ← ApprovalsManager.getState host name
  | .listAll => do let _ ← ApprovalsManager.listAll host
  | .mutate mutation => mutation.action host autoApprove

inductive Reached (moves : List Op → Disk → Disk → Prop) (autoApprove : List String) :
    World → Prop where
  | constructed {w final : World} {result : Except Err Unit} {all : List Op} :
      (w.disk.currentSig host).1 ≤ w.disk.writes →
      Interleaved (handle host) (Elsewhere moves) (init host) [] w result all final →
      Reached moves autoApprove final
  | served {w final : World} {operation : Operation} {now : Timestamp} {result : Except Err Unit}
      {all : List Op} :
      Reached moves autoApprove w →
      Interleaved (handle host) (Elsewhere moves) (operation.action host autoApprove) []
        (w.atTime now) result all final →
      Reached moves autoApprove final

variable {host}

theorem read_write_approvals (disk : Disk) (text : String) :
    (disk.write host .approvals text).read host .approvals = some ⟨text, disk.writes + 1⟩ := by
  rw [Disk.read_write, if_pos rfl]

theorem renames_renews {disk after : Disk} (renames : Renames host disk after) :
    disk.Renews host after := by
  obtain ⟨text, rfl⟩ := renames
  exact ⟨Nat.le_succ _, .inr ⟨_, read_write_approvals disk text, Nat.lt_succ_self _, le_rfl⟩⟩

theorem unexposed_renews (past : List Op) (disk after : Disk)
    (moved : RenamesUnexposed host past disk after) : disk.Renews host after :=
  renames_renews moved.2

theorem stable_exposed (holds : List Op → Disk → Prop) :
    Stable (RenamesUnexposed host) (fun past disk => Exposed host past disk ∧ holds past disk) :=
  fun _ _ _ held moved => absurd held.1 moved.1

theorem stable_current : Stable (RenamesUnexposed host) (fun _ disk =>
    (disk.currentSig host).1 ≤ disk.writes) :=
  fun _ _ _ current moved => current_renewed current (renames_renews moved.2)

theorem exposed_setStore {past : List Op} {disk : Disk} (exposed : Exposed host past disk)
    (store : ApprovalsStore) : Exposed host (past ++ [.setStore store]) disk := by
  simpa [Exposed] using exposed

def Ends {A : Type} (host : Host) (_ : Except Err A) (_ : List Op) (w : World) : Prop :=
  Cached host w.disk w.memory

theorem stable_ends {A : Type} (result : Except Err A) :
    Stable (Elsewhere (RenamesUnexposed host)) (Ends host result) := by
  rintro all w _ cached ⟨disk, moved, rfl⟩
  exact cached_renewed cached (renames_renews moved.2)

/-- The last two steps of the constructor and of a save: the signature is taken while the
manager is exposed, and so belongs to the contents. -/
theorem along_stat {past : List Op} {w : World} (exposed : Exposed host past w.disk)
    (current : (w.disk.currentSig host).1 ≤ w.disk.writes)
    (store : w.memory.store = w.disk.loaded host) :
    (do
      let sig ← stat
      setSig sig).Along (handle host) (Elsewhere (RenamesUnexposed host)) (Ends host) past w := by
  refine along_perform (At w _) (stable_at (stable_exposed fun _ disk =>
    (disk.currentSig host).1 ≤ disk.writes ∧ w.memory.store = disk.loaded host) w)
    (at_self ⟨exposed, current, store⟩) ?_
  rintro _ ⟨disk, rfl, _, current, store⟩
  simp only [handle, Resumes]
  rw [← bind_pure (setSig _)]
  refine along_perform (At w _) (stable_at (stable_cached unexposed_renews
    ⟨w.memory.store, disk.currentSig host⟩) w) ⟨disk, rfl, fun _ => store, current, current⟩ ?_
  rintro _ ⟨later, rfl, cached⟩
  simp only [handle, Resumes]
  exact along_pure (stable_ends _) cached

theorem along_init {w : World} (current : (w.disk.currentSig host).1 ≤ w.disk.writes) :
    (init host).Along (handle host) (Elsewhere (RenamesUnexposed host)) (Ends host) [] w := by
  let copied (store : ApprovalsStore) (past : List Op) (disk : Disk) : Prop :=
    Exposed host past disk ∧ (disk.currentSig host).1 ≤ disk.writes ∧ store = disk.loaded host
  have frozen (store : ApprovalsStore) : Stable (RenamesUnexposed host) (copied store) :=
    stable_exposed fun _ disk => (disk.currentSig host).1 ≤ disk.writes ∧ store = disk.loaded host
  have unsigned : Stable (RenamesUnexposed host) (fun past disk =>
      (disk.currentSig host).1 ≤ disk.writes ∧ .stat ∉ past) :=
    fun past disk after held moved => ⟨stable_current past disk after held.1 moved, held.2⟩
  refine along_seq (fun result all final => ∃ store, result = .ok store ∧
    At w (copied store) all final) ?_ ?_ ?_
  · refine along_load unexposed_renews unsigned frozen ?_ ?_ ?_
      ⟨current, List.not_mem_nil⟩
    · rintro past disk ⟨current, unsigned⟩
      exact ⟨current, by simpa using unsigned⟩
    · rintro past disk ⟨current, unsigned⟩ absent
      refine ⟨⟨by simpa using unsigned, .inr (.inr ⟨by simp, absent⟩)⟩, current, ?_⟩
      simp only [Disk.loaded, absent]
    · rintro past disk ⟨current, unsigned⟩
      exact ⟨⟨by simpa using unsigned, .inl (by simp)⟩, current, rfl⟩
  · rintro e all final ⟨_, ⟨⟩, _⟩
  · rintro store all _ ⟨_, ⟨⟩, disk, rfl, held⟩
    refine along_perform (At w _) (stable_at (frozen store) w) ⟨disk, rfl, held⟩ ?_
    rintro _ ⟨disk, rfl, exposed, current, store⟩
    exact along_stat (exposed_setStore exposed _) current store

theorem along_save {past : List Op} {w : World} (unsigned : .stat ∉ past)
    (current : (w.disk.currentSig host).1 ≤ w.disk.writes) :
    (save host).Along (handle host) (Elsewhere (RenamesUnexposed host)) (Ends host) past w := by
  let text := encode host .platform (host.codec.dump w.memory.store)
  have quiet : Stable (RenamesUnexposed host) (fun past disk =>
      (disk.currentSig host).1 ≤ disk.writes ∧ .stat ∉ past) :=
    fun past disk after held moved => ⟨stable_current past disk after held.1 moved, held.2⟩
  -- the others may rename approvals.json, but never write this temporary file
  have written : Stable (RenamesUnexposed host) (fun past disk => .stat ∉ past ∧
      ∃ stamp, disk.read host .approvalsTmp = some ⟨text, stamp⟩ ∧ stamp ≤ disk.writes) := by
    rintro past disk _ ⟨unsigned, stamp, found, bound⟩ ⟨_, other, rfl⟩
    refine ⟨unsigned, stamp, ?_, bound.trans (Nat.le_succ _)⟩
    simpa [Disk.read_write, Host.canonical] using found
  refine along_perform (At w _) (stable_at quiet w) (at_self ⟨current, unsigned⟩) ?_
  rintro _ ⟨disk, rfl, current, unsigned⟩
  simp only [handle, Resumes]
  refine along_perform (At w _) (stable_at quiet w)
    ⟨disk, rfl, current, by simpa using unsigned⟩ ?_
  rintro _ ⟨disk, rfl, current, unsigned⟩
  simp only [handle, Resumes]
  refine along_perform (At w _) (stable_at quiet w)
    ⟨disk, rfl, current, by simpa using unsigned⟩ ?_
  rintro _ ⟨disk, rfl, current, unsigned⟩
  simp only [handle, Resumes]
  refine along_perform (At w _) (stable_at written w)
    ⟨_, rfl, by simpa using unsigned, disk.writes + 1, ?_, le_rfl⟩ ?_
  · rw [Disk.read_write, if_pos rfl]
  rintro _ ⟨disk, rfl, unsigned, stamp, found, bound⟩
  simp only [handle, found, Option.isSome_some, if_true, Resumes]
  -- the manager is exposed from its rename until it takes the signature
  have renamed : (disk.rename host .approvalsTmp .approvals).read host .approvals =
      some ⟨text, stamp⟩ := by
    simp [Disk.read_rename, Host.canonical, found]
  refine along_stat ⟨by simpa using unsigned, .inr (.inl (by simp))⟩ ?_ ?_
  · simpa [Disk.currentSig, renamed] using bound
  · simp [Disk.loaded, renamed, text, Disk.universal_encode, loadText, host.codec.load_dump]

/-! ## Operations -/

def OfScripts : Path → Prop
  | .scripts _ | .pending _ => True
  | _ => False

def Quiet : Op → Prop
  | .getStore | .now | .mkdir _ | .exists? _ => True
  | .writeText path .. | .unlink path => OfScripts path
  | .replace source target => OfScripts source ∧ OfScripts target
  | _ => False

theorem apart_of_ofScripts {path : Path} (scripts : OfScripts path) :
    host.canonical .approvals ≠ host.canonical path := by
  cases path <;> first | exact absurd scripts not_false | simp [Host.canonical]

structure Untouched (host : Host) (w after : World) : Prop where
  memory : after.memory = w.memory
  file : after.disk.read host .approvals = w.disk.read host .approvals
  later : w.disk.writes ≤ after.disk.writes

theorem Untouched.refl (w : World) : Untouched host w w := ⟨rfl, rfl, le_rfl⟩

theorem Untouched.trans {first second third : World} (left : Untouched host first second)
    (right : Untouched host second third) : Untouched host first third :=
  ⟨right.memory.trans left.memory, right.file.trans left.file, left.later.trans right.later⟩

theorem Untouched.loaded {w after : World} (untouched : Untouched host w after) :
    after.disk.loaded host = w.disk.loaded host := by
  unfold Disk.loaded
  rw [untouched.file]

theorem untouched_quiet {op : Op} (quiet : Quiet op) (w : World) : Untouched host w (handle host op w).2 := by
  cases op with
  | getStore | now | mkdir | exists? => exact ⟨rfl, rfl, le_rfl⟩
  | writeText path text newline =>
    refine ⟨rfl, ?_, Nat.le_succ _⟩
    change (w.disk.write host path (encode host newline text)).read host .approvals = _
    rw [Disk.read_write, if_neg (apart_of_ofScripts quiet)]
  | unlink path =>
    simp only [handle]
    split
    · refine ⟨rfl, ?_, le_rfl⟩
      rw [Disk.read_unlink, if_neg (apart_of_ofScripts quiet)]
    · exact ⟨rfl, rfl, le_rfl⟩
  | replace source target =>
    simp only [handle]
    split
    · refine ⟨rfl, ?_, le_rfl⟩
      rw [Disk.read_rename, if_neg (apart_of_ofScripts quiet.1),
        if_neg (apart_of_ofScripts quiet.2)]
    · exact ⟨rfl, rfl, le_rfl⟩
  | _ => exact absurd quiet not_false

theorem Untouched.cached {w after : World} (untouched : Untouched host w after)
    (cached : Cached host w.disk w.memory) : Cached host after.disk after.memory := by
  rw [untouched.memory]
  exact cached_renewed cached ⟨untouched.later, .inl untouched.file⟩

inductive SavesLast (host : Host) : {A : Type} → Action A → Prop where
  | quiet {A : Type} {p : Action A} : p.Uses Quiet → SavesLast host p
  | seq {A B : Type} {p : Action B} {next : B → Action A} :
      p.Uses Quiet → (∀ b, SavesLast host (next b)) → SavesLast host (p >>= next)
  | save {A : Type} {store : ApprovalsStore} {a : A} :
      SavesLast host (do
        setStore store
        save host
        return a)

/-- Until a save starts, the manager's copy is coherent and no signature has been taken. -/
def Unsigned (host : Host) (past : List Op) (w : World) : Prop :=
  Cached host w.disk w.memory ∧ .stat ∉ past

theorem stable_unsigned : Stable (Elsewhere (RenamesUnexposed host)) (Unsigned host) := by
  rintro past w _ ⟨cached, unsigned⟩ ⟨disk, moved, rfl⟩
  exact ⟨cached_renewed cached (renames_renews moved.2), unsigned⟩

theorem unsigned_quiet (past : List Op) (op : Op) (w : World) (quiet : Quiet op)
    (before : Unsigned host past w) : Unsigned host (past ++ [op]) (handle host op w).2 := by
  refine ⟨(untouched_quiet quiet w).cached before.1, ?_⟩
  have notStat : .stat ≠ op := by
    rintro rfl
    exact quiet
  simp [before.2, notStat]

theorem along_savesLast {A : Type} {p : Action A} (shape : SavesLast host p) {past : List Op}
    {w : World} (before : Unsigned host past w) :
    p.Along (handle host) (Elsewhere (RenamesUnexposed host)) (Ends host) past w := by
  induction shape generalizing past w with
  | quiet uses =>
    exact (along_uses stable_unsigned unsigned_quiet uses before).mono
      fun result all final ends => ends.1
  | seq uses _ ih =>
    exact along_seq _ (along_uses stable_unsigned unsigned_quiet uses before)
      (fun e all final ends => ends.1) (fun b all final ends => ih b ends)
  | @save store a =>
    refine along_perform _ stable_unsigned before ?_
    rintro w' ⟨cached, unsigned⟩
    simp only [handle, Resumes]
    refine along_seq (Ends host) (along_save (by simpa using unsigned) cached.current)
      (fun e all final ends => ends) (fun _ all final ends => ?_)
    exact along_pure (stable_ends _) ends

theorem uses_onlyIf {condition : Prop} [Decidable condition] {action : Action Unit}
    (uses : action.Uses Quiet) : (onlyIf condition action).Uses Quiet := by
  unfold onlyIf
  split
  · exact uses
  · trivial

theorem uses_writePending (name content : String) (metaYaml : Option String) :
    (writePending name content metaYaml).Uses Quiet := by
  refine uses_bind (uses_perform trivial) fun _ => uses_bind (uses_perform trivial) fun _ => ?_
  cases metaYaml with
  | none => trivial
  | some text => exact uses_perform trivial

theorem uses_promote (name : String) : (promote name).Uses Quiet := by
  refine uses_bind (uses_perform trivial) fun _ => uses_bind (uses_perform ⟨trivial, trivial⟩) ?_
  exact fun _ => uses_bind (uses_perform trivial) fun _ =>
    uses_onlyIf (uses_perform ⟨trivial, trivial⟩)

theorem uses_removeFiles (name : String) : (removeFiles name).Uses Quiet := by
  have one : ∀ path, OfScripts path → (unlinkIfPresent path).Uses Quiet := fun path scripts =>
    uses_bind (uses_perform trivial) fun _ => uses_onlyIf (uses_perform scripts)
  exact uses_bind (one _ trivial) fun _ => uses_bind (one _ trivial) fun _ =>
    uses_bind (one _ trivial) fun _ => one _ trivial

theorem uses_requireRecord (name : String) : (requireRecord name).Uses Quiet := by
  refine uses_bind (uses_perform trivial) fun store => ?_
  cases store.scripts.get? name <;> trivial

theorem uses_requirePending (verb name : String) (state : ApprovalState) :
    (requirePending verb name state).Uses Quiet := by
  unfold requirePending
  split <;> trivial

theorem savesLast_save (store : ApprovalsStore) : SavesLast host (do
    setStore store
    save host) := by
  rw [← bind_pure (save host)]
  exact SavesLast.save (a := ())

theorem savesLast_stage (autoApprove : List String) (name content md5 : String)
    (metaYaml : Option String) : SavesLast host (stage host autoApprove name content md5 metaYaml) := by
  refine .seq (uses_perform trivial) fun store => ?_
  dsimp only
  split_ifs
  · exact .quiet uses_throw
  · exact .quiet uses_pure
  · exact .quiet uses_pure
  · refine .seq (uses_writePending name content metaYaml) fun _ => ?_
    refine .seq (uses_perform trivial) fun now => ?_
    exact .seq (uses_onlyIf (uses_promote name)) fun _ => .save

theorem savesLast_approve (name : String) : SavesLast host (approve host name) := by
  refine .seq (uses_requireRecord name) fun ⟨store, record⟩ => ?_
  refine .seq (uses_requirePending _ name record.state) fun _ => ?_
  refine .seq (uses_perform trivial) fun present => ?_
  split
  · exact .quiet uses_throw
  · exact .seq (uses_promote name) fun _ => .seq (uses_perform trivial) fun now => savesLast_save _

theorem savesLast_reject (name : String) : SavesLast host (reject host name) := by
  refine .seq (uses_requireRecord name) fun ⟨store, record⟩ => ?_
  refine .seq (uses_requirePending _ name record.state) fun _ => ?_
  exact .seq (uses_removeFiles name) fun _ => .seq (uses_perform trivial) fun now => savesLast_save _

theorem savesLast_clear (name : String) : SavesLast host (clear host name) := by
  refine .seq (uses_requireRecord name) fun ⟨store, record⟩ => ?_
  exact .seq (uses_removeFiles name) fun _ => savesLast_save _

theorem along_discard {A : Type} {p : Action A} {past : List Op} {w : World}
    (along : p.Along (handle host) (Elsewhere (RenamesUnexposed host)) (Ends host) past w) :
    (do let _ ← p : Action Unit).Along (handle host) (Elsewhere (RenamesUnexposed host)) (Ends host)
      past w :=
  along_seq (Ends host) along (fun _ _ _ ends => ends)
    fun _ _ _ ends => along_pure (stable_ends _) ends

theorem along_operation (autoApprove : List String) (operation : Operation) {w : World}
    (cached : Cached host w.disk w.memory) :
    (operation.action host autoApprove).Along (handle host) (Elsewhere (RenamesUnexposed host))
      (Ends host) [] w := by
  have before : Unsigned host [] w := ⟨cached, List.not_mem_nil⟩
  have read {A : Type} (result : Except Err A) (all : List Op) (final : World)
      (knows : Knows host (fun _ _ _ => True) w all final) : Ends host result all final := by
    obtain ⟨memory, disk, rfl, cached, _⟩ := knows
    exact cached
  cases operation with
  | getState name =>
    exact along_discard ((along_read (fun store => describe store name) (learns_nothing unexposed_renews) cached
      trivial).mono fun _ _ _ ends => read _ _ _ ends.2)
  | listAll =>
    exact along_discard ((along_read _ (learns_nothing unexposed_renews) cached trivial).mono
      fun _ _ _ ends => read _ _ _ ends.2)
  | mutate mutation =>
    cases mutation with
    | stage name content md5 metaYaml =>
      exact along_discard
        (along_savesLast (savesLast_stage autoApprove name content md5 metaYaml) before)
    | approve name => exact along_savesLast (savesLast_approve name) before
    | reject name => exact along_savesLast (savesLast_reject name) before
    | clear name => exact along_savesLast (savesLast_clear name) before

theorem cached_reached {autoApprove : List String} {w : World}
    (reached : Reached host (RenamesUnexposed host) autoApprove w) :
    Cached host w.disk w.memory := by
  induction reached with
  | constructed current runs => exact interleaved_along runs (along_init current)
  | served _ runs cached => exact interleaved_along runs (along_operation autoApprove _ cached)

theorem loaded_write_dump (disk : Disk) (store : ApprovalsStore) :
    (disk.write host .approvals (encode host .platform (host.codec.dump store))).loaded host =
      store := by
  simp [Disk.loaded, read_write_approvals, Disk.universal_encode, loadText, host.codec.load_dump]

theorem constructed_across_rename (host : Host) (w : World) (text : String) :
    ∃ all, Interleaved (handle host) (Elsewhere fun _ => Renames host) (init host) [] w (.ok ()) all
      { w with memory := ⟨w.disk.loaded host, (w.disk.write host .approvals text).currentSig host⟩
               disk := w.disk.write host .approvals text } := by
  let others : List Op → World → World → Prop := Elsewhere fun _ => Renames host
  obtain ⟨looked, loads⟩ : ∃ all, Interleaved (handle host) others (load host) [] w
      (host.run (load host) w).1 all (host.run (load host) w).2 := interleaved_run _ _ _
  rw [run_load] at loads
  let renamed : World := { w with disk := w.disk.write host .approvals text }
  let keep : Action Unit := do
    setStore (w.disk.loaded host)
    let sig ← stat
    setSig sig
  obtain ⟨all, keeps⟩ : ∃ all, Interleaved (handle host) others keep looked renamed
      (host.run keep renamed).1 all (host.run keep renamed).2 := interleaved_run _ _ _
  exact ⟨all, loads.bind (.other ⟨_, ⟨text, rfl⟩, rfl⟩ keeps)⟩

end Cache

end Csl.Agent
