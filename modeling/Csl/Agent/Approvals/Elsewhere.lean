import Csl.Agent.Approvals.Mutations
import Csl.Library.Interference

/-! Reading approvals.json while other processes replace it.

Other processes change files only. A replaced approvals.json carries a
modification time that no write had before, so a signature taken earlier never
becomes current again. What a manager knows after loading is then a statement
about the file at the moment it was read.
-/

set_option autoImplicit false

namespace Csl.Agent
open Csl.Shared ApprovalsManager Proc

def Disk.Renews (host : Host) (disk after : Disk) : Prop :=
  disk.writes ≤ after.writes ∧ (after.read host .approvals = disk.read host .approvals ∨
    ∃ file, after.read host .approvals = some file ∧ disk.writes < file.mtime ∧
      file.mtime ≤ after.writes)

/-- A store and a signature kept as a copy of approvals.json: they are its contents when the
signature is still its signature. -/
structure Cached (host : Host) (disk : Disk) (memory : Memory) : Prop where
  store : memory.sig = disk.currentSig host → memory.store = disk.loaded host
  past : memory.sig.1 ≤ disk.writes
  current : (disk.currentSig host).1 ≤ disk.writes

section
variable {host : Host} {disk after : Disk} {memory : Memory}

theorem current_renewed (current : (disk.currentSig host).1 ≤ disk.writes)
    (renews : disk.Renews host after) : (after.currentSig host).1 ≤ after.writes := by
  obtain ⟨later, same | ⟨file, found, _, bound⟩⟩ := renews
  · rw [Disk.currentSig, same]
    exact current.trans later
  · simpa [Disk.currentSig, found] using bound

theorem cached_renewed (cached : Cached host disk memory) (renews : disk.Renews host after) :
    Cached host after memory := by
  refine ⟨?_, cached.past.trans renews.1, current_renewed cached.current renews⟩
  obtain ⟨later, same | ⟨file, found, fresh, _⟩⟩ := renews
  · have sig : after.currentSig host = disk.currentSig host := by simp only [Disk.currentSig, same]
    have loaded : after.loaded host = disk.loaded host := by simp only [Disk.loaded, same]
    rw [sig, loaded]
    exact cached.store
  · intro sig
    have stamp : memory.sig.1 = file.mtime := by
      rw [sig]
      simp [Disk.currentSig, found]
    have past := cached.past
    omega

theorem cached_saved (written : Disk) (store : ApprovalsStore) :
    Cached host (written.saved host store) ⟨store, (written.saved host store).currentSig host⟩ := by
  have current := (currentSig_saved host written store).le
  exact ⟨fun _ => (Disk.loaded_saved store).symm, current, current⟩

theorem renews_saved {written : Disk} (later : disk.writes ≤ written.writes)
    (store : ApprovalsStore) : disk.Renews host (written.saved host store) := by
  have saved : (written.saved host store).read host .approvals =
      some ⟨encode host .platform (host.codec.dump store), written.writes + 1⟩ := by
    simp [Disk.saved, Disk.read_rename, Disk.read_write, Host.canonical]
  have writes : (written.saved host store).writes = written.writes + 1 := rfl
  exact ⟨by omega, .inr ⟨_, saved, by simp only; omega, by simp only; omega⟩⟩

end

/-- Between two calls of this process another one may change the files. -/
def Elsewhere (moves : List Op → Disk → Disk → Prop) (past : List Op) (w w' : World) : Prop :=
  ∃ disk, moves past w.disk disk ∧ w' = { w with disk }

def At (w : World) (holds : List Op → Disk → Prop) (past : List Op) (w' : World) : Prop :=
  ∃ disk, w' = { w with disk } ∧ holds past disk

theorem at_self {w : World} {holds : List Op → Disk → Prop} {past : List Op}
    (held : holds past w.disk) : At w holds past w := ⟨w.disk, rfl, held⟩

theorem stable_at {moves : List Op → Disk → Disk → Prop} {holds : List Op → Disk → Prop}
    (stable : Stable moves holds) (w : World) : Stable (Elsewhere moves) (At w holds) := by
  rintro past _ _ ⟨disk, rfl, held⟩ ⟨after, moved, rfl⟩
  exact ⟨after, rfl, stable past disk after held moved⟩

def Op.Syncs : Op → Prop
  | .getSig | .getStore | .setStore _ | .setSig _ | .exists? .approvals | .readText .approvals =>
      True
  | _ => False

namespace ApprovalsManager
variable {host : Host} {moves : List Op → Disk → Disk → Prop}

theorem stable_cached (renews : ∀ past disk after, moves past disk after → disk.Renews host after)
    (memory : Memory) : Stable moves (fun _ disk => Cached host disk memory) :=
  fun past disk after cached moved => cached_renewed cached (renews past disk after moved)

theorem along_load (renews : ∀ past disk after, moves past disk after → disk.Renews host after)
    {pre : List Op → Disk → Prop} {holds : ApprovalsStore → List Op → Disk → Prop}
    (stablePre : Stable moves pre) (stableHolds : ∀ store, Stable moves (holds store))
    (looked : ∀ past disk, pre past disk → pre (past ++ [.exists? .approvals]) disk)
    (absent : ∀ past disk, pre past disk → disk.read host .approvals = none →
      holds .empty (past ++ [.exists? .approvals]) disk)
    (reads : ∀ past disk, pre past disk → holds (disk.loaded host) (past ++ [.readText .approvals]) disk)
    {past : List Op} {w : World} (before : pre past w.disk) :
    (load host).Along (handle host) (Elsewhere moves)
      (fun result all final => ∃ store, result = .ok store ∧ At w (holds store) all final) past w := by
  have ends : ∀ store, Stable (Elsewhere moves) (fun all final =>
      ∃ found, (Except.ok store : Except Err ApprovalsStore) = .ok found ∧
        At w (holds found) all final) := by
    rintro store all s next ⟨_, ⟨⟩, held⟩ moved
    exact ⟨store, rfl, stable_at (stableHolds store) w all s next held moved⟩
  -- once approvals.json is there, others replace it and do not remove it
  have stays : Stable moves (fun past disk => pre past disk ∧ (disk.read host .approvals).isSome) := by
    rintro all disk after ⟨held, present⟩ moved
    refine ⟨stablePre all disk after held moved, ?_⟩
    rcases (renews all disk after moved).2 with same | ⟨file, found, _⟩
    · rwa [same]
    · simp [found]
  refine along_perform (At w pre) (stable_at stablePre w) (at_self before) ?_
  rintro _ ⟨disk, rfl, held⟩
  simp only [handle, Resumes]
  cases found : disk.read host .approvals with
  | none =>
    exact along_pure (ends .empty) ⟨_, rfl, disk, rfl, absent past disk held found⟩
  | some file =>
    refine along_tryCatch (fun result all final => ∃ store, result = .ok store ∧
      At w (holds store) all final) ?_ (fun _ _ _ => id) ?_
    · refine along_perform (At w _) (stable_at stays w)
        ⟨disk, rfl, looked past disk held, by simp [found]⟩ ?_
      rintro _ ⟨later, rfl, held, present⟩
      obtain ⟨file, found⟩ := Option.isSome_iff_exists.mp present
      simp only [handle, found, Resumes]
      refine along_pure (ends _) ⟨_, rfl, later, rfl, ?_⟩
      have contents := reads _ _ held
      rwa [Disk.loaded, found] at contents
    · rintro e all final ⟨_, ⟨⟩, _⟩

/-- What a manager learns from approvals.json: `holds` of the contents at the moment they are
read, when `pre` holds since the file's signature was taken. -/
structure Learns (host : Host) (moves : List Op → Disk → Disk → Prop)
    (before pre : List Op → Disk → Prop) (holds : ApprovalsStore → List Op → Disk → Prop) : Prop where
  renews : ∀ past disk after, moves past disk after → disk.Renews host after
  stableBefore : Stable moves before
  stablePre : Stable moves pre
  stableHolds : ∀ store, Stable moves (holds store)
  enters : ∀ past disk, before past disk → pre (past ++ [.stat]) disk
  syncsPre : ∀ past op disk, op.Syncs → pre past disk → pre (past ++ [op]) disk
  syncsHolds : ∀ store past op disk, op.Syncs → holds store past disk →
    holds store (past ++ [op]) disk
  reads : ∀ past disk, pre past disk → holds (disk.loaded host) past disk

theorem learns_nothing
    (renews : ∀ past disk after, moves past disk after → disk.Renews host after) :
    Learns host moves (fun _ _ => True) (fun _ _ => True) (fun _ _ _ => True) where
  renews := renews
  stableBefore := fun _ _ _ _ _ => trivial
  stablePre := fun _ _ _ _ _ => trivial
  stableHolds := fun _ _ _ _ _ _ => trivial
  enters := fun _ _ _ => trivial
  syncsPre := fun _ _ _ _ _ => trivial
  syncsHolds := fun _ _ _ _ _ _ => trivial
  reads := fun _ _ _ => trivial

variable {before pre : List Op → Disk → Prop} {holds : ApprovalsStore → List Op → Disk → Prop}

def Knows (host : Host) (holds : ApprovalsStore → List Op → Disk → Prop) (w : World)
    (past : List Op) (w' : World) : Prop :=
  ∃ memory, At { w with memory }
    (fun all disk => Cached host disk memory ∧ holds memory.store all disk) past w'

theorem Learns.stable (learns : Learns host moves before pre holds) (memory : Memory) :
    Stable moves (fun all disk => Cached host disk memory ∧ holds memory.store all disk) :=
  (stable_cached learns.renews memory).and (learns.stableHolds memory.store)

theorem Learns.stable_knows (learns : Learns host moves before pre holds) (w : World) :
    Stable (Elsewhere moves) (Knows host holds w) := by
  rintro all s next ⟨memory, held⟩ moved
  exact ⟨memory, stable_at (learns.stable memory) _ all s next held moved⟩

theorem along_syncFromDisk (learns : Learns host moves before pre holds) {past : List Op} {w : World}
    (cached : Cached host w.disk w.memory) (start : before past w.disk) :
    (syncFromDisk host).Along (handle host) (Elsewhere moves)
      (fun result all final => result = .ok () ∧ Knows host holds w all final) past w := by
  have ends : Stable (Elsewhere moves) (fun all final => (Except.ok () : Except Err Unit) = .ok () ∧
      Knows host holds w all final) :=
    fun all s next held moved => ⟨rfl, learns.stable_knows w all s next held.2 moved⟩
  refine along_perform (At w _)
    (stable_at ((stable_cached learns.renews w.memory).and learns.stableBefore) w)
    (at_self ⟨cached, start⟩) ?_
  rintro _ ⟨disk, rfl, cached, start⟩
  simp only [handle, Resumes]
  -- the signature stays the one of the moment it was taken
  generalize signature : disk.currentSig host = sig
  have past : sig.1 ≤ disk.writes := signature ▸ cached.current
  have ahead : Stable moves (fun _ disk => Cached host disk w.memory ∧ sig.1 ≤ disk.writes) := by
    rintro all disk after ⟨cached, past⟩ moved
    have renewed := learns.renews all disk after moved
    exact ⟨cached_renewed cached renewed, past.trans renewed.1⟩
  have known : Stable moves (fun all disk => sig = w.memory.sig → holds w.memory.store all disk) :=
    fun all disk after held moved same => learns.stableHolds w.memory.store all disk after (held same) moved
  have entered := learns.enters _ _ start
  refine along_perform (At w _) (stable_at ((ahead.and learns.stablePre).and known) w)
    ⟨disk, rfl, ⟨⟨cached, past⟩, entered⟩, fun same => ?_⟩ ?_
  · rw [cached.store (same.symm.trans signature.symm)]
    exact learns.reads _ _ entered
  rintro _ ⟨later, rfl, ⟨⟨cached, past⟩, held⟩, same⟩
  simp only [handle, Resumes]
  by_cases moved : sig = w.memory.sig
  · rw [onlyIf, if_neg (not_not.mpr moved)]
    exact along_pure ends ⟨rfl, w.memory, later, rfl, cached,
      learns.syncsHolds _ _ .getSig _ trivial (same moved)⟩
  · rw [onlyIf, if_pos moved]
    -- whatever is read now is paired with a signature that is current only if nothing was
    -- renamed in between
    have pair : ∀ disk, (Cached host disk w.memory ∧ sig.1 ≤ disk.writes) →
        Cached host disk ⟨disk.loaded host, sig⟩ :=
      fun disk known => ⟨fun _ => rfl, known.2, known.1.current⟩
    have read : ∀ store, Stable moves (fun all disk => Cached host disk ⟨store, sig⟩ ∧
        holds store all disk) := fun store => learns.stable ⟨store, sig⟩
    refine along_seq (fun result all final => ∃ store, result = .ok store ∧
      At w (fun all disk => Cached host disk ⟨store, sig⟩ ∧ holds store all disk) all final) ?_ ?_ ?_
    · refine along_load learns.renews (ahead.and learns.stablePre) read
        (fun all disk held => ⟨held.1, learns.syncsPre _ _ _ trivial held.2⟩) ?_
        (fun all disk held => ⟨pair disk held.1, learns.syncsHolds _ _ _ _ trivial (learns.reads _ _ held.2)⟩)
        ⟨⟨cached, past⟩, learns.syncsPre _ .getSig _ trivial held⟩
      intro all disk held absent
      have empty : disk.loaded host = .empty := by simp only [Disk.loaded, absent]
      rw [← empty]
      exact ⟨pair disk held.1, learns.syncsHolds _ _ _ _ trivial (learns.reads _ _ held.2)⟩
    · rintro e all final ⟨_, ⟨⟩, _⟩
    · rintro store all _ ⟨_, ⟨⟩, disk, rfl, held⟩
      refine along_perform (At w _) (stable_at (read store) w) ⟨disk, rfl, held⟩ ?_
      rintro _ ⟨disk, rfl, cached, held⟩
      simp only [handle, Resumes]
      rw [← bind_pure (setSig sig)]
      refine along_perform (At { w with memory := ⟨store, w.memory.sig⟩ } _)
        (stable_at (read store) _)
        ⟨disk, rfl, cached, learns.syncsHolds _ _ (.setStore store) _ trivial held⟩ ?_
      rintro _ ⟨disk, rfl, cached, held⟩
      simp only [handle, Resumes]
      exact along_pure ends ⟨rfl, ⟨store, sig⟩, disk, rfl, cached,
        learns.syncsHolds _ _ (.setSig sig) _ trivial held⟩

theorem along_read {A : Type} (answer : ApprovalsStore → A)
    (learns : Learns host moves before pre holds) {past : List Op} {w : World}
    (cached : Cached host w.disk w.memory) (start : before past w.disk) :
    (do
      syncFromDisk host
      let store ← getStore
      return answer store : Action A).Along (handle host) (Elsewhere moves)
      (fun result all final => result = .ok (answer final.memory.store) ∧
        Knows host holds w all final) past w := by
  refine along_seq _ (along_syncFromDisk learns cached start) ?_ ?_
  · rintro e all final ⟨⟨⟩, _⟩
  · rintro _ all final ⟨_, knows⟩
    refine along_perform (Knows host holds w) (learns.stable_knows w) knows ?_
    rintro _ ⟨memory, disk, rfl, cached, held⟩
    simp only [handle, Resumes]
    refine along_pure ?_ ⟨rfl, memory, disk, rfl, cached, learns.syncsHolds _ _ .getStore _ trivial held⟩
    rintro all s next ⟨same, knows⟩ moved
    have after := learns.stable_knows w all s next knows moved
    obtain ⟨disk, _, rfl⟩ := moved
    exact ⟨same, after⟩

end ApprovalsManager

end Csl.Agent
