import Csl.Agent.Approvals.Specs
import Csl.Agent.Installation
import Csl.Library.TempRename

/-! Concurrent saves through the one approvals.tmp.

`_save` of any process truncates approvals.tmp, writes the whole store to it and
renames it over approvals.json. The processes share the name of the temporary
file, so a save that starts before another's rename works on the same file.
-/

set_option autoImplicit false

namespace Csl.Agent
open Csl.Shared ApprovalsManager Runs Installation

namespace TempFile

def bytes (text : String) : List UInt8 := text.toByteArray.data.toList

def decode (content : List UInt8) : Option String := String.fromUTF8? ⟨content.toArray⟩

@[simp] theorem decode_bytes (text : String) : decode (bytes text) = some text := by
  simp [decode, bytes, String.fromUTF8?, String.fromUTF8, text.isValidUTF8]

variable (host : Host)

def serialized (store : ApprovalsStore) : List UInt8 :=
  bytes (encode host .platform (host.codec.dump store))

/-- What `_load` makes of the bytes of approvals.json; none is its "starting fresh" branch. -/
def loads (content : List UInt8) : Option ApprovalsStore :=
  (decode content).bind fun text => host.codec.load (Newlines.universal text)

/-- The file-level steps of `_save`; the write may take any number of pieces. -/
inductive SaveStep where
  | «open» (store : ApprovalsStore)
  | write (count : Nat)
  | rename

abbrev Event := Nat × SaveStep

def SaveStep.action : SaveStep → TempRename.Action UInt8
  | .open store => .open (serialized host store)
  | .write count => .write count
  | .rename => .rename

def serve (s : TempRename.State UInt8) (event : Event) : TempRename.State UInt8 :=
  TempRename.step 0 s (event.1, event.2.action host)

/-- A save opens approvals.tmp only when no save is between its open and its rename. -/
def OneAtATime (s : TempRename.State UInt8) (event : Event) : Prop :=
  TempRename.Alone s (event.1, event.2.action host)

def Intended (events : List Event) (content : List UInt8) : Prop :=
  ∃ process store, (process, .open store) ∈ events ∧ content = serialized host store

variable {host}

theorem loads_serialized (store : ApprovalsStore) :
    loads host (serialized host store) = some store := by
  simp [loads, serialized, Disk.universal_encode, host.codec.load_dump]

theorem run_serve (start : TempRename.State UInt8) (events : List Event) :
    run (serve host) start events =
      run (TempRename.step 0) start (events.map fun event => (event.1, event.2.action host)) := by
  induction events generalizing start with
  | nil => rfl
  | cons event rest ih => exact ih _

theorem meets_serve {start : TempRename.State UInt8} {events : List Event}
    (alone : Meets (serve host) (OneAtATime host) start events) :
    Meets (TempRename.step 0) TempRename.Alone start (events.map fun event => (event.1, event.2.action host)) := by
  induction events generalizing start with
  | nil => trivial
  | cons event rest ih => exact ⟨alone.1, ih alone.2⟩

/-- Without interruption, the file-level steps of a save leave the approvals.json that `_save`
leaves, whatever the pieces of its write. -/
theorem read_save (host : Host) (w : World) {s : TempRename.State UInt8} {process : Nat}
    (idle : s.phase process = .idle) {pieces : List Nat}
    (covers : (serialized host w.memory.store).length ≤ pieces.sum) :
    (run (TempRename.step 0) s
        (TempRename.replacement process (serialized host w.memory.store) pieces)).read =
      ((host.run (save host) w).2.disk.text? host .approvals).map bytes := by
  rw [TempRename.read_replacement 0 idle covers, run_save]
  simp [World.saved, Disk.saved, Disk.text?_rename, Disk.text?_write, Host.canonical, serialized]

/-- When saves come one at a time, approvals.json is at every moment absent or one complete
serialisation that a single save intended, and loading it never starts fresh. -/
theorem never_partially_written (host : Host) (events : List Event)
    (alone : Meets (serve host) (OneAtATime host) .fresh events) :
    ∀ before after content, events = before ++ after →
      (run (serve host) .fresh before).read = some content →
      Intended host before content ∧ (loads host content).isSome := by
  rintro before after content rfl found
  have orderly : TempRename.Orderly (Intended host before) (run (serve host) .fresh before) := by
    rw [run_serve]
    refine TempRename.orderly_run (meets_serve (meets_append.mp alone).1) fun process text opened => ?_
    obtain ⟨⟨_, saveStep⟩, member, same⟩ := List.mem_map.mp opened
    cases saveStep with
    | «open» store =>
      cases same
      exact ⟨_, store, member, rfl⟩
    | write | rename => cases same
  obtain ⟨process, store, opened, rfl⟩ := orderly.read found
  refine ⟨⟨process, store, opened, rfl⟩, ?_⟩
  rw [loads_serialized]
  rfl

def oneAfterTheOther : List Event :=
  [(0, .open waitingStore), (0, .write (serialized linux waitingStore).length), (0, .rename),
    (1, .open approvedStore)]

theorem one_after_the_other_whole :
    Intended linux oneAfterTheOther (serialized linux waitingStore) ∧
      (loads linux (serialized linux waitingStore)).isSome := by
  refine never_partially_written linux oneAfterTheOther ?_ oneAfterTheOther [] _ rfl ?_
  · simp [oneAfterTheOther, Meets, OneAtATime, TempRename.Alone, serve, SaveStep.action,
      TempRename.step, TempRename.State.fresh]
  · simp [oneAfterTheOther, serve, SaveStep.action, TempRename.step, TempRename.overwrite,
      TempRename.State.fresh, TempRename.State.read]

/-! ## Overlapping saves -/

def overlapping (host : Host) (mine theirs : ApprovalsStore) : List Event :=
  [(0, .open mine), (0, .write (serialized host mine).length), (1, .open theirs), (0, .rename)]

/-- A save that opens approvals.tmp before another's rename empties what is renamed. -/
theorem overlapping_open_empties (host : Host) (mine theirs : ApprovalsStore) :
    (run (serve host) .fresh (overlapping host mine theirs)).read = some [] := by
  simp [overlapping, serve, SaveStep.action, TempRename.step, TempRename.State.fresh,
    TempRename.State.read]

/-- The emptied file is no serialisation, and a manager that loads it starts fresh. -/
theorem overlapping_saves_start_fresh :
    let events := overlapping linux waitingStore approvedStore
    (run (serve linux) .fresh events).read = some [] ∧ ¬ Intended linux events [] ∧
      loads linux [] = none := by
  have fresh : loads linux [] = none := by decide
  refine ⟨overlapping_open_empties linux _ _, ?_, fresh⟩
  rintro ⟨process, store, _, empty⟩
  rw [empty, loads_serialized] at fresh
  cases fresh

end TempFile

end Csl.Agent
