import Csl.Library.Runs
import Mathlib.Algebra.Order.Ring.Nat
import Mathlib.Logic.Function.Basic

/-! Replacing a file through a temporary file of a fixed name.

A writer opens the temporary file, which truncates it when it is there, writes its
contents at an offset of its own in any number of pieces, and renames it over the
target. Names refer to files, and a writer goes on writing to the file it opened
whatever becomes of its name. The target is whole at every moment when writers
come one at a time.
-/

set_option autoImplicit false

namespace TempRename
open Runs

/-- What a writer is doing: nothing, or writing a text to a file, up to an offset. -/
inductive Phase (α : Type) where
  | idle
  | writing (text : List α) (file offset : Nat)

inductive Action (α : Type) where
  | «open» (text : List α)
  | write (count : Nat)
  | rename

structure State (α : Type) where
  temp : Option Nat
  target : Option Nat
  contents : Nat → List α
  next : Nat
  phase : Nat → Phase α

variable {α : Type}

def State.fresh : State α := ⟨none, none, fun _ => [], 0, fun _ => .idle⟩

def State.read (s : State α) : Option (List α) := s.target.map s.contents

/-- Write at an offset; what lies between the end of the file and the offset is `hole`. -/
def overwrite (hole : α) (old : List α) (offset : Nat) (piece : List α) : List α :=
  if piece = [] then old
  else old.take offset ++ List.replicate (offset - old.length) hole ++ piece ++
    old.drop (offset + piece.length)

variable (hole : α)

def step (s : State α) (event : Nat × Action α) : State α :=
  match event.2, s.phase event.1 with
  | .open text, .idle =>
    match s.temp with
    | some file =>
      { s with contents := Function.update s.contents file []
               phase := Function.update s.phase event.1 (.writing text file 0) }
    | none =>
      { s with temp := some s.next, contents := Function.update s.contents s.next []
               next := s.next + 1
               phase := Function.update s.phase event.1 (.writing text s.next 0) }
  | .write count, .writing text file offset =>
    let piece := (text.drop offset).take count
    { s with
      contents := Function.update s.contents file (overwrite hole (s.contents file) offset piece)
      phase := Function.update s.phase event.1 (.writing text file (offset + piece.length)) }
  | .rename, .writing text _ offset =>
    if offset = text.length then
      -- without a temporary file the rename fails; either way the writer is done
      { s with temp := none, target := s.temp.or s.target
               phase := Function.update s.phase event.1 .idle }
    else s
  | _, _ => s

/-- A writer opens the temporary file only when no writer is between its open and its rename. -/
def Alone (s : State α) (event : Nat × Action α) : Prop :=
  match event.2 with
  | .open _ => ∀ writer, s.phase writer = .idle
  | _ => True

def Writes (whole : List α → Prop) (s : State α) (writer : Nat) : Prop :=
  match s.phase writer with
  | .idle => True
  | .writing text file offset =>
    s.temp = some file ∧ s.contents file = text.take offset ∧ offset ≤ text.length ∧ whole text ∧
      ∀ other, other ≠ writer → s.phase other = .idle

/-- The target is whole, and the temporary file is another file. -/
structure Orderly (whole : List α → Prop) (s : State α) : Prop where
  target : ∀ file ∈ s.target, whole (s.contents file)
  older : ∀ file ∈ s.target, file < s.next
  temp : ∀ file ∈ s.temp, file < s.next ∧ s.target ≠ some file
  writes : ∀ writer, Writes whole s writer

theorem overwrite_take {text : List α} {offset : Nat} (within : offset ≤ text.length) (count : Nat) :
    let piece := (text.drop offset).take count
    overwrite hole (text.take offset) offset piece = text.take (offset + piece.length) := by
  intro piece
  have length : (text.take offset).length = offset := List.length_take_of_le within
  have taken : text.take (offset + piece.length) = text.take offset ++ piece := by
    rw [List.take_add]
    congr 1
    simp [piece, List.take_eq_take_iff]
  unfold overwrite
  split
  next empty => simp [empty]
  · rw [taken]
    simp [length, List.take_take]

variable {hole} {whole : List α → Prop} {s : State α}

theorem orderly_fresh : Orderly whole (State.fresh : State α) :=
  ⟨nofun, nofun, nofun, fun _ => trivial⟩

theorem orderly_opened (orderly : Orderly whole s) (idle : ∀ writer, s.phase writer = .idle)
    {writer file next : Nat} {text : List α} (opens : whole text) (grows : s.next ≤ next)
    (new : file < next) (apart : s.target ≠ some file) :
    Orderly whole { s with
      temp := some file, contents := Function.update s.contents file [], next
      phase := Function.update s.phase writer (.writing text file 0) } where
  target := by
    intro old held
    have differs : old ≠ file := by
      rintro rfl
      exact apart held
    simpa only [Function.update_of_ne differs] using orderly.target old held
  older := fun old held => Nat.lt_of_lt_of_le (orderly.older old held) grows
  temp := by
    rintro _ ⟨⟩
    exact ⟨new, apart⟩
  writes := by
    intro other
    unfold Writes
    by_cases same : other = writer
    · subst same
      simp only [Function.update_self, List.take_zero]
      refine ⟨trivial, trivial, Nat.zero_le _, opens, fun third apart => ?_⟩
      rw [Function.update_of_ne apart, idle]
    · simp only [Function.update_of_ne same, idle]

theorem orderly_written (orderly : Orderly whole s) {writer file offset : Nat} {text : List α}
    (working : s.phase writer = .writing text file offset) (count : Nat) :
    Orderly whole (step hole s (writer, .write count)) := by
  have own := orderly.writes writer
  unfold Writes at own
  rw [working] at own
  obtain ⟨named, written, within, opens, others⟩ := own
  obtain ⟨old, apart⟩ := orderly.temp file named
  simp only [step, working]
  refine ⟨?_, orderly.older, orderly.temp, ?_⟩
  · intro kept held
    have differs : kept ≠ file := by
      rintro rfl
      exact apart held
    simpa only [Function.update_of_ne differs] using orderly.target kept held
  · intro other
    unfold Writes
    by_cases same : other = writer
    · subst same
      simp only [Function.update_self, written, named]
      refine ⟨trivial, overwrite_take hole within count, ?_, opens, fun third apart => ?_⟩
      · rw [List.length_take, List.length_drop]
        omega
      · rw [Function.update_of_ne apart, others third apart]
    · simp only [Function.update_of_ne same, others other same]

theorem orderly_renamed (orderly : Orderly whole s) {writer file offset : Nat} {text : List α}
    (working : s.phase writer = .writing text file offset) :
    Orderly whole (step hole s (writer, .rename)) := by
  have own := orderly.writes writer
  unfold Writes at own
  rw [working] at own
  obtain ⟨named, written, _, opens, others⟩ := own
  simp only [step, working]
  split
  next finished =>
    rw [finished, List.take_length] at written
    rw [named, Option.some_or]
    refine ⟨?_, ?_, nofun, ?_⟩
    · rintro _ ⟨⟩
      rwa [written]
    · rintro _ ⟨⟩
      exact (orderly.temp file named).1
    · intro other
      unfold Writes
      by_cases same : other = writer
      · subst same
        simp only [Function.update_self]
      · simp only [Function.update_of_ne same, others other same]
  · exact orderly

theorem orderly_step (orderly : Orderly whole s) (event : Nat × Action α) (alone : Alone s event)
    (opens : ∀ text, event.2 = .open text → whole text) : Orderly whole (step hole s event) := by
  obtain ⟨writer, action⟩ := event
  cases action with
  | «open» text =>
    have idle : ∀ writer, s.phase writer = .idle := alone
    have text := opens text rfl
    simp only [step, idle writer]
    cases named : s.temp with
    | some file =>
      obtain ⟨old, apart⟩ := orderly.temp file named
      exact orderly_opened orderly idle text (Nat.le_refl _) old apart
    | none =>
      refine orderly_opened orderly idle text (Nat.le_succ _) (Nat.lt_succ_self _) fun held => ?_
      exact absurd (orderly.older _ held) (Nat.lt_irrefl _)
  | write count =>
    cases working : s.phase writer with
    | idle => simpa only [step, working] using orderly
    | writing text file offset => exact orderly_written orderly working count
  | rename =>
    cases working : s.phase writer with
    | idle => simpa only [step, working] using orderly
    | writing text file offset => exact orderly_renamed orderly working

/-- When writers come one at a time, the target is absent or one of their texts at every moment. -/
theorem orderly_run {events : List (Nat × Action α)}
    (alone : Meets (step hole) Alone State.fresh events)
    (opens : ∀ writer text, (writer, .open text) ∈ events → whole text) :
    Orderly whole (run (step hole) State.fresh events) := by
  have each : ∀ event ∈ events, ∀ text, event.2 = .open text → whole text := by
    rintro ⟨writer, action⟩ member text rfl
    exact opens writer text member
  exact invariant_run (Orderly whole)
    (fun _ event orderly allowed => orderly_step orderly event allowed.1 allowed.2) orderly_fresh
    (meets_and.mpr ⟨alone, meets_of_mem each⟩)

def replacement (writer : Nat) (text : List α) (pieces : List Nat) : List (Nat × Action α) :=
  (writer, .open text) :: (pieces.map fun count => (writer, .write count)) ++ [(writer, .rename)]

structure Working (s : State α) (writer : Nat) (text : List α) (offset : Nat) : Prop where
  phase : ∃ file, s.phase writer = .writing text file offset ∧ s.temp = some file ∧
    s.contents file = text.take offset
  within : offset ≤ text.length

theorem working_opened (hole : α) {writer : Nat} (idle : s.phase writer = .idle) (text : List α) :
    Working (step hole s (writer, .open text)) writer text 0 := by
  cases named : s.temp with
  | none => exact ⟨⟨s.next, by simp [step, idle, named]⟩, Nat.zero_le _⟩
  | some file => exact ⟨⟨file, by simp [step, idle, named]⟩, Nat.zero_le _⟩

theorem working_written (hole : α) {writer offset : Nat} {text : List α} (working : Working s writer text offset)
    (pieces : List Nat) :
    Working (run (step hole) s (pieces.map fun count => (writer, .write count))) writer text
      (min (offset + pieces.sum) text.length) := by
  induction pieces generalizing s offset with
  | nil => simpa [Nat.min_eq_left working.within] using working
  | cons count rest ih =>
    obtain ⟨file, phase, named, written⟩ := working.phase
    have within := working.within
    have length : ((text.drop offset).take count).length = min count (text.length - offset) := by
      rw [List.length_take, List.length_drop]
    have next : Working (step hole s (writer, .write count)) writer text
        (offset + ((text.drop offset).take count).length) := by
      refine ⟨⟨file, ?_, ?_, ?_⟩, by omega⟩
      · simp [step, phase]
      · simpa [step, phase] using named
      · simp only [step, phase, Function.update_self, written]
        exact overwrite_take hole within count
    have ends := ih next
    rw [List.map_cons, run_cons]
    convert ends using 1
    rw [length, List.sum_cons]
    omega

theorem read_replacement (hole : α) {writer : Nat} (idle : s.phase writer = .idle) {text : List α}
    {pieces : List Nat} (covers : text.length ≤ pieces.sum) :
    (run (step hole) s (replacement writer text pieces)).read = some text := by
  have working := working_written hole (working_opened hole idle text) pieces
  have all : min (0 + pieces.sum) text.length = text.length := by omega
  rw [all] at working
  rw [replacement, List.cons_append, run_cons, run_append]
  generalize run (step hole) (step hole s (writer, .open text)) _ = written at working ⊢
  obtain ⟨file, phase, named, contents⟩ := working.phase
  simp [step, phase, named, State.read, contents]

theorem Orderly.read (orderly : Orderly whole s) {text : List α} (found : s.read = some text) :
    whole text := by
  obtain ⟨file, held, rfl⟩ := Option.map_eq_some_iff.mp found
  exact orderly.target file held

end TempRename
