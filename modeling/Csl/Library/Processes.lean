import Mathlib.Data.List.Basic
import Mathlib.Logic.Function.Basic
import Mathlib.Tactic.Common

/-! The process table of an operating system.

A process is known by its place in the order of creation; its PID is only lent to it. It
holds the PID until it has ended and been reaped; from then on the kernel may give the PID
to another process.
-/

set_option autoImplicit false

namespace Processes

structure Process (Tag : Type) where
  pid : Nat
  tag : Tag
  ended : Option Int := none

/-- A process that has not ended holds its PID, and nobody else does. -/
structure Table (Tag : Type) where
  processes : List (Process Tag)
  holder : Nat → Option Nat
  holder_pid : ∀ pid k, holder pid = some k → ∃ p, processes[k]? = some p ∧ p.pid = pid
  alive_holds : ∀ k p, processes[k]? = some p → p.ended = none → holder p.pid = some k

namespace Table
variable {Tag : Type}

def empty : Table Tag := ⟨[], fun _ => none, nofun, nofun⟩

instance : Inhabited (Table Tag) := ⟨empty⟩

variable (t : Table Tag)

def process (k : Nat) : Option (Process Tag) := t.processes[k]?

def count : Nat := t.processes.length

def at? (pid : Nat) : Option (Process Tag) := (t.holder pid).bind t.process

def exitCode? (k : Nat) : Option Int := (t.process k).bind (·.ended)

def Alive (k : Nat) : Prop := ∃ p, t.process k = some p ∧ p.ended = none

theorem process_lt {k : Nat} {p : Process Tag} (found : t.process k = some p) : k < t.count :=
  (List.getElem?_eq_some_iff.mp found).1

theorem process_count : t.process t.count = none := List.getElem?_eq_none (Nat.le_refl _)

theorem at?_eq_some {pid : Nat} {p : Process Tag} :
    t.at? pid = some p ↔ ∃ k, t.holder pid = some k ∧ t.process k = some p :=
  Option.bind_eq_some_iff

theorem at?_of_holder {pid k : Nat} (held : t.holder pid = some k) : t.at? pid = t.process k := by
  rw [at?, held]
  rfl

theorem at?_of_free {pid : Nat} (free : t.holder pid = none) : t.at? pid = none := by
  rw [at?, free]
  rfl

theorem pid_of_holder {pid k : Nat} {p : Process Tag} (held : t.holder pid = some k)
    (found : t.process k = some p) : p.pid = pid := by
  obtain ⟨q, found', same⟩ := t.holder_pid pid k held
  cases found.symm.trans found'
  exact same

theorem Alive.holds {t : Table Tag} {k : Nat} {p : Process Tag} (alive : t.Alive k)
    (found : t.process k = some p) : t.holder p.pid = some k := by
  obtain ⟨q, found', running⟩ := alive
  cases found.symm.trans found'
  exact t.alive_holds k p found running

theorem exitCode?_of_alive {k : Nat} (alive : t.Alive k) : t.exitCode? k = none := by
  obtain ⟨p, found, running⟩ := alive
  rw [exitCode?, found]
  exact running

/-! ## What the kernel does -/

/-- Create a process; a PID that some process holds is not given out. -/
def spawn (pid : Nat) (tag : Tag) : Table Tag :=
  if free : t.holder pid = none then
    { processes := t.processes ++ [{ pid, tag }]
      holder := Function.update t.holder pid (some t.count)
      holder_pid := by
        intro other k held
        rw [Function.update_apply] at held
        split at held
        next same =>
          cases held
          exact ⟨{ pid, tag }, by simp [count], same.symm⟩
        next =>
          obtain ⟨p, found, same⟩ := t.holder_pid other k held
          exact ⟨p, by rw [List.getElem?_append_left (t.process_lt found), found], same⟩
      alive_holds := by
        intro k p found running
        rw [Function.update_apply]
        rcases Nat.lt_or_ge k t.count with old | new
        · rw [List.getElem?_append_left old] at found
          have held := t.alive_holds k p found running
          rw [if_neg, held]
          intro same
          rw [same, free] at held
          cases held
        · rw [List.getElem?_append_right new, List.getElem?_singleton] at found
          split at found
          next last =>
            cases found
            rw [if_pos rfl, show k = t.count by have := last; change k - t.count = 0 at this; omega]
          next => cases found }
  else t

/-- A process ends; it keeps its first exit code. -/
def exit (k : Nat) (code : Int) : Table Tag :=
  { processes := t.processes.modify k fun p => { p with ended := p.ended.or (some code) }
    holder := t.holder
    holder_pid := by
      intro pid j held
      obtain ⟨p, found, same⟩ := t.holder_pid pid j held
      rw [List.getElem?_modify, found]
      split
      · exact ⟨_, rfl, same⟩
      · exact ⟨p, rfl, same⟩
    alive_holds := by
      intro j p found running
      rw [List.getElem?_modify] at found
      split at found
      · obtain ⟨q, _, rfl⟩ := Option.map_eq_some_iff.mp found
        simp at running
      · exact t.alive_holds j p (by simpa using found) running }

/-- Reap a process that has ended: its PID is free again. -/
def reap (k : Nat) : Table Tag :=
  if done : (t.exitCode? k).isSome then
    { processes := t.processes
      holder := fun pid => if t.holder pid = some k then none else t.holder pid
      holder_pid := by
        intro pid j held
        split at held
        · cases held
        · exact t.holder_pid pid j held
      alive_holds := by
        intro j p found running
        have held := t.alive_holds j p found running
        rw [held, if_neg]
        intro same
        cases same
        rw [t.exitCode?_of_alive ⟨p, found, running⟩] at done
        cases done }
  else t

variable {t}

theorem process_spawn {pid : Nat} (free : t.holder pid = none) (tag : Tag) (k : Nat) :
    (t.spawn pid tag).process k = if k = t.count then some { pid, tag } else t.process k := by
  rw [process, spawn, dif_pos free]
  rcases Nat.lt_trichotomy k t.count with old | rfl | beyond
  · rw [if_neg (Nat.ne_of_lt old), List.getElem?_append_left old]
    rfl
  · simp [count]
  · rw [if_neg (Nat.ne_of_gt beyond), process, List.getElem?_eq_none (Nat.le_of_lt beyond),
      List.getElem?_eq_none]
    rw [List.length_append]
    exact beyond

theorem holder_spawn {pid : Nat} (free : t.holder pid = none) (tag : Tag) (other : Nat) :
    (t.spawn pid tag).holder other = if other = pid then some t.count else t.holder other := by
  simp only [spawn, dif_pos free, Function.update_apply]

theorem process_spawned {pid : Nat} (free : t.holder pid = none) (tag : Tag) :
    (t.spawn pid tag).process t.count = some { pid, tag } := by
  rw [process_spawn free, if_pos rfl]

theorem holder_spawned {pid : Nat} (free : t.holder pid = none) (tag : Tag) :
    (t.spawn pid tag).holder pid = some t.count := by
  rw [holder_spawn free, if_pos rfl]

theorem spawn_taken {pid : Nat} (taken : t.holder pid ≠ none) (tag : Tag) : t.spawn pid tag = t :=
  dif_neg taken

theorem count_spawn {pid : Nat} (free : t.holder pid = none) (tag : Tag) :
    (t.spawn pid tag).count = t.count + 1 := by
  simp [count, spawn, free]

theorem process_exit (k : Nat) (code : Int) (other : Nat) :
    (t.exit k code).process other =
      if k = other then (t.process other).map fun p => { p with ended := p.ended.or (some code) }
      else t.process other := by
  simp only [process, exit, List.getElem?_modify]
  split <;> simp

@[simp] theorem holder_exit (k : Nat) (code : Int) : (t.exit k code).holder = t.holder := rfl

@[simp] theorem count_exit (k : Nat) (code : Int) : (t.exit k code).count = t.count :=
  List.length_modify _ _ _

@[simp] theorem count_reap (k : Nat) : (t.reap k).count = t.count := by
  simp only [reap, count]
  split <;> rfl

@[simp] theorem process_reap (k other : Nat) : (t.reap k).process other = t.process other := by
  simp only [reap, process]
  split <;> rfl

theorem holder_reap {k : Nat} (done : (t.exitCode? k).isSome) (pid : Nat) :
    (t.reap k).holder pid = if t.holder pid = some k then none else t.holder pid := by
  simp only [reap, dif_pos done]

theorem reap_alive {k : Nat} (running : ¬ (t.exitCode? k).isSome) : t.reap k = t := dif_neg running

/-! ## Time passing -/

/-- A later table: processes keep their PID, tag and exit code, and a PID changes hands only
to a process created since. -/
structure Later (t t' : Table Tag) : Prop where
  count : t.count ≤ t'.count
  process : ∀ k p, t.process k = some p → ∃ p', t'.process k = some p' ∧ p'.pid = p.pid ∧
    p'.tag = p.tag ∧ ∀ code, p.ended = some code → p'.ended = some code
  holder : ∀ pid k, t'.holder pid = some k → t.holder pid = some k ∨ t.count ≤ k

namespace Later
variable {t' t'' : Table Tag}

theorem refl (t : Table Tag) : Later t t :=
  ⟨Nat.le_refl _, fun _ p found => ⟨p, found, rfl, rfl, fun _ same => same⟩, fun _ _ held => .inl held⟩

theorem trans (first : Later t t') (second : Later t' t'') : Later t t'' where
  count := Nat.le_trans first.count second.count
  process := by
    intro k p found
    obtain ⟨p', found', pid', tag', ended'⟩ := first.process k p found
    obtain ⟨p'', found'', pid'', tag'', ended''⟩ := second.process k p' found'
    exact ⟨p'', found'', pid''.trans pid', tag''.trans tag', fun code same => ended'' _ (ended' _ same)⟩
  holder := by
    intro pid k held
    rcases second.holder pid k held with before | new
    · exact first.holder pid k before
    · exact .inr (Nat.le_trans first.count new)

theorem spawned (t : Table Tag) (pid : Nat) (tag : Tag) : Later t (t.spawn pid tag) := by
  by_cases free : t.holder pid = none
  · constructor
    · rw [count_spawn free]
      omega
    · intro k p found
      refine ⟨p, ?_, rfl, rfl, fun _ same => same⟩
      rw [process_spawn free, if_neg (Nat.ne_of_lt (t.process_lt found)), found]
    · intro other k held
      rw [holder_spawn free] at held
      split at held
      · cases held
        exact .inr (Nat.le_refl _)
      · exact .inl held
  · rw [spawn_taken free]
    exact refl t

theorem exited (t : Table Tag) (k : Nat) (code : Int) : Later t (t.exit k code) := by
  constructor
  · exact Nat.le_of_eq (count_exit k code).symm
  · intro j p found
    rw [process_exit, found]
    split
    · refine ⟨_, rfl, rfl, rfl, ?_⟩
      intro code same
      simp [same]
    · exact ⟨p, rfl, rfl, rfl, fun _ same => same⟩
  · intro pid j held
    exact .inl held

theorem reaped (t : Table Tag) (k : Nat) : Later t (t.reap k) := by
  by_cases done : (t.exitCode? k).isSome
  · constructor
    · exact Nat.le_of_eq (count_reap k).symm
    · intro j p found
      exact ⟨p, by rw [process_reap, found], rfl, rfl, fun _ same => same⟩
    · intro pid j held
      rw [holder_reap done] at held
      split at held
      · cases held
      · exact .inl held
  · rw [reap_alive done]
    exact refl t

theorem alive (later : Later t t') {k : Nat} (old : k < t.count) (running : t'.Alive k) :
    t.Alive k := by
  obtain ⟨p', found', running⟩ := running
  obtain ⟨p, found⟩ : ∃ p, t.process k = some p := ⟨_, List.getElem?_eq_getElem old⟩
  obtain ⟨q, found'', _, _, ended⟩ := later.process k p found
  cases found'.symm.trans found''
  refine ⟨p, found, ?_⟩
  cases done : p.ended with
  | none => rfl
  | some code => rw [ended code done] at running; cases running

theorem exitCode? (later : Later t t') {k : Nat} {code : Int} (done : t.exitCode? k = some code) :
    t'.exitCode? k = some code := by
  obtain ⟨p, found, ended⟩ := Option.bind_eq_some_iff.mp done
  obtain ⟨p', found', _, _, kept⟩ := later.process k p found
  rw [Table.exitCode?, found']
  exact kept code ended

end Later

end Table
end Processes
