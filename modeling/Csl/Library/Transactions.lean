import Mathlib.Logic.Relation
import Mathlib.Tactic.Common

/-! A database whose transactions take one write lock.

A connection reads the committed tables, and its own copy of them once it has changed
something. Its first change takes the lock, which it keeps until it commits or rolls back.
-/

set_option autoImplicit false

namespace Transactions
variable {Tables : Type}

structure Store (Tables : Type) where
  committed : Tables
  /-- The connection that has the lock, with the tables as it has changed them. -/
  writer : Option (Nat × Tables)

namespace Store
variable (store : Store Tables) (connection : Nat)

def view : Tables :=
  match store.writer with
  | some (holder, tables) => if holder = connection then tables else store.committed
  | none => store.committed

def locked : Bool := store.writer.any fun writer => writer.1 ≠ connection

def write (tables : Tables) : Store Tables := { store with writer := some (connection, tables) }

def commit : Store Tables :=
  match store.writer with
  | some (holder, tables) => if holder = connection then ⟨tables, none⟩ else store
  | none => store

def rollback : Store Tables :=
  match store.writer with
  | some (holder, _) => if holder = connection then { store with writer := none } else store
  | none => store

variable {store} {connection}

theorem view_free (free : store.writer = none) : store.view connection = store.committed := by
  rw [view, free]

theorem view_own {tables : Tables} (own : store.writer = some (connection, tables)) :
    store.view connection = tables := by
  rw [view, own]
  exact if_pos rfl

theorem view_other {holder : Nat} {tables : Tables} (held : store.writer = some (holder, tables))
    (other : holder ≠ connection) : store.view connection = store.committed := by
  rw [view, held]
  exact if_neg other

theorem writer_of_not_locked (free : store.locked connection = false) :
    store.writer = none ∨ ∃ tables, store.writer = some (connection, tables) := by
  rw [locked] at free
  cases held : store.writer with
  | none => exact .inl rfl
  | some writer =>
    obtain ⟨holder, tables⟩ := writer
    rw [held] at free
    have same : holder = connection := by simpa using free
    exact .inr ⟨tables, by rw [same]⟩

@[simp] theorem committed_write (tables : Tables) :
    (store.write connection tables).committed = store.committed := rfl

@[simp] theorem writer_write (tables : Tables) :
    (store.write connection tables).writer = some (connection, tables) := rfl

theorem commit_own {tables : Tables} (own : store.writer = some (connection, tables)) :
    store.commit connection = ⟨tables, none⟩ := by
  rw [commit, own]
  exact if_pos rfl

theorem commit_free (free : store.writer = none) : store.commit connection = store := by
  rw [commit, free]

theorem commit_other {holder : Nat} {tables : Tables} (held : store.writer = some (holder, tables))
    (other : holder ≠ connection) : store.commit connection = store := by
  rw [commit, held]
  exact if_neg other

theorem commit_cases (store : Store Tables) (connection : Nat) :
    store.commit connection = store ∨
      store.writer = some (connection, store.view connection) ∧
        store.commit connection = ⟨store.view connection, none⟩ := by
  cases held : store.writer with
  | none => exact .inl (commit_free held)
  | some writer =>
    obtain ⟨holder, tables⟩ := writer
    by_cases own : holder = connection
    · subst own
      rw [view_own held, commit_own held]
      exact .inr ⟨rfl, rfl⟩
    · exact .inl (commit_other held own)

theorem committed_commit (store : Store Tables) (connection : Nat) :
    (store.commit connection).committed = store.view connection := by
  cases held : store.writer with
  | none => rw [commit_free held, view_free held]
  | some writer =>
    obtain ⟨holder, tables⟩ := writer
    by_cases own : holder = connection
    · subst own
      rw [view_own held, commit_own held]
    · rw [commit_other held own, view_other held own]

@[simp] theorem committed_rollback : (store.rollback connection).committed = store.committed := by
  rw [rollback]
  split
  · split_ifs <;> rfl
  · rfl

theorem writer_rollback (store : Store Tables) (connection : Nat) :
    (store.rollback connection).writer = store.writer ∨ (store.rollback connection).writer = none := by
  rw [rollback]
  split
  next held =>
    split_ifs
    · exact .inr rfl
    · exact .inl rfl
  · exact .inl rfl

theorem rollback_other {holder : Nat} {tables : Tables}
    (held : store.writer = some (holder, tables)) (other : holder ≠ connection) :
    store.rollback connection = store := by
  rw [rollback, held]
  exact if_neg other

theorem rollback_own {tables : Tables} (own : store.writer = some (connection, tables)) :
    store.rollback connection = ⟨store.committed, none⟩ := by
  rw [rollback, own]
  exact if_pos rfl

theorem rollback_free (free : store.writer = none) : store.rollback connection = store := by
  rw [rollback, free]

section
variable {other : Nat} (apart : other ≠ connection)
include apart

theorem view_write_other (tables : Tables) (free : store.locked other = false) :
    (store.write other tables).view connection = store.view connection := by
  rw [view_other (writer_write tables) apart, committed_write]
  rcases writer_of_not_locked free with none | ⟨before, own⟩
  · rw [view_free none]
  · rw [view_other own apart]

theorem view_rollback_other : (store.rollback other).view connection = store.view connection := by
  cases held : store.writer with
  | none => rw [rollback_free held]
  | some writer =>
    obtain ⟨holder, tables⟩ := writer
    by_cases own : holder = other
    · subst own
      rw [rollback_own held, view_free rfl, view_other held apart]
    · rw [rollback_other held own]

theorem view_commit_other :
    (store.commit other).view connection = store.view connection ∨
      store.view connection = store.committed ∧
        (store.commit other).view connection = store.view other := by
  rcases store.commit_cases other with same | ⟨own, published⟩
  · exact .inl (by rw [same])
  · refine .inr ⟨view_other own apart, ?_⟩
    rw [published, view_free rfl]

end

end Store

/-! ## What every statement keeps

`Changes` tells what a statement of a connection may do to the tables it reads.
-/

section
variable (Changes : Nat → Tables → Tables → Prop)

/-- The copy of the lock's holder is the committed tables after some of its statements. -/
def Descends (store : Store Tables) : Prop :=
  ∀ holder tables, store.writer = some (holder, tables) →
    Relation.ReflTransGen (Changes holder) store.committed tables

def Lasts (holds : Tables → Prop) : Prop :=
  ∀ connection before after, Changes connection before after → holds before → holds after

variable {Changes} {store : Store Tables} {connection : Nat} {holds : Tables → Prop}

theorem Lasts.descends (lasts : Lasts Changes holds) {before after : Tables} {holder : Nat}
    (path : Relation.ReflTransGen (Changes holder) before after) (held : holds before) : holds after := by
  induction path with
  | refl => exact held
  | tail _ last ih => exact lasts holder _ _ last ih

theorem descends_of_free (free : store.writer = none) : Descends Changes store := by
  intro holder tables held
  rw [free] at held
  cases held

theorem Descends.view (descends : Descends Changes store) :
    Relation.ReflTransGen (Changes connection) store.committed (store.view connection) := by
  cases held : store.writer with
  | none =>
    rw [Store.view_free held]
  | some writer =>
    obtain ⟨holder, tables⟩ := writer
    by_cases own : holder = connection
    · subst own
      rw [Store.view_own held]
      exact descends holder tables held
    · rw [Store.view_other held own]

theorem Descends.write (descends : Descends Changes store) {after : Tables}
    (changes : Changes connection (store.view connection) after) :
    Descends Changes (store.write connection after) := by
  intro holder tables held
  rw [Store.writer_write] at held
  cases held
  exact .tail descends.view changes

theorem Descends.commit (descends : Descends Changes store) : Descends Changes (store.commit connection) := by
  rcases store.commit_cases connection with same | ⟨_, done⟩
  · rw [same]
    exact descends
  · rw [done]
    exact descends_of_free rfl

theorem Descends.rollback (descends : Descends Changes store) :
    Descends Changes (store.rollback connection) := by
  intro holder tables held
  rw [Store.committed_rollback]
  rcases store.writer_rollback connection with same | none
  · exact descends holder tables (same ▸ held)
  · rw [none] at held
    cases held

theorem Lasts.commit (lasts : Lasts Changes holds) (descends : Descends Changes store)
    (held : holds store.committed) : holds (store.commit connection).committed := by
  rcases store.commit_cases connection with same | ⟨_, done⟩
  · rw [same]
    exact held
  · rw [done]
    exact lasts.descends descends.view held

theorem Lasts.view (lasts : Lasts Changes holds) (descends : Descends Changes store)
    (held : holds store.committed) : holds (store.view connection) :=
  lasts.descends descends.view held

end

/-! ## What holds of all tables -/

/-- The committed tables satisfy it, and so does the copy of the lock's holder. -/
structure Everywhere (holds : Tables → Prop) (store : Store Tables) : Prop where
  committed : holds store.committed
  copy : ∀ holder tables, store.writer = some (holder, tables) → holds tables

section
variable {holds : Tables → Prop} {store : Store Tables} {connection : Nat}

theorem Everywhere.view (everywhere : Everywhere holds store) (connection : Nat) :
    holds (store.view connection) := by
  cases held : store.writer with
  | none =>
    rw [Store.view_free held]
    exact everywhere.committed
  | some writer =>
    obtain ⟨holder, tables⟩ := writer
    by_cases own : holder = connection
    · subst own
      rw [Store.view_own held]
      exact everywhere.copy holder tables held
    · rw [Store.view_other held own]
      exact everywhere.committed

theorem Everywhere.write (everywhere : Everywhere holds store) {tables : Tables} (held : holds tables) :
    Everywhere holds (store.write connection tables) := by
  refine ⟨everywhere.committed, ?_⟩
  intro holder copy writes
  cases writes
  exact held

theorem Everywhere.commit (everywhere : Everywhere holds store) :
    Everywhere holds (store.commit connection) := by
  rcases store.commit_cases connection with same | ⟨_, done⟩
  · rw [same]
    exact everywhere
  · rw [done]
    exact ⟨everywhere.view connection, by intro _ _ none; cases none⟩

theorem Everywhere.rollback (everywhere : Everywhere holds store) :
    Everywhere holds (store.rollback connection) := by
  refine ⟨by simpa using everywhere.committed, ?_⟩
  intro holder tables held
  rcases store.writer_rollback connection with same | none
  · exact everywhere.copy holder tables (same ▸ held)
  · rw [none] at held
    cases held

end

end Transactions
