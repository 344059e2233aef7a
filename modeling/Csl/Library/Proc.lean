import Mathlib.Tactic.Common

/-! Programs as trees of primitive calls.

A program either returns, raises, or performs one primitive call and goes on
with its reply. A handler gives the calls their meaning on a state. The same
program is then read in several ways: run to its end (this file), cut short
between two calls, or run while others change the state between its calls.
-/

set_option autoImplicit false

/-- A program over the primitive calls `Op`, raising `E` and returning `A`. -/
inductive Proc (Op : Type) (Reply : Op → Type) (E A : Type) : Type where
  | done : A → Proc Op Reply E A
  | raised : E → Proc Op Reply E A
  | call : (op : Op) → (Except E (Reply op) → Proc Op Reply E A) → Proc Op Reply E A

/-- The meaning of each primitive call: its reply or exception, and the state it leaves. -/
abbrev Handler (Op : Type) (Reply : Op → Type) (E S : Type) :=
  (op : Op) → S → Except E (Reply op) × S

namespace Proc
variable {Op : Type} {Reply : Op → Type} {E A B C S : Type}

def bind : Proc Op Reply E A → (A → Proc Op Reply E B) → Proc Op Reply E B
  | done a, next => next a
  | raised e, _ => raised e
  | call op k, next => call op (fun reply => (k reply).bind next)

/-- `try: … except: …`, also around the calls of the body. -/
def tryCatch : Proc Op Reply E A → (E → Proc Op Reply E A) → Proc Op Reply E A
  | done a, _ => done a
  | raised e, recover => recover e
  | call op k, recover => call op (fun reply => (k reply).tryCatch recover)

instance : Monad (Proc Op Reply E) where
  pure := done
  bind := bind

instance : MonadExceptOf E (Proc Op Reply E) where
  throw := raised
  tryCatch := tryCatch

def perform (op : Op) : Proc Op Reply E (Reply op) :=
  call op fun
    | .ok reply => done reply
    | .error e => raised e

def run (handler : Handler Op Reply E S) : Proc Op Reply E A → S → Except E A × S
  | done a, s => (.ok a, s)
  | raised e, s => (.error e, s)
  | call op k, s => (k (handler op s).1).run handler (handler op s).2

variable (handler : Handler Op Reply E S)

def follow (next : A → Proc Op Reply E B) : Except E A × S → Except E B × S
  | (.ok a, s) => (next a).run handler s
  | (.error e, s) => (.error e, s)

@[simp] theorem follow_ok (next : A → Proc Op Reply E B) (a : A) (s : S) :
    follow handler next (.ok a, s) = (next a).run handler s := rfl

@[simp] theorem follow_error (next : A → Proc Op Reply E B) (e : E) (s : S) :
    follow handler next (.error e, s) = (.error e, s) := rfl

@[simp] theorem run_pure (a : A) (s : S) :
    (pure a : Proc Op Reply E A).run handler s = (.ok a, s) := rfl

@[simp] theorem run_throw (e : E) (s : S) :
    (throw e : Proc Op Reply E A).run handler s = (.error e, s) := rfl

@[simp] theorem run_perform (op : Op) (s : S) :
    (perform op : Proc Op Reply E (Reply op)).run handler s = handler op s := by
  simp only [perform, run]
  rcases handler op s with ⟨reply | reply, after⟩ <;> rfl

@[simp] theorem run_bind (p : Proc Op Reply E A) (next : A → Proc Op Reply E B) (s : S) :
    (p >>= next).run handler s = follow handler next (p.run handler s) := by
  change (p.bind next).run handler s = _
  induction p generalizing s with
  | done a => rfl
  | raised e => rfl
  | call op k ih => exact ih _ _

def recoverWith (recover : E → Proc Op Reply E A) : Except E A × S → Except E A × S
  | (.ok a, s) => (.ok a, s)
  | (.error e, s) => (recover e).run handler s

@[simp] theorem recoverWith_ok (recover : E → Proc Op Reply E A) (a : A) (s : S) :
    recoverWith handler recover (.ok a, s) = (.ok a, s) := rfl

@[simp] theorem recoverWith_error (recover : E → Proc Op Reply E A) (e : E) (s : S) :
    recoverWith handler recover (.error e, s) = (recover e).run handler s := rfl

@[simp] theorem run_tryCatch (p : Proc Op Reply E A) (recover : E → Proc Op Reply E A) (s : S) :
    (MonadExcept.tryCatch p recover).run handler s = recoverWith handler recover (p.run handler s) := by
  change (p.tryCatch recover).run handler s = _
  induction p generalizing s with
  | done a => rfl
  | raised e => rfl
  | call op k ih => exact ih _ _

@[simp] theorem pure_bind (a : A) (next : A → Proc Op Reply E B) :
    (pure a >>= next : Proc Op Reply E B) = next a := rfl

@[simp] theorem throw_bind (e : E) (next : A → Proc Op Reply E B) :
    ((throw e : Proc Op Reply E A) >>= next) = throw e := rfl

@[simp] theorem run_ite (c : Prop) [Decidable c] (p q : Proc Op Reply E A) (s : S) :
    (if c then p else q).run handler s = if c then p.run handler s else q.run handler s := by
  split <;> rfl

theorem bind_assoc (p : Proc Op Reply E A) (f : A → Proc Op Reply E B)
    (g : B → Proc Op Reply E C) : (p >>= f) >>= g = p >>= fun a => f a >>= g := by
  change (p.bind f).bind g = p.bind (fun a => (f a).bind g)
  induction p with
  | done a => rfl
  | raised e => rfl
  | call op k ih => exact congrArg (call op) (funext fun reply => ih reply)

theorem bind_pure (p : Proc Op Reply E A) : p >>= pure = p := by
  change p.bind done = p
  induction p with
  | done a => rfl
  | raised e => rfl
  | call op k ih => exact congrArg (call op) (funext fun reply => ih reply)

/-! ## Stopping between two calls -/

/-- The states in which a run can be stopped just before a call that `counts`. -/
inductive StopsAt (counts : Op → Prop) : Proc Op Reply E A → S → S → Prop where
  | here {op : Op} {k : Except E (Reply op) → Proc Op Reply E A} {s : S} :
      counts op → StopsAt counts (call op k) s s
  | later {op : Op} {k : Except E (Reply op) → Proc Op Reply E A} {s stop : S} :
      StopsAt counts (k (handler op s).1) (handler op s).2 stop → StopsAt counts (call op k) s stop

variable {handler} {counts : Op → Prop}

theorem stopsAt_done {a : A} {s stop : S} :
    ¬ StopsAt handler counts (done a : Proc Op Reply E A) s stop := nofun

theorem stopsAt_raised {e : E} {s stop : S} :
    ¬ StopsAt handler counts (raised e : Proc Op Reply E A) s stop := nofun

/-- A sequence stops in its first part, or in the rest after the first part returned. -/
theorem stopsAt_bind {p : Proc Op Reply E A} {next : A → Proc Op Reply E B} {s stop : S} :
    StopsAt handler counts (p >>= next) s stop ↔
      StopsAt handler counts p s stop ∨
        ∃ a after, p.run handler s = (.ok a, after) ∧ StopsAt handler counts (next a) after stop := by
  change StopsAt handler counts (p.bind next) s stop ↔ _
  induction p generalizing s with
  | done a => simp [bind, stopsAt_done, run]
  | raised e => simp [bind, stopsAt_raised, run]
  | call op k ih =>
    constructor
    · intro stops
      cases stops with
      | here counted => exact .inl (.here counted)
      | later rest => exact ((ih _).mp rest).imp .later id
    · rintro (first | second)
      · cases first with
        | here counted => exact .here counted
        | later rest => exact .later ((ih _).mpr (.inl rest))
      · exact .later ((ih _).mpr (.inr second))

theorem stopsAt_perform {op : Op} {s stop : S} :
    StopsAt handler counts (perform op : Proc Op Reply E (Reply op)) s stop ↔
      counts op ∧ stop = s := by
  constructor
  · intro stops
    cases stops with
    | here counted => exact ⟨counted, rfl⟩
    | later rest =>
      simp only at rest
      split at rest
      · exact absurd rest stopsAt_done
      · exact absurd rest stopsAt_raised
  · rintro ⟨counted, rfl⟩
    exact .here counted

def stops (handler : Handler Op Reply E S) (counts : Op → Prop) [DecidablePred counts] :
    Proc Op Reply E A → S → List S
  | done _, _ => []
  | raised _, _ => []
  | call op k, s =>
    let later := (k (handler op s).1).stops handler counts (handler op s).2
    if counts op then s :: later else later

theorem stopsAt_of_mem_stops [DecidablePred counts] {p : Proc Op Reply E A} {s stop : S}
    (member : stop ∈ p.stops handler counts s) : StopsAt handler counts p s stop := by
  induction p generalizing s with
  | done a => cases member
  | raised e => cases member
  | call op k ih =>
    simp only [stops] at member
    split at member
    next counted =>
      rcases List.mem_cons.mp member with rfl | later
      · exact .here counted
      · exact .later (ih _ later)
    · exact .later (ih _ member)

end Proc
