import Csl.Library.Interference

/-! What a program calls and returns, as far as replies are credible.

No state is involved: a contract is checked along the program, call by call, and holds
wherever the handler's replies are credible.
-/

set_option autoImplicit false

namespace Proc
variable {Op : Type} {Reply : Op → Type} {E A B : Type}

/-- Every call is allowed and every returned value good, when all replies are credible. -/
def Keeps (credible : (op : Op) → Except E (Reply op) → Prop) (allowed : Op → Prop) (good : A → Prop) :
    Proc Op Reply E A → Prop
  | done a => good a
  | raised _ => True
  | call op k => allowed op ∧ ∀ reply, credible op reply → (k reply).Keeps credible allowed good

variable {credible : (op : Op) → Except E (Reply op) → Prop} {allowed : Op → Prop} {good : A → Prop}

theorem keeps_pure {a : A} (fine : good a) :
    (pure a : Proc Op Reply E A).Keeps credible allowed good := fine

theorem keeps_throw {e : E} : (throw e : Proc Op Reply E A).Keeps credible allowed good := trivial

theorem keeps_perform {op : Op} {good : Reply op → Prop} (may : allowed op)
    (fine : ∀ reply, credible op (.ok reply) → good reply) :
    (perform op : Proc Op Reply E (Reply op)).Keeps credible allowed good := by
  constructor
  · exact may
  · intro reply answered
    cases reply with
    | ok reply => exact fine reply answered
    | error e => trivial

theorem keeps_bind {better : B → Prop} {p : Proc Op Reply E A} {next : A → Proc Op Reply E B}
    (first : p.Keeps credible allowed good)
    (rest : ∀ a, good a → (next a).Keeps credible allowed better) :
    (p >>= next).Keeps credible allowed better := by
  change (p.bind next).Keeps credible allowed better
  induction p with
  | done a => exact rest a first
  | raised e => trivial
  | call op k ih => exact ⟨first.1, fun reply answered => ih reply (first.2 reply answered)⟩

theorem keeps_tryCatch {p : Proc Op Reply E A} {recover : E → Proc Op Reply E A}
    (body : p.Keeps credible allowed good)
    (recovers : ∀ e, (recover e).Keeps credible allowed good) :
    (MonadExcept.tryCatch p recover).Keeps credible allowed good := by
  change (p.tryCatch recover).Keeps credible allowed good
  induction p with
  | done a => exact body
  | raised e => exact recovers e
  | call op k ih => exact ⟨body.1, fun reply answered => ih reply (body.2 reply answered)⟩

theorem Keeps.mono {wider : Op → Prop} {weaker : A → Prop} {p : Proc Op Reply E A}
    (keeps : p.Keeps credible allowed good) (widens : ∀ op, allowed op → wider op)
    (weakens : ∀ a, good a → weaker a) : p.Keeps credible wider weaker := by
  induction p with
  | done a => exact weakens a keeps
  | raised e => trivial
  | call op k ih => exact ⟨widens op keeps.1, fun reply answered => ih reply (keeps.2 reply answered)⟩

theorem Keeps.run {S : Type} {handler : Handler Op Reply E S} {inv : S → Prop} {p : Proc Op Reply E A} {s : S}
    (answers : ∀ op s, inv s → credible op (handler op s).1)
    (serves : ∀ op s, allowed op → inv s → inv (handler op s).2)
    (keeps : p.Keeps credible allowed good) (held : inv s) : inv (p.run handler s).2 := by
  induction p generalizing s with
  | done a => exact held
  | raised e => exact held
  | call op k ih => exact ih _ (keeps.2 _ (answers op s held)) (serves op s keeps.1 held)

theorem Keeps.returns {S : Type} {handler : Handler Op Reply E S} {p : Proc Op Reply E A}
    (answers : ∀ op s, credible op (handler op s).1) (keeps : p.Keeps credible allowed good) {s : S} {a : A}
    (returned : (p.run handler s).1 = .ok a) : good a := by
  induction p generalizing s with
  | done b =>
    cases returned
    exact keeps
  | raised e => cases returned
  | call op k ih => exact ih _ (keeps.2 _ (answers op s)) returned

theorem Uses.keeps {p : Proc Op Reply E A} (uses : p.Uses allowed) :
    p.Keeps credible allowed fun _ => True := by
  induction p with
  | done a => trivial
  | raised e => trivial
  | call op k ih => exact ⟨uses.1, fun reply _ => ih reply (uses.2 reply)⟩

theorem keeps_anything (p : Proc Op Reply E A) : p.Keeps credible (fun _ => True) fun _ => True := by
  induction p with
  | done a => trivial
  | raised e => trivial
  | call op k ih => exact ⟨trivial, fun reply _ => ih reply⟩

end Proc
