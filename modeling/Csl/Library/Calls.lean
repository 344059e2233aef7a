import Csl.Library.Alone
import Csl.Library.Interference

/-! The calls a run makes when nothing interrupts it. -/

set_option autoImplicit false

namespace Proc
variable {Op : Type} {Reply : Op → Type} {E A B S : Type}

def calls (handler : Handler Op Reply E S) : Proc Op Reply E A → S → List Op
  | done _, _ => []
  | raised _, _ => []
  | call op k, s => op :: (k (handler op s).1).calls handler (handler op s).2

def callsAfter (handler : Handler Op Reply E S) (next : A → Proc Op Reply E B) :
    Except E A × S → List Op
  | (.ok a, s) => (next a).calls handler s
  | (.error _, _) => []

variable {handler : Handler Op Reply E S}

theorem calls_perform (op : Op) (s : S) :
    (perform op : Proc Op Reply E (Reply op)).calls handler s = [op] := by
  simp only [perform, calls]
  cases (handler op s).1 <;> rfl

theorem calls_bind (p : Proc Op Reply E A) (next : A → Proc Op Reply E B) (s : S) :
    (p >>= next).calls handler s = p.calls handler s ++ callsAfter handler next (p.run handler s) := by
  change (p.bind next).calls handler s = _
  induction p generalizing s with
  | done a => rfl
  | raised e => rfl
  | call op k ih => exact congrArg (op :: ·) (ih _ _)

theorem calls_tryCatch_throw (p : Proc Op Reply E A) (translate : E → E) (s : S) :
    (MonadExcept.tryCatch p fun e => throw (translate e)).calls handler s = p.calls handler s := by
  change (p.tryCatch fun e => raised (translate e)).calls handler s = _
  induction p generalizing s with
  | done a => rfl
  | raised e => rfl
  | call op k ih => exact congrArg (op :: ·) (ih _ _)

theorem allowed_of_mem_calls {allowed : Op → Prop} {p : Proc Op Reply E A} (uses : p.Uses allowed)
    {s : S} {op : Op} (made : op ∈ p.calls handler s) : allowed op := by
  induction p generalizing s with
  | done a => cases made
  | raised e => cases made
  | call first k ih =>
    rcases List.mem_cons.mp made with rfl | later
    · exact uses.1
    · exact ih _ (uses.2 _) later

/-- What the allowed calls keep holds when a run of them ends. -/
theorem Uses.leads {allowed : Op → Prop} {inv : S → Prop} {p : Proc Op Reply E A} (uses : p.Uses allowed)
    (serves : ∀ op s, allowed op → inv s → inv (handler op s).2) {s : S} (held : inv s) :
    p.Leads handler (fun _ _ => True) (fun _ s => inv s) s := by
  induction p generalizing s with
  | done a => exact held
  | raised e => exact held
  | call op k ih => exact ⟨trivial, ih _ (uses.2 _) (serves op s uses.1 held)⟩

theorem Uses.run_eq {other : Handler Op Reply E S} {p : Proc Op Reply E A}
    (uses : p.Uses fun op => other op = handler op) (s : S) : p.run other s = p.run handler s := by
  induction p generalizing s with
  | done a => rfl
  | raised e => rfl
  | call op k ih =>
    rw [run, run, uses.1]
    exact ih _ (uses.2 _) _

/-! ## Two runs side by side -/

def Alike (handler : Handler Op Reply E S) (related : S → S → Prop) (op : Op) : Prop :=
  ∀ s t, related s t → (handler op s).1 = (handler op t).1 ∧ related (handler op s).2 (handler op t).2

theorem Uses.alike {related : S → S → Prop} {p : Proc Op Reply E A} (uses : p.Uses (Alike handler related))
    {s t : S} (start : related s t) :
    (p.run handler s).1 = (p.run handler t).1 ∧ related (p.run handler s).2 (p.run handler t).2 := by
  induction p generalizing s t with
  | done a => exact ⟨rfl, start⟩
  | raised e => exact ⟨rfl, start⟩
  | call op k ih =>
    obtain ⟨same, go⟩ := uses.1 s t start
    rw [run, run, ← same]
    exact ih _ (uses.2 _) go

end Proc
