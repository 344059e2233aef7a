import Csl.Library.Proc

/-! A program that runs without others.

Its run is followed call by call: a demand is met at every call, and what the program returns or
raises and the state it leaves satisfy a postcondition.
-/

set_option autoImplicit false

namespace Proc
variable {Op : Type} {Reply : Op → Type} {E A B S : Type}

/-- The run from a state meets the demand at every call and ends as it should. -/
def Leads (handler : Handler Op Reply E S) (demand : Op → S → Prop) (ends : Except E A → S → Prop) :
    Proc Op Reply E A → S → Prop
  | done a, s => ends (.ok a) s
  | raised e, s => ends (.error e) s
  | call op k, s => demand op s ∧ (k (handler op s).1).Leads handler demand ends (handler op s).2

def Leads.Onward (handler : Handler Op Reply E S) (demand : Op → S → Prop) (ends : Except E B → S → Prop)
    (next : A → Proc Op Reply E B) : Except E A → S → Prop
  | .ok a, s => (next a).Leads handler demand ends s
  | .error e, s => ends (.error e) s

def Leads.Rescued (handler : Handler Op Reply E S) (demand : Op → S → Prop) (ends : Except E A → S → Prop)
    (recover : E → Proc Op Reply E A) : Except E A → S → Prop
  | .ok a, s => ends (.ok a) s
  | .error e, s => (recover e).Leads handler demand ends s

variable {handler : Handler Op Reply E S} {demand : Op → S → Prop}

theorem leads_pure {ends : Except E A → S → Prop} {a : A} {s : S} (ended : ends (.ok a) s) :
    (pure a : Proc Op Reply E A).Leads handler demand ends s := ended

theorem leads_throw {ends : Except E A → S → Prop} {e : E} {s : S} (ended : ends (.error e) s) :
    (throw e : Proc Op Reply E A).Leads handler demand ends s := ended

theorem leads_perform {op : Op} {ends : Except E (Reply op) → S → Prop} {s : S} (met : demand op s)
    (ended : ends (handler op s).1 (handler op s).2) :
    (perform op : Proc Op Reply E (Reply op)).Leads handler demand ends s := by
  constructor
  · exact met
  · generalize handler op s = answered at ended ⊢
    obtain ⟨reply, after⟩ := answered
    cases reply with
    | ok reply => exact ended
    | error e => exact ended

theorem leads_bind {ends : Except E B → S → Prop} {p : Proc Op Reply E A}
    {next : A → Proc Op Reply E B} {s : S}
    (leads : p.Leads handler demand (Leads.Onward handler demand ends next) s) :
    (p >>= next).Leads handler demand ends s := by
  change (p.bind next).Leads handler demand ends s
  induction p generalizing s with
  | done a => exact leads
  | raised e => exact leads
  | call op k ih => exact ⟨leads.1, ih _ leads.2⟩

theorem leads_tryCatch {ends : Except E A → S → Prop} {p : Proc Op Reply E A}
    {recover : E → Proc Op Reply E A} {s : S}
    (leads : p.Leads handler demand (Leads.Rescued handler demand ends recover) s) :
    (MonadExcept.tryCatch p recover).Leads handler demand ends s := by
  change (p.tryCatch recover).Leads handler demand ends s
  induction p generalizing s with
  | done a => exact leads
  | raised e => exact leads
  | call op k ih => exact ⟨leads.1, ih _ leads.2⟩

theorem Leads.mono {ends weaker : Except E A → S → Prop} {p : Proc Op Reply E A} {s : S}
    (leads : p.Leads handler demand ends s) (weakens : ∀ result s, ends result s → weaker result s) :
    p.Leads handler demand weaker s := by
  induction p generalizing s with
  | done a => exact weakens _ _ leads
  | raised e => exact weakens _ _ leads
  | call op k ih => exact ⟨leads.1, ih _ leads.2⟩

theorem leads_always {ends : Except E A → S → Prop} (always : ∀ result s, ends result s)
    (p : Proc Op Reply E A) (s : S) : p.Leads handler (fun _ _ => True) ends s := by
  induction p generalizing s with
  | done a => exact always _ _
  | raised e => exact always _ _
  | call op k ih => exact ⟨trivial, ih _ _⟩

theorem Leads.run {ends : Except E A → S → Prop} {p : Proc Op Reply E A} {s : S}
    (leads : p.Leads handler demand ends s) : ends (p.run handler s).1 (p.run handler s).2 := by
  induction p generalizing s with
  | done a => exact leads
  | raised e => exact leads
  | call op k ih => exact ih _ leads.2

/-- The states in which the run makes a call meet the demand for it. -/
theorem Leads.stopsAt {ends : Except E A → S → Prop} {counts : Op → Prop} {p : Proc Op Reply E A}
    {s stop : S} (leads : p.Leads handler demand ends s) (stops : StopsAt handler counts p s stop) :
    ∃ op, counts op ∧ demand op stop := by
  induction stops with
  | here counted => exact ⟨_, counted, leads.1⟩
  | later _ ih => exact ih leads.2

end Proc
