import Csl.Library.Calls

/-! What a run makes of the replies to its calls.

A reply is clear or not. A run in which every reply is clear ends as it should; one that meets
another reply fails, and stays failed whatever is done about the exception.
-/

set_option autoImplicit false

namespace Proc
variable {Op : Type} {Reply : Op → Type} {E A B S : Type}

def Clear (handler : Handler Op Reply E S) (clear : (op : Op) → Except E (Reply op) → Prop) :
    Proc Op Reply E A → S → Prop
  | done _, _ => True
  | raised _, _ => True
  | call op k, s => clear op (handler op s).1 ∧ (k (handler op s).1).Clear handler clear (handler op s).2

theorem clear_of_calls {handler : Handler Op Reply E S} {clear : (op : Op) → Except E (Reply op) → Prop}
    {quiet : Op → Prop} (understood : ∀ op s, quiet op → clear op (handler op s).1) {p : Proc Op Reply E A} {s : S}
    (all : ∀ op ∈ p.calls handler s, quiet op) : p.Clear handler clear s := by
  induction p generalizing s with
  | done a => trivial
  | raised e => trivial
  | call op k ih =>
    constructor
    · exact understood op s (all op List.mem_cons_self)
    · exact ih _ fun other later => all other (List.mem_cons_of_mem _ later)

def decideClear (handler : Handler Op Reply E S) (clear : (op : Op) → Except E (Reply op) → Prop)
    [∀ op reply, Decidable (clear op reply)] : (p : Proc Op Reply E A) → (s : S) → Decidable (p.Clear handler clear s)
  | done _, _ => isTrue trivial
  | raised _, _ => isTrue trivial
  | call op k, s =>
    @instDecidableAnd _ _ inferInstance ((k (handler op s).1).decideClear handler clear (handler op s).2)

instance (handler : Handler Op Reply E S) (clear : (op : Op) → Except E (Reply op) → Prop)
    [∀ op reply, Decidable (clear op reply)] (p : Proc Op Reply E A) (s : S) : Decidable (p.Clear handler clear s) :=
  p.decideClear handler clear s

section
variable {handler : Handler Op Reply E S} {clear : (op : Op) → Except E (Reply op) → Prop}

theorem clear_perform {op : Op} {s : S} :
    (perform op : Proc Op Reply E (Reply op)).Clear handler clear s ↔ clear op (handler op s).1 := by
  constructor
  · exact fun both => both.1
  · intro understood
    refine ⟨understood, ?_⟩
    cases (handler op s).1 <;> trivial

theorem clear_bind {p : Proc Op Reply E A} {next : A → Proc Op Reply E B} {s : S} :
    (p >>= next).Clear handler clear s ↔
      p.Clear handler clear s ∧
        ∀ a after, p.run handler s = (.ok a, after) → (next a).Clear handler clear after := by
  change (p.bind next).Clear handler clear s ↔ _
  induction p generalizing s with
  | done a =>
    constructor
    · rintro rest
      refine ⟨trivial, ?_⟩
      rintro _ _ ⟨⟩
      exact rest
    · exact fun both => both.2 a s rfl
  | raised e => exact ⟨fun _ => ⟨trivial, nofun⟩, fun _ => trivial⟩
  | call op k ih =>
    constructor
    · rintro ⟨understood, rest⟩
      have parts := (ih _).mp rest
      exact ⟨⟨understood, parts.1⟩, parts.2⟩
    · rintro ⟨⟨understood, first⟩, second⟩
      exact ⟨understood, (ih _).mpr ⟨first, second⟩⟩

theorem clear_of_tryCatch {p : Proc Op Reply E A} {recover : E → Proc Op Reply E A} {s : S}
    (both : (MonadExcept.tryCatch p recover).Clear handler clear s) : p.Clear handler clear s := by
  change (p.tryCatch recover).Clear handler clear s at both
  induction p generalizing s with
  | done a => trivial
  | raised e => trivial
  | call op k ih => exact ⟨both.1, ih _ both.2⟩

end

/-- With clear replies the run ends well, and after any other reply it raises a bad exception. -/
def Judged (handler : Handler Op Reply E S) (clear : (op : Op) → Except E (Reply op) → Prop)
    (good : Except E A → List Op → S → Prop) (bad : E → Prop) : Proc Op Reply E A → List Op → S → Prop
  | done a, past, s => good (.ok a) past s
  | raised e, past, s => good (.error e) past s
  | call op k, past, s =>
    clear op (handler op s).1 ∧
        (k (handler op s).1).Judged handler clear good bad (past ++ [op]) (handler op s).2 ∨
      ¬ clear op (handler op s).1 ∧
        ∃ e after, (k (handler op s).1).run handler (handler op s).2 = (.error e, after) ∧ bad e

def Judged.Onward (handler : Handler Op Reply E S) (clear : (op : Op) → Except E (Reply op) → Prop)
    (good : Except E B → List Op → S → Prop) (bad : E → Prop) (next : A → Proc Op Reply E B) :
    Except E A → List Op → S → Prop
  | .ok a, past, s => (next a).Judged handler clear good bad past s
  | .error e, past, s => good (.error e) past s

def Judged.Rescued (handler : Handler Op Reply E S) (clear : (op : Op) → Except E (Reply op) → Prop)
    (good : Except E A → List Op → S → Prop) (bad : E → Prop) (recover : E → Proc Op Reply E A) :
    Except E A → List Op → S → Prop
  | .ok a, past, s => good (.ok a) past s
  | .error e, past, s => (recover e).Judged handler clear good bad past s

variable {handler : Handler Op Reply E S} {clear : (op : Op) → Except E (Reply op) → Prop} {bad : E → Prop}

theorem judged_pure {good : Except E A → List Op → S → Prop} {a : A} {past : List Op} {s : S}
    (ended : good (.ok a) past s) : (pure a : Proc Op Reply E A).Judged handler clear good bad past s := ended

theorem judged_throw {good : Except E A → List Op → S → Prop} {e : E} {past : List Op} {s : S}
    (ended : good (.error e) past s) :
    (throw e : Proc Op Reply E A).Judged handler clear good bad past s := ended

/-- A single call: a clear reply is judged, and any other is a bad exception. -/
theorem judged_perform {op : Op} {good : Except E (Reply op) → List Op → S → Prop} {past : List Op} {s : S}
    (answered : clear op (handler op s).1 → good (handler op s).1 (past ++ [op]) (handler op s).2)
    (failed : ¬ clear op (handler op s).1 → ∃ e, (handler op s).1 = .error e ∧ bad e) :
    (perform op : Proc Op Reply E (Reply op)).Judged handler clear good bad past s := by
  by_cases understood : clear op (handler op s).1
  · have ends := answered understood
    refine .inl ⟨understood, ?_⟩
    generalize handler op s = replied at ends ⊢
    obtain ⟨reply, after⟩ := replied
    cases reply with
    | ok reply => exact ends
    | error e => exact ends
  · obtain ⟨e, raised, worse⟩ := failed understood
    refine .inr ⟨understood, e, (handler op s).2, ?_, worse⟩
    rw [raised]
    rfl

theorem judged_bind {good : Except E B → List Op → S → Prop} {p : Proc Op Reply E A}
    {next : A → Proc Op Reply E B} {past : List Op} {s : S}
    (first : p.Judged handler clear (Judged.Onward handler clear good bad next) bad past s) :
    (p >>= next).Judged handler clear good bad past s := by
  change (p.bind next).Judged handler clear good bad past s
  induction p generalizing past s with
  | done a => exact first
  | raised e => exact first
  | call op k ih =>
    rcases first with ⟨understood, rest⟩ | ⟨other, e, after, raised, worse⟩
    · exact .inl ⟨understood, ih _ rest⟩
    · refine .inr ⟨other, e, after, ?_, worse⟩
      have followed := run_bind handler (k (handler op s).1) next (handler op s).2
      rw [raised] at followed
      exact followed

theorem judged_tryCatch {good : Except E A → List Op → S → Prop} {p : Proc Op Reply E A}
    {recover : E → Proc Op Reply E A} {past : List Op} {s : S}
    (body : p.Judged handler clear (Judged.Rescued handler clear good bad recover) bad past s)
    (rethrows : ∀ e after, bad e → ∃ e' left, (recover e).run handler after = (.error e', left) ∧ bad e') :
    (MonadExcept.tryCatch p recover).Judged handler clear good bad past s := by
  change (p.tryCatch recover).Judged handler clear good bad past s
  induction p generalizing past s with
  | done a => exact body
  | raised e => exact body
  | call op k ih =>
    rcases body with ⟨understood, rest⟩ | ⟨other, e, after, raised, worse⟩
    · exact .inl ⟨understood, ih _ rest⟩
    · obtain ⟨e', left, again, still⟩ := rethrows e after worse
      refine .inr ⟨other, e', left, ?_, still⟩
      have recovered := run_tryCatch handler (k (handler op s).1) recover (handler op s).2
      rw [raised, recoverWith_error, again] at recovered
      exact recovered

theorem Judged.mono {good weaker : Except E A → List Op → S → Prop} {p : Proc Op Reply E A} {past : List Op} {s : S}
    (judged : p.Judged handler clear good bad past s)
    (weakens : ∀ result past s, good result past s → weaker result past s) :
    p.Judged handler clear weaker bad past s := by
  induction p generalizing past s with
  | done a => exact weakens _ _ _ judged
  | raised e => exact weakens _ _ _ judged
  | call op k ih =>
    rcases judged with ⟨understood, rest⟩ | failed
    · exact .inl ⟨understood, ih _ rest⟩
    · exact .inr failed

theorem judged_uses {quiet : Op → Prop} {p : Proc Op Reply E A} (uses : p.Uses quiet)
    (understood : ∀ op s, quiet op → clear op (handler op s).1) {past : List Op} (s : S)
    (before : ∀ op ∈ past, quiet op) :
    p.Judged handler clear (fun _ all _ => ∀ op ∈ all, quiet op) bad past s := by
  induction p generalizing past s with
  | done a => exact before
  | raised e => exact before
  | call op k ih =>
    refine .inl ⟨understood op s uses.1, ih _ (uses.2 _) _ ?_⟩
    intro other member
    rcases List.mem_append.mp member with earlier | now
    · exact before other earlier
    · cases List.mem_singleton.mp now
      exact uses.1

/-- A run ends well exactly if all its replies are clear, or else with a bad exception. -/
theorem Judged.verdict {good : Except E A → List Op → S → Prop} {p : Proc Op Reply E A} {past : List Op} {s : S}
    (judged : p.Judged handler clear good bad past s) :
    p.Clear handler clear s ∧ good (p.run handler s).1 (past ++ p.calls handler s) (p.run handler s).2 ∨
      ¬ p.Clear handler clear s ∧ ∃ e, (p.run handler s).1 = .error e ∧ bad e := by
  induction p generalizing past s with
  | done a => exact .inl ⟨trivial, by rwa [calls, List.append_nil]⟩
  | raised e => exact .inl ⟨trivial, by rwa [calls, List.append_nil]⟩
  | call op k ih =>
    rcases judged with ⟨understood, rest⟩ | ⟨other, e, after, raised, worse⟩
    · rcases ih _ rest with ⟨all, ends⟩ | ⟨some, failed⟩
      · refine .inl ⟨⟨understood, all⟩, ?_⟩
        rwa [List.append_assoc] at ends
      · exact .inr ⟨fun both => some both.2, failed⟩
    · refine .inr ⟨fun both => other both.1, e, ?_, worse⟩
      rw [Proc.run, raised]

end Proc
