import Csl.Library.Interference

/-! Programs whose calls are recorded, each with the state it was made in.

The record is kept beside the state. Others change the state and leave the record alone, so
an assertion about the record is stable whatever they do.
-/

set_option autoImplicit false

namespace Proc
variable {Op : Type} {Reply : Op → Type} {E A B S : Type}

abbrev Log (Op S : Type) := List (Op × S)

/-- The handler that records every call before it is made. -/
def recorded (handler : Handler Op Reply E S) : Handler Op Reply E (S × Log Op S) :=
  fun op s => ((handler op s.1).1, (handler op s.1).2, s.2 ++ [(op, s.1)])

/-- Every call on the record met a condition on the record before it. -/
def Met (condition : Log Op S → Op → S → Prop) (log : Log Op S) : Prop :=
  ∀ earlier op s later, log = earlier ++ (op, s) :: later → condition earlier op s

theorem met_nil {condition : Log Op S → Op → S → Prop} : Met condition [] := by
  intro earlier op s later empty
  cases earlier <;> cases empty

theorem met_snoc {condition : Log Op S → Op → S → Prop} {log : Log Op S} {op : Op} {s : S} :
    Met condition (log ++ [(op, s)]) ↔ Met condition log ∧ condition log op s := by
  constructor
  · intro met
    refine ⟨?_, met log op s [] rfl⟩
    intro earlier other state later same
    exact met earlier other state (later ++ [(op, s)]) (by simp [same])
  · rintro ⟨met, last⟩ earlier other state later same
    rcases List.eq_nil_or_concat later with rfl | ⟨front, entry, rfl⟩
    · obtain ⟨rfl, final⟩ := List.append_inj' same rfl
      cases final
      exact last
    · refine met earlier other state front ?_
      have pulled : log ++ [(op, s)] = (earlier ++ (other, state) :: front) ++ [entry] := by simp [same]
      exact (List.append_inj' pulled rfl).1

def Aside (others : List Op → S → S → Prop) (past : List Op) (before after : S × Log Op S) : Prop :=
  others past before.1 after.1 ∧ after.2 = before.2

def Of (holds : Log Op S → Prop) (_ : List Op) (s : S × Log Op S) : Prop := holds s.2

variable {handler : Handler Op Reply E S} {others : List Op → S → S → Prop}

theorem stable_of (holds : Log Op S → Prop) : Stable (Aside others) (Of holds) := by
  intro past s next before moved
  rw [Of, moved.2]
  exact before

theorem along_recorded {allowed : Op → Prop} {holds : Log Op S → Prop}
    (kept : ∀ log op s, allowed op → holds log → holds (log ++ [(op, s)])) {p : Proc Op Reply E A}
    (uses : p.Uses allowed) {past : List Op} {s : S × Log Op S} (before : holds s.2) :
    p.Along (recorded handler) (Aside others) (fun _ => Of holds) past s := by
  apply along_uses (stable_of holds) _ uses before
  intro past op s may held
  exact kept s.2 op s.1 may held

/-! ## What a returned value tells about the record -/

def Lasting (holds : Log Op S → Prop) : Prop := ∀ log entry, holds log → holds (log ++ [entry])

/-- A good value is returned only when the record satisfies the assertion. -/
def Yields (good : A → Prop) (holds : Log Op S → Prop) (result : Except E A) (_ : List Op)
    (s : S × Log Op S) : Prop := ∀ a, result = .ok a → good a → holds s.2

section
variable {holds : Log Op S → Prop} {good : A → Prop} {p : Proc Op Reply E A} {past : List Op}
  {s : S × Log Op S}

theorem stable_yields (result : Except E A) :
    Stable (Aside others) (Yields good holds result) := by
  intro past s next before moved a returned may
  rw [moved.2]
  exact before a returned may

theorem yields_throw {e : E} :
    (throw e : Proc Op Reply E A).Along (recorded handler) (Aside others) (Yields good holds) past s :=
  along_throw (stable_yields _) nofun

theorem yields_pure {a : A} (settled : good a → holds s.2) :
    (pure a : Proc Op Reply E A).Along (recorded handler) (Aside others) (Yields good holds) past s := by
  intro final moved
  refine Stable.after (stable_yields (.ok a)) ?_ moved
  intro b returned may
  exact settled (Except.ok.inj returned ▸ may)

theorem yields_of_holds (lasting : Lasting holds) (before : holds s.2) :
    p.Along (recorded handler) (Aside others) (Yields good holds) past s := by
  have always : p.Uses fun _ => True := by
    induction p with
    | done | raised => trivial
    | call op k ih => exact ⟨trivial, ih⟩
  apply Along.mono (along_recorded (fun log op state _ => lasting log (op, state)) always before)
  intro result all final held a _ _
  exact held

theorem yields_nothing : p.Along (recorded handler) (Aside others) (Yields (fun _ => False) holds) past s := by
  induction p generalizing past s with
  | done | raised => exact fun _ _ _ _ good => good.elim
  | call op k ih => exact fun _ _ => ih _

theorem yields_bind (good : A → Prop) {next : A → Proc Op Reply E B} {better : B → Prop}
    (first : p.Along (recorded handler) (Aside others) (Yields good holds) past s)
    (rest : ∀ a all final, (good a → holds final.2) →
      (next a).Along (recorded handler) (Aside others) (Yields better holds) all final) :
    (p >>= next).Along (recorded handler) (Aside others) (Yields better holds) past s := by
  apply along_seq _ first
  · intro e all final _
    exact nofun
  · intro a all final held
    exact rest a all final (held a rfl)

theorem yields_after {next : A → Proc Op Reply E B} {better : B → Prop}
    (rest : ∀ a all final,
      (next a).Along (recorded handler) (Aside others) (Yields better holds) all final) :
    (p >>= next).Along (recorded handler) (Aside others) (Yields better holds) past s :=
  yields_bind _ yields_nothing fun a all final _ => rest a all final

theorem yields_then_pure {a : B} {better : B → Prop} (lasting : Lasting holds)
    (settled : better a → holds s.2) :
    (p >>= fun _ => pure a : Proc Op Reply E B).Along (recorded handler) (Aside others)
      (Yields better holds) past s := by
  by_cases may : better a
  · exact yields_of_holds lasting (settled may)
  · exact yields_after fun _ _ _ => yields_pure fun good => absurd good may

theorem yields_tryCatch {recover : E → Proc Op Reply E A}
    (body : p.Along (recorded handler) (Aside others) (Yields good holds) past s)
    (recovers : ∀ e all final,
      (recover e).Along (recorded handler) (Aside others) (Yields good holds) all final) :
    (MonadExcept.tryCatch p recover).Along (recorded handler) (Aside others) (Yields good holds) past s := by
  apply along_tryCatch _ body
  · intro a all final held
    exact held
  · intro e all final _
    exact recovers e all final

end

/-! ## Runs in which the others' moves are given -/

/-- Run a program, the others moving the state before each call and at the end. -/
def scheduled (handler : Handler Op Reply E S) (turn : List Op → S → S) :
    Proc Op Reply E A → List Op → S → Except E A × List Op × S
  | done a, past, s => (.ok a, past, turn past s)
  | raised e, past, s => (.error e, past, turn past s)
  | call op k, past, s =>
    (k (handler op (turn past s)).1).scheduled handler turn (past ++ [op]) (handler op (turn past s)).2

/-- What others do step by step is an interleaving. -/
theorem interleaved_after {p : Proc Op Reply E A} {past all : List Op} {s next final : S}
    {result : Except E A} (moved : Relation.ReflTransGen (others past) s next)
    (runs : Interleaved handler others p past next result all final) :
    Interleaved handler others p past s result all final := by
  induction moved with
  | refl => exact runs
  | tail _ last ih => exact ih (.other last runs)

theorem interleaved_scheduled {turn : List Op → S → S}
    (moves : ∀ past s, Relation.ReflTransGen (others past) s (turn past s)) (p : Proc Op Reply E A)
    (past : List Op) (s : S) :
    Interleaved handler others p past s (p.scheduled handler turn past s).1
      (p.scheduled handler turn past s).2.1 (p.scheduled handler turn past s).2.2 := by
  induction p generalizing past s with
  | done a => exact interleaved_after (moves past s) .done
  | raised e => exact interleaved_after (moves past s) .raised
  | call op k ih => exact interleaved_after (moves past s) (.call (ih _ _ _))

end Proc
