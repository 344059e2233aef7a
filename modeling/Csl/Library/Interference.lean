import Csl.Library.Proc
import Mathlib.Logic.Relation

/-! Programs run while others change the state between their calls.

What the others may do between two calls is a relation on states that may depend
on the calls the program has made so far. `Interleaved` is the operational
meaning; `Along` is the weakest precondition of a postcondition under such
interference, computed along the program, and `interleaved_along` joins the two.
Assertions speak about the calls so far and the state.
-/

set_option autoImplicit false

namespace Proc
variable {Op : Type} {Reply : Op → Type} {E A B S : Type}

/-- One program run with others acting between its calls: from its calls so far and
a state to its result, all its calls and the state it leaves. -/
inductive Interleaved (handler : Handler Op Reply E S) (others : List Op → S → S → Prop) :
    Proc Op Reply E A → List Op → S → Except E A → List Op → S → Prop where
  | done {a : A} {past : List Op} {s : S} :
      Interleaved handler others (done a) past s (.ok a) past s
  | raised {e : E} {past : List Op} {s : S} :
      Interleaved handler others (raised e) past s (.error e) past s
  | call {op : Op} {k : Except E (Reply op) → Proc Op Reply E A} {past all : List Op} {s final : S}
      {result : Except E A} :
      Interleaved handler others (k (handler op s).1) (past ++ [op]) (handler op s).2 result all final →
      Interleaved handler others (call op k) past s result all final
  | other {p : Proc Op Reply E A} {past all : List Op} {s next final : S} {result : Except E A} :
      others past s next → Interleaved handler others p past next result all final →
      Interleaved handler others p past s result all final

variable (handler : Handler Op Reply E S) (others : List Op → S → S → Prop)

/-- Whatever the others do between the calls, the result satisfies `post`. -/
def Along (post : Except E A → List Op → S → Prop) : Proc Op Reply E A → List Op → S → Prop
  | done a, past, s => ∀ s', Relation.ReflTransGen (others past) s s' → post (.ok a) past s'
  | raised e, past, s => ∀ s', Relation.ReflTransGen (others past) s s' → post (.error e) past s'
  | call op k, past, s => ∀ s', Relation.ReflTransGen (others past) s s' →
      (k (handler op s').1).Along post (past ++ [op]) (handler op s').2

variable {handler others}

theorem Along.other {post : Except E A → List Op → S → Prop} {p : Proc Op Reply E A}
    {past : List Op} {s next : S} (along : p.Along handler others post past s)
    (moved : others past s next) : p.Along handler others post past next := by
  cases p <;> exact fun s' later => along s' (.head moved later)

theorem interleaved_along {post : Except E A → List Op → S → Prop} {p : Proc Op Reply E A}
    {past all : List Op} {s final : S} {result : Except E A}
    (runs : Interleaved handler others p past s result all final)
    (along : p.Along handler others post past s) : post result all final := by
  induction runs with
  | done => exact along _ .refl
  | raised => exact along _ .refl
  | call _ ih => exact ih (along _ .refl)
  | other moved _ ih => exact ih (along.other moved)

theorem interleaved_run (p : Proc Op Reply E A) (past : List Op) (s : S) :
    ∃ all, Interleaved handler others p past s (p.run handler s).1 all (p.run handler s).2 := by
  induction p generalizing past s with
  | done a => exact ⟨past, .done⟩
  | raised e => exact ⟨past, .raised⟩
  | call op k ih =>
    obtain ⟨all, runs⟩ := ih (handler op s).1 (past ++ [op]) (handler op s).2
    exact ⟨all, .call runs⟩

theorem Interleaved.bind {p : Proc Op Reply E A} {next : A → Proc Op Reply E B}
    {past mid all : List Op} {s reached final : S} {a : A} {result : Except E B}
    (first : Interleaved handler others p past s (.ok a) mid reached)
    (rest : Interleaved handler others (next a) mid reached result all final) :
    Interleaved handler others (p >>= next) past s result all final := by
  change Interleaved handler others (p.bind next) past s result all final
  generalize returned : Except.ok a = value at first
  induction first with
  | done =>
    cases returned
    exact rest
  | raised => cases returned
  | call _ ih => exact .call (ih rest returned)
  | other moved _ ih => exact .other moved (ih rest returned)

/-- An assertion that nothing the others may do can falsify. -/
def Stable (others : List Op → S → S → Prop) (holds : List Op → S → Prop) : Prop :=
  ∀ past s next, holds past s → others past s next → holds past next

theorem Stable.after {holds : List Op → S → Prop} (stable : Stable others holds) {past : List Op}
    {s next : S} (before : holds past s) (moved : Relation.ReflTransGen (others past) s next) :
    holds past next := by
  induction moved with
  | refl => exact before
  | tail _ last ih => exact stable _ _ _ ih last

theorem Stable.and {first second : List Op → S → Prop} (left : Stable others first)
    (right : Stable others second) : Stable others (fun past s => first past s ∧ second past s) :=
  fun past s next before moved =>
    ⟨left past s next before.1 moved, right past s next before.2 moved⟩

/-! ## Rules -/

theorem along_pure {post : Except E A → List Op → S → Prop} {a : A} {past : List Op} {s : S}
    (stable : Stable others (post (.ok a))) (holds : post (.ok a) past s) :
    (pure a : Proc Op Reply E A).Along handler others post past s :=
  fun _ moved => stable.after holds moved

theorem along_throw {post : Except E A → List Op → S → Prop} {e : E} {past : List Op} {s : S}
    (stable : Stable others (post (.error e))) (holds : post (.error e) past s) :
    (throw e : Proc Op Reply E A).Along handler others post past s :=
  fun _ moved => stable.after holds moved

def Resumes (handler : Handler Op Reply E S) (others : List Op → S → S → Prop)
    (next : A → Proc Op Reply E B) (post : Except E B → List Op → S → Prop) (past : List Op) :
    Except E A × S → Prop
  | (.ok a, s) => (next a).Along handler others post past s
  | (.error e, s) => (throw e : Proc Op Reply E B).Along handler others post past s

/-- The rule for a call: a stable precondition still holds when the call is made. -/
theorem along_perform {op : Op} {next : Reply op → Proc Op Reply E B}
    {post : Except E B → List Op → S → Prop} {past : List Op} {s : S} (pre : List Op → S → Prop)
    (stable : Stable others pre) (before : pre past s)
    (resumes : ∀ s', pre past s' →
      Resumes handler others next post (past ++ [op]) (handler op s')) :
    (perform op >>= next).Along handler others post past s := by
  intro s' moved
  have resumed := resumes s' (stable.after before moved)
  generalize handler op s' = replied at resumed ⊢
  rcases replied with ⟨e | reply, after⟩ <;> exact resumed

theorem Along.mono {post weaker : Except E A → List Op → S → Prop} {p : Proc Op Reply E A}
    {past : List Op} {s : S} (along : p.Along handler others post past s)
    (weakens : ∀ result all final, post result all final → weaker result all final) :
    p.Along handler others weaker past s := by
  induction p generalizing past s with
  | done a => exact fun s' moved => weakens _ _ _ (along s' moved)
  | raised e => exact fun s' moved => weakens _ _ _ (along s' moved)
  | call op k ih => exact fun s' moved => ih _ (along s' moved)

theorem Along.and {first second : Except E A → List Op → S → Prop} {p : Proc Op Reply E A}
    {past : List Op} {s : S} (left : p.Along handler others first past s)
    (right : p.Along handler others second past s) :
    p.Along handler others (fun result all final => first result all final ∧ second result all final)
      past s := by
  induction p generalizing past s with
  | done a => exact fun s' moved => ⟨left s' moved, right s' moved⟩
  | raised e => exact fun s' moved => ⟨left s' moved, right s' moved⟩
  | call op k ih => exact fun s' moved => ih _ (left s' moved) (right s' moved)

theorem along_seq {next : A → Proc Op Reply E B} {post : Except E B → List Op → S → Prop}
    {p : Proc Op Reply E A} {past : List Op} {s : S} (mid : Except E A → List Op → S → Prop)
    (first : p.Along handler others mid past s)
    (errors : ∀ e all final, mid (.error e) all final → post (.error e) all final)
    (rest : ∀ a all final, mid (.ok a) all final →
      (next a).Along handler others post all final) :
    (p >>= next).Along handler others post past s := by
  change (p.bind next).Along handler others post past s
  induction p generalizing past s with
  | done a => exact rest a past s (first s .refl)
  | raised e => exact fun s' moved => errors e past s' (first s' moved)
  | call op k ih => exact fun s' moved => ih _ (first s' moved)

theorem along_tryCatch {post : Except E A → List Op → S → Prop} {p : Proc Op Reply E A}
    {recover : E → Proc Op Reply E A} {past : List Op} {s : S}
    (mid : Except E A → List Op → S → Prop) (body : p.Along handler others mid past s)
    (results : ∀ a all final, mid (.ok a) all final → post (.ok a) all final)
    (recovers : ∀ e all final, mid (.error e) all final →
      (recover e).Along handler others post all final) :
    (MonadExcept.tryCatch p recover).Along handler others post past s := by
  change (p.tryCatch recover).Along handler others post past s
  induction p generalizing past s with
  | done a => exact fun s' moved => results a past s' (body s' moved)
  | raised e => exact recovers e past s (body s .refl)
  | call op k ih => exact fun s' moved => ih _ (body s' moved)

/-! ## Programs made of harmless calls -/

/-- Every call of the program, whatever the replies, is allowed. -/
def Uses (allowed : Op → Prop) : Proc Op Reply E A → Prop
  | done _ => True
  | raised _ => True
  | call op k => allowed op ∧ ∀ reply, (k reply).Uses allowed

section
variable {allowed : Op → Prop}

theorem uses_pure {a : A} : (pure a : Proc Op Reply E A).Uses allowed := trivial

theorem uses_throw {e : E} : (throw e : Proc Op Reply E A).Uses allowed := trivial

theorem uses_perform {op : Op} (may : allowed op) :
    (perform op : Proc Op Reply E (Reply op)).Uses allowed :=
  ⟨may, fun reply => by cases reply <;> trivial⟩

theorem uses_bind {p : Proc Op Reply E A} {next : A → Proc Op Reply E B} (first : p.Uses allowed)
    (rest : ∀ a, (next a).Uses allowed) : (p >>= next).Uses allowed := by
  change (p.bind next).Uses allowed
  induction p with
  | done a => exact rest a
  | raised e => trivial
  | call op k ih => exact ⟨first.1, fun reply => ih reply (first.2 reply)⟩

theorem uses_tryCatch {p : Proc Op Reply E A} {recover : E → Proc Op Reply E A} (body : p.Uses allowed)
    (recovers : ∀ e, (recover e).Uses allowed) : (MonadExcept.tryCatch p recover).Uses allowed := by
  change (p.tryCatch recover).Uses allowed
  induction p with
  | done a => trivial
  | raised e => exact recovers e
  | call op k ih => exact ⟨body.1, fun reply => ih reply (body.2 reply)⟩

theorem Uses.mono {wider : Op → Prop} {p : Proc Op Reply E A} (uses : p.Uses allowed)
    (widens : ∀ op, allowed op → wider op) : p.Uses wider := by
  induction p with
  | done a => trivial
  | raised e => trivial
  | call op k ih => exact ⟨widens op uses.1, fun reply => ih reply (uses.2 reply)⟩

theorem along_uses {holds : List Op → S → Prop} (stable : Stable others holds)
    (kept : ∀ past op s, allowed op → holds past s → holds (past ++ [op]) (handler op s).2)
    {p : Proc Op Reply E A} (uses : p.Uses allowed) {past : List Op} {s : S}
    (before : holds past s) :
    p.Along handler others (fun _ all final => holds all final) past s := by
  induction p generalizing past s with
  | done a => exact fun s' moved => stable.after before moved
  | raised e => exact fun s' moved => stable.after before moved
  | call op k ih =>
    exact fun s' moved => ih _ (uses.2 _) (kept past op s' uses.1 (stable.after before moved))

end

end Proc
