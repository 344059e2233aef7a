import Csl.Library.Pool

/-! What programs know from the replies they have had.

Knowledge is learnt reply by reply, and what is known decides which calls are allowed. Whether a
program heeds its knowledge is checked along the program, without a state. In a pool every program
has its own knowledge, which can be read off its record.
-/

set_option autoImplicit false

namespace Proc
variable {Op : Type} {Reply : Op → Type} {E A B S X K : Type}

/-- How replies change what is known, which replies can be expected, and what may be called. -/
structure Discipline (Op : Type) (Reply : Op → Type) (E K : Type) where
  learn : K → (op : Op) → Except E (Reply op) → K
  credible : (op : Op) → Except E (Reply op) → Prop
  allowed : K → Op → Prop

/-- Every call is allowed by what is known when it is made, and the result fits what is known then. -/
def Heeds (discipline : Discipline Op Reply E K) (ends : K → Except E A → Prop) : Proc Op Reply E A → K → Prop
  | done a, known => ends known (.ok a)
  | raised e, known => ends known (.error e)
  | call op k, known => discipline.allowed known op ∧ ∀ reply, discipline.credible op reply →
      (k reply).Heeds discipline ends (discipline.learn known op reply)

def Discipline.Steady (discipline : Discipline Op Reply E K) (known : K) (op : Op) : Prop :=
  discipline.allowed known op ∧ ∀ reply, discipline.learn known op reply = known

def Discipline.Indifferent (discipline : Discipline Op Reply E K) (op : Op) : Prop :=
  ∀ known, discipline.Steady known op

/-- What is known when a value is returned; an exception may come with any knowledge. -/
def Returns (good : K → A → Prop) (known : K) : Except E A → Prop
  | .ok a => good known a
  | .error _ => True

variable {discipline : Discipline Op Reply E K} {known : K}

/-! ## Rules -/

theorem heeds_pure {ends : K → Except E A → Prop} {a : A} (fits : ends known (.ok a)) :
    (pure a : Proc Op Reply E A).Heeds discipline ends known := fits

theorem heeds_throw {ends : K → Except E A → Prop} {e : E} (fits : ends known (.error e)) :
    (throw e : Proc Op Reply E A).Heeds discipline ends known := fits

theorem heeds_perform {op : Op} {ends : K → Except E (Reply op) → Prop} (may : discipline.allowed known op)
    (fits : ∀ reply, discipline.credible op reply → ends (discipline.learn known op reply) reply) :
    (perform op : Proc Op Reply E (Reply op)).Heeds discipline ends known := by
  constructor
  · exact may
  · intro reply answered
    have fit := fits reply answered
    cases reply <;> exact fit

theorem heeds_bind {p : Proc Op Reply E A} {next : A → Proc Op Reply E B} {ends : K → Except E B → Prop}
    (mid : K → Except E A → Prop) (first : p.Heeds discipline mid known)
    (errors : ∀ known e, mid known (.error e) → ends known (.error e))
    (rest : ∀ known a, mid known (.ok a) → (next a).Heeds discipline ends known) :
    (p >>= next).Heeds discipline ends known := by
  change (p.bind next).Heeds discipline ends known
  induction p generalizing known with
  | done a => exact rest _ a first
  | raised e => exact errors _ e first
  | call op k ih => exact ⟨first.1, fun reply answered => ih reply (first.2 reply answered)⟩

theorem heeds_tryCatch {p : Proc Op Reply E A} {recover : E → Proc Op Reply E A} {ends : K → Except E A → Prop}
    (mid : K → Except E A → Prop) (body : p.Heeds discipline mid known)
    (results : ∀ known a, mid known (.ok a) → ends known (.ok a))
    (recovers : ∀ known e, mid known (.error e) → (recover e).Heeds discipline ends known) :
    (MonadExcept.tryCatch p recover).Heeds discipline ends known := by
  change (p.tryCatch recover).Heeds discipline ends known
  induction p generalizing known with
  | done a => exact results _ a body
  | raised e => exact recovers _ e body
  | call op k ih => exact ⟨body.1, fun reply answered => ih reply (body.2 reply answered)⟩

theorem heeds_returns {p : Proc Op Reply E A} {next : A → Proc Op Reply E B} (mid : K → A → Prop) {good : K → B → Prop}
    (first : p.Heeds discipline (Returns mid) known)
    (rest : ∀ known a, mid known a → (next a).Heeds discipline (Returns good) known) :
    (p >>= next).Heeds discipline (Returns good) known :=
  heeds_bind (Returns mid) first (fun _ _ _ => trivial) rest

theorem heeds_then {p : Proc Op Reply E A} {next : A → Proc Op Reply E B} (mid : K → A → Prop)
    (first : p.Heeds discipline (Returns mid) known)
    (rest : ∀ known a, mid known a → (next a).Heeds discipline (fun _ _ => True) known) :
    (p >>= next).Heeds discipline (fun _ _ => True) known :=
  heeds_bind (Returns mid) first (fun _ _ _ => trivial) rest

theorem heeds_seq {p : Proc Op Reply E A} {next : A → Proc Op Reply E B}
    (first : p.Heeds discipline (fun _ _ => True) known)
    (rest : ∀ known a, (next a).Heeds discipline (fun _ _ => True) known) :
    (p >>= next).Heeds discipline (fun _ _ => True) known :=
  heeds_bind (fun _ _ => True) first (fun _ _ _ => trivial) fun known a _ => rest known a

theorem heeds_caught {p : Proc Op Reply E A} {recover : E → Proc Op Reply E A}
    (body : p.Heeds discipline (fun _ _ => True) known)
    (recovers : ∀ known e, (recover e).Heeds discipline (fun _ _ => True) known) :
    (MonadExcept.tryCatch p recover).Heeds discipline (fun _ _ => True) known :=
  heeds_tryCatch (fun _ _ => True) body (fun _ _ _ => trivial) fun known e _ => recovers known e

theorem heeds_map {p : Proc Op Reply E A} {f : A → B} (heeds : p.Heeds discipline (fun _ _ => True) known) :
    (p >>= fun a => pure (f a)).Heeds discipline (fun _ _ => True) known :=
  heeds_seq heeds fun _ _ => heeds_pure trivial

theorem Heeds.mono {p : Proc Op Reply E A} {ends weaker : K → Except E A → Prop}
    (heeds : p.Heeds discipline ends known) (weakens : ∀ known result, ends known result → weaker known result) :
    p.Heeds discipline weaker known := by
  induction p generalizing known with
  | done a => exact weakens _ _ heeds
  | raised e => exact weakens _ _ heeds
  | call op k ih => exact ⟨heeds.1, fun reply answered => ih reply (heeds.2 reply answered)⟩

theorem heeds_steady {p : Proc Op Reply E A} {ends : K → Except E A → Prop}
    (uses : p.Uses (discipline.Steady known)) (fits : ∀ result, ends known result) : p.Heeds discipline ends known := by
  induction p with
  | done a => exact fits _
  | raised e => exact fits _
  | call op k ih =>
    refine ⟨uses.1.1, fun reply _ => ?_⟩
    rw [uses.1.2 reply]
    exact ih reply (uses.2 reply)

theorem heeds_indifferent {p : Proc Op Reply E A} {ends : K → Except E A → Prop}
    (uses : p.Uses discipline.Indifferent) (fits : ∀ result, ends known result) : p.Heeds discipline ends known :=
  heeds_steady (uses.mono fun _ indifferent => indifferent known) fits

theorem heeds_past {p : Proc Op Reply E A} {next : A → Proc Op Reply E B} {ends : K → Except E B → Prop}
    (uses : p.Uses (discipline.Steady known)) (raises : ∀ e, ends known (.error e))
    (goesOn : ∀ a, (next a).Heeds discipline ends known) : (p >>= next).Heeds discipline ends known := by
  apply heeds_bind fun after _ => after = known
  · exact heeds_steady uses fun _ => rfl
  · rintro _ e rfl
    exact raises e
  · rintro _ a rfl
    exact goesOn a

theorem heeds_after {p : Proc Op Reply E A} {next : A → Proc Op Reply E B} {ends : K → Except E B → Prop}
    (uses : p.Uses discipline.Indifferent) (raises : ∀ e, ends known (.error e))
    (goesOn : ∀ a, (next a).Heeds discipline ends known) : (p >>= next).Heeds discipline ends known :=
  heeds_past (uses.mono fun _ indifferent => indifferent known) raises goesOn

/-! ## In a pool -/

namespace Pool
variable (discipline : Nat → Discipline Op Reply E K) (start : K) (program : Nat → Proc Op Reply E A)
  (handler : Nat → Handler Op Reply E S) (outside : X → S → S)

def learnt (number : Nat) (log : Log Op S) : K :=
  log.foldl (fun known entry => (discipline number).learn known entry.1 (handler number entry.1 entry.2).1) start

def knows (pool : Pool Op Reply E A S) (number : Nat) : K :=
  match pool.activities number with
  | none => start
  | some activity => learnt discipline start handler number activity.log

def Knowing (pool : Pool Op Reply E A S) (number : Nat) (known : K) : Prop :=
  ∃ op k log, pool.activities number = some ⟨.call op k, log⟩ ∧ learnt discipline start handler number log = known

/-- What is left of each program heeds what it knows. -/
def AllHeed (pool : Pool Op Reply E A S) : Prop :=
  ∀ number activity, pool.activities number = some activity →
    activity.program.Heeds (discipline number) (fun _ _ => True) (learnt discipline start handler number activity.log)

variable {discipline start program handler outside} {pool : Pool Op Reply E A S}

theorem learnt_append (number : Nat) (log : Log Op S) (op : Op) (s : S) :
    learnt discipline start handler number (log ++ [(op, s)]) =
      (discipline number).learn (learnt discipline start handler number log) op (handler number op s).1 := by
  rw [learnt, List.foldl_append]
  rfl

theorem Knowing.knows {number : Nat} {known : K} (knowing : Knowing discipline start handler pool number known) :
    knows discipline start handler pool number = known := by
  obtain ⟨op, k, log, found, learnt⟩ := knowing
  rw [Pool.knows, found]
  exact learnt

theorem knows_started {number : Nat} {p : Proc Op Reply E A} (free : pool.activities number = none) (other : Nat) :
    knows discipline start handler (pool.put number ⟨p, []⟩) other =
      knows discipline start handler pool other := by
  rw [knows, knows, activities_put]
  by_cases same : other = number
  · rw [if_pos same, same, free]
    rfl
  · rw [if_neg same]

theorem knowing_started {number other : Nat} {known : K}
    (knowing : Knowing discipline start handler (pool.put number ⟨program number, []⟩) other known) :
    known = start ∨ Knowing discipline start handler pool other known := by
  obtain ⟨op, k, log, found, same⟩ := knowing
  rw [activities_put] at found
  split_ifs at found with new
  · have unused : [] = log := congrArg Activity.log (Option.some.inj found)
    rw [← same, ← unused]
    exact .inl rfl
  · exact .inr ⟨op, k, log, found, same⟩

/-! ## A call is served -/

section
variable {number : Nat} {op : Op} {k : Except E (Reply op) → Proc Op Reply E A} {log : Log Op S}

def answered (handler : Nat → Handler Op Reply E S) (pool : Pool Op Reply E A S) (number : Nat) (op : Op)
    (k : Except E (Reply op) → Proc Op Reply E A) (log : Log Op S) : Pool Op Reply E A S :=
  { pool with shared := (handler number op pool.shared).2 }.put number
    ⟨k (handler number op pool.shared).1, log ++ [(op, pool.shared)]⟩

theorem step_served (program : Nat → Proc Op Reply E A) (outside : X → S → S)
    (called : pool.activities number = some ⟨.call op k, log⟩) :
    pool.step program handler outside (.serve number) = answered handler pool number op k log := by
  rw [step, called]
  rfl

theorem knowing_called (called : pool.activities number = some ⟨.call op k, log⟩) :
    Knowing discipline start handler pool number (knows discipline start handler pool number) := by
  refine ⟨op, k, log, called, ?_⟩
  rw [knows, called]

theorem knows_answered (called : pool.activities number = some ⟨.call op k, log⟩) (other : Nat) :
    knows discipline start handler (answered handler pool number op k log) other =
      if other = number then
        (discipline number).learn (knows discipline start handler pool number) op (handler number op pool.shared).1
      else knows discipline start handler pool other := by
  rw [knows, answered, activities_put]
  split_ifs with same
  · subst same
    rw [knows, called]
    exact learnt_append _ _ _ _
  · rfl

theorem knowing_answered (called : pool.activities number = some ⟨.call op k, log⟩) {other : Nat} {known : K}
    (knowing : Knowing discipline start handler (answered handler pool number op k log) other known) :
    known = (discipline number).learn (knows discipline start handler pool number) op
        (handler number op pool.shared).1 ∧ other = number ∨
      Knowing discipline start handler pool other known := by
  by_cases same : other = number
  · have knows := knowing.knows
    rw [knows_answered called, if_pos same] at knows
    exact .inl ⟨knows.symm, same⟩
  · obtain ⟨next, rest, record, found, learns⟩ := knowing
    rw [answered, activities_put, if_neg same] at found
    exact .inr ⟨next, rest, record, found, learns⟩

end

theorem heed_allowed {number : Nat} {op : Op} {k : Except E (Reply op) → Proc Op Reply E A} {log : Log Op S}
    (heed : AllHeed discipline start handler pool) (called : pool.activities number = some ⟨.call op k, log⟩) :
    (discipline number).allowed (knows discipline start handler pool number) op := by
  rw [knows, called]
  exact (heed number _ called).1

theorem knows_lasting {number : Nat} {holds : K → Prop}
    (lasting : ∀ known op reply, holds known → holds ((discipline number).learn known op reply)) (turn : Turn X)
    (known : holds (knows discipline start handler pool number)) :
    holds (knows discipline start handler (pool.step program handler outside turn) number) := by
  have moved := step_moved program handler outside pool turn
  generalize pool.step program handler outside turn = after at moved
  cases moved with
  | idle | outside => exact known
  | started free =>
    rw [knows_started free]
    exact known
  | @served serving op k log called =>
    change holds (knows discipline start handler (answered handler pool serving op k log) number)
    rw [knows_answered called]
    split
    next same =>
      rw [← same]
      exact lasting _ _ _ known
    next => exact known

/-- Programs that heed what they know do so in every pool they come into. -/
theorem heed_step (contracts : ∀ number, (program number).Heeds (discipline number) (fun _ _ => True) start)
    {turn : Turn X} (answers : ∀ number op, (discipline number).credible op (handler number op pool.shared).1)
    (heed : AllHeed discipline start handler pool) :
    AllHeed discipline start handler (pool.step program handler outside turn) := by
  have moved := step_moved program handler outside pool turn
  generalize pool.step program handler outside turn = after at moved
  intro number activity found
  cases moved with
  | idle | outside => exact heed number activity found
  | @started started free =>
    rw [activities_put] at found
    split_ifs at found with same
    · cases found
      subst same
      exact contracts number
    · exact heed number activity found
  | @served serving op k log called =>
    rw [activities_put] at found
    split_ifs at found with same
    · cases found
      subst same
      rw [learnt_append]
      exact (heed number _ called).2 _ (answers number op)
    · exact heed number activity found

end Pool

end Proc
