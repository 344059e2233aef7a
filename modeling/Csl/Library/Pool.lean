import Csl.Library.Contracts
import Csl.Library.Recorded
import Csl.Library.Runs
import Mathlib.Logic.Function.Basic

/-! Any number of programs that take turns on a shared state.

The programs are numbered, and a program's calls carry its number. A program starts at any time;
each turn serves one call of one program, and the rest of the world may change the state in
between. Every program keeps the record of its calls and of the states they were served in.
-/

set_option autoImplicit false

namespace Proc
variable {Op : Type} {Reply : Op → Type} {E A S X : Type}

/-- A program in progress, or its result. -/
structure Activity (Op : Type) (Reply : Op → Type) (E A S : Type) where
  program : Proc Op Reply E A
  log : Log Op S

structure Pool (Op : Type) (Reply : Op → Type) (E A S : Type) where
  shared : S
  activities : Nat → Option (Activity Op Reply E A S)

inductive Turn (X : Type) where
  | start (number : Nat)
  | serve (number : Nat)
  | outside (event : X)
  deriving DecidableEq, Repr

namespace Pool

def empty (shared : S) : Pool Op Reply E A S := ⟨shared, fun _ => none⟩

def put (pool : Pool Op Reply E A S) (number : Nat) (activity : Activity Op Reply E A S) :
    Pool Op Reply E A S :=
  { pool with activities := Function.update pool.activities number (some activity) }

variable (program : Nat → Proc Op Reply E A) (handler : Nat → Handler Op Reply E S) (outside : X → S → S)

/-- A program starts once. A turn of a program that has ended changes nothing. -/
def step (pool : Pool Op Reply E A S) : Turn X → Pool Op Reply E A S
  | .start number =>
    match pool.activities number with
    | some _ => pool
    | none => pool.put number ⟨program number, []⟩
  | .serve number =>
    match pool.activities number with
    | some ⟨.call op k, log⟩ =>
      let served := handler number op pool.shared
      { pool with shared := served.2 }.put number ⟨k served.1, log ++ [(op, pool.shared)]⟩
    | _ => pool
  | .outside event => { pool with shared := outside event pool.shared }

def Next (holds : Op → Prop) : Proc Op Reply E A → Prop
  | .call op _ => holds op
  | .done _ | .raised _ => True

instance {holds : Op → Prop} [DecidablePred holds] : (p : Proc Op Reply E A) → Decidable (Next holds p)
  | .call op _ => inferInstanceAs (Decidable (holds op))
  | .done _ | .raised _ => isTrue trivial

/-- The call that a turn serves meets the condition on the state it is served in. -/
def Served (condition : Nat → Op → S → Prop) (pool : Pool Op Reply E A S) : Turn X → Prop
  | .serve number => ∀ activity ∈ pool.activities number,
      Next (fun op => condition number op pool.shared) activity.program
  | .start _ | .outside _ => True

instance {condition : Nat → Op → S → Prop} [∀ number op s, Decidable (condition number op s)]
    (pool : Pool Op Reply E A S) : (turn : Turn X) → Decidable (Served condition pool turn)
  | .serve number =>
    match found : pool.activities number with
    | none => isTrue (by simp [Served, found])
    | some activity =>
      decidable_of_iff (Next (fun op => condition number op pool.shared) activity.program)
        (by simp [Served, found])
  | .start _ | .outside _ => isTrue trivial

theorem served_anything (pool : Pool Op Reply E A S) (turn : Turn X) : Served (fun _ _ _ => True) pool turn := by
  cases turn with
  | serve number =>
    intro activity _
    cases activity.program <;> trivial
  | start | outside => trivial

def ServedAfter (condition : Nat → Log Op S → Op → S → Prop) (pool : Pool Op Reply E A S) : Turn X → Prop
  | .serve number => ∀ activity ∈ pool.activities number,
      Next (fun op => condition number activity.log op pool.shared) activity.program
  | .start _ | .outside _ => True

instance {condition : Nat → Log Op S → Op → S → Prop} [∀ number log op s, Decidable (condition number log op s)]
    (pool : Pool Op Reply E A S) : (turn : Turn X) → Decidable (ServedAfter condition pool turn)
  | .serve number =>
    match found : pool.activities number with
    | none => isTrue (by simp [ServedAfter, found])
    | some activity =>
      decidable_of_iff (Next (fun op => condition number activity.log op pool.shared) activity.program)
        (by simp [ServedAfter, found])
  | .start _ | .outside _ => isTrue trivial

theorem Served.met {condition : Nat → Op → S → Prop} {pool : Pool Op Reply E A S} {number : Nat} {op : Op}
    {k : Except E (Reply op) → Proc Op Reply E A} {log : Log Op S}
    (served : Served condition pool (.serve number : Turn X))
    (called : pool.activities number = some ⟨.call op k, log⟩) : condition number op pool.shared :=
  served _ called

inductive Moved (pool : Pool Op Reply E A S) : Turn X → Pool Op Reply E A S → Prop where
  | idle {turn : Turn X} : Moved pool turn pool
  | started {number : Nat} : pool.activities number = none →
      Moved pool (.start number) (pool.put number ⟨program number, []⟩)
  | served {number : Nat} {op : Op} {k : Except E (Reply op) → Proc Op Reply E A}
      {log : Log Op S} : pool.activities number = some ⟨.call op k, log⟩ →
      Moved pool (.serve number)
        ({ pool with shared := (handler number op pool.shared).2 }.put number
          ⟨k (handler number op pool.shared).1, log ++ [(op, pool.shared)]⟩)
  | outside {event : X} : Moved pool (.outside event) { pool with shared := outside event pool.shared }

theorem step_moved (pool : Pool Op Reply E A S) (turn : Turn X) :
    Moved program handler outside pool turn (pool.step program handler outside turn) := by
  cases turn with
  | start number =>
    rw [step]
    split
    next => exact .idle
    next free => exact .started free
  | serve number =>
    rw [step]
    split
    next found => exact .served found
    next => exact .idle
  | outside event => exact .outside

def returned (pool : Pool Op Reply E A S) (number : Nat) : Option A :=
  match pool.activities number with
  | some ⟨.done a, _⟩ => some a
  | _ => none

theorem returned_some {pool : Pool Op Reply E A S} {number : Nat} {a : A}
    (ended : pool.returned number = some a) : ∃ log, pool.activities number = some ⟨.done a, log⟩ := by
  rw [returned] at ended
  split at ended
  next b log found =>
    cases ended
    exact ⟨log, found⟩
  · cases ended

@[simp] theorem shared_put (pool : Pool Op Reply E A S) (number : Nat)
    (activity : Activity Op Reply E A S) : (pool.put number activity).shared = pool.shared := rfl

theorem activities_put (pool : Pool Op Reply E A S) (number other : Nat)
    (activity : Activity Op Reply E A S) :
    (pool.put number activity).activities other =
      if other = number then some activity else pool.activities other :=
  Function.update_apply _ _ _ _

variable {program handler outside}

section
variable {condition : Nat → Log Op S → Op → S → Prop}

theorem met_step {pool : Pool Op Reply E A S} {turn : Turn X}
    (met : ∀ number activity, pool.activities number = some activity → Met (condition number) activity.log)
    (served : ServedAfter condition pool turn) :
    ∀ number activity, (pool.step program handler outside turn).activities number = some activity →
      Met (condition number) activity.log := by
  have moved := step_moved program handler outside pool turn
  generalize pool.step program handler outside turn = after at moved
  intro number activity found
  cases moved with
  | idle | outside => exact met number activity found
  | started =>
    rw [activities_put] at found
    split_ifs at found
    · cases found
      exact met_nil
    · exact met number activity found
  | @served serving op k log called =>
    rw [activities_put] at found
    split_ifs at found with same
    · cases found
      subst same
      exact met_snoc.mpr ⟨met number _ called, served _ called⟩
    · exact met number activity found

theorem met_run {start : S} {turns : List (Turn X)}
    (served : Runs.Meets (step program handler outside) (ServedAfter condition) (empty start) turns) :
    ∀ number activity,
      (Runs.run (step program handler outside) (empty start) turns).activities number = some activity →
        Met (condition number) activity.log :=
  Runs.invariant_run (fun pool : Pool Op Reply E A S => ∀ number activity,
    pool.activities number = some activity → Met (condition number) activity.log)
    (fun _ _ => met_step) nofun served

end

theorem along_ends {handler : Handler Op Reply E S} {others : List Op → S × Log Op S → S × Log Op S → Prop}
    {post : Except E A → S × Log Op S → Prop} {p : Proc Op Reply E A} {past : List Op} {s : S}
    {log : Log Op S}
    (along : p.Along (recorded handler) others (fun result _ => post result) past (s, log)) :
    ∃ result final more, post result (final, log ++ more) := by
  induction p generalizing past s log with
  | done a => exact ⟨.ok a, s, [], by simpa using along _ .refl⟩
  | raised e => exact ⟨.error e, s, [], by simpa using along _ .refl⟩
  | call op k ih =>
    obtain ⟨result, final, more, ends⟩ := ih _ (along _ .refl)
    exact ⟨result, final, (op, s) :: more, by simpa using ends⟩

/-! ## Rules

The programs keep their contracts, and every call that is served meets a condition.
-/

section
variable {credible : (op : Op) → Except E (Reply op) → Prop} {allowed : Nat → Op → Prop}
  {good : Nat → A → Prop} {condition : Nat → Op → S → Prop} {start : S} {turns : List (Turn X)}

/-- What is left of each program keeps its contract, and its record has met the condition. -/
structure Proper (credible : (op : Op) → Except E (Reply op) → Prop) (allowed : Nat → Op → Prop)
    (good : Nat → A → Prop) (condition : Nat → Op → S → Prop) (number : Nat)
    (activity : Activity Op Reply E A S) : Prop where
  keeps : activity.program.Keeps credible (allowed number) (good number)
  met : ∀ op s, (op, s) ∈ activity.log → condition number op s

def AllProper (credible : (op : Op) → Except E (Reply op) → Prop) (allowed : Nat → Op → Prop)
    (good : Nat → A → Prop) (condition : Nat → Op → S → Prop) (pool : Pool Op Reply E A S) : Prop :=
  ∀ number activity, pool.activities number = some activity →
    Proper credible allowed good condition number activity

theorem proper_step {inv : S → Prop} (answers : ∀ number op s, inv s → credible op (handler number op s).1)
    (contracts : ∀ number, (program number).Keeps credible (allowed number) (good number))
    {pool : Pool Op Reply E A S} {turn : Turn X} (held : inv pool.shared)
    (proper : AllProper credible allowed good condition pool)
    (meets : Served condition pool turn) :
    AllProper credible allowed good condition (pool.step program handler outside turn) := by
  have moved := step_moved program handler outside pool turn
  generalize pool.step program handler outside turn = after at moved
  intro number activity found
  cases moved with
  | idle | outside => exact proper number activity found
  | @started started free =>
    rw [activities_put] at found
    split_ifs at found with same
    · cases found
      subst same
      exact ⟨contracts number, nofun⟩
    · exact proper number activity found
  | @served serving op k log called =>
    rw [activities_put] at found
    split_ifs at found with same
    · cases found
      subst same
      have before := proper number _ called
      constructor
      · exact before.keeps.2 _ (answers number op _ held)
      · intro other s member
        rcases List.mem_append.mp member with earlier | last
        · exact before.met other s earlier
        · cases List.mem_singleton.mp last
          exact meets.met called
    · exact proper number activity found

theorem shared_step {inv : S → Prop}
    (serves : ∀ number op s, allowed number op → condition number op s → inv s →
      inv (handler number op s).2)
    (moves : ∀ event s, inv s → inv (outside event s))
    {pool : Pool Op Reply E A S} {turn : Turn X}
    (proper : AllProper credible allowed good condition pool)
    (held : inv pool.shared) (meets : Served condition pool turn) :
    inv (pool.step program handler outside turn).shared := by
  have moved := step_moved program handler outside pool turn
  generalize pool.step program handler outside turn = after at moved
  cases moved with
  | idle | started => exact held
  | @served number op k log called =>
    exact serves number op _ (proper number _ called).keeps.1
      (meets.met called) held
  | outside => exact moves _ _ held

theorem shared_run {inv : S → Prop} (answers : ∀ number op s, inv s → credible op (handler number op s).1)
    (contracts : ∀ number, (program number).Keeps credible (allowed number) (good number))
    (serves : ∀ number op s, allowed number op → condition number op s → inv s →
      inv (handler number op s).2)
    (moves : ∀ event s, inv s → inv (outside event s)) (initial : inv start)
    (meets : Runs.Meets (step program handler outside) (Served condition) (empty start) turns) :
    AllProper credible allowed good condition
        (Runs.run (step program handler outside) (empty start) turns) ∧
      inv (Runs.run (step program handler outside) (empty start) turns).shared := by
  apply Runs.invariant_run
    (fun pool : Pool Op Reply E A S => AllProper credible allowed good condition pool ∧ inv pool.shared) _ _ meets
  · intro pool turn held meets
    exact ⟨proper_step answers contracts held.2 held.1 meets, shared_step serves moves held.1 held.2 meets⟩
  · exact ⟨nofun, initial⟩

/-- What is left of each program satisfies its postcondition, whatever the others may do. -/
def Follow (handler : Nat → Handler Op Reply E S) (others : Nat → S → S → Prop)
    (post : Nat → Except E A → S × Log Op S → Prop) (pool : Pool Op Reply E A S) : Prop :=
  ∀ number activity, pool.activities number = some activity →
    ∃ past, activity.program.Along (recorded (handler number)) (Aside fun _ => others number)
      (fun result _ => post number result) past (pool.shared, activity.log)

section
variable {others : Nat → S → S → Prop} {post : Nat → Except E A → S × Log Op S → Prop}
  {inv : S → Prop}

theorem follow_step
    (begins : ∀ number s, inv s → (program number).Along (recorded (handler number))
      (Aside fun _ => others number) (fun result _ => post number result) [] (s, []))
    (serves : ∀ number other op s, other ≠ number → allowed other op → condition other op s → inv s → others number s (handler other op s).2)
    (moves : ∀ number event s, inv s → others number s (outside event s))
    {pool : Pool Op Reply E A S} {turn : Turn X}
    (proper : AllProper credible allowed good condition pool)
    (held : inv pool.shared) (meets : Served condition pool turn) (follow : Follow handler others post pool) :
    Follow handler others post (pool.step program handler outside turn) := by
  have moved := step_moved program handler outside pool turn
  generalize pool.step program handler outside turn = after at moved
  intro number activity found
  cases moved with
  | idle => exact follow number activity found
  | @started started free =>
    rw [activities_put] at found
    split_ifs at found with same
    · cases found
      subst same
      exact ⟨[], begins number _ held⟩
    · exact follow number activity found
  | @served serving op k log called =>
    rw [activities_put] at found
    split_ifs at found with same
    · cases found
      subst same
      obtain ⟨past, along⟩ := follow number _ called
      exact ⟨past ++ [op], along _ .refl⟩
    · obtain ⟨past, along⟩ := follow number activity found
      refine ⟨past, along.other ⟨?_, rfl⟩⟩
      exact serves number serving op _ (Ne.symm same) (proper serving _ called).keeps.1
        (meets.met called) held
  | outside =>
    obtain ⟨past, along⟩ := follow number activity found
    exact ⟨past, along.other ⟨moves number _ _ held, rfl⟩⟩

/-- The parallel rule: programs that keep the invariant and satisfy their postconditions under
what the others may do, satisfy them in every run. -/
theorem follow_run (answers : ∀ number op s, inv s → credible op (handler number op s).1)
    (contracts : ∀ number, (program number).Keeps credible (allowed number) (good number))
    (keeps : ∀ number op s, allowed number op → condition number op s → inv s →
      inv (handler number op s).2)
    (keepsOutside : ∀ event s, inv s → inv (outside event s))
    (begins : ∀ number s, inv s → (program number).Along (recorded (handler number))
      (Aside fun _ => others number) (fun result _ => post number result) [] (s, []))
    (serves : ∀ number other op s, other ≠ number → allowed other op → condition other op s → inv s → others number s (handler other op s).2)
    (moves : ∀ number event s, inv s → others number s (outside event s)) (initial : inv start)
    (meets : Runs.Meets (step program handler outside) (Served condition) (empty start) turns) :
    Follow handler others post (Runs.run (step program handler outside) (empty start) turns) := by
  suffices all : (AllProper credible allowed good condition
      (Runs.run (step program handler outside) (empty start) turns) ∧
      inv (Runs.run (step program handler outside) (empty start) turns).shared) ∧
      Follow handler others post (Runs.run (step program handler outside) (empty start) turns) from all.2
  apply Runs.invariant_run (fun pool : Pool Op Reply E A S =>
    (AllProper credible allowed good condition pool ∧ inv pool.shared) ∧ Follow handler others post pool) _ _ meets
  · intro pool turn held meets
    obtain ⟨⟨proper, held⟩, follow⟩ := held
    exact ⟨⟨proper_step answers contracts held proper meets, shared_step keeps keepsOutside proper held meets⟩,
      follow_step begins serves moves proper held meets follow⟩
  · exact ⟨⟨nofun, initial⟩, nofun⟩

theorem Follow.ends {pool : Pool Op Reply E A S} (follow : Follow handler others post pool) {number : Nat}
    {activity : Activity Op Reply E A S} (found : pool.activities number = some activity) :
    ∃ result s more, post number result (s, activity.log ++ more) := by
  obtain ⟨past, along⟩ := follow number activity found
  exact along_ends along

theorem Follow.returned {pool : Pool Op Reply E A S} (follow : Follow handler others post pool)
    {number : Nat} {a : A} {log : Log Op S}
    (found : pool.activities number = some ⟨.done a, log⟩) :
    post number (.ok a) (pool.shared, log) := by
  obtain ⟨past, along⟩ := follow number _ found
  exact along _ .refl

end

end

end Pool

end Proc
