import Mathlib.Data.List.Induction
import Mathlib.Tactic.Common

/-! Runs of an event-driven system.

A system is a step function on states and events; a run folds it over a finite
event list. Every prefix of a run is a run, so a fact proved of the end of every
run holds in every state reached.
-/

set_option autoImplicit false

namespace Runs
variable {State Event : Type} (step : State → Event → State)

def run (start : State) (events : List Event) : State := events.foldl step start

@[simp] theorem run_nil (start : State) : run step start [] = start := rfl

@[simp] theorem run_cons (start : State) (event : Event) (rest : List Event) :
    run step start (event :: rest) = run step (step start event) rest := rfl

theorem run_append (start : State) (first rest : List Event) :
    run step start (first ++ rest) = run step (run step start first) rest := List.foldl_append

theorem run_snoc (start : State) (events : List Event) (event : Event) :
    run step start (events ++ [event]) = step (run step start events) event := run_append _ _ _ _

def Meets (condition : State → Event → Prop) : State → List Event → Prop
  | _, [] => True
  | state, event :: rest => condition state event ∧ Meets condition (step state event) rest

variable {step} {condition : State → Event → Prop}

theorem meets_append {start : State} {first rest : List Event} :
    Meets step condition start (first ++ rest) ↔
      Meets step condition start first ∧ Meets step condition (run step start first) rest := by
  induction first generalizing start with
  | nil => simp [Meets]
  | cons event tail ih => simp [Meets, ih, and_assoc]

theorem meets_of_forall (always : ∀ state event, condition state event) (start : State)
    (events : List Event) : Meets step condition start events := by
  induction events generalizing start with
  | nil => trivial
  | cons event rest ih => exact ⟨always start event, ih _⟩

theorem meets_and {other : State → Event → Prop} {start : State} {events : List Event} :
    Meets step (fun state event => condition state event ∧ other state event) start events ↔
      Meets step condition start events ∧ Meets step other start events := by
  induction events generalizing start with
  | nil => simp [Meets]
  | cons event rest ih => simp [Meets, ih, and_and_and_comm]

theorem meets_mono {other : State → Event → Prop} (weaker : ∀ state event, condition state event → other state event)
    {start : State} {events : List Event} (meets : Meets step condition start events) :
    Meets step other start events := by
  induction events generalizing start with
  | nil => trivial
  | cons event rest ih => exact ⟨weaker start event meets.1, ih meets.2⟩

theorem meets_of_mem {holds : Event → Prop} {start : State} {events : List Event}
    (each : ∀ event ∈ events, holds event) :
    Meets step (fun _ event => holds event) start events := by
  induction events generalizing start with
  | nil => trivial
  | cons event rest ih =>
    exact ⟨each event List.mem_cons_self, ih fun other member => each other (.tail _ member)⟩

def decideMeets [∀ state event, Decidable (condition state event)] :
    (start : State) → (events : List Event) → Decidable (Meets step condition start events)
  | _, [] => isTrue trivial
  | start, event :: rest =>
      @instDecidableAnd _ _ inferInstance (decideMeets (step start event) rest)

instance [∀ state event, Decidable (condition state event)] (start : State) (events : List Event) :
    Decidable (Meets step condition start events) := decideMeets start events

/-- The induction rule: what holds at the start and is kept by every step that
meets the condition holds at the end of the run. -/
theorem invariant_run (inv : State → Prop)
    (kept : ∀ state event, inv state → condition state event → inv (step state event))
    {start : State} {events : List Event} (initial : inv start)
    (meets : Meets step condition start events) : inv (run step start events) := by
  induction events generalizing start with
  | nil => exact initial
  | cons event rest ih => exact ih (kept start event initial meets.1) meets.2

theorem invariant_run_of_forall (inv : State → Prop)
    (kept : ∀ state event, inv state → inv (step state event))
    {start : State} (initial : inv start) (events : List Event) : inv (run step start events) :=
  invariant_run inv (fun state event holds _ => kept state event holds) initial
    (meets_of_forall (fun _ _ => trivial : ∀ (_ : State) (_ : Event), True) _ _)

theorem every_step (inv : State → Prop) {holds : State → Event → Prop}
    (kept : ∀ state event, inv state → condition state event → inv (step state event))
    (gives : ∀ state event, inv state → condition state event → holds state event)
    {start : State} {before after : List Event} {event : Event} (initial : inv start)
    (meets : Meets step condition start (before ++ event :: after)) :
    holds (run step start before) event := by
  obtain ⟨prior, now⟩ := meets_append.mp meets
  exact gives _ _ (invariant_run inv kept initial prior) now.1

/-- Two conditions that agree on the states of an invariant are met by the same runs. -/
theorem meets_congr (inv : State → Prop) {other : State → Event → Prop}
    (kept : ∀ state event, inv state → inv (step state event))
    (same : ∀ state event, inv state → (condition state event ↔ other state event))
    {start : State} (initial : inv start) (events : List Event) :
    Meets step condition start events ↔ Meets step other start events := by
  induction events generalizing start with
  | nil => exact Iff.rfl
  | cons event rest ih => exact and_congr (same start event initial) (ih (kept start event initial))

/-- Where a condition says exactly which steps keep an invariant, a run meets it just when
the invariant holds in every state reached. -/
theorem meets_iff_reached (inv : State → Prop)
    (exact : ∀ state event, inv state → (inv (step state event) ↔ condition state event))
    {start : State} {events : List Event} (initial : inv start) :
    Meets step condition start events ↔
      ∀ before after, events = before ++ after → inv (run step start before) := by
  constructor
  · intro meets before after split
    rw [split] at meets
    exact invariant_run inv (fun state event holds => (exact state event holds).mpr) initial
      (meets_append.mp meets).1
  · intro reached
    induction events generalizing start with
    | nil => trivial
    | cons event rest ih =>
      have next : inv (step start event) := reached [event] rest rfl
      refine ⟨(exact start event initial).mp next, ih next ?_⟩
      intro before after split
      exact reached (event :: before) after (congrArg (event :: ·) split)

/-- Every step of the run leaves an observation of the state unchanged. -/
def Keeps {Seen : Type} (step : State → Event → State) (seen : State → Seen) (start : State)
    (events : List Event) : Prop :=
  Meets step (fun state event => seen (step state event) = seen state) start events

theorem keeps_run {Seen : Type} {seen : State → Seen} {start : State} {events : List Event}
    (keeps : Keeps step seen start events) : seen (run step start events) = seen start := by
  induction events generalizing start with
  | nil => rfl
  | cons event rest ih => exact (ih keeps.2).trans keeps.1

/-- An observation that differs from the one at the start was last changed by some
step of the run, and no later step changed it. -/
theorem last_change {Seen : Type} (seen : State → Seen) (start : State) (events : List Event)
    (changed : seen (run step start events) ≠ seen start) :
    ∃ before event after, events = before ++ event :: after ∧
      seen (step (run step start before) event) ≠ seen (run step start before) ∧
      seen (step (run step start before) event) = seen (run step start events) ∧
      Keeps step seen (step (run step start before) event) after := by
  induction events using List.reverseRecOn with
  | nil => exact absurd rfl changed
  | append_singleton events last ih =>
    rw [run_snoc] at changed ⊢
    by_cases same : seen (step (run step start events) last) = seen (run step start events)
    · rw [same] at changed
      obtain ⟨before, event, after, split, differs, reached, kept⟩ := ih changed
      refine ⟨before, event, after ++ [last], by simp [split], differs, ?_, ?_⟩
      · rw [same, reached]
      · apply meets_append.mpr
        refine ⟨kept, ?_, trivial⟩
        have arrived : run step (step (run step start before) event) after =
            run step start events := by
          rw [split, run_append, run_cons]
        rw [arrived]
        exact same
    · exact ⟨events, last, [], rfl, same, rfl, trivial⟩

end Runs
