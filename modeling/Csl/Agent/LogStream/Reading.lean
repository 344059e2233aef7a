import Csl.Agent.LogStream

/-! What one reader takes from a log that grows under it.

Every byte is taken once and in order, whatever the job appends between two reads,
and the reader stops behind the last one. A line is taken as a whole unless the
reader met its beginning at the end of the file and the job then went on with it.
-/

set_option autoImplicit false

namespace Csl.Agent.LogStream
open Lines

/-- How many steps go by without a read before the generator ends, if nothing is left. -/
def Phase.toGo : Phase → Nat
  | .reading => 3
  | .asking => 2
  | .draining => 1
  | .finished => 0

namespace Tail

def taken (s : Tail) : Bytes := s.raws.flatten

inductive Turn (s : Tail) : Tail → Prop
  | takes {raw : Bytes} (reads : s.phase = .reading ∨ s.phase = .draining) (nonempty : raw ≠ [])
      (one : lines newline raw = [raw]) (ends : Whole newline raw ∨ raw = s.rest) (front : raw <+: s.rest) :
      Turn s { s with position := s.position + raw.length, phase := .reading, raws := s.raws ++ [raw] }
  | empty (reads : s.phase = .reading) (nothing : s.rest = []) : Turn s { s with phase := .asking }
  | asks (asking : s.phase = .asking) : Turn s { s with phase := if s.done then .draining else .reading }
  | drained (drains : s.phase = .draining) (nothing : s.rest = []) : Turn s { s with phase := .finished }
  | stays (finished : s.phase = .finished) : Turn s s

theorem readline_takes {s : Tail} (empty : Phase) (some : s.rest ≠ []) :
    ∃ raw, raw ≠ [] ∧ lines newline raw = [raw] ∧ (Whole newline raw ∨ raw = s.rest) ∧ raw <+: s.rest ∧
      s.readline empty =
        { s with position := s.position + raw.length, phase := .reading, raws := s.raws ++ [raw] } := by
  have nonempty : Lines.readline newline s.rest ≠ [] := fun nothing => some (readline_eq_nil.mp nothing)
  refine ⟨Lines.readline newline s.rest, nonempty, lines_readline some, readline_whole_or_all s.rest, ?_, ?_⟩
  · exact ⟨_, readline_append_drop s.rest⟩
  · rw [readline, if_neg nonempty]

theorem readline_empty {s : Tail} {empty : Phase} (nothing : s.rest = []) :
    s.readline empty = { s with phase := empty } := by
  rw [readline, if_pos (readline_eq_nil.mpr nothing)]

theorem turn_cases (s : Tail) : Turn s s.turn := by
  rw [turn]
  cases phase : s.phase with
  | reading =>
    dsimp only
    by_cases nothing : s.rest = []
    · rw [readline_empty nothing]
      exact Turn.empty phase nothing
    · obtain ⟨raw, nonempty, one, ends, front, same⟩ := readline_takes .asking nothing
      rw [same]
      exact Turn.takes (Or.inl phase) nonempty one ends front
  | asking => exact Turn.asks phase
  | draining =>
    dsimp only
    by_cases nothing : s.rest = []
    · rw [readline_empty nothing]
      exact Turn.drained phase nothing
    · obtain ⟨raw, nonempty, one, ends, front, same⟩ := readline_takes .finished nothing
      rw [same]
      exact Turn.takes (Or.inr phase) nonempty one ends front
  | finished => exact Turn.stays phase

/-- The reader stands behind what it has taken, which is the file from `start` up to there. -/
structure Follows (start : Nat) (s : Tail) : Prop where
  stands : s.position = start + s.taken.length
  front : s.taken <+: s.file.drop start
  /-- The last read comes after the last append. -/
  drains : s.phase = .draining → s.done = true
  ends : s.phase = .finished → s.done = true ∧ s.rest = []

theorem taken_concat (raws : List Bytes) (raw : Bytes) : (raws ++ [raw]).flatten = raws.flatten ++ raw := by
  rw [List.flatten_append, List.flatten_singleton]

namespace Follows

variable {start : Nat} {s : Tail}

theorem split (follows : Follows start s) : s.taken ++ s.rest = s.file.drop start := by
  obtain ⟨after, same⟩ := follows.front
  rw [rest, follows.stands, ← List.drop_drop, ← same, List.drop_left]

theorem all (follows : Follows start s) (finished : s.phase = .finished) : s.taken = s.file.drop start := by
  rw [← follows.split, (follows.ends finished).2, List.append_nil]

theorem opened (tailLines : Int) (content grown : Bytes) :
    Follows (startOffset tailLines content (content ++ grown)) (Tail.opened tailLines content grown) where
  stands := rfl
  front := List.nil_prefix
  drains := nofun
  ends := nofun

theorem turned {s' : Tail} (follows : Follows start s) (step : Turn s s') : Follows start s' := by
  cases step with
  | @takes raw reads nonempty one ends front =>
    -- the reader goes on behind the line that it takes
    constructor
    · change _ = start + (List.flatten _).length
      rw [taken_concat, List.length_append, ← Nat.add_assoc]
      exact congrArg (· + raw.length) follows.stands
    · change List.flatten _ <+: s.file.drop start
      rw [taken_concat, ← follows.split]
      exact (List.prefix_append_right_inj _).mpr front
    · intro drains
      cases drains
    · intro finished
      cases finished
  | empty reads nothing =>
    constructor
    · exact follows.stands
    · exact follows.front
    · intro drains
      cases drains
    · intro finished
      cases finished
  | asks asking =>
    constructor
    · exact follows.stands
    · exact follows.front
    · intro drains
      by_cases done : s.done = true
      · exact done
      · rw [if_neg done] at drains
        cases drains
    · intro finished
      by_cases done : s.done = true
      · rw [if_pos done] at finished
        cases finished
      · rw [if_neg done] at finished
        cases finished
  | drained drains nothing =>
    constructor
    · exact follows.stands
    · exact follows.front
    · intro draining
      cases draining
    · intro _
      exact ⟨follows.drains drains, nothing⟩
  | stays finished => exact follows

theorem turn (follows : Follows start s) : Follows start s.turn := follows.turned s.turn_cases

theorem append (follows : Follows start s) (runs : s.done = false) (chunk : Bytes) : Follows start (s.append chunk) where
  stands := follows.stands
  front := by
    apply follows.front.trans
    rw [Tail.append, List.drop_append]
    exact List.prefix_append _ _
  drains := follows.drains
  ends := by
    intro finished
    have done := (follows.ends finished).1
    rw [runs] at done
    cases done

theorem finish (follows : Follows start s) : Follows start s.finish where
  stands := follows.stands
  front := follows.front
  drains := fun _ => rfl
  ends := fun finished => ⟨rfl, (follows.ends finished).2⟩

theorem turns (follows : Follows start s) (n : Nat) : Follows start (s.turns n) := by
  induction n generalizing s with
  | zero => exact follows
  | succ n ih => exact ih follows.turn

end Follows

theorem Turn.kept {s s' : Tail} (step : Turn s s') : s'.file = s.file ∧ s'.done = s.done := by
  cases step <;> exact ⟨rfl, rfl⟩

@[simp] theorem file_turn (s : Tail) : s.turn.file = s.file := s.turn_cases.kept.1

@[simp] theorem done_turn (s : Tail) : s.turn.done = s.done := s.turn_cases.kept.2

@[simp] theorem file_turns (s : Tail) (n : Nat) : (s.turns n).file = s.file := by
  induction n generalizing s with
  | zero => rfl
  | succ n ih => rw [turns, ih, file_turn]

theorem file_run (s : Tail) (events : List Event) : (s.run events).file = s.file ++ appended events := by
  induction events generalizing s with
  | nil => exact (List.append_nil s.file).symm
  | cons event rest ih =>
    cases event with
    | append chunk => exact (ih _).trans (List.append_assoc s.file chunk _)
    | turn => exact (ih _).trans (congrArg (· ++ appended rest) (file_turn s))

theorem run_preserves {P : Tail → Prop} {s : Tail} (holds : P s) (runs : s.done = false)
    (append : ∀ s chunk, s.done = false → P s → P (s.append chunk)) (turn : ∀ s, P s → P s.turn)
    (events : List Event) : P (s.run events) := by
  induction events generalizing s with
  | nil => exact holds
  | cons event rest ih =>
    cases event with
    | append chunk => exact ih (append s chunk runs holds) runs
    | turn => exact ih (turn s holds) ((done_turn s).trans runs)

def budget (s : Tail) : Nat := 3 * s.rest.length + s.phase.toGo

theorem rest_takes {s : Tail} {raw : Bytes} (front : raw <+: s.rest) :
    s.rest.length = raw.length + (s.file.drop (s.position + raw.length)).length := by
  obtain ⟨after, same⟩ := front
  have behind : s.file.drop (s.position + raw.length) = after := by
    rw [← List.drop_drop]
    change s.rest.drop raw.length = after
    rw [← same, List.drop_left]
  rw [behind, ← same, List.length_append]

theorem Turn.budget {s s' : Tail} (step : Turn s s') (done : s.done = true) (unfinished : s.phase ≠ .finished) :
    s'.budget < s.budget := by
  cases step with
  | @takes raw reads nonempty one ends front =>
    have length := rest_takes front
    have positive := List.length_pos_iff.mpr nonempty
    have asleep : 1 ≤ s.phase.toGo := by
      rcases reads with reads | drains
      · rw [reads]
        decide
      · rw [drains]
        decide
    change 3 * (s.file.drop (s.position + raw.length)).length + 3 < 3 * s.rest.length + s.phase.toGo
    omega
  | empty reads nothing =>
    rw [Tail.budget, Tail.budget, reads]
    exact Nat.add_lt_add_left (by decide : Phase.toGo .asking < Phase.toGo .reading) _
  | asks asking =>
    rw [Tail.budget, Tail.budget, asking, if_pos done]
    exact Nat.add_lt_add_left (by decide : Phase.toGo .draining < Phase.toGo .asking) _
  | drained drains nothing =>
    rw [Tail.budget, Tail.budget, drains]
    exact Nat.add_lt_add_left (by decide : Phase.toGo .finished < Phase.toGo .draining) _
  | stays finished => exact absurd finished unfinished

theorem turns_finished {s : Tail} (finished : s.phase = .finished) (n : Nat) : s.turns n = s := by
  have stays : s.turn = s := by rw [turn, finished]
  induction n with
  | zero => rfl
  | succ n ih => rw [turns, stays, ih]

/-- Once the job is done, the generator comes to its end. -/
theorem finished_turns {s : Tail} (done : s.done = true) {n : Nat} (enough : s.budget ≤ n) :
    (s.turns n).phase = .finished := by
  induction n generalizing s with
  | zero =>
    by_contra unfinished
    have less := s.turn_cases.budget done unfinished
    omega
  | succ n ih =>
    by_cases finished : s.phase = .finished
    · rw [turns_finished finished]
      exact finished
    · have less := s.turn_cases.budget done finished
      exact ih ((done_turn s).trans done) (by omega)

theorem budget_le (s : Tail) : s.budget ≤ 3 * s.file.length + 3 := by
  have short : s.rest.length ≤ s.file.length := by
    rw [rest, List.length_drop]
    exact Nat.sub_le _ _
  have few : s.phase.toGo ≤ 3 := by cases s.phase <;> decide
  rw [budget]
  omega

end Tail

section
variable (tailLines : Int) (content grown : Bytes) (events : List Event) (extra : Nat)

def wholeLog : Bytes := content ++ grown ++ appended events

/-- A stream of which the job ends after `events`, and that then has its turns to the end. -/
def streamed : Tail :=
  ((Tail.opened tailLines content grown).run events).finish.turns
    (3 * (wholeLog content grown events).length + 3 + extra)

variable {tailLines content grown events extra}

theorem follows_run : (((Tail.opened tailLines content grown).run events).Follows
    (startOffset tailLines content (content ++ grown))) := by
  apply Tail.run_preserves (Tail.Follows.opened tailLines content grown) rfl
  · intro s chunk runs follows
    exact follows.append runs chunk
  · intro s follows
    exact follows.turn

theorem file_finished : ((Tail.opened tailLines content grown).run events).finish.file =
    wholeLog content grown events := Tail.file_run _ events

theorem streamed_finished : (streamed tailLines content grown events extra).phase = .finished := by
  apply Tail.finished_turns rfl
  have enough := Tail.budget_le ((Tail.opened tailLines content grown).run events).finish
  rw [file_finished] at enough
  omega

theorem streamed_follows : (streamed tailLines content grown events extra).Follows
    (startOffset tailLines content (content ++ grown)) := follows_run.finish.turns _

theorem file_streamed : (streamed tailLines content grown events extra).file = wholeLog content grown events :=
  (Tail.file_turns _ _).trans file_finished

theorem streamed_taken : (streamed tailLines content grown events extra).taken =
    (wholeLog content grown events).drop (startOffset tailLines content (content ++ grown)) := by
  have follows : (streamed tailLines content grown events extra).Follows _ := streamed_follows
  rw [follows.all streamed_finished, file_streamed]

theorem taken_prefix : ((Tail.opened tailLines content grown).run events).taken <+:
    (wholeLog content grown events).drop (startOffset tailLines content (content ++ grown)) := by
  have follows : ((Tail.opened tailLines content grown).run events).Follows _ := follows_run
  exact file_finished ▸ follows.front

end

/-- The stream ends, and has then read the log from its start offset to its end; before that it has
read a beginning of it. -/
theorem every_byte_is_read_once (tailLines : Int) (content grown : Bytes) (events : List Event) (extra : Nat) :
    let start := startOffset tailLines content (content ++ grown)
    (streamed tailLines content grown events extra).phase = .finished ∧
      (streamed tailLines content grown events extra).raws.flatten = (wholeLog content grown events).drop start ∧
      ((Tail.opened tailLines content grown).run events).raws.flatten <+: (wholeLog content grown events).drop start := by
  exact ⟨streamed_finished, streamed_taken, taken_prefix⟩

end Csl.Agent.LogStream
