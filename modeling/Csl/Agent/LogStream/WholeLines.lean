import Csl.Agent.LogStream.Reading

/-! When a followed log arrives line by line.

A read at the end of the file returns the beginning of a line that the job has not
ended yet. Should the job go on with that line, its rest arrives as a line of its own,
and there are more of them than the log has.
-/

set_option autoImplicit false

namespace Csl.Agent.LogStream
open Lines

namespace Tail

def MidLine (start : Nat) (s : Tail) : Prop := start < s.position ∧ s.file[s.position - 1]? ≠ some newline

instance (start : Nat) (s : Tail) : Decidable (s.MidLine start) := inferInstanceAs (Decidable (_ ∧ _))

theorem Follows.midLine_iff {start : Nat} {s : Tail} (follows : Follows start s) :
    s.MidLine start ↔ ¬ Whole newline s.taken := by
  rw [MidLine, Whole, not_or, follows.stands]
  by_cases empty : s.taken = []
  · rw [empty, List.length_nil]
    exact ⟨fun within => absurd within.1 (Nat.lt_irrefl _), fun within => absurd rfl within.1⟩
  · have positive := List.length_pos_iff.mpr empty
    obtain ⟨after, same⟩ := follows.front
    have last : s.file[start + s.taken.length - 1]? = s.taken.getLast? := by
      rw [Nat.add_sub_assoc positive, ← List.getElem?_drop, ← same, List.getElem?_append_left (by omega),
        List.getLast?_eq_getElem?]
    rw [last]
    exact ⟨fun within => ⟨empty, within.2⟩, fun within => ⟨by omega, within.2⟩⟩

/-- Each read has returned one line of what was taken, and no line goes on behind it. -/
structure Intact (s : Tail) : Prop where
  each : s.raws = lines newline s.taken
  ends : Whole newline s.taken ∨ s.rest = []

def Torn (s : Tail) : Prop :=
  (lines newline s.taken).length < s.raws.length ∨
    ((lines newline s.taken).length ≤ s.raws.length ∧ ¬ Whole newline s.taken ∧ s.rest ≠ [])

theorem rest_behind {s : Tail} {raw after : Bytes} (split : s.rest = raw ++ after) :
    s.file.drop (s.position + raw.length) = after := by
  rw [← List.drop_drop]
  change s.rest.drop raw.length = after
  rw [split, List.drop_left]

theorem Intact.turned {s s' : Tail} (intact : s.Intact) (step : Turn s s') : s'.Intact := by
  cases step with
  | @takes raw reads nonempty one ends front =>
    obtain ⟨after, split⟩ := front
    have some : s.rest ≠ [] := by
      rw [← split]
      exact fun nothing => nonempty (List.append_eq_nil_iff.mp nothing).1
    have whole := intact.ends.resolve_right some
    constructor
    · change s.raws ++ [raw] = lines newline (List.flatten _)
      rw [taken_concat]
      change _ = lines newline (s.taken ++ raw)
      rw [lines_append whole, one, ← intact.each]
    · change Whole newline (List.flatten _) ∨ s.file.drop (s.position + raw.length) = []
      rw [taken_concat, whole_append _ nonempty, rest_behind split.symm]
      rcases ends with ends | all
      · exact Or.inl ends
      · right
        rw [← all] at split
        exact List.append_right_eq_self.mp split
  | empty | asks | drained | stays => exact ⟨intact.each, intact.ends⟩

theorem Torn.turned {s s' : Tail} (torn : s.Torn) (step : Turn s s') : s'.Torn := by
  cases step with
  | @takes raw reads nonempty one ends front =>
    left
    change (lines newline (List.flatten _)).length < (s.raws ++ [raw]).length
    rw [taken_concat, List.length_append, List.length_singleton]
    change (lines newline (s.taken ++ raw)).length < _
    rcases torn with more | ⟨enough, cut, -⟩
    · have grows := length_lines_append_le s.taken one
      omega
    · rw [length_lines_within cut one]
      omega
  | empty | asks | drained | stays => exact torn

theorem Follows.inside {start : Nat} {s : Tail} (follows : Follows start s) (some : s.taken ≠ []) :
    s.position ≤ s.file.length := by
  have short := follows.front.length_le
  have positive := List.length_pos_iff.mpr some
  rw [List.length_drop] at short
  rw [follows.stands]
  omega

theorem Intact.append {start : Nat} {s : Tail} (intact : s.Intact) (follows : Follows start s) {chunk : Bytes}
    (allowed : chunk ≠ [] → ¬ s.MidLine start) : (s.append chunk).Intact := by
  constructor
  · exact intact.each
  · change Whole newline s.taken ∨ (s.file ++ chunk).drop s.position = []
    by_cases empty : chunk = []
    · rw [empty, List.append_nil]
      exact intact.ends
    · have within := allowed empty
      rw [follows.midLine_iff, not_not] at within
      exact Or.inl within

theorem Torn.append {start : Nat} {s : Tail} (torn : s.Torn) (follows : Follows start s) (chunk : Bytes) :
    (s.append chunk).Torn := by
  rcases torn with more | ⟨enough, cut, some⟩
  · exact Or.inl more
  · right
    refine ⟨enough, cut, ?_⟩
    have inside : s.position ≤ s.file.length := follows.inside (fun nothing => cut (Or.inl nothing))
    change (s.file ++ chunk).drop s.position ≠ []
    rw [List.drop_append_of_le_length inside]
    exact fun nothing => some (List.append_eq_nil_iff.mp nothing).1

theorem Intact.tears {start : Nat} {s : Tail} (intact : s.Intact) (follows : Follows start s) {chunk : Bytes}
    (some : chunk ≠ []) (within : s.MidLine start) : (s.append chunk).Torn := by
  have cut := follows.midLine_iff.mp within
  have inside : s.position ≤ s.file.length := follows.inside (fun nothing => cut (Or.inl nothing))
  right
  refine ⟨Nat.le_of_eq (congrArg List.length intact.each).symm, cut, ?_⟩
  change (s.file ++ chunk).drop s.position ≠ []
  rw [List.drop_append_of_le_length inside]
  exact fun nothing => some (List.append_eq_nil_iff.mp nothing).2

theorem Intact.turns {s : Tail} (intact : s.Intact) (n : Nat) : (s.turns n).Intact := by
  induction n generalizing s with
  | zero => exact intact
  | succ n ih => exact ih (intact.turned s.turn_cases)

theorem Torn.turns {s : Tail} (torn : s.Torn) (n : Nat) : (s.turns n).Torn := by
  induction n generalizing s with
  | zero => exact torn
  | succ n ih => exact ih (torn.turned s.turn_cases)

theorem Torn.run {start : Nat} {s : Tail} (torn : s.Torn) (follows : Follows start s) (runs : s.done = false)
    (events : List Event) : (s.run events).Torn := by
  have both : (s.run events).Torn ∧ Follows start (s.run events) := by
    apply run_preserves (P := fun s => s.Torn ∧ Follows start s) ⟨torn, follows⟩ runs
    · intro s chunk runs holds
      exact ⟨holds.1.append holds.2 chunk, holds.2.append runs chunk⟩
    · intro s holds
      exact ⟨holds.1.turned s.turn_cases, holds.2.turn⟩
  exact both.1

end Tail

/-- Nothing is appended while the reader stands within a line that it has begun. -/
def Undisturbed (start : Nat) : Tail → List Event → Prop
  | _, [] => True
  | s, .append chunk :: rest => (chunk ≠ [] → ¬ s.MidLine start) ∧ Undisturbed start (s.append chunk) rest
  | s, .turn :: rest => Undisturbed start s.turn rest

instance decidableUndisturbed (start : Nat) : (s : Tail) → (events : List Event) → Decidable (Undisturbed start s events)
  | _, [] => isTrue trivial
  | s, .append chunk :: rest =>
    have := decidableUndisturbed start (s.append chunk) rest
    inferInstanceAs (Decidable ((chunk ≠ [] → ¬ s.MidLine start) ∧ Undisturbed start (s.append chunk) rest))
  | s, .turn :: rest => decidableUndisturbed start s.turn rest

theorem intact_or_torn {start : Nat} {s : Tail} (intact : s.Intact) (follows : s.Follows start) (runs : s.done = false)
    (events : List Event) :
    (Undisturbed start s events → (s.run events).Intact) ∧ (¬ Undisturbed start s events → (s.run events).Torn) := by
  induction events generalizing s with
  | nil => exact ⟨fun _ => intact, fun disturbed => absurd trivial disturbed⟩
  | cons event rest ih =>
    cases event with
    | turn => exact ih (intact.turned s.turn_cases) follows.turn ((Tail.done_turn s).trans runs)
    | append chunk =>
      have follows' := follows.append runs chunk
      by_cases allowed : chunk ≠ [] → ¬ s.MidLine start
      · have later := ih (intact.append follows allowed) follows' runs
        exact ⟨fun undisturbed => later.1 undisturbed.2, fun disturbed => later.2 (fun rest => disturbed ⟨allowed, rest⟩)⟩
      · constructor
        · exact fun undisturbed => absurd undisturbed.1 allowed
        · intro _
          rw [Classical.not_imp, not_not] at allowed
          exact (intact.tears follows allowed.1 allowed.2).run follows' runs rest

section
variable {tailLines : Int} {content grown : Bytes} {events : List Event} {extra : Nat}

theorem streamed_intact_or_torn :
    (Undisturbed (startOffset tailLines content (content ++ grown)) (Tail.opened tailLines content grown) events →
        (streamed tailLines content grown events extra).Intact) ∧
      (¬ Undisturbed (startOffset tailLines content (content ++ grown)) (Tail.opened tailLines content grown) events →
        (streamed tailLines content grown events extra).Torn) := by
  have opened : (Tail.opened tailLines content grown).Intact := ⟨rfl, Or.inl whole_nil⟩
  have outcome := intact_or_torn opened (Tail.Follows.opened tailLines content grown) rfl events
  constructor
  · intro undisturbed
    have finish : ((Tail.opened tailLines content grown).run events).finish.Intact :=
      ⟨(outcome.1 undisturbed).each, (outcome.1 undisturbed).ends⟩
    exact finish.turns _
  · intro disturbed
    have finish : ((Tail.opened tailLines content grown).run events).finish.Torn := outcome.2 disturbed
    exact finish.turns _

theorem yields_of_undisturbed
    (undisturbed : Undisturbed (startOffset tailLines content (content ++ grown)) (Tail.opened tailLines content grown) events) :
    (streamed tailLines content grown events extra).yields =
      (lines newline ((wholeLog content grown events).drop (startOffset tailLines content (content ++ grown)))).map text := by
  have intact : (streamed tailLines content grown events extra).Intact := streamed_intact_or_torn.1 undisturbed
  rw [Tail.yields, intact.each, streamed_taken]

end

/-- The log arrives as its lines exactly when no line is continued that a read has begun. -/
theorem lines_arrive_whole (tailLines : Int) (content grown : Bytes) (events : List Event) (extra : Nat) :
    let start := startOffset tailLines content (content ++ grown)
    (streamed tailLines content grown events extra).yields =
        (lines newline ((wholeLog content grown events).drop start)).map text ↔
      Undisturbed start (Tail.opened tailLines content grown) events := by
  intro start
  constructor
  · intro same
    by_contra disturbed
    have torn : (streamed tailLines content grown events extra).Torn := streamed_intact_or_torn.2 disturbed
    have taken : (streamed tailLines content grown events extra).taken = _ := streamed_taken
    have length := congrArg List.length same
    rw [← taken, Tail.yields, List.length_map, List.length_map] at length
    -- Nothing waits at the end, so a line that was torn is one too many.
    rcases torn with more | ⟨-, -, some⟩
    · omega
    · exact some (streamed_follows.ends streamed_finished).2
  · exact yields_of_undisturbed

/-- `he`, a read, then `llo` and the newline: two lines arrive. -/
theorem half_written_line_is_torn :
    let events := [.append [104, 101], .turn, .append [108, 108, 111, 10]]
    (streamed (-1) [] [] events 0).yields = ["he".toList, "llo".toList] ∧
      (lines newline ((wholeLog [] [] events).drop (startOffset (-1) [] []))).map text = ["hello".toList] ∧
      (streamed (-1) [] [] events 0).yields ≠
        (lines newline ((wholeLog [] [] events).drop (startOffset (-1) [] []))).map text := by
  decide +kernel

end Csl.Agent.LogStream
