import Csl.Library.JsonValues
import Mathlib.Order.Nat

/-! How deep the containers of a JSON text are nested.

A higher limit changes nothing for a text that a lower one was enough for, and no text needs
more levels than it has characters.
-/

set_option autoImplicit false

namespace JsonValue
section
variable {A B : Type}

def deep : Except Refusal A → Bool
  | .error refusal => refusal = .tooDeep
  | .ok _ => false

theorem deep_map (read : Except Refusal A) (after : A → B) : deep (read.map after) = deep read := by
  cases read <;> rfl

/-- The second reading reads what the first does wherever the first finds no container too deep. -/
def Extends (read further : Text → Except Refusal A) : Prop :=
  ∀ text, deep (read text) = false → further text = read text

theorem collect_extends {step further : Text → Except Refusal (Piece A)} (extend : Extends step further) (fuel : Nat) :
    Extends (collect step fuel) (collect further fuel) := by
  induction fuel with
  | zero => exact fun text _ => rfl
  | succ fuel ih =>
    intro text shallow
    rw [collect] at shallow
    rw [collect, collect]
    cases found : step text with
    | error refusal =>
      rw [found] at shallow
      rw [extend text (found.symm ▸ shallow), found]
    | ok piece =>
      rw [extend text (by rw [found]; rfl), found]
      rw [found] at shallow
      by_cases more : piece.more
      · simp only [if_pos more, deep_map] at shallow ⊢
        rw [ih piece.rest shallow]
      · simp only [if_neg more]

theorem readContainer_extends {step further : Text → Except Refusal (Piece A)} (extend : Extends step further)
    (close : Char) : Extends (readContainer close step) (readContainer close further) := by
  intro text shallow
  simp only [readContainer] at shallow ⊢
  split
  next => rfl
  next proper =>
    rw [if_neg proper] at shallow
    exact collect_extends extend _ _ shallow

theorem bind_extends {read further : Except Refusal A} {after beyond : A → Except Refusal B}
    (first : deep read = false → further = read) (second : ∀ value, deep (after value) = false → beyond value = after value)
    (shallow : deep (read >>= after) = false) : (further >>= beyond) = (read >>= after) := by
  cases found : read with
  | error refusal =>
    rw [found] at shallow first
    rw [first shallow]
    rfl
  | ok value =>
    rw [found] at shallow first
    rw [first rfl]
    exact second value shallow

end

section
variable {read further : Text → Reading JsonValue} (extend : Extends read further)
include extend

theorem itemPiece_extends : Extends (itemPiece read) (itemPiece further) := by
  intro text shallow
  exact bind_extends (extend text) (fun item _ => rfl) shallow

theorem entryPiece_extends : Extends (entryPiece read) (entryPiece further) := by
  intro text shallow
  by_cases quote : text.head? = some (.scalar '"')
  · rw [entryPiece, if_pos quote] at shallow ⊢
    rw [entryPiece, if_pos quote]
    apply bind_extends (fun _ => rfl) _ shallow
    intro key shallow
    by_cases colon : (skipBlanks key.2).head? = some (.scalar ':')
    · simp only [if_pos colon] at shallow ⊢
      exact bind_extends (extend _) (fun value _ => rfl) shallow
    · simp only [if_neg colon]
  · rw [entryPiece, if_neg quote, entryPiece, if_neg quote]

end

theorem readWith_extends {inner beyond : Option (Text → Reading JsonValue)}
    (extend : ∀ read ∈ inner, ∃ further ∈ beyond, Extends read further) : Extends (readWith inner) (readWith beyond) := by
  have open_ {after : (Text → Reading JsonValue) → Reading JsonValue}
      (same : ∀ read further, Extends read further → deep (after read) = false → after further = after read)
      (shallow : deep (opened inner after) = false) : opened beyond after = opened inner after := by
    cases inner with
    | none => cases shallow
    | some read =>
      obtain ⟨further, more, extends_⟩ := extend read rfl
      rw [more]
      exact same read further extends_ shallow
  intro text shallow
  rw [readWith] at shallow
  rw [readWith, readWith]
  by_cases quote : text.head? = some (.scalar '"')
  · rw [if_pos quote, if_pos quote]
  rw [if_neg quote] at shallow ⊢
  rw [if_neg quote]
  by_cases brace : text.head? = some (.scalar '{')
  · rw [if_pos brace] at shallow ⊢
    rw [if_pos brace]
    apply open_ _ shallow
    intro read further more within
    rw [deep_map] at within
    rw [readContainer_extends (entryPiece_extends more) _ _ within]
  rw [if_neg brace] at shallow ⊢
  rw [if_neg brace]
  by_cases bracket : text.head? = some (.scalar '[')
  · rw [if_pos bracket] at shallow ⊢
    rw [if_pos bracket]
    apply open_ _ shallow
    intro read further more within
    rw [deep_map] at within
    rw [readContainer_extends (itemPiece_extends more) _ _ within]
  · rw [if_neg bracket, if_neg bracket]

theorem readValue_extends (nesting : Nat) : Extends (readValue nesting) (readValue (nesting + 1)) := by
  induction nesting with
  | zero => exact readWith_extends nofun
  | succ nesting ih =>
    apply readWith_extends
    intro read same
    cases same
    exact ⟨_, rfl, ih⟩

theorem readValue_deeper {nesting higher : Nat} (above : nesting ≤ higher) {text : Text}
    (shallow : deep (readValue nesting text) = false) : readValue higher text = readValue nesting text := by
  induction higher, above using Nat.le_induction with
  | base => rfl
  | succ higher above ih =>
    have same := readValue_extends higher text
    rw [ih] at same
    exact same shallow

/-! ## Levels enough -/

def Shallow {A : Type} (bound : Nat) (read : Text → Except Refusal A) : Prop :=
  ∀ text, text.length ≤ bound → deep (read text) = false

section
variable {A B : Type}

theorem deep_bind {read : Except Refusal A} {after : A → Except Refusal B} (first : deep read = false)
    (second : ∀ value, read = .ok value → deep (after value) = false) : deep (read >>= after) = false := by
  cases read with
  | error refusal => exact first
  | ok value => exact second value rfl

theorem collect_shallow {step : Text → Except Refusal (Piece A)} {bound : Nat} (consumes : Consumes step)
    (shallow : Shallow bound step) (fuel : Nat) : Shallow bound (collect step fuel) := by
  induction fuel with
  | zero => exact fun text _ => rfl
  | succ fuel ih =>
    intro text short
    have first := shallow text short
    rw [collect]
    cases found : step text with
    | error refusal =>
      rw [found] at first
      exact first
    | ok piece =>
      have later := ih piece.rest (Nat.le_trans (Nat.le_of_lt (consumes text piece found)) short)
      by_cases more : piece.more
      · simp only [if_pos more, deep_map, later]
      · simp only [if_neg more, deep]

theorem readContainer_shallow {step : Text → Except Refusal (Piece A)} {bound : Nat} (consumes : Consumes step)
    (shallow : Shallow bound step) (close : Char) : Shallow bound (readContainer close step) := by
  intro text short
  simp only [readContainer]
  split
  next => rfl
  next => exact collect_shallow consumes shallow _ _ (Nat.le_trans (skipBlanks_le text) short)

theorem closing_shallow (close : Char) (item : A) (text : Text) : deep (closing close item text) = false := by
  simp only [closing]
  split_ifs <;> rfl

theorem readString_shallow (text : Text) : deep (readString text) = false := by
  apply collect_shallow characterPiece_consumes _ _ text (Nat.le_refl _)
  intro text _
  rw [characterPiece]
  split_ifs
  · rfl
  · cases readCharacter text <;> rfl

end

theorem readNumber_shallow (text : Text) : deep (readNumber text) = false := by
  have magnitude (negative : Bool) (text : Text) : deep (readMagnitude negative text) = false := by
    simp only [readMagnitude]
    split_ifs <;> rfl
  rw [readNumber]
  split_ifs <;> exact magnitude _ _

section
variable {read : Text → Reading JsonValue} {bound : Nat} (shallow : Shallow bound read)
include shallow

theorem itemPiece_shallow : Shallow bound (itemPiece read) := by
  intro text short
  exact deep_bind (shallow text short) fun item _ => closing_shallow _ _ _

theorem entryPiece_shallow : Shallow bound (entryPiece read) := by
  intro text short
  by_cases quote : text.head? = some (.scalar '"')
  · rw [entryPiece, if_pos quote]
    apply deep_bind (readString_shallow _)
    intro key named
    by_cases colon : (skipBlanks key.2).head? = some (.scalar ':')
    · simp only [if_pos colon]
      have inside : (skipBlanks (skipBlanks key.2).tail).length ≤ bound := by
        calc (skipBlanks (skipBlanks key.2).tail).length
          _ ≤ (skipBlanks key.2).tail.length := skipBlanks_le _
          _ ≤ (skipBlanks key.2).length := Nat.le_of_lt (tail_lt colon)
          _ ≤ key.2.length := skipBlanks_le _
          _ ≤ text.tail.length := Nat.le_of_lt (readString_takes _ key named)
          _ ≤ text.length := Nat.le_of_lt (tail_lt quote)
          _ ≤ bound := short
      exact deep_bind (shallow _ inside) fun value _ => closing_shallow _ _ _
    · simp only [if_neg colon]
      rfl
  · rw [entryPiece, if_neg quote]
    rfl

end

theorem readValue_shallow (nesting : Nat) : Shallow nesting (readValue nesting) := by
  have step (inner : Option (Text → Reading JsonValue)) (text : Text)
      (object : text.head? = some (.scalar '{') → ∃ read ∈ inner, deep (readContainer '}' (entryPiece read) text.tail) = false)
      (array : text.head? = some (.scalar '[') → ∃ read ∈ inner, deep (readContainer ']' (itemPiece read) text.tail) = false) :
      deep (readWith inner text) = false := by
    rw [readWith]
    split_ifs with quote brace bracket
    · rw [deep_map, readString_shallow]
    · obtain ⟨read, inside, fine⟩ := object brace
      rw [inside, opened, deep_map, fine]
    · obtain ⟨read, inside, fine⟩ := array bracket
      rw [inside, opened, deep_map, fine]
    · cases readWord text with
      | none => exact readNumber_shallow text
      | some found => rfl
  induction nesting with
  | zero =>
    intro text short
    obtain rfl := List.eq_nil_of_length_eq_zero (Nat.le_zero.mp short)
    apply step none []
    all_goals
      intro first
      cases first
  | succ nesting ih =>
    intro text short
    -- The opening bracket pays for the level.
    have inside {point : CodePoint} (first : text.head? = some point) : text.tail.length ≤ nesting :=
      Nat.le_of_lt_succ (Nat.lt_of_lt_of_le (tail_lt first) short)
    apply step
    · intro brace
      exact ⟨_, rfl, readContainer_shallow (entryPiece_consumes (readValue_takes nesting)) (entryPiece_shallow ih) _ _
        (inside brace)⟩
    · intro bracket
      exact ⟨_, rfl, readContainer_shallow (itemPiece_consumes (readValue_takes nesting)) (itemPiece_shallow ih) _ _
        (inside bracket)⟩

/-! ## The levels a text needs -/

theorem deep_loads (nesting : Nat) (text : Text) :
    deep (loads nesting text) = deep (readValue nesting (skipBlanks text)) := by
  rw [loads]
  cases readValue nesting (skipBlanks text) with
  | error refusal => rfl
  | ok read =>
    change deep (if skipBlanks read.2 = [] then Except.ok read.1 else Except.error .malformed) = false
    split_ifs <;> rfl

theorem exists_enough (text : Text) : ∃ nesting, deep (readValue nesting (skipBlanks text)) = false :=
  ⟨_, readValue_shallow _ _ (Nat.le_refl _)⟩

/-- How many levels of containers are opened while a text is read. -/
def depth (text : Text) : Nat := Nat.find (exists_enough text)

/-- A text is refused for its nesting exactly where the limit is below its depth. -/
theorem loads_deep_iff (nesting : Nat) (text : Text) : deep (loads nesting text) = true ↔ nesting < depth text := by
  rw [deep_loads]
  constructor
  · intro refused
    by_contra enough
    have least : deep (readValue (depth text) (skipBlanks text)) = false := Nat.find_spec (exists_enough text)
    rw [readValue_deeper (Nat.not_lt.mp enough) least, least] at refused
    cases refused
  · intro below
    exact Bool.eq_true_of_not_eq_false (Nat.find_min (exists_enough text) below)

end JsonValue
