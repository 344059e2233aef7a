import Mathlib.Data.List.Basic
import Mathlib.Tactic.Common

/-! JSON texts without numbers: writing and reading.

The writer takes a layout, the blanks around the punctuation. The reader accepts
any layout, and in particular reads back what the writer wrote.
-/

set_option autoImplicit false

inductive Json where
  | null
  | bool (value : Bool)
  | string (value : String)
  | array (items : List Json)
  | object (fields : List (String × Json))

namespace Json

/-! ## Strings -/

def hexDigit (n : Nat) : Char :=
  if n < 10 then Char.ofNat ('0'.toNat + n) else Char.ofNat ('a'.toNat + (n - 10))

/-- A character as the writer spells it inside a string; only control characters, the
quotation mark and the backslash are escaped. -/
def escape (c : Char) : List Char :=
  if c = '"' then ['\\', '"']
  else if c = '\\' then ['\\', '\\']
  else if c = '\x08' then ['\\', 'b']
  else if c = '\t' then ['\\', 't']
  else if c = '\n' then ['\\', 'n']
  else if c = '\x0c' then ['\\', 'f']
  else if c = '\r' then ['\\', 'r']
  else if c.toNat < 32 then ['\\', 'u', '0', '0', hexDigit (c.toNat / 16), hexDigit (c.toNat % 16)]
  else [c]

def quoted (text : List Char) : List Char := '"' :: (text.flatMap escape ++ ['"'])

def hexValue (c : Char) : Option Nat :=
  if '0' ≤ c ∧ c ≤ '9' then some (c.toNat - '0'.toNat)
  else if 'a' ≤ c ∧ c ≤ 'f' then some (c.toNat - 'a'.toNat + 10)
  else if 'A' ≤ c ∧ c ≤ 'F' then some (c.toNat - 'A'.toNat + 10)
  else none

def hex4 (a b c d : Char) : Option Nat := do
  let a ← hexValue a
  let b ← hexValue b
  let c ← hexValue c
  let d ← hexValue d
  return ((a * 16 + b) * 16 + c) * 16 + d

def shortEscape (c : Char) : Option Char :=
  if c = '"' ∨ c = '\\' ∨ c = '/' then some c
  else if c = 'b' then some '\x08'
  else if c = 't' then some '\t'
  else if c = 'n' then some '\n'
  else if c = 'f' then some '\x0c'
  else if c = 'r' then some '\r'
  else none

def readUnit : List Char → Option (Nat × List Char)
  | '\\' :: 'u' :: a :: b :: c :: d :: rest => (hex4 a b c d).map (·, rest)
  | '\\' :: c :: rest => (shortEscape c).map (·.toNat, rest)
  | c :: rest => if c = '\\' ∨ c.toNat < 32 then none else some (c.toNat, rest)
  | [] => none

def readUnits : Nat → List Char → Option (List Nat × List Char)
  | 0, _ => none
  | _ + 1, '"' :: rest => some ([], rest)
  | fuel + 1, text => do
    let (unit, rest) ← readUnit text
    let (units, rest) ← readUnits fuel rest
    return (unit :: units, rest)

def isHighSurrogate (unit : Nat) : Bool := 0xD800 ≤ unit && unit < 0xDC00

def isLowSurrogate (unit : Nat) : Bool := 0xDC00 ≤ unit && unit < 0xE000

/-- Code units to characters. A surrogate on its own is no character and is refused. -/
def joinUnits : List Nat → Option (List Char)
  | [] => some []
  | unit :: rest =>
    if isHighSurrogate unit then
      match rest with
      | low :: rest =>
        if isLowSurrogate low then
          (joinUnits rest).map
            (Char.ofNat (0x10000 + (unit - 0xD800) * 0x400 + (low - 0xDC00)) :: ·)
        else none
      | [] => none
    else if isLowSurrogate unit then none
    else (joinUnits rest).map (Char.ofNat unit :: ·)

def readString (text : List Char) : Option (String × List Char) := do
  let (units, rest) ← readUnits (text.length + 1) text
  let value ← joinUnits units
  return (String.ofList value, rest)

theorem hexValue_hexDigit : ∀ n < 16, hexValue (hexDigit n) = some n := by decide

theorem readUnit_plain {c : Char} (plain : c ≠ '\\') (printable : ¬ c.toNat < 32)
    (rest : List Char) : readUnit (c :: rest) = some (c.toNat, rest) := by
  unfold readUnit
  split
  next same => exact absurd (List.cons.inj same).1 plain
  next _ same => exact absurd (List.cons.inj same).1 plain
  next head tail _ _ same =>
    obtain ⟨rfl, rfl⟩ := List.cons.inj same
    simp [plain, printable]
  next same => cases same

theorem readUnit_escape (c : Char) (rest : List Char) :
    readUnit (escape c ++ rest) = some (c.toNat, rest) := by
  unfold escape
  split_ifs with quote slash backspace tab newline formFeed return_ control
  · subst quote; rfl
  · subst slash; rfl
  · subst backspace; rfl
  · subst tab; rfl
  · subst newline; rfl
  · subst formFeed; rfl
  · subst return_; rfl
  · have high : c.toNat / 16 < 16 := by omega
    have low : c.toNat % 16 < 16 := by omega
    have zero : hexValue '0' = some 0 := by decide
    simp only [List.cons_append, List.nil_append, readUnit, hex4, zero, hexValue_hexDigit _ high,
      hexValue_hexDigit _ low, Option.bind_eq_bind, Option.bind_some, Option.pure_def, Option.map_some]
    rw [show ((0 * 16 + 0) * 16 + c.toNat / 16) * 16 + c.toNat % 16 = c.toNat by omega]
  · exact readUnit_plain slash control rest

theorem escape_not_quote (c : Char) (rest : List Char) :
    ∃ head tail, escape c ++ rest = head :: tail ∧ head ≠ '"' := by
  unfold escape
  split_ifs <;> simp_all

theorem readUnits_cons {fuel : Nat} {head : Char} {tail rest : List Char} {unit : Nat}
    (open_ : head ≠ '"') (read : readUnit (head :: tail) = some (unit, rest)) :
    readUnits (fuel + 1) (head :: tail) =
      (readUnits fuel rest).map fun read => (unit :: read.1, read.2) := by
  rw [readUnits]
  · simp only [read, Option.bind_eq_bind, Option.bind_some]
    cases readUnits fuel rest <;> rfl
  · intro rest' same
    exact open_ (List.cons.inj same).1

theorem readUnits_escape (text rest : List Char) (fuel : Nat) (enough : text.length < fuel) :
    readUnits fuel (text.flatMap escape ++ '"' :: rest) = some (text.map Char.toNat, rest) := by
  induction text generalizing fuel with
  | nil =>
    obtain ⟨fuel, rfl⟩ := Nat.exists_eq_add_of_lt enough
    simp [readUnits]
  | cons c text ih =>
    obtain ⟨fuel, rfl⟩ := Nat.exists_eq_add_of_lt enough
    obtain ⟨head, tail, spelled, open_⟩ := escape_not_quote c (text.flatMap escape ++ '"' :: rest)
    have read := readUnit_escape c (text.flatMap escape ++ '"' :: rest)
    rw [List.flatMap_cons, List.append_assoc]
    rw [spelled] at read ⊢
    rw [readUnits_cons open_ read, ih _ (by simp [List.length_cons]; omega)]
    rfl

theorem toNat_not_surrogate (c : Char) :
    isHighSurrogate c.toNat = false ∧ isLowSurrogate c.toNat = false := by
  have valid := c.valid
  simp only [isHighSurrogate, isLowSurrogate, Bool.and_eq_false_iff, decide_eq_false_iff_not]
  rcases valid with small | ⟨large, _⟩
  · have : c.toNat < 0xD800 := small
    omega
  · have : 0xDFFF < c.toNat := large
    omega

theorem joinUnits_toNat (text : List Char) : joinUnits (text.map Char.toNat) = some text := by
  induction text with
  | nil => rfl
  | cons c text ih =>
    obtain ⟨high, low⟩ := toNat_not_surrogate c
    rw [List.map_cons, joinUnits.eq_def]
    simp [high, low, ih]

theorem length_le_flatMap_escape (text : List Char) : text.length ≤ (text.flatMap escape).length := by
  induction text with
  | nil => simp
  | cons c text ih =>
    obtain ⟨head, tail, spelled, _⟩ := escape_not_quote c []
    rw [List.append_nil] at spelled
    rw [List.flatMap_cons, spelled]
    simp only [List.length_cons, List.length_append]
    omega

theorem readString_quoted (value : String) (rest : List Char) :
    readString (value.toList.flatMap escape ++ '"' :: rest) = some (value, rest) := by
  have enough := length_le_flatMap_escape value.toList
  unfold readString
  rw [readUnits_escape _ _ _ (by simp only [List.length_append, List.length_cons]; omega)]
  simp [joinUnits_toNat]

/-! ## Values -/

/-- The blanks between the punctuation: a line start at each depth, and what follows a colon. -/
structure Layout where
  line : Nat → List Char
  colon : List Char

def isBlank (c : Char) : Bool := c = ' ' || c = '\t' || c = '\n' || c = '\r'

structure Layout.Blank (layout : Layout) : Prop where
  line : ∀ depth, ∀ c ∈ layout.line depth, isBlank c
  colon : ∀ c ∈ layout.colon, isBlank c

def indented : Layout := ⟨fun depth => '\n' :: List.replicate (2 * depth) ' ', [' ']⟩

mutual

def write (layout : Layout) (depth : Nat) : Json → List Char
  | .null => ['n', 'u', 'l', 'l']
  | .bool true => ['t', 'r', 'u', 'e']
  | .bool false => ['f', 'a', 'l', 's', 'e']
  | .string value => quoted value.toList
  | .array [] => ['[', ']']
  | .array (item :: items) =>
    '[' :: (layout.line (depth + 1) ++ (write layout (depth + 1) item ++
      writeItems layout depth items))
  | .object [] => ['{', '}']
  | .object ((key, value) :: fields) =>
    '{' :: (layout.line (depth + 1) ++ (quoted key.toList ++ ':' :: (layout.colon ++
      (write layout (depth + 1) value ++ writeFields layout depth fields))))

def writeItems (layout : Layout) (depth : Nat) : List Json → List Char
  | [] => layout.line depth ++ [']']
  | item :: items =>
    ',' :: (layout.line (depth + 1) ++ (write layout (depth + 1) item ++
      writeItems layout depth items))

def writeFields (layout : Layout) (depth : Nat) : List (String × Json) → List Char
  | [] => layout.line depth ++ ['}']
  | (key, value) :: fields =>
    ',' :: (layout.line (depth + 1) ++ (quoted key.toList ++ ':' :: (layout.colon ++
      (write layout (depth + 1) value ++ writeFields layout depth fields))))

end

def skipBlanks (text : List Char) : List Char := text.dropWhile isBlank

mutual

def readValue : Nat → List Char → Option (Json × List Char)
  | 0, _ => none
  | fuel + 1, text =>
    match text with
    | 'n' :: 'u' :: 'l' :: 'l' :: rest => some (.null, rest)
    | 't' :: 'r' :: 'u' :: 'e' :: rest => some (.bool true, rest)
    | 'f' :: 'a' :: 'l' :: 's' :: 'e' :: rest => some (.bool false, rest)
    | '"' :: rest => (readString rest).map fun read => (.string read.1, read.2)
    | '[' :: rest =>
      match skipBlanks rest with
      | ']' :: rest => some (.array [], rest)
      | rest => do
        let (item, rest) ← readValue fuel rest
        let (items, rest) ← readItems fuel (skipBlanks rest)
        return (.array (item :: items), rest)
    | '{' :: rest =>
      match skipBlanks rest with
      | '}' :: rest => some (.object [], rest)
      | rest => do
        let (field, rest) ← readField fuel rest
        let (fields, rest) ← readFields fuel (skipBlanks rest)
        return (.object (field :: fields), rest)
    | _ => none

def readItems : Nat → List Char → Option (List Json × List Char)
  | 0, _ => none
  | fuel + 1, text =>
    match text with
    | ']' :: rest => some ([], rest)
    | ',' :: rest => do
      let (item, rest) ← readValue fuel (skipBlanks rest)
      let (items, rest) ← readItems fuel (skipBlanks rest)
      return (item :: items, rest)
    | _ => none

def readField : Nat → List Char → Option ((String × Json) × List Char)
  | 0, _ => none
  | fuel + 1, text =>
    match text with
    | '"' :: rest => do
      let (key, rest) ← readString rest
      match skipBlanks rest with
      | ':' :: rest => do
        let (value, rest) ← readValue fuel (skipBlanks rest)
        return ((key, value), rest)
      | _ => none
    | _ => none

def readFields : Nat → List Char → Option (List (String × Json) × List Char)
  | 0, _ => none
  | fuel + 1, text =>
    match text with
    | '}' :: rest => some ([], rest)
    | ',' :: rest => do
      let (field, rest) ← readField fuel (skipBlanks rest)
      let (fields, rest) ← readFields fuel (skipBlanks rest)
      return (field :: fields, rest)
    | _ => none

end

def read (text : String) : Option Json := do
  let chars := skipBlanks text.toList
  let (json, rest) ← readValue (chars.length + 1) chars
  if skipBlanks rest = [] then some json else none

/-! ## Reading back what was written -/

theorem skipBlanks_append {blanks : List Char} (blank : ∀ c ∈ blanks, isBlank c) (rest : List Char) :
    skipBlanks (blanks ++ rest) = skipBlanks rest := by
  induction blanks with
  | nil => rfl
  | cons c blanks ih =>
    have head := blank c List.mem_cons_self
    have tail := ih fun c member => blank c (List.mem_cons_of_mem _ member)
    simpa [skipBlanks, List.dropWhile_cons, head] using tail

theorem skipBlanks_cons {c : Char} (mark : isBlank c = false) (rest : List Char) :
    skipBlanks (c :: rest) = c :: rest := by
  simp [skipBlanks, mark]

theorem write_head (layout : Layout) (depth : Nat) (json : Json) :
    ∃ head tail, write layout depth json = head :: tail ∧ isBlank head = false ∧ head ≠ ']' := by
  cases json with
  | null => exact ⟨_, _, by rw [write], by decide, by decide⟩
  | bool value => cases value <;> exact ⟨_, _, by rw [write], by decide, by decide⟩
  | string value => exact ⟨_, _, by rw [write, quoted], by decide, by decide⟩
  | array items => cases items <;> exact ⟨_, _, by rw [write], by decide, by decide⟩
  | object fields => cases fields <;> exact ⟨_, _, by rw [write], by decide, by decide⟩

theorem skipBlanks_write (layout : Layout) {blanks : List Char} (blank : ∀ c ∈ blanks, isBlank c)
    (depth : Nat) (json : Json) (rest : List Char) :
    skipBlanks (blanks ++ (write layout depth json ++ rest)) = write layout depth json ++ rest := by
  obtain ⟨head, tail, spelled, mark, _⟩ := write_head layout depth json
  rw [skipBlanks_append blank, spelled, List.cons_append, skipBlanks_cons mark]

theorem readValue_array {fuel : Nat} {text after rest : List Char} {head : Char} {tail : List Char}
    {item : Json} {items : List Json} (skipped : skipBlanks text = head :: tail)
    (notClose : head ≠ ']') (first : readValue fuel (head :: tail) = some (item, after))
    (others : readItems fuel (skipBlanks after) = some (items, rest)) :
    readValue (fuel + 1) ('[' :: text) = some (.array (item :: items), rest) := by
  simp only [readValue, skipped]
  split
  next same => exact absurd (List.cons.inj same).1 notClose
  · simp [first, others]

theorem readValue_object {fuel : Nat} {text tail after rest : List Char} {field : String × Json}
    {fields : List (String × Json)} (skipped : skipBlanks text = '"' :: tail)
    (first : readField fuel ('"' :: tail) = some (field, after))
    (others : readFields fuel (skipBlanks after) = some (fields, rest)) :
    readValue (fuel + 1) ('{' :: text) = some (.object (field :: fields), rest) := by
  simp [readValue, skipped, first, others]

theorem readItems_item {fuel : Nat} {text after rest : List Char} {item : Json} {items : List Json}
    (first : readValue fuel (skipBlanks text) = some (item, after))
    (others : readItems fuel (skipBlanks after) = some (items, rest)) :
    readItems (fuel + 1) (',' :: text) = some (item :: items, rest) := by
  simp [readItems, first, others]

theorem readFields_field {fuel : Nat} {text after rest : List Char} {field : String × Json}
    {fields : List (String × Json)} (first : readField fuel (skipBlanks text) = some (field, after))
    (others : readFields fuel (skipBlanks after) = some (fields, rest)) :
    readFields (fuel + 1) (',' :: text) = some (field :: fields, rest) := by
  simp [readFields, first, others]

section
variable {layout : Layout} (blank : layout.Blank)
include blank

theorem readField_write (key : String) {value : Json} {depth fuel : Nat} {rest : List Char}
    (valueRead : readValue fuel (write layout depth value ++ rest) = some (value, rest)) :
    readField (fuel + 1)
      (quoted key.toList ++ ':' :: (layout.colon ++ (write layout depth value ++ rest))) =
        some ((key, value), rest) := by
  have colon : skipBlanks (':' :: (layout.colon ++ (write layout depth value ++ rest))) =
      ':' :: (layout.colon ++ (write layout depth value ++ rest)) := skipBlanks_cons rfl _
  simp only [quoted, List.cons_append, List.append_assoc, List.nil_append, readField,
    readString_quoted, Option.bind_eq_bind, Option.bind_some, colon,
    skipBlanks_write layout blank.colon, valueRead, Option.pure_def]

theorem skipBlanks_quoted (depth : Nat) (text rest : List Char) :
    skipBlanks (layout.line depth ++ (quoted text ++ rest)) = quoted text ++ rest := by
  rw [skipBlanks_append (blank.line depth), quoted, List.cons_append, skipBlanks_cons rfl]

mutual

theorem readValue_write (json : Json) (depth fuel : Nat) (rest : List Char)
    (enough : (write layout depth json).length < fuel) :
    readValue fuel (write layout depth json ++ rest) = some (json, rest) := by
  obtain ⟨fuel, rfl⟩ := Nat.exists_eq_succ_of_ne_zero (Nat.ne_zero_of_lt enough)
  match json with
  | .null => simp [write, readValue]
  | .bool true => simp [write, readValue]
  | .bool false => simp [write, readValue]
  | .string value => simp [write, quoted, readValue, readString_quoted]
  | .array [] => simp [write, readValue, skipBlanks, isBlank]
  | .array (item :: items) =>
    simp only [write, List.cons_append, List.append_assoc, List.length_cons,
      List.length_append] at enough ⊢
    obtain ⟨head, tail, spelled, mark, notClose⟩ := write_head layout (depth + 1) item
    have skipped := skipBlanks_write layout (blank.line (depth + 1)) (depth + 1) item
      (writeItems layout depth items ++ rest)
    have first := readValue_write item (depth + 1) fuel (writeItems layout depth items ++ rest)
      (by omega)
    have others := readItems_write items depth fuel rest (by omega)
    rw [spelled] at skipped first
    rw [spelled]
    exact readValue_array skipped notClose first others
  | .object [] => simp [write, readValue, skipBlanks, isBlank]
  | .object ((key, value) :: fields) =>
    simp only [write, List.cons_append, List.append_assoc, List.length_cons,
      List.length_append] at enough ⊢
    obtain ⟨fuel, rfl⟩ := Nat.exists_eq_succ_of_ne_zero (show fuel ≠ 0 by omega)
    have valueRead := readValue_write value (depth + 1) fuel
      (writeFields layout depth fields ++ rest) (by omega)
    have others := readFields_write fields depth (fuel + 1) rest (by omega)
    exact readValue_object (skipBlanks_quoted blank _ _ _) (readField_write blank key valueRead) others

theorem readItems_write (items : List Json) (depth fuel : Nat) (rest : List Char)
    (enough : (writeItems layout depth items).length < fuel) :
    readItems fuel (skipBlanks (writeItems layout depth items ++ rest)) = some (items, rest) := by
  obtain ⟨fuel, rfl⟩ := Nat.exists_eq_succ_of_ne_zero (Nat.ne_zero_of_lt enough)
  match items with
  | [] =>
    have closing : skipBlanks (']' :: rest) = ']' :: rest := skipBlanks_cons rfl _
    simp only [writeItems, List.append_assoc, List.cons_append, List.nil_append,
      skipBlanks_append (blank.line depth), closing, readItems]
  | item :: items =>
    simp only [writeItems, List.cons_append, List.append_assoc, List.length_cons,
      List.length_append] at enough ⊢
    have first := readValue_write item (depth + 1) fuel (writeItems layout depth items ++ rest)
      (by omega)
    have others := readItems_write items depth fuel rest (by omega)
    rw [skipBlanks_cons rfl]
    refine readItems_item ?_ others
    rw [skipBlanks_write layout (blank.line (depth + 1)), first]

theorem readFields_write (fields : List (String × Json)) (depth fuel : Nat) (rest : List Char)
    (enough : (writeFields layout depth fields).length < fuel) :
    readFields fuel (skipBlanks (writeFields layout depth fields ++ rest)) = some (fields, rest) := by
  obtain ⟨fuel, rfl⟩ := Nat.exists_eq_succ_of_ne_zero (Nat.ne_zero_of_lt enough)
  match fields with
  | [] =>
    have closing : skipBlanks ('}' :: rest) = '}' :: rest := skipBlanks_cons rfl _
    simp only [writeFields, List.append_assoc, List.cons_append, List.nil_append,
      skipBlanks_append (blank.line depth), closing, readFields]
  | (key, value) :: fields =>
    simp only [writeFields, List.cons_append, List.append_assoc, List.length_cons,
      List.length_append] at enough ⊢
    obtain ⟨fuel, rfl⟩ := Nat.exists_eq_succ_of_ne_zero (show fuel ≠ 0 by omega)
    have valueRead := readValue_write value (depth + 1) fuel
      (writeFields layout depth fields ++ rest) (by omega)
    have first := readField_write blank key valueRead
    have others := readFields_write fields depth (fuel + 1) rest (by omega)
    rw [skipBlanks_cons rfl]
    refine readFields_field ?_ others
    rw [skipBlanks_quoted blank, first]

end

/-- Reading what was written gives it back, in any blank layout. -/
theorem read_write (json : Json) : read (String.ofList (write layout 0 json)) = some json := by
  obtain ⟨head, tail, spelled, mark, _⟩ := write_head layout 0 json
  have value := readValue_write blank json 0 ((write layout 0 json).length + 1) [] (by omega)
  have start : skipBlanks (write layout 0 json) = write layout 0 json := by
    rw [spelled, skipBlanks_cons mark]
  rw [List.append_nil] at value
  simp only [read, String.toList_ofList, start, value, Option.bind_eq_bind, Option.bind_some]
  rfl

end

theorem indented_blank : indented.Blank := by
  refine ⟨fun depth c member => ?_, fun c member => ?_⟩
  · rcases List.mem_cons.mp member with rfl | spaces
    · rfl
    · rw [List.eq_of_mem_replicate spaces]
      rfl
  · rw [List.mem_singleton.mp member]
    rfl

/-! ## No carriage return -/

theorem escape_plain (c : Char) : '\r' ∉ escape c := by
  have digit : ∀ n < 16, '\r' ≠ hexDigit n := by decide
  have high := fun small : c.toNat < 32 => digit (c.toNat / 16) (by omega)
  have low := digit (c.toNat % 16) (by omega)
  unfold escape
  split_ifs with _ _ _ _ _ _ notReturn control
  on_goal 8 => simp [high control, low]
  on_goal 8 => simpa using Ne.symm notReturn
  all_goals decide

theorem quoted_plain (text : List Char) : '\r' ∉ quoted text := by
  simp [quoted, escape_plain]

section
variable {layout : Layout} (plain : (∀ depth, '\r' ∉ layout.line depth) ∧ '\r' ∉ layout.colon)
include plain

mutual

theorem write_plain (json : Json) (depth : Nat) : '\r' ∉ write layout depth json := by
  match json with
  | .null | .bool true | .bool false => simp [write]
  | .string value => exact quoted_plain value.toList
  | .array [] | .object [] => simp [write]
  | .array (item :: items) => simp [write, plain, write_plain item, writeItems_plain items]
  | .object ((key, value) :: fields) =>
    simp [write, plain, quoted_plain, write_plain value, writeFields_plain fields]

theorem writeItems_plain (items : List Json) (depth : Nat) : '\r' ∉ writeItems layout depth items := by
  match items with
  | [] => simp [writeItems, plain]
  | item :: items => simp [writeItems, plain, write_plain item, writeItems_plain items]

theorem writeFields_plain (fields : List (String × Json)) (depth : Nat) :
    '\r' ∉ writeFields layout depth fields := by
  match fields with
  | [] => simp [writeFields, plain]
  | (key, value) :: fields =>
    simp [writeFields, plain, quoted_plain, write_plain value, writeFields_plain fields]

end

end

theorem indented_plain (json : Json) : '\r' ∉ write indented 0 json :=
  write_plain ⟨by simp [indented], by decide⟩ json 0

end Json
