import Csl.Library.CodePoints
import Csl.Library.Doubles
import Csl.Library.Integers

/-! JSON texts read as values, with numbers, surrogates and a limit on nesting.

Strings, arrays and objects are read by one loop, which takes a piece after the other until a
piece says that it is the last. Every piece takes some of the text, so the loop's fuel is never
used up and the loop has an equation without it.
-/

set_option autoImplicit false

inductive JsonValue where
  | null
  | bool (value : Bool)
  | integer (value : Int)
  | float (value : Double)
  | string (value : Text)
  | array (items : List JsonValue)
  | object (entries : List (Text × JsonValue))

namespace JsonValue
open CodePoint

/-- Why a text is no value: it is no JSON, or an integer in it has too many digits, or its
containers are nested too deeply. -/
inductive Refusal where
  | malformed
  | tooManyDigits
  | tooDeep
  deriving DecidableEq

abbrev Reading (A : Type) := Except Refusal (A × Text)

def isBlank (point : CodePoint) : Bool :=
  point = .scalar ' ' || point = .scalar '\t' || point = .scalar '\n' || point = .scalar '\r'

def skipBlanks (text : Text) : Text := text.dropWhile isBlank

/-! ## The loop -/

/-- What one round of the loop found, whether another round follows, and the text after it. -/
structure Piece (A : Type) where
  items : List A
  more : Bool
  rest : Text

section
variable {A : Type}

def collect (step : Text → Except Refusal (Piece A)) : Nat → Text → Reading (List A)
  | 0, _ => .error .malformed
  | fuel + 1, text =>
    match step text with
    | .error refusal => .error refusal
    | .ok piece =>
      if piece.more then (collect step fuel piece.rest).map fun read => (piece.items ++ read.1, read.2)
      else .ok (piece.items, piece.rest)

def collectAll (step : Text → Except Refusal (Piece A)) (text : Text) : Reading (List A) :=
  collect step (text.length + 1) text

end

/-! ## Strings -/

def readHex : Text → Option (Nat × Text)
  | .scalar a :: .scalar b :: .scalar c :: .scalar d :: rest => (Json.hex4 a b c d).map (·, rest)
  | _ => none

def lowEscape : Text → Option (Nat × Text)
  | .scalar '\\' :: .scalar 'u' :: rest => (readHex rest).filter fun read => Json.isLowSurrogate read.1
  | _ => none

/-- What an escape stands for after its backslash. A high surrogate takes the escape of a low
one with it. -/
def readEscape : Text → Option (CodePoint × Text)
  | .scalar 'u' :: rest =>
    (readHex rest).map fun read =>
      match if Json.isHighSurrogate read.1 then lowEscape read.2 else none with
      | some low => (join read.1 low.1, low.2)
      | none => (ofNat read.1, read.2)
  | .scalar c :: rest => (Json.shortEscape c).map fun meant => (.scalar meant, rest)
  | _ => none

def readCharacter : Text → Option (CodePoint × Text)
  | .scalar '\\' :: rest => readEscape rest
  | point :: rest => if point.toNat < 32 then none else some (point, rest)
  | [] => none

def characterPiece (text : Text) : Except Refusal (Piece CodePoint) :=
  if text.head? = some (.scalar '"') then .ok ⟨[], false, text.tail⟩
  else
    match readCharacter text with
    | some read => .ok ⟨[read.1], true, read.2⟩
    | none => .error .malformed

def readString (text : Text) : Reading Text := collectAll characterPiece text

/-! ## Numbers and words -/

def takeDigits : Text → List Char × Text
  | .scalar c :: rest =>
    if c.isDigit then (c :: (takeDigits rest).1, (takeDigits rest).2) else ([], .scalar c :: rest)
  | text => ([], text)

/-- The digits before a point; a zero at the beginning is the only one. -/
def readWhole (text : Text) : List Char × Text :=
  if text.head? = some (.scalar '0') then (['0'], text.tail) else takeDigits text

/-- The digits after a point, which belongs to no number when none follow. -/
def readFraction (text : Text) : List Char × Text :=
  let found := takeDigits text.tail
  if text.head? = some (.scalar '.') ∧ found.1 ≠ [] then found else ([], text)

def readSign (text : Text) : Bool × Text :=
  if text.head? = some (.scalar '-') then (true, text.tail)
  else if text.head? = some (.scalar '+') then (false, text.tail)
  else (false, text)

def signed (negative : Bool) (magnitude : Nat) : Int := if negative then -(magnitude : Int) else magnitude

def readExponent (text : Text) : Option Int × Text :=
  let sign := readSign text.tail
  let found := takeDigits sign.2
  if (text.head? = some (.scalar 'e') ∨ text.head? = some (.scalar 'E')) ∧ found.1 ≠ [] then
    (some (signed sign.1 (Nat.ofDigitChars 10 found.1 0)), found.2)
  else (none, text)

def readMagnitude (negative : Bool) (text : Text) : Reading JsonValue :=
  let whole := readWhole text
  let fraction := readFraction whole.2
  let exponent := readExponent fraction.2
  if whole.1 = [] then .error .malformed
  else if fraction.1 = [] ∧ exponent.1 = none then
    if whole.1.length ≤ Integers.maxDigits then
      .ok (.integer (signed negative (Nat.ofDigitChars 10 whole.1 0)), exponent.2)
    else .error .tooManyDigits
  else
    .ok (.float (.ofDecimal negative (Nat.ofDigitChars 10 (whole.1 ++ fraction.1) 0)
      (exponent.1.getD 0 - fraction.1.length)), exponent.2)

def readNumber (text : Text) : Reading JsonValue :=
  if text.head? = some (.scalar '-') then readMagnitude true text.tail else readMagnitude false text

def words : List (List Char × JsonValue) :=
  [(['n', 'u', 'l', 'l'], .null),
    (['t', 'r', 'u', 'e'], .bool true),
    (['f', 'a', 'l', 's', 'e'], .bool false),
    (['N', 'a', 'N'], .float .nan),
    (['I', 'n', 'f', 'i', 'n', 'i', 't', 'y'], .float (.infinite false)),
    (['-', 'I', 'n', 'f', 'i', 'n', 'i', 't', 'y'], .float (.infinite true))]

def readWord (text : Text) : Option (JsonValue × Text) :=
  words.findSome? fun word =>
    if text.take word.1.length = word.1.map scalar then some (word.2, text.drop word.1.length) else none

/-! ## Containers and values -/

def closing {A : Type} (close : Char) (item : A) (text : Text) : Except Refusal (Piece A) :=
  let text := skipBlanks text
  if text.head? = some (.scalar ',') then .ok ⟨[item], true, skipBlanks text.tail⟩
  else if text.head? = some (.scalar close) then .ok ⟨[item], false, text.tail⟩
  else .error .malformed

section
variable (read : Text → Reading JsonValue)

def itemPiece (text : Text) : Except Refusal (Piece JsonValue) := do
  let item ← read text
  closing ']' item.1 item.2

def entryPiece (text : Text) : Except Refusal (Piece (Text × JsonValue)) := do
  if text.head? = some (.scalar '"') then
    let key ← readString text.tail
    let text := skipBlanks key.2
    if text.head? = some (.scalar ':') then
      let value ← read (skipBlanks text.tail)
      closing '}' (key.1, value.1) value.2
    else throw .malformed
  else throw .malformed

def readContainer {A : Type} (close : Char) (step : Text → Except Refusal (Piece A)) (text : Text) :
    Reading (List A) :=
  let text := skipBlanks text
  if text.head? = some (.scalar close) then .ok ([], text.tail) else collectAll step text

end

def opened (inner : Option (Text → Reading JsonValue)) (after : (Text → Reading JsonValue) → Reading JsonValue) :
    Reading JsonValue :=
  match inner with
  | none => .error .tooDeep
  | some read => after read

/-- A value, where the values inside a container are read by another reading or by none. -/
def readWith (inner : Option (Text → Reading JsonValue)) (text : Text) : Reading JsonValue :=
  if text.head? = some (.scalar '"') then (readString text.tail).map fun read => (.string read.1, read.2)
  else if text.head? = some (.scalar '{') then
    opened inner fun read =>
      (readContainer '}' (entryPiece read) text.tail).map fun read => (.object read.1, read.2)
  else if text.head? = some (.scalar '[') then
    opened inner fun read => (readContainer ']' (itemPiece read) text.tail).map fun read => (.array read.1, read.2)
  else
    match readWord text with
    | some found => .ok found
    | none => readNumber text

def readValue : (nesting : Nat) → Text → Reading JsonValue
  | 0 => readWith none
  | nesting + 1 => readWith (some (readValue nesting))

/-- `json.loads(text)` -/
def loads (nesting : Nat) (text : Text) : Except Refusal JsonValue := do
  let read ← readValue nesting (skipBlanks text)
  if skipBlanks read.2 = [] then return read.1 else throw .malformed

/-! ## The bytes of a text -/

inductive Encoding where
  | utf8 (marked : Bool)
  | utf16 (endian : Endian) (marked : Bool)
  | utf32 (endian : Endian) (marked : Bool)

/-- `json.detect_encoding(bytes)`: without a mark, the zeros among the first bytes tell. -/
def detectEncoding (bytes : List UInt8) : Encoding :=
  if bytes.take 4 = [0, 0, 0xFE, 0xFF] then .utf32 .big true
  else if bytes.take 4 = [0xFF, 0xFE, 0, 0] then .utf32 .little true
  else if bytes.take 2 = [0xFE, 0xFF] then .utf16 .big true
  else if bytes.take 2 = [0xFF, 0xFE] then .utf16 .little true
  else if bytes.take 3 = [0xEF, 0xBB, 0xBF] then .utf8 true
  else
    match bytes with
    | [a, b] => if a = 0 then .utf16 .big false else if b = 0 then .utf16 .little false else .utf8 false
    | a :: b :: c :: d :: _ =>
      if a = 0 then if b = 0 then .utf32 .big false else .utf16 .big false
      else if b = 0 then if c = 0 ∧ d = 0 then .utf32 .little false else .utf16 .little false
      else .utf8 false
    | _ => .utf8 false

/-- `bytes.decode(detect_encoding(bytes), "surrogatepass")` -/
def decodeBytes (bytes : List UInt8) : Option Text :=
  match detectEncoding bytes with
  | .utf8 marked => decodeUtf8 .surrogatepass (if marked then bytes.drop 3 else bytes)
  | .utf16 endian marked => decodeUtf16 endian (if marked then bytes.drop 2 else bytes)
  | .utf32 endian marked => decodeUtf32 endian (if marked then bytes.drop 4 else bytes)

theorem decodeBytes_utf8 {a b : UInt8} {rest : List UInt8} (plain : a ≠ 0 ∧ a ≠ 0xEF ∧ a ≠ 0xFE ∧ a ≠ 0xFF) (proper : b ≠ 0) :
    decodeBytes (a :: b :: rest) = decodeUtf8 .surrogatepass (a :: b :: rest) := by
  obtain ⟨notZero, notMark, notBig, notLittle⟩ := plain
  have detected : detectEncoding (a :: b :: rest) = .utf8 false := by
    rcases rest with _ | ⟨c, _ | ⟨d, rest⟩⟩ <;>
      simp [detectEncoding, notZero, notMark, notBig, notLittle, proper]
  rw [decodeBytes, detected]
  rfl

/-- The values under a key; a later entry replaces an earlier one. -/
def lookup (key : Text) : List (Text × JsonValue) → Option JsonValue
  | [] => none
  | (name, value) :: rest => lookup key rest <|> if name = key then some value else none

/-! ## Every reading takes some of the text -/

section
variable {A : Type}

def Consumes (step : Text → Except Refusal (Piece A)) : Prop :=
  ∀ text piece, step text = .ok piece → piece.rest.length < text.length

def Takes (read : Text → Reading A) : Prop := ∀ text found, read text = .ok found → found.2.length < text.length

theorem collect_succ {step : Text → Except Refusal (Piece A)} (consumes : Consumes step) {fuel : Nat} {text : Text}
    (enough : text.length < fuel) : collect step (fuel + 1) text = collect step fuel text := by
  induction fuel generalizing text with
  | zero => exact absurd enough (Nat.not_lt_zero _)
  | succ fuel ih =>
    rw [collect, collect]
    cases found : step text with
    | error refusal => rfl
    | ok piece =>
      have shorter := consumes text piece found
      simp only [ih (show piece.rest.length < fuel by omega)]

theorem collect_enough {step : Text → Except Refusal (Piece A)} (consumes : Consumes step) {fuel : Nat}
    {text : Text} (enough : text.length < fuel) : collect step fuel text = collectAll step text := by
  induction fuel, enough using Nat.le_induction with
  | base => rfl
  | succ fuel enough ih => rw [collect_succ consumes enough, ih]

theorem collectAll_eq {step : Text → Except Refusal (Piece A)} (consumes : Consumes step) (text : Text) :
    collectAll step text =
      match step text with
      | .error refusal => .error refusal
      | .ok piece =>
        if piece.more then (collectAll step piece.rest).map fun read => (piece.items ++ read.1, read.2)
        else .ok (piece.items, piece.rest) := by
  rw [collectAll, collect]
  cases found : step text with
  | error refusal => rfl
  | ok piece => simp only [collect_enough consumes (consumes text piece found)]

theorem map_eq_ok {B : Type} {read : Except Refusal A} {after : A → B} {found : B} (done : read.map after = .ok found) :
    ∃ value, read = .ok value ∧ after value = found := by
  cases read with
  | error refusal => cases done
  | ok value => exact ⟨value, rfl, Except.ok.inj done⟩

theorem bind_eq_ok {E B : Type} {read : Except E A} {after : A → Except E B} {found : B}
    (done : (read >>= after) = .ok found) : ∃ value, read = .ok value ∧ after value = .ok found := by
  cases read with
  | error raised => cases done
  | ok value => exact ⟨value, rfl, done⟩

theorem collect_takes {step : Text → Except Refusal (Piece A)} (consumes : Consumes step) (fuel : Nat) :
    Takes (collect step fuel) := by
  induction fuel with
  | zero => exact fun text found done => nomatch done
  | succ fuel ih =>
    intro text found done
    rw [collect] at done
    cases taken : step text with
    | error refusal =>
      rw [taken] at done
      cases done
    | ok piece =>
      have shorter := consumes text piece taken
      simp only [taken] at done
      split at done
      next =>
        obtain ⟨others, read, rfl⟩ := map_eq_ok done
        exact Nat.lt_trans (ih piece.rest others read) shorter
      next =>
        cases done
        exact shorter

end

theorem skipBlanks_le (text : Text) : (skipBlanks text).length ≤ text.length := (List.dropWhile_sublist isBlank).length_le

theorem tail_lt {text : Text} {point : CodePoint} (first : text.head? = some point) :
    text.tail.length < text.length := by
  cases text with
  | nil => cases first
  | cons head tail => exact Nat.lt_succ_self tail.length

theorem readHex_lt {text : Text} {found : Nat × Text} (read : readHex text = some found) :
    found.2.length < text.length := by
  unfold readHex at read
  split at read
  next =>
    obtain ⟨unit, -, rfl⟩ := Option.map_eq_some_iff.mp read
    simp only [List.length_cons]
    omega
  next => cases read

theorem lowEscape_lt {text : Text} {found : Nat × Text} (read : lowEscape text = some found) :
    found.2.length < text.length := by
  unfold lowEscape at read
  split at read
  next =>
    have shorter := readHex_lt (Option.eq_some_of_filter_eq_some read)
    simp only [List.length_cons]
    omega
  next => cases read

theorem readEscape_lt {text : Text} {found : CodePoint × Text} (read : readEscape text = some found) :
    found.2.length < text.length := by
  unfold readEscape at read
  split at read
  next rest =>
    obtain ⟨unit, hex, rfl⟩ := Option.map_eq_some_iff.mp read
    have shorter := readHex_lt hex
    rw [List.length_cons]
    cases low : (if Json.isHighSurrogate unit.1 then lowEscape unit.2 else none) with
    | none => exact Nat.lt_succ_of_lt shorter
    | some low =>
      split at low
      next => exact Nat.lt_succ_of_lt (Nat.lt_trans (lowEscape_lt low) shorter)
      next => cases low
  next =>
    obtain ⟨meant, -, rfl⟩ := Option.map_eq_some_iff.mp read
    exact Nat.lt_succ_self _
  next => cases read

theorem characterPiece_consumes : Consumes characterPiece := by
  intro text piece done
  rw [characterPiece] at done
  split at done
  next quote =>
    cases done
    exact tail_lt quote
  next =>
    split at done
    next read found =>
      cases done
      unfold readCharacter at found
      split at found
      next => exact Nat.lt_succ_of_lt (readEscape_lt found)
      next =>
        split at found
        · cases found
        · cases found
          exact Nat.lt_succ_self _
      next => cases found
    next => cases done

theorem readString_takes : Takes readString := fun text => collect_takes characterPiece_consumes _ text

theorem takeDigits_length (text : Text) : (takeDigits text).1.length + (takeDigits text).2.length = text.length := by
  induction text with
  | nil => rfl
  | cons point rest ih =>
    cases point with
    | surrogate half => exact Nat.zero_add _
    | scalar c =>
      rw [takeDigits]
      split
      · simp only [List.length_cons]
        omega
      · exact Nat.zero_add _

theorem readWhole_length (text : Text) : (readWhole text).1.length + (readWhole text).2.length = text.length := by
  rw [readWhole]
  split
  next zero =>
    have shorter := tail_lt zero
    rw [List.length_tail] at shorter ⊢
    change 1 + (text.length - 1) = text.length
    omega
  next => exact takeDigits_length text

theorem readFraction_le (text : Text) : (readFraction text).2.length ≤ text.length := by
  have found := takeDigits_length text.tail
  have tail : text.tail.length ≤ text.length := by simp
  rw [readFraction]
  split
  · omega
  · exact Nat.le_refl _

theorem readSign_le (text : Text) : (readSign text).2.length ≤ text.length := by
  have tail : text.tail.length ≤ text.length := by simp
  rw [readSign]
  split_ifs
  · exact tail
  · exact tail
  · exact Nat.le_refl _

theorem readExponent_le (text : Text) : (readExponent text).2.length ≤ text.length := by
  have found := takeDigits_length (readSign text.tail).2
  have sign := readSign_le text.tail
  have tail : text.tail.length ≤ text.length := by simp
  rw [readExponent]
  split
  · dsimp only
    omega
  · exact Nat.le_refl _

theorem readMagnitude_takes (negative : Bool) : Takes (readMagnitude negative) := by
  intro text found done
  have whole := readWhole_length text
  have fraction := readFraction_le (readWhole text).2
  have exponent := readExponent_le (readFraction (readWhole text).2).2
  have after : (readWhole text).1 ≠ [] ∧ found.2 = (readExponent (readFraction (readWhole text).2).2).2 := by
    simp only [readMagnitude] at done
    split_ifs at done with none plain few <;> cases done
    all_goals exact ⟨none, rfl⟩
  have digits := List.length_pos_of_ne_nil after.1
  rw [after.2]
  omega

theorem readNumber_takes : Takes readNumber := by
  intro text found done
  rw [readNumber] at done
  split at done
  next negative => exact Nat.lt_trans (readMagnitude_takes true _ found done) (tail_lt negative)
  next => exact readMagnitude_takes false text found done

theorem readWord_lt {text : Text} {found : JsonValue × Text} (read : readWord text = some found) :
    found.2.length < text.length := by
  obtain ⟨word, member, taken⟩ := List.exists_of_findSome?_eq_some read
  have proper : 0 < word.1.length := by
    simp only [words, List.mem_cons, List.not_mem_nil, or_false] at member
    rcases member with rfl | rfl | rfl | rfl | rfl | rfl <;> decide
  split at taken
  next same =>
    cases taken
    have short := congrArg List.length same
    rw [List.length_take, List.length_map] at short
    rw [List.length_drop]
    omega
  next => cases taken

theorem closing_lt {A : Type} {close : Char} {item : A} {text : Text} {piece : Piece A}
    (done : closing close item text = .ok piece) : piece.rest.length < text.length := by
  have blanks := skipBlanks_le text
  have later := skipBlanks_le (skipBlanks text).tail
  simp only [closing] at done
  split_ifs at done with comma closed
  · cases done
    have tail := tail_lt comma
    exact Nat.lt_of_le_of_lt later (Nat.lt_of_lt_of_le tail blanks)
  · cases done
    exact Nat.lt_of_lt_of_le (tail_lt closed) blanks

section
variable {read : Text → Reading JsonValue} (takes : Takes read)
include takes

theorem itemPiece_consumes : Consumes (itemPiece read) := by
  intro text piece done
  obtain ⟨item, found, after⟩ := bind_eq_ok done
  exact Nat.lt_trans (closing_lt after) (takes text item found)

theorem entryPiece_consumes : Consumes (entryPiece read) := by
  intro text piece done
  by_cases quote : text.head? = some (.scalar '"')
  · rw [entryPiece, if_pos quote] at done
    obtain ⟨key, named, done⟩ := bind_eq_ok done
    by_cases colon : (skipBlanks key.2).head? = some (.scalar ':')
    · simp only [if_pos colon] at done
      obtain ⟨value, found, after⟩ := bind_eq_ok done
      calc piece.rest.length
        _ < value.2.length := closing_lt after
        _ < (skipBlanks (skipBlanks key.2).tail).length := takes _ value found
        _ ≤ (skipBlanks key.2).tail.length := skipBlanks_le _
        _ < (skipBlanks key.2).length := tail_lt colon
        _ ≤ key.2.length := skipBlanks_le _
        _ < text.tail.length := readString_takes _ key named
        _ < text.length := tail_lt quote
    · simp only [if_neg colon] at done
      cases done
  · rw [entryPiece, if_neg quote] at done
    cases done

omit takes in
theorem readContainer_le {A : Type} {close : Char} {step : Text → Except Refusal (Piece A)}
    (consumes : Consumes step) {text : Text} {found : List A × Text}
    (done : readContainer close step text = .ok found) : found.2.length ≤ text.length := by
  have blanks := skipBlanks_le text
  simp only [readContainer] at done
  split at done
  next closed =>
    cases done
    exact Nat.le_trans (Nat.le_of_lt (tail_lt closed)) blanks
  next => exact Nat.le_trans (Nat.le_of_lt (collect_takes consumes _ _ found done)) blanks

end

theorem opened_ok {inner : Option (Text → Reading JsonValue)}
    {after : (Text → Reading JsonValue) → Reading JsonValue} {found : JsonValue × Text}
    (done : opened inner after = .ok found) : ∃ read ∈ inner, after read = .ok found := by
  cases inner with
  | none => cases done
  | some read => exact ⟨read, rfl, done⟩

theorem readWith_takes {inner : Option (Text → Reading JsonValue)} (takes : ∀ read ∈ inner, Takes read) :
    Takes (readWith inner) := by
  intro text found done
  rw [readWith] at done
  split_ifs at done with quote brace bracket
  · obtain ⟨value, read, rfl⟩ := map_eq_ok done
    exact Nat.lt_trans (readString_takes _ value read) (tail_lt quote)
  · obtain ⟨read, inside, done⟩ := opened_ok done
    obtain ⟨entries, contained, rfl⟩ := map_eq_ok done
    exact Nat.lt_of_le_of_lt (readContainer_le (entryPiece_consumes (takes read inside)) contained) (tail_lt brace)
  · obtain ⟨read, inside, done⟩ := opened_ok done
    obtain ⟨items, contained, rfl⟩ := map_eq_ok done
    exact Nat.lt_of_le_of_lt (readContainer_le (itemPiece_consumes (takes read inside)) contained) (tail_lt bracket)
  · split at done
    next word => exact Except.ok.inj done ▸ readWord_lt word
    next => exact readNumber_takes text found done

theorem readValue_takes (nesting : Nat) : Takes (readValue nesting) := by
  induction nesting with
  | zero => exact readWith_takes nofun
  | succ nesting ih =>
    apply readWith_takes
    intro read same
    cases same
    exact ih

end JsonValue
