import Csl.Library.JsonValues
import Mathlib.Data.List.Chain

/-! JSON objects of texts and integers written in ASCII, and read back.

A text is read back unless a high surrogate stands directly before a low one in it, which the
reader takes for one character.
-/

set_option autoImplicit false

namespace JsonValue
open CodePoint Json

/-! ## Writing -/

def hexText (unit : Nat) : List Char :=
  [hexDigit (unit / 4096), hexDigit (unit / 256 % 16), hexDigit (unit / 16 % 16), hexDigit (unit % 16)]

def escapeUnit (unit : Nat) : List Char := '\\' :: 'u' :: hexText unit

def escapePoint (point : CodePoint) : List Char :=
  if point = .scalar '"' then ['\\', '"']
  else if point = .scalar '\\' then ['\\', '\\']
  else if point = .scalar '\x08' then ['\\', 'b']
  else if point = .scalar '\x0c' then ['\\', 'f']
  else if point = .scalar '\n' then ['\\', 'n']
  else if point = .scalar '\r' then ['\\', 'r']
  else if point = .scalar '\t' then ['\\', 't']
  else if 32 ≤ point.toNat ∧ point.toNat ≤ 126 then [Char.ofNat point.toNat]
  else if 0x10000 ≤ point.toNat then escapeUnit (highOf point.toNat) ++ escapeUnit (lowOf point.toNat)
  else escapeUnit point.toNat

def quotedText (text : Text) : List Char := '"' :: (text.flatMap escapePoint ++ ['"'])

inductive Plain where
  | text (value : Text)
  | integer (value : Int)

def Plain.value : Plain → JsonValue
  | .text value => .string value
  | .integer value => .integer value

def Plain.write : Plain → Option (List Char)
  | .text value => some (quotedText value)
  | .integer value => if Integers.digitCount value ≤ Integers.maxDigits then some (toString value).toList else none

def writeEntries : List (Text × Plain) → Option (List Char)
  | [] => some ['}']
  | [entry] => entry.2.write.map fun value => quotedText entry.1 ++ ':' :: (value ++ ['}'])
  | entry :: next :: rest =>
    entry.2.write.bind fun value =>
      (writeEntries (next :: rest)).map fun others => quotedText entry.1 ++ ':' :: (value ++ ',' :: others)

/-- `json.dumps(entries, separators=(",", ":"))`, or none where it raises ValueError -/
def dumps (entries : List (Text × Plain)) : Option Text :=
  (writeEntries entries).map fun text => ('{' :: text).map .scalar

/-! ## Reading a string back -/

/-- No high surrogate stands directly before a low one. -/
def Unpaired (text : Text) : Prop :=
  text.IsChain fun first second => ¬ (isHighSurrogate first.toNat = true ∧ isLowSurrogate second.toNat = true)

instance (text : Text) : Decidable (Unpaired text) :=
  inferInstanceAs (Decidable (List.IsChain _ text))

theorem readHex_hexText {unit : Nat} (small : unit < 0x10000) (rest : Text) :
    readHex ((hexText unit).map scalar ++ rest) = some (unit, rest) := by
  have first : unit / 4096 < 16 := by omega
  have second : unit / 256 % 16 < 16 := Nat.mod_lt _ (by decide)
  have third : unit / 16 % 16 < 16 := Nat.mod_lt _ (by decide)
  have fourth : unit % 16 < 16 := Nat.mod_lt _ (by decide)
  have whole : ((unit / 4096 * 16 + unit / 256 % 16) * 16 + unit / 16 % 16) * 16 + unit % 16 = unit := by omega
  simp only [hexText, List.map_cons, List.map_nil, List.cons_append, List.nil_append, readHex,
    hex4, hexValue_hexDigit _ first, hexValue_hexDigit _ second, hexValue_hexDigit _ third,
    hexValue_hexDigit _ fourth, Option.bind_eq_bind, Option.bind_some, Option.pure_def, Option.map_some, whole]

theorem lowEscape_escapeUnit {unit : Nat} (small : unit < 0x10000) (rest : Text) :
    lowEscape ((escapeUnit unit).map scalar ++ rest) = if isLowSurrogate unit then some (unit, rest) else none := by
  change (readHex ((hexText unit).map scalar ++ rest)).filter _ = _
  rw [readHex_hexText small]
  rfl

theorem highOf_lt {code : Nat} (bound : code < 0x110000) : highOf code < 0x10000 ∧ isLowSurrogate (highOf code) = false := by
  have below : highOf code < 0xDC00 := by
    rw [highOf]
    omega
  constructor
  · exact Nat.lt_trans below (by decide)
  · rw [isLowSurrogate, decide_eq_false (Nat.not_le.mpr below), Bool.false_and]

theorem lowOf_lt (code : Nat) : lowOf code < 0x10000 := by
  rw [lowOf]
  omega

theorem printable {point : CodePoint} (range : 32 ≤ point.toNat ∧ point.toNat ≤ 126) :
    scalar (Char.ofNat point.toNat) = point := by
  cases point with
  | scalar c => rw [CodePoint.toNat, Char.ofNat_toNat]
  | surrogate half =>
    rw [CodePoint.toNat] at range
    omega

/-- Nothing but a low surrogate is written so that a high one before it would take it. -/
theorem lowEscape_escapePoint {point : CodePoint} (notLow : isLowSurrogate point.toNat = false) (rest : Text) :
    lowEscape ((escapePoint point).map scalar ++ rest) = none := by
  rw [escapePoint]
  split_ifs with quote slash backspace formFeed newline return_ tab plain large
  all_goals try rfl
  · rw [List.map_cons, List.map_nil, printable plain, List.singleton_append]
    unfold lowEscape
    split
    next same => exact absurd (List.cons.inj same).1 slash
    next => rfl
  · obtain ⟨small, notLow⟩ := highOf_lt point.toNat_lt
    rw [List.map_append, List.append_assoc, lowEscape_escapeUnit small, notLow]
    rfl
  · rw [lowEscape_escapeUnit (Nat.not_le.mp large), notLow]
    rfl

theorem readCharacter_escapePoint (point : CodePoint) {rest : Text}
    (alone : isHighSurrogate point.toNat = true → lowEscape rest = none) :
    readCharacter ((escapePoint point).map scalar ++ rest) = some (point, rest) := by
  rw [escapePoint]
  split_ifs with quote slash backspace formFeed newline return_ tab plain large
  · subst quote; rfl
  · subst slash; rfl
  · subst backspace; rfl
  · subst formFeed; rfl
  · subst newline; rfl
  · subst return_; rfl
  · subst tab; rfl
  · rw [List.map_cons, List.map_nil, printable plain, List.singleton_append]
    unfold readCharacter
    split
    next same => exact absurd (List.cons.inj same).1 slash
    next same =>
      obtain ⟨rfl, rfl⟩ := List.cons.inj same
      rw [if_neg (Nat.not_lt.mpr plain.1)]
    next same => cases same
  · have bound := point.toNat_lt
    have high := isHighSurrogate_highOf bound
    have low := isLowSurrogate_lowOf point.toNat
    rw [List.map_append, List.append_assoc]
    change (readHex ((hexText _).map scalar ++ _)).map _ = _
    rw [readHex_hexText (highOf_lt bound).1, Option.map_some]
    simp only [high, if_true, lowEscape_escapeUnit (lowOf_lt _), low, join_split point large]
  · change (readHex ((hexText _).map scalar ++ _)).map _ = _
    rw [readHex_hexText (Nat.not_le.mp large), Option.map_some]
    by_cases high : isHighSurrogate point.toNat = true
    · simp only [if_pos high, alone high, ofNat_toNat]
    · simp only [if_neg high, ofNat_toNat]

theorem head_escapePoint (point : CodePoint) (rest : Text) :
    ((escapePoint point).map scalar ++ rest).head? ≠ some (scalar '"') := by
  rw [escapePoint]
  split_ifs with quote slash backspace formFeed newline return_ tab plain large
  on_goal 8 =>
    rw [List.map_cons, List.map_nil, printable plain]
    exact fun same => quote (Option.some.inj same)
  all_goals simp [escapeUnit]

theorem readString_quotedText {text : Text} (unpaired : Unpaired text) (rest : Text) :
    readString ((text.flatMap escapePoint).map scalar ++ .scalar '"' :: rest) = .ok (text, rest) := by
  induction text with
  | nil =>
    rw [readString, collectAll_eq characterPiece_consumes]
    rfl
  | cons point later ih =>
    have after := ih unpaired.tail
    rw [readString] at after ⊢
    have alone : isHighSurrogate point.toNat = true →
        lowEscape ((later.flatMap escapePoint).map scalar ++ .scalar '"' :: rest) = none := by
      intro high
      cases later with
      | nil => rfl
      | cons next later =>
        have notLow : isLowSurrogate next.toNat = false :=
          Bool.eq_false_iff.mpr fun low => (List.isChain_cons_cons.mp unpaired).1 ⟨high, low⟩
        rw [List.flatMap_cons, List.map_append, List.append_assoc, lowEscape_escapePoint notLow]
    rw [List.flatMap_cons, List.map_append, List.append_assoc, collectAll_eq characterPiece_consumes, characterPiece,
      if_neg (head_escapePoint point _), readCharacter_escapePoint point alone]
    simp only [if_true, after]
    rfl

/-! ## Reading an integer back -/

def Follows (rest : Text) : Prop := rest.head? = some (.scalar ',') ∨ rest.head? = some (.scalar '}')

theorem takeDigits_append {digits : List Char} (plain : ∀ c ∈ digits, c.isDigit = true) {rest : Text}
    (follows : Follows rest) : takeDigits (digits.map scalar ++ rest) = (digits, rest) := by
  induction digits with
  | nil =>
    cases rest with
    | nil => rfl
    | cons point rest =>
      obtain same | same := follows
      all_goals
        cases Option.some.inj same
        rfl
  | cons c digits ih =>
    have head := plain c List.mem_cons_self
    rw [List.map_cons, List.cons_append, takeDigits, if_pos head,
      ih fun c member => plain c (List.mem_cons_of_mem _ member)]

theorem head_toDigits {value : Nat} (positive : 0 < value) : (Nat.toDigits 10 value).head? ≠ some '0' := by
  induction value using Nat.strongRecOn with
  | ind value ih =>
    by_cases small : value < 10
    · rw [Nat.toDigits_of_lt_base small]
      intro same
      exact Nat.ne_of_gt positive (Nat.digitChar_eq_zero.mp (Option.some.inj same))
    · rw [Nat.toDigits_of_base_le (by decide) (Nat.not_lt.mp small), List.head?_append_of_ne_nil _ Nat.toDigits_ne_nil]
      exact ih _ (Nat.div_lt_self positive (by decide)) (Nat.div_pos (Nat.not_lt.mp small) (by decide))

theorem readWhole_toDigits (value : Nat) {rest : Text} (follows : Follows rest) :
    readWhole ((Nat.toDigits 10 value).map scalar ++ rest) = (Nat.toDigits 10 value, rest) := by
  have plain : ∀ c ∈ Nat.toDigits 10 value, c.isDigit = true :=
    fun c member => Nat.isDigit_of_mem_toDigits (by decide) (by decide) member
  cases value with
  | zero => rfl
  | succ value =>
    have proper := head_toDigits (Nat.succ_pos value)
    have notZero : ((Nat.toDigits 10 (value + 1)).map scalar ++ rest).head? ≠ some (scalar '0') := by
      cases spelled : Nat.toDigits 10 (value + 1) with
      | nil => exact absurd spelled Nat.toDigits_ne_nil
      | cons c digits =>
        rw [spelled] at proper
        exact fun same => proper (congrArg some (scalar.inj (Option.some.inj same)))
    rw [readWhole, if_neg notZero, takeDigits_append plain follows]

theorem readMagnitude_toDigits (negative : Bool) (value : Nat) {rest : Text} (follows : Follows rest) :
    readMagnitude negative ((Nat.toDigits 10 value).map scalar ++ rest) =
      if (Nat.toDigits 10 value).length ≤ Integers.maxDigits then .ok (.integer (signed negative value), rest)
      else .error .tooManyDigits := by
  have plain : readFraction rest = ([], rest) ∧ readExponent rest = (none, rest) := by
    rcases follows with comma | brace
    · simp [readFraction, readExponent, comma]
    · simp [readFraction, readExponent, brace]
  have read : Nat.ofDigitChars 10 (Nat.toDigits 10 value) 0 = value :=
    Nat.ofDigitChars_toDigits (by decide) (by decide)
  simp only [readMagnitude, readWhole_toDigits value follows, plain.1, plain.2, Nat.toDigits_ne_nil, if_false, read,
    and_self, if_true]

theorem readWith_digit (inner : Option (Text → Reading JsonValue)) {c : Char} (digit : c.isDigit = true) (rest : Text) :
    readWith inner (scalar c :: rest) = readMagnitude false (scalar c :: rest) ∧
      readWith inner (scalar '-' :: scalar c :: rest) = readMagnitude true (scalar c :: rest) := by
  have other {d : Char} (mark : d.isDigit = false) : c ≠ d := by
    rintro rfl
    rw [digit] at mark
    cases mark
  have word : readWord (scalar c :: rest) = none := by
    simp [readWord, words, other (d := 'n') rfl, other (d := 't') rfl, other (d := 'f') rfl, other (d := 'N') rfl,
      other (d := 'I') rfl, other (d := '-') rfl]
  have signedWord : readWord (scalar '-' :: scalar c :: rest) = none := by
    simp [readWord, words, other (d := 'I') rfl]
  constructor
  · simp [readWith, readNumber, word, other (d := '"') rfl, other (d := '{') rfl, other (d := '[') rfl,
      other (d := '-') rfl]
  · simp [readWith, readNumber, signedWord]

theorem readWith_toDigits (inner : Option (Text → Reading JsonValue)) (value : Nat)
    (short : (Nat.toDigits 10 value).length ≤ Integers.maxDigits) {rest : Text} (follows : Follows rest) :
    readWith inner ((Nat.toDigits 10 value).map scalar ++ rest) = .ok (.integer value, rest) ∧
      readWith inner (scalar '-' :: ((Nat.toDigits 10 value).map scalar ++ rest)) = .ok (.integer (-value), rest) := by
  have plus := readMagnitude_toDigits false value follows
  have minus := readMagnitude_toDigits true value follows
  rw [if_pos short] at plus minus
  cases spelled : Nat.toDigits 10 value with
  | nil => exact absurd spelled Nat.toDigits_ne_nil
  | cons c digits =>
    have digit : c.isDigit = true :=
      Nat.isDigit_of_mem_toDigits (by decide) (by decide) (spelled ▸ List.mem_cons_self)
    rw [spelled] at plus minus
    rw [List.map_cons, List.cons_append] at plus minus ⊢
    obtain ⟨positive, negative⟩ := readWith_digit inner digit (digits.map scalar ++ rest)
    exact ⟨positive.trans plus, negative.trans minus⟩

theorem toList_integer (value : Int) :
    ((toString value).toList = Nat.toDigits 10 value.natAbs ∧ (value.natAbs : Int) = value) ∨
      ((toString value).toList = '-' :: Nat.toDigits 10 value.natAbs ∧ -(value.natAbs : Int) = value) := by
  cases value with
  | ofNat value => exact .inl ⟨Nat.toList_repr, rfl⟩
  | negSucc value =>
    refine .inr ⟨?_, rfl⟩
    change ("-" ++ Nat.repr (value + 1)).toList = _
    rw [String.toList_append, Nat.toList_repr]
    rfl

/-! ## Reading an object back -/

def Plain.Unpaired : Plain → Prop
  | .text value => JsonValue.Unpaired value
  | .integer _ => True

theorem Plain.write_integer {value : Int} {written : List Char} (writes : (Plain.integer value).write = some written) :
    Integers.digitCount value ≤ Integers.maxDigits ∧ written = (toString value).toList := by
  rw [Plain.write] at writes
  split at writes
  next short => exact ⟨short, (Option.some.inj writes).symm⟩
  next => cases writes

theorem skipBlanks_cons {point : CodePoint} (mark : isBlank point = false) (rest : Text) :
    skipBlanks (point :: rest) = point :: rest := by
  simp [skipBlanks, mark]

section
variable {plain : Plain} {written : List Char} (writes : plain.write = some written)
include writes

theorem readValue_plain (nesting : Nat) (unpaired : plain.Unpaired) {rest : Text} (follows : Follows rest) :
    readValue nesting (written.map scalar ++ rest) = .ok (plain.value, rest) := by
  obtain ⟨inner, unfolded⟩ : ∃ inner, readValue nesting = readWith inner := by
    cases nesting with
    | zero => exact ⟨none, rfl⟩
    | succ nesting => exact ⟨_, rfl⟩
  rw [unfolded]
  cases plain with
  | text value =>
    cases writes
    have read := readString_quotedText unpaired rest
    simp only [quotedText, List.map_cons, List.map_append, List.map_nil, List.cons_append, List.append_assoc,
      List.nil_append, readWith, List.head?_cons, if_true, List.tail_cons, read]
    rfl
  | integer value =>
    obtain ⟨short, rfl⟩ := Plain.write_integer writes
    obtain ⟨positive, negative⟩ := readWith_toDigits inner value.natAbs short follows
    rcases toList_integer value with ⟨text, same⟩ | ⟨text, same⟩
    · rw [text, positive, same, Plain.value]
    · rw [text, List.map_cons, List.cons_append, negative, same, Plain.value]

theorem skipBlanks_write (rest : Text) : skipBlanks (written.map scalar ++ rest) = written.map scalar ++ rest := by
  have numeral (value : Nat) : skipBlanks ((Nat.toDigits 10 value).map scalar ++ rest) =
      (Nat.toDigits 10 value).map scalar ++ rest := by
    cases spelled : Nat.toDigits 10 value with
    | nil => exact absurd spelled Nat.toDigits_ne_nil
    | cons c digits =>
      have digit : c.isDigit = true :=
        Nat.isDigit_of_mem_toDigits (by decide) (by decide) (spelled ▸ List.mem_cons_self)
      apply skipBlanks_cons
      simp only [isBlank, Bool.or_eq_false_iff, decide_eq_false_iff_not, scalar.injEq]
      refine ⟨⟨⟨?_, ?_⟩, ?_⟩, ?_⟩
      all_goals
        rintro rfl
        exact absurd digit (by decide)
  cases plain with
  | text value =>
    cases writes
    exact skipBlanks_cons rfl _
  | integer value =>
    obtain ⟨short, rfl⟩ := Plain.write_integer writes
    rcases toList_integer value with ⟨text, -⟩ | ⟨text, -⟩
    · rw [text, numeral]
    · rw [text, List.map_cons, List.cons_append]
      exact skipBlanks_cons rfl _

theorem entryPiece_write (nesting : Nat) {key : Text} (unpaired : Unpaired key ∧ plain.Unpaired) {rest : Text}
    (follows : Follows rest) :
    entryPiece (readValue nesting) ((quotedText key ++ ':' :: written).map scalar ++ rest) =
      closing '}' (key, plain.value) rest := by
  have ok_bind {A B : Type} (value : A) (after : A → Except Refusal B) : (Except.ok value >>= after) = after value := rfl
  have named := readString_quotedText unpaired.1 (.scalar ':' :: (written.map scalar ++ rest))
  have colon : skipBlanks (.scalar ':' :: (written.map scalar ++ rest)) = .scalar ':' :: (written.map scalar ++ rest) :=
    skipBlanks_cons rfl _
  have value := readValue_plain writes nesting unpaired.2 follows
  simp only [quotedText, List.map_cons, List.map_append, List.cons_append, List.append_assoc,
    List.nil_append, entryPiece, List.head?_cons, if_true, List.tail_cons, named, ok_bind, colon,
    skipBlanks_write writes, value]

end

theorem writeEntries_quote {entry : Text × Plain} {rest : List (Text × Plain)} {text : List Char}
    (writes : writeEntries (entry :: rest) = some text) : ∃ tail, text = '"' :: tail := by
  cases rest with
  | nil =>
    obtain ⟨value, -, rfl⟩ := Option.map_eq_some_iff.mp writes
    exact ⟨_, rfl⟩
  | cons next rest =>
    obtain ⟨value, -, writes⟩ := Option.bind_eq_some_iff.mp writes
    obtain ⟨others, -, rfl⟩ := Option.map_eq_some_iff.mp writes
    exact ⟨_, rfl⟩

theorem closing_comma {A : Type} (close : Char) (item : A) (rest : Text) :
    closing close item (.scalar ',' :: rest) = .ok ⟨[item], true, skipBlanks rest⟩ := by
  simp only [closing, skipBlanks_cons (show isBlank (.scalar ',') = false from rfl), List.head?_cons, if_true,
    List.tail_cons]

theorem collectAll_writeEntries (nesting : Nat) {entries : List (Text × Plain)} {text : List Char} (proper : entries ≠ [])
    (unpaired : ∀ entry ∈ entries, Unpaired entry.1 ∧ entry.2.Unpaired) (writes : writeEntries entries = some text) :
    collectAll (entryPiece (readValue nesting)) (text.map scalar) =
      .ok (entries.map fun entry => (entry.1, entry.2.value), []) := by
  have consumes := entryPiece_consumes (readValue_takes nesting)
  induction entries using writeEntries.induct generalizing text with
  | case1 => exact absurd rfl proper
  | case2 entry =>
    obtain ⟨written, first, rfl⟩ := Option.map_eq_some_iff.mp writes
    have last : Follows [.scalar '}'] := .inr rfl
    have piece := entryPiece_write first nesting (unpaired entry List.mem_cons_self) last
    have split : (quotedText entry.1 ++ ':' :: (written ++ ['}'])).map scalar =
        (quotedText entry.1 ++ ':' :: written).map scalar ++ [.scalar '}'] := by simp
    rw [split, collectAll_eq consumes, piece]
    rfl
  | case3 entry next rest ih =>
    obtain ⟨written, first, writes⟩ := Option.bind_eq_some_iff.mp writes
    obtain ⟨others, second, rfl⟩ := Option.map_eq_some_iff.mp writes
    have comma : Follows (.scalar ',' :: others.map scalar) := .inl rfl
    have piece := entryPiece_write first nesting (unpaired entry List.mem_cons_self) comma
    have later := ih (by exact nofun) (fun entry member => unpaired entry (List.mem_cons_of_mem _ member)) second
    have split : (quotedText entry.1 ++ ':' :: (written ++ ',' :: others)).map scalar =
        (quotedText entry.1 ++ ':' :: written).map scalar ++ .scalar ',' :: others.map scalar := by simp
    have start : skipBlanks (others.map scalar) = others.map scalar := by
      obtain ⟨tail, rfl⟩ := writeEntries_quote second
      exact skipBlanks_cons (show isBlank (scalar '"') = false from rfl) _
    rw [split, collectAll_eq consumes, piece, closing_comma, start]
    simp only [if_true, later]
    rfl

theorem loads_dumps (nesting : Nat) {entries : List (Text × Plain)} {text : Text}
    (unpaired : ∀ entry ∈ entries, Unpaired entry.1 ∧ entry.2.Unpaired) (written : dumps entries = some text) :
    loads (nesting + 1) text = .ok (.object (entries.map fun entry => (entry.1, entry.2.value))) := by
  obtain ⟨inside, writes, rfl⟩ := Option.map_eq_some_iff.mp written
  have contents : readContainer '}' (entryPiece (readValue nesting)) (inside.map scalar) =
      .ok (entries.map fun entry => (entry.1, entry.2.value), []) := by
    cases entries with
    | nil =>
      cases writes
      rfl
    | cons entry rest =>
      have items := collectAll_writeEntries nesting (by exact nofun) unpaired writes
      obtain ⟨tail, rfl⟩ := writeEntries_quote writes
      exact items
  have whole : readValue (nesting + 1) (('{' :: inside).map scalar) =
      .ok (.object (entries.map fun entry => (entry.1, entry.2.value)), []) := by
    change (readContainer '}' (entryPiece (readValue nesting)) (inside.map scalar)).map _ = _
    rw [contents]
    rfl
  have start : skipBlanks (('{' :: inside).map scalar) = ('{' :: inside).map scalar := skipBlanks_cons rfl _
  rw [loads, start, whole]
  rfl

/-! ## What was read can be written -/

theorem takeDigits_plain (text : Text) : ∀ c ∈ (takeDigits text).1, c.isDigit = true := by
  have none : ∀ c ∈ ([] : List Char), c.isDigit = true := List.forall_mem_nil _
  induction text with
  | nil => exact none
  | cons point rest ih =>
    cases point with
    | surrogate half => exact none
    | scalar c =>
      rw [takeDigits]
      split
      next digit => exact List.forall_mem_cons.mpr ⟨digit, ih⟩
      next => exact none

theorem readWhole_plain (text : Text) : ∀ c ∈ (readWhole text).1, c.isDigit = true := by
  rw [readWhole]
  split
  next =>
    intro c member
    obtain rfl := List.mem_singleton.mp member
    rfl
  next => exact takeDigits_plain text

theorem ofDigitChars_lt {digits : List Char} (plain : ∀ c ∈ digits, c.isDigit = true) :
    Nat.ofDigitChars 10 digits 0 < 10 ^ digits.length := by
  have small : ∀ digit ∈ digits.map fun c => c.toNat - '0'.toNat, digit < 10 := by
    intro digit member
    obtain ⟨c, inside, rfl⟩ := List.mem_map.mp member
    exact Integers.asciiDecimals.small c _ (Integers.asciiDecimals.ascii c (plain c inside))
  have below := Integers.foldl_lt small 0
  rwa [List.foldl_map, List.length_map, Nat.zero_add, Nat.one_mul] at below

theorem readNumber_integer {text : Text} {value : Int} {rest : Text} (read : readNumber text = .ok (.integer value, rest)) :
    Integers.digitCount value ≤ Integers.maxDigits := by
  have magnitude {negative : Bool} {text : Text} (read : readMagnitude negative text = .ok (.integer value, rest)) :
      Integers.digitCount value ≤ Integers.maxDigits := by
    have below := ofDigitChars_lt (readWhole_plain text)
    simp only [readMagnitude] at read
    split_ifs at read with none plain few
    · cases read
      apply Integers.digitCount_le (by decide)
      have size : (signed negative (Nat.ofDigitChars 10 (readWhole text).1 0)).natAbs =
          Nat.ofDigitChars 10 (readWhole text).1 0 := by cases negative <;> simp [signed]
      rw [size]
      exact Nat.lt_of_lt_of_le below (Nat.pow_le_pow_right (by decide) few)
    · cases read
  rw [readNumber] at read
  split at read
  · exact magnitude read
  · exact magnitude read

theorem readNumber_not_object {text : Text} {entries : List (Text × JsonValue)} {rest : Text} :
    readNumber text ≠ .ok (.object entries, rest) := by
  have magnitude (negative : Bool) (text : Text) : readMagnitude negative text ≠ .ok (.object entries, rest) := by
    simp only [readMagnitude]
    split_ifs
    all_goals
      intro same
      cases same
  rw [readNumber]
  split_ifs <;> exact magnitude _ _

theorem readWord_mem {text : Text} {found : JsonValue × Text} (read : readWord text = some found) :
    ∃ word ∈ words, word.2 = found.1 := by
  obtain ⟨word, member, taken⟩ := List.exists_of_findSome?_eq_some read
  split at taken
  next => exact ⟨word, member, congrArg Prod.fst (Option.some.inj taken)⟩
  next => cases taken

theorem readWord_not {text rest : Text} : (∀ value, readWord text ≠ some (.integer value, rest)) ∧
    ∀ entries, readWord text ≠ some (.object entries, rest) := by
  constructor
  all_goals
    intro value read
    obtain ⟨word, member, same⟩ := readWord_mem read
    simp only [words, List.mem_cons, List.not_mem_nil, or_false] at member
    rcases member with rfl | rfl | rfl | rfl | rfl | rfl <;> cases same

theorem readWith_integer {inner : Option (Text → Reading JsonValue)} {text : Text} {value : Int} {rest : Text}
    (read : readWith inner text = .ok (.integer value, rest)) : Integers.digitCount value ≤ Integers.maxDigits := by
  rw [readWith] at read
  split_ifs at read with quote brace bracket
  · obtain ⟨_, -, same⟩ := map_eq_ok read
    cases same
  · obtain ⟨_, -, read⟩ := opened_ok read
    obtain ⟨_, -, same⟩ := map_eq_ok read
    cases same
  · obtain ⟨_, -, read⟩ := opened_ok read
    obtain ⟨_, -, same⟩ := map_eq_ok read
    cases same
  · split at read
    next word => exact absurd (Except.ok.inj read ▸ word) (readWord_not.1 _)
    next => exact readNumber_integer read

theorem readValue_integer {nesting : Nat} {text : Text} {value : Int} {rest : Text}
    (read : readValue nesting text = .ok (.integer value, rest)) : Integers.digitCount value ≤ Integers.maxDigits := by
  cases nesting <;> exact readWith_integer read

theorem collect_forall {A : Type} {step : Text → Except Refusal (Piece A)} {P : A → Prop}
    (each : ∀ text piece, step text = .ok piece → ∀ item ∈ piece.items, P item) {fuel : Nat} {text : Text}
    {found : List A × Text} (read : collect step fuel text = .ok found) : ∀ item ∈ found.1, P item := by
  induction fuel generalizing text found with
  | zero => cases read
  | succ fuel ih =>
    rw [collect] at read
    cases taken : step text with
    | error refusal =>
      rw [taken] at read
      cases read
    | ok piece =>
      have here := each text piece taken
      simp only [taken] at read
      split at read
      next =>
        obtain ⟨others, later, rfl⟩ := map_eq_ok read
        intro item member
        rcases List.mem_append.mp member with inside | after
        · exact here item inside
        · exact ih later item after
      next =>
        cases read
        exact here

theorem closing_items {A : Type} {close : Char} {item : A} {text : Text} {piece : Piece A}
    (done : closing close item text = .ok piece) : piece.items = [item] := by
  simp only [closing] at done
  split_ifs at done <;> cases done <;> rfl

theorem entryPiece_items {read : Text → Reading JsonValue} {text : Text} {piece : Piece (Text × JsonValue)}
    (done : entryPiece read text = .ok piece) :
    ∀ entry ∈ piece.items, ∃ start rest, read start = .ok (entry.2, rest) := by
  by_cases quote : text.head? = some (.scalar '"')
  · rw [entryPiece, if_pos quote] at done
    obtain ⟨key, -, done⟩ := bind_eq_ok done
    by_cases colon : (skipBlanks key.2).head? = some (.scalar ':')
    · simp only [if_pos colon] at done
      obtain ⟨value, found, after⟩ := bind_eq_ok done
      rw [closing_items after]
      intro entry member
      obtain rfl := List.mem_singleton.mp member
      exact ⟨_, _, found⟩
    · simp only [if_neg colon] at done
      cases done
  · rw [entryPiece, if_neg quote] at done
    cases done

theorem readValue_object {nesting : Nat} {text : Text} {entries : List (Text × JsonValue)} {rest : Text}
    (read : readValue nesting text = .ok (.object entries, rest)) :
    ∃ level, nesting = level + 1 ∧ ∀ entry ∈ entries, ∃ start rest, readValue level start = .ok (entry.2, rest) := by
  obtain ⟨inner, unfolded, levels⟩ : ∃ inner, readValue nesting = readWith inner ∧
      ∀ read ∈ inner, ∃ level, nesting = level + 1 ∧ read = readValue level := by
    cases nesting with
    | zero =>
      refine ⟨none, rfl, ?_⟩
      intro read inside
      cases inside
    | succ nesting =>
      refine ⟨_, rfl, ?_⟩
      intro read same
      exact ⟨nesting, rfl, (Option.some.inj same).symm⟩
  rw [unfolded, readWith] at read
  split_ifs at read with quote brace bracket
  · obtain ⟨_, -, same⟩ := map_eq_ok read
    cases same
  · obtain ⟨within, inside, read⟩ := opened_ok read
    obtain ⟨found, contained, same⟩ := map_eq_ok read
    obtain ⟨level, above, rfl⟩ := levels within inside
    obtain rfl : found.1 = entries := JsonValue.object.inj (congrArg Prod.fst same)
    refine ⟨level, above, ?_⟩
    simp only [readContainer] at contained
    split at contained
    · cases contained
      exact List.forall_mem_nil _
    · exact collect_forall (fun text piece done => entryPiece_items done) contained
  · obtain ⟨_, -, read⟩ := opened_ok read
    obtain ⟨_, -, same⟩ := map_eq_ok read
    cases same
  · split at read
    next word => exact absurd (Except.ok.inj read ▸ word) (readWord_not.2 _)
    next => exact absurd read readNumber_not_object

theorem lookup_mem {key : Text} {value : JsonValue} {entries : List (Text × JsonValue)}
    (found : lookup key entries = some value) : ∃ entry ∈ entries, entry.2 = value := by
  induction entries with
  | nil => cases found
  | cons entry rest ih =>
    rw [lookup] at found
    cases later : lookup key rest with
    | some other =>
      rw [later] at found
      cases found
      obtain ⟨entry, member, same⟩ := ih later
      exact ⟨entry, List.mem_cons_of_mem _ member, same⟩
    | none =>
      rw [later] at found
      change (if entry.1 = key then some entry.2 else none) = some value at found
      split at found
      · exact ⟨entry, List.mem_cons_self, Option.some.inj found⟩
      · cases found

theorem loads_object {nesting : Nat} {text : Text} {entries : List (Text × JsonValue)}
    (read : loads nesting text = .ok (.object entries)) :
    ∃ level, nesting = level + 1 ∧ ∀ entry ∈ entries, ∃ start rest, readValue level start = .ok (entry.2, rest) := by
  obtain ⟨⟨data, rest⟩, read, same⟩ := bind_eq_ok read
  obtain rfl : data = .object entries := by
    by_cases ended : skipBlanks rest = []
    · simp only [if_pos ended] at same
      exact Except.ok.inj same
    · simp only [if_neg ended] at same
      cases same
  exact readValue_object read

theorem loads_integer {nesting : Nat} {text key : Text} {entries : List (Text × JsonValue)} {value : Int}
    (read : loads nesting text = .ok (.object entries)) (found : lookup key entries = some (.integer value)) :
    Integers.digitCount value ≤ Integers.maxDigits := by
  obtain ⟨level, -, values⟩ := loads_object read
  obtain ⟨entry, member, same⟩ := lookup_mem found
  obtain ⟨start, after, read⟩ := values entry member
  rw [same] at read
  exact readValue_integer read

end JsonValue
