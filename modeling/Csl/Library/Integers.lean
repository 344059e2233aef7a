import Csl.Library.Whitespace
import Mathlib.Algebra.Group.Nat.Defs
import Mathlib.Data.Int.Notation

/-! `int` of a text.

The digits of a numeral may be of any script, and single underscores may stand between them. A
numeral of too many digits is refused.
-/

set_option autoImplicit false

namespace Integers

def maxDigits : Nat := 4300

/-- The decimal digits that characters are in the Unicode database. -/
structure Decimals where
  digit : Char → Option Nat
  ascii : ∀ c, c.isDigit = true → digit c = some (c.toNat - '0'.toNat)
  small : ∀ c value, digit c = some value → value < 10

def asciiDecimals : Decimals where
  digit c := if c.isDigit then some (c.toNat - '0'.toNat) else none
  ascii _ digit := if_pos digit
  small c value read := by
    by_cases digit : c.isDigit = true
    · rw [if_pos digit] at read
      simp only [Char.isDigit, Bool.and_eq_true, decide_eq_true_eq] at digit
      have high : c.toNat ≤ 57 := digit.2
      cases read
      change c.toNat - 48 < 10
      omega
    · rw [if_neg digit] at read
      cases read

variable (decimals : Decimals)

def digits : List Char → Option (List Nat)
  | [] => none
  | c :: '_' :: rest => do return (← decimals.digit c) :: (← digits rest)
  | [c] => do return [← decimals.digit c]
  | c :: rest => do return (← decimals.digit c) :: (← digits rest)

def magnitude (text : List Char) : Option Nat := do
  let found ← digits decimals text
  if found.length ≤ maxDigits then some (found.foldl (fun sofar digit => 10 * sofar + digit) 0)
  else none

/-- The blanks that may stand around a numeral. The separators U+001C to U+001F are none of them. -/
def isSpace (c : Char) : Bool := Whitespace.isSpace c && !(28 ≤ c.toNat && c.toNat ≤ 31)

def strip (text : List Char) : List Char := ((text.dropWhile isSpace).reverse.dropWhile isSpace).reverse

/-- `int(text)`, or none where it raises ValueError. -/
def ofText (text : String) : Option Int :=
  match strip text.toList with
  | '-' :: rest => (magnitude decimals rest).map fun (value : Nat) => -(value : Int)
  | '+' :: rest => (magnitude decimals rest).map fun (value : Nat) => (value : Int)
  | rest => (magnitude decimals rest).map fun (value : Nat) => (value : Int)

/-! ## The text of an integer -/

variable {decimals}

theorem digits_plain {text : List Char} (plain : ∀ c ∈ text, c.isDigit = true) (proper : text ≠ []) :
    digits decimals text = some (text.map fun c => c.toNat - '0'.toNat) := by
  induction text with
  | nil => exact absurd rfl proper
  | cons c rest ih =>
    have first := decimals.ascii c (plain c List.mem_cons_self)
    cases rest with
    | nil => simp [digits, first]
    | cons next rest =>
      have later : ∀ c ∈ next :: rest, c.isDigit = true := fun c member => plain c (List.mem_cons_of_mem _ member)
      have notUnderscore : next ≠ '_' := by
        rintro rfl
        exact absurd (later '_' List.mem_cons_self) (by decide)
      rw [digits]
      · simp [first, ih later nofun]
      · exact fun rest same => notUnderscore (List.cons.inj same).1
      · nofun

theorem magnitude_repr (value : Nat) :
    magnitude decimals (Nat.toDigits 10 value) =
      if (Nat.toDigits 10 value).length ≤ maxDigits then some value else none := by
  have plain : ∀ c ∈ Nat.toDigits 10 value, c.isDigit = true :=
    fun c member => Nat.isDigit_of_mem_toDigits (by decide) (by decide) member
  have read : ((Nat.toDigits 10 value).map fun c => c.toNat - '0'.toNat).foldl
      (fun sofar digit => 10 * sofar + digit) 0 = value := by
    rw [List.foldl_map]
    exact Nat.ofDigitChars_toDigits (by decide) (by decide)
  rw [magnitude, digits_plain plain Nat.toDigits_ne_nil]
  simp only [Option.bind_eq_bind, Option.bind_some, List.length_map, read]

theorem not_isSpace_digit {c : Char} (digit : c.isDigit = true) : isSpace c = false := by
  obtain ⟨low, high⟩ : 48 ≤ c.toNat ∧ c.toNat ≤ 57 := by
    simp only [Char.isDigit, Bool.and_eq_true, decide_eq_true_eq] at digit
    exact digit
  apply Bool.and_eq_false_imp.mpr
  intro blank
  simp only [Whitespace.isSpace, Bool.or_eq_true, Bool.and_eq_true, decide_eq_true_eq] at blank
  omega

theorem strip_of_plain {text : List Char} (plain : ∀ c ∈ text, isSpace c = false) : strip text = text := by
  have kept {text : List Char} (plain : ∀ c ∈ text, isSpace c = false) : text.dropWhile isSpace = text := by
    cases text with
    | nil => rfl
    | cons c rest => exact List.dropWhile_cons_of_neg (by rw [plain c List.mem_cons_self]; nofun)
  rw [strip, kept plain, kept fun c member => plain c (List.mem_reverse.mp member), List.reverse_reverse]

def digitCount (value : Int) : Nat := (Nat.toDigits 10 value.natAbs).length

theorem ofText_toString (value : Int) :
    ofText decimals (toString value) = if digitCount value ≤ maxDigits then some value else none := by
  have plain (value : Nat) : ∀ c ∈ Nat.toDigits 10 value, c.isDigit = true :=
    fun c member => Nat.isDigit_of_mem_toDigits (by decide) (by decide) member
  cases value with
  | ofNat value =>
    have text : (toString (Int.ofNat value)).toList = Nat.toDigits 10 value := Nat.toList_repr
    have stripped := strip_of_plain fun c member => not_isSpace_digit (plain value c member)
    have count : digitCount (Int.ofNat value) = (Nat.toDigits 10 value).length := rfl
    rw [ofText, text, stripped, count]
    split
    next rest sign => exact absurd (plain value '-' (sign ▸ List.mem_cons_self)) (by decide)
    next rest sign => exact absurd (plain value '+' (sign ▸ List.mem_cons_self)) (by decide)
    next rest other =>
      rw [magnitude_repr]
      split <;> rfl
  | negSucc value =>
    have text : (toString (Int.negSucc value)).toList = '-' :: Nat.toDigits 10 (value + 1) := by
      change ("-" ++ Nat.repr (value + 1)).toList = _
      rw [String.toList_append, Nat.toList_repr]
      rfl
    have stripped : strip ('-' :: Nat.toDigits 10 (value + 1)) = '-' :: Nat.toDigits 10 (value + 1) := by
      apply strip_of_plain
      intro c member
      rcases List.mem_cons.mp member with rfl | digit
      · decide
      · exact not_isSpace_digit (plain (value + 1) c digit)
    have count : digitCount (Int.negSucc value) = (Nat.toDigits 10 (value + 1)).length := rfl
    rw [ofText, text, stripped, count]
    change (magnitude decimals (Nat.toDigits 10 (value + 1))).map _ = _
    rw [magnitude_repr]
    split <;> rfl

/-! ## What is converted has few digits -/

theorem digitCount_le {value : Int} {count : Nat} (positive : 0 < count) (bound : value.natAbs < 10 ^ count) :
    digitCount value ≤ count :=
  (Nat.length_toDigits_le_iff (by decide) positive).mpr bound

theorem digitCount_le_exponent {value : Int} (exponent : Nat) (positive : 0 < exponent)
    (bound : value.natAbs < 2 ^ exponent) : digitCount value ≤ exponent :=
  digitCount_le positive (Nat.lt_of_lt_of_le bound (Nat.pow_le_pow_left (by decide) exponent))

theorem digits_small {text : List Char} {found : List Nat} (read : digits decimals text = some found) :
    ∀ digit ∈ found, digit < 10 := by
  induction text using digits.induct generalizing found with
  | case1 => cases read
  | case2 c rest ih =>
    simp only [digits, Option.bind_eq_bind, Option.bind_eq_some_iff, Option.pure_def, Option.some.injEq] at read
    obtain ⟨first, head, later, tail, rfl⟩ := read
    exact List.forall_mem_cons.mpr ⟨decimals.small c first head, ih tail⟩
  | case3 c =>
    simp only [digits, Option.bind_eq_bind, Option.bind_eq_some_iff, Option.pure_def, Option.some.injEq] at read
    obtain ⟨first, head, rfl⟩ := read
    exact List.forall_mem_cons.mpr ⟨decimals.small c first head, nofun⟩
  | case4 c rest _ _ ih =>
    simp only [digits, Option.bind_eq_bind, Option.bind_eq_some_iff, Option.pure_def, Option.some.injEq] at read
    obtain ⟨first, head, later, tail, rfl⟩ := read
    exact List.forall_mem_cons.mpr ⟨decimals.small c first head, ih tail⟩

theorem foldl_lt {found : List Nat} (small : ∀ digit ∈ found, digit < 10) (sofar : Nat) :
    found.foldl (fun sofar digit => 10 * sofar + digit) sofar < (sofar + 1) * 10 ^ found.length := by
  induction found generalizing sofar with
  | nil => simp
  | cons digit rest ih =>
    have head := small digit List.mem_cons_self
    have tail := ih (fun digit member => small digit (List.mem_cons_of_mem _ member)) (10 * sofar + digit)
    have grown : (10 * sofar + digit + 1) * 10 ^ rest.length ≤ (sofar + 1) * 10 * 10 ^ rest.length :=
      Nat.mul_le_mul_right _ (by omega)
    rw [List.foldl_cons, List.length_cons, Nat.pow_succ, Nat.mul_comm (10 ^ rest.length), ← Nat.mul_assoc]
    exact Nat.lt_of_lt_of_le tail grown

theorem magnitude_lt {text : List Char} {value : Nat} (read : magnitude decimals text = some value) :
    value < 10 ^ maxDigits := by
  rw [magnitude] at read
  obtain ⟨found, parsed, read⟩ := Option.bind_eq_some_iff.mp read
  by_cases few : found.length ≤ maxDigits
  · rw [if_pos few] at read
    cases read
    have below := foldl_lt (digits_small parsed) 0
    rw [Nat.zero_add, Nat.one_mul] at below
    exact Nat.lt_of_lt_of_le below (Nat.pow_le_pow_right (by decide) few)
  · rw [if_neg few] at read
    cases read

theorem digitCount_ofText {text : String} {value : Int} (read : ofText decimals text = some value) :
    digitCount value ≤ maxDigits := by
  apply digitCount_le (by decide)
  rw [ofText] at read
  split at read
  next =>
    obtain ⟨magnitude, found, rfl⟩ := Option.map_eq_some_iff.mp read
    rw [Int.natAbs_neg, Int.natAbs_natCast]
    exact magnitude_lt found
  all_goals
    obtain ⟨magnitude, found, rfl⟩ := Option.map_eq_some_iff.mp read
    rw [Int.natAbs_natCast]
    exact magnitude_lt found

end Integers
