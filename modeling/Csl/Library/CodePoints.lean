import Csl.Library.Json
import Csl.Library.Utf8

/-! Texts whose elements may be surrogates, and the encodings they are read from.

A surrogate on its own is no character but may stand in a text. The reading of bytes takes
encoded surrogates where it is told to, one at a time.
-/

set_option autoImplicit false

/-- An element of a text. -/
inductive CodePoint where
  | scalar (c : Char)
  | surrogate (half : Fin 0x800)
  deriving DecidableEq

abbrev Text := List CodePoint

namespace CodePoint
open Json (isHighSurrogate isLowSurrogate)

def ofString (text : String) : Text := text.toList.map scalar

def characters : Text → Option (List Char)
  | [] => some []
  | .scalar c :: rest => (characters rest).map (c :: ·)
  | .surrogate _ :: _ => none

def toNat : CodePoint → Nat
  | .scalar c => c.toNat
  | .surrogate half => 0xD800 + half.val

/-- The element of a number, which is a surrogate where no character has it. -/
def ofNat (code : Nat) : CodePoint :=
  if inside : 0xD800 ≤ code ∧ code < 0xE000 then .surrogate ⟨code - 0xD800, by omega⟩
  else .scalar (Char.ofNat code)

def join (high low : Nat) : CodePoint :=
  ofNat (0x10000 + (high - 0xD800) * 0x400 + (low - 0xDC00))

theorem ofNat_toNat (point : CodePoint) : ofNat point.toNat = point := by
  cases point with
  | scalar c =>
    have outside : ¬ (0xD800 ≤ c.toNat ∧ c.toNat < 0xE000) := by
      rcases c.valid with small | ⟨large, _⟩
      · exact fun inside => Nat.not_lt.mpr inside.1 small
      · exact fun inside => Nat.not_lt.mpr (Nat.le_of_lt_succ inside.2) large
    rw [toNat, ofNat, dif_neg outside, Char.ofNat_toNat]
  | surrogate half =>
    have inside : 0xD800 ≤ 0xD800 + half.val ∧ 0xD800 + half.val < 0xE000 := by omega
    simp only [toNat, ofNat, dif_pos inside, Nat.add_sub_cancel_left]

theorem toNat_lt (point : CodePoint) : point.toNat < 0x110000 := by
  cases point with
  | scalar c =>
    rcases c.valid with small | ⟨_, large⟩
    · exact Nat.lt_trans small (by decide)
    · exact large
  | surrogate half =>
    rw [toNat]
    omega

/-- The surrogates that a character above the first plane is written as. -/
def highOf (code : Nat) : Nat := 0xD800 + (code - 0x10000) / 0x400

def lowOf (code : Nat) : Nat := 0xDC00 + (code - 0x10000) % 0x400

theorem join_split (point : CodePoint) (large : 0x10000 ≤ point.toNat) :
    join (highOf point.toNat) (lowOf point.toNat) = point := by
  have bound := point.toNat_lt
  have whole : 0x10000 + (highOf point.toNat - 0xD800) * 0x400 + (lowOf point.toNat - 0xDC00) = point.toNat := by
    rw [highOf, lowOf]
    omega
  rw [join, whole, ofNat_toNat]

theorem isHighSurrogate_highOf {code : Nat} (bound : code < 0x110000) : isHighSurrogate (highOf code) = true := by
  have below : 0xD800 + (code - 0x10000) / 0x400 < 0xDC00 := by omega
  simp [isHighSurrogate, highOf, below]

theorem isLowSurrogate_lowOf (code : Nat) : isLowSurrogate (lowOf code) = true := by
  have below : 0xDC00 + (code - 0x10000) % 0x400 < 0xE000 := by omega
  simp [isLowSurrogate, lowOf, below]

/-! ## Bytes -/

/-- `text.encode()`: a surrogate has no encoding. -/
def encodeUtf8 : Text → Option (List UInt8)
  | [] => some []
  | .scalar c :: rest => (encodeUtf8 rest).map (String.utf8EncodeChar c ++ ·)
  | .surrogate _ :: _ => none

inductive Errors where
  | strict
  | surrogatepass
  deriving DecidableEq

/-- The surrogate whose three bytes a text begins with. -/
def passed : List UInt8 → Option CodePoint
  | first :: second :: third :: _ =>
    if first = 0xED ∧ 0xA0 ≤ second ∧ second ≤ 0xBF ∧ 0x80 ≤ third ∧ third ≤ 0xBF then
      some (ofNat (0xD000 + (second.toNat - 0x80) * 0x40 + (third.toNat - 0x80)))
    else none
  | _ => none

/-- Reading goes on after the bytes that the last element took. -/
def decodeUtf8From (errors : Errors) : (skip : Nat) → List UInt8 → Option Text
  | _, [] => some []
  | skip + 1, _ :: rest => decodeUtf8From errors skip rest
  | 0, byte :: rest =>
    match (byte :: rest).toByteArray.utf8DecodeChar? 0 with
    | some c => (decodeUtf8From errors (c.utf8Size - 1) rest).map (.scalar c :: ·)
    | none =>
      match errors, passed (byte :: rest) with
      | .surrogatepass, some half => (decodeUtf8From errors 2 rest).map (half :: ·)
      | _, _ => none

/-- `bytes.decode("utf-8", errors)` -/
def decodeUtf8 (errors : Errors) (bytes : List UInt8) : Option Text := decodeUtf8From errors 0 bytes

inductive Endian where
  | little
  | big

def Endian.number (endian : Endian) (bytes : List UInt8) : Nat :=
  match endian with
  | .little => bytes.foldr (fun byte number => byte.toNat + 0x100 * number) 0
  | .big => bytes.foldl (fun number byte => 0x100 * number + byte.toNat) 0

def units16 (endian : Endian) : List UInt8 → Option (List Nat)
  | [] => some []
  | [_] => none
  | a :: b :: rest => (units16 endian rest).map (endian.number [a, b] :: ·)

def joinUnits : List Nat → Text
  | [] => []
  | [unit] => [ofNat unit]
  | first :: second :: rest =>
    if isHighSurrogate first && isLowSurrogate second then join first second :: joinUnits rest
    else ofNat first :: joinUnits (second :: rest)

/-- `bytes.decode("utf-16-le", "surrogatepass")`, or that of the other byte order -/
def decodeUtf16 (endian : Endian) (bytes : List UInt8) : Option Text := (units16 endian bytes).map joinUnits

def decodeUtf32 (endian : Endian) : List UInt8 → Option Text
  | [] => some []
  | a :: b :: c :: d :: rest =>
    let code := endian.number [a, b, c, d]
    if code < 0x110000 then (decodeUtf32 endian rest).map (ofNat code :: ·) else none
  | _ => none

/-! ## Encoded text is read back -/

theorem decodeUtf8From_append (errors : Errors) (skipped bytes : List UInt8) :
    decodeUtf8From errors skipped.length (skipped ++ bytes) = decodeUtf8From errors 0 bytes := by
  induction skipped with
  | nil => rfl
  | cons byte rest ih =>
    rw [List.length_cons, List.cons_append, decodeUtf8From]
    exact ih

theorem decodeUtf8_scalar (errors : Errors) (c : Char) (bytes : List UInt8) :
    decodeUtf8 errors (String.utf8EncodeChar c ++ bytes) = (decodeUtf8 errors bytes).map (.scalar c :: ·) := by
  have size : (String.utf8EncodeChar c).length = c.utf8Size := String.length_utf8EncodeChar c
  have found : (String.utf8EncodeChar c ++ bytes).toByteArray.utf8DecodeChar? 0 = some c := by
    rw [List.toByteArray_append]
    exact ByteArray.utf8DecodeChar?_utf8EncodeChar_append
  cases spelled : String.utf8EncodeChar c with
  | nil =>
    rw [spelled] at size
    exact absurd size.symm (Nat.ne_of_gt c.utf8Size_pos)
  | cons byte others =>
    rw [spelled] at size found
    rw [List.cons_append] at found ⊢
    have left : c.utf8Size - 1 = others.length := by
      rw [← size, List.length_cons]
      omega
    simp only [decodeUtf8, decodeUtf8From, found, left, decodeUtf8From_append]

theorem decode_encode (errors : Errors) {text : Text} {bytes : List UInt8} (encoded : encodeUtf8 text = some bytes) :
    decodeUtf8 errors bytes = some text := by
  induction text generalizing bytes with
  | nil =>
    cases encoded
    rfl
  | cons point rest ih =>
    cases point with
    | surrogate half => cases encoded
    | scalar c =>
      obtain ⟨later, encodes, rfl⟩ := Option.map_eq_some_iff.mp encoded
      rw [decodeUtf8_scalar, ih encodes, Option.map_some]

theorem encodeUtf8_scalars (text : List Char) :
    encodeUtf8 (text.map scalar) = some (text.flatMap String.utf8EncodeChar) := by
  induction text with
  | nil => rfl
  | cons c rest ih => rw [List.map_cons, encodeUtf8, ih, Option.map_some, List.flatMap_cons]

end CodePoint
