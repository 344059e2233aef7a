import Mathlib.Data.List.Basic
import Mathlib.Tactic.Common

/-! UTF-8 read with replacement characters.

Bytes that no character begins with become U+FFFD, one for every longest start of a
character, and the rest is read on. Encoded text is read back as itself.
-/

set_option autoImplicit false

namespace Utf8

def encode (text : List Char) : List UInt8 := text.flatMap String.utf8EncodeChar

/-- The second bytes that may follow a first byte of three or four. -/
def maySecond (first second : UInt8) : Bool :=
  if first = 0xE0 then 0xA0 ≤ second && second ≤ 0xBF
  else if first = 0xED then 0x80 ≤ second && second ≤ 0x9F
  else if first = 0xF0 then 0x90 ≤ second && second ≤ 0xBF
  else if first = 0xF4 then 0x80 ≤ second && second ≤ 0x8F
  else 0x80 ≤ second && second ≤ 0xBF

/-- How many bytes the replacement character stands for where no character begins. -/
def brokenLength : List UInt8 → Nat
  | first :: second :: rest =>
    if 0xE0 ≤ first && first ≤ 0xF4 && maySecond first second then
      match rest with
      | third :: _ => if 0xF0 ≤ first && 0x80 ≤ third && third ≤ 0xBF then 3 else 2
      | [] => 2
    else 1
  | _ => 1

def decodeFrom : (skip : Nat) → List UInt8 → List Char
  | _, [] => []
  | skip + 1, _ :: rest => decodeFrom skip rest
  | 0, byte :: rest =>
    match (byte :: rest).toByteArray.utf8DecodeChar? 0 with
    | some c => c :: decodeFrom (c.utf8Size - 1) rest
    | none => '\uFFFD' :: decodeFrom (brokenLength (byte :: rest) - 1) rest

/-- `bytes.decode("utf-8", errors="replace")` -/
def decode (bytes : List UInt8) : List Char := decodeFrom 0 bytes

@[simp] theorem encode_nil : encode [] = [] := rfl

@[simp] theorem encode_cons (c : Char) (text : List Char) :
    encode (c :: text) = String.utf8EncodeChar c ++ encode text := rfl

@[simp] theorem encode_append (before after : List Char) :
    encode (before ++ after) = encode before ++ encode after := List.flatMap_append

theorem decodeFrom_append (skipped bytes : List UInt8) :
    decodeFrom skipped.length (skipped ++ bytes) = decodeFrom 0 bytes := by
  induction skipped with
  | nil => rfl
  | cons byte rest ih =>
    rw [List.length_cons, List.cons_append, decodeFrom]
    exact ih

theorem decode_encode (text : List Char) : decode (encode text) = text := by
  induction text with
  | nil => rfl
  | cons c rest ih =>
    have size : (String.utf8EncodeChar c).length = c.utf8Size := String.length_utf8EncodeChar c
    have found : (String.utf8EncodeChar c ++ encode rest).toByteArray.utf8DecodeChar? 0 = some c := by
      rw [List.toByteArray_append]
      exact ByteArray.utf8DecodeChar?_utf8EncodeChar_append
    rw [encode_cons, decode]
    cases bytes : String.utf8EncodeChar c with
    | nil =>
      rw [bytes] at size
      exact absurd size.symm (Nat.ne_of_gt c.utf8Size_pos)
    | cons byte others =>
      rw [bytes] at size found
      rw [List.cons_append] at found ⊢
      rw [decodeFrom, found]
      dsimp only
      have left : c.utf8Size - 1 = others.length := by
        rw [← size, List.length_cons]
        omega
      rw [left, decodeFrom_append]
      exact congrArg (c :: ·) ih

/-- A byte below 0x80 stands for the character of that number and for no part of another. -/
theorem ascii_of_mem {c : Char} {byte : UInt8} (ascii : byte.toNat < 0x80)
    (member : byte ∈ String.utf8EncodeChar c) : c.toNat = byte.toNat := by
  have part (n : Nat) (high : 0x80 ≤ n) (below : n < 256) (same : byte = UInt8.ofNat n) : False := by
    rw [same, UInt8.toNat_ofNat'] at ascii
    omega
  rw [String.utf8EncodeChar] at member
  split_ifs at member with one two three
  · have same := List.mem_singleton.mp member
    have number : c.toNat < 256 := Nat.lt_of_le_of_lt one (by decide)
    rw [same, UInt8.toNat_ofNat']
    exact (Nat.mod_eq_of_lt number).symm
  all_goals
    simp only [List.mem_cons, List.not_mem_nil, or_false] at member
    exfalso
  · rcases member with same | same
    all_goals exact part _ (by omega) (by omega) same
  · rcases member with same | same | same
    all_goals exact part _ (by omega) (by omega) same
  · rcases member with same | same | same | same
    all_goals exact part _ (by omega) (by omega) same

theorem newline_not_mem_encode {text : List Char} (plain : '\n' ∉ text) : (10 : UInt8) ∉ encode text := by
  intro member
  obtain ⟨c, inside, byte⟩ := List.mem_flatMap.mp member
  have same : c = '\n' := Char.toNat_inj.mp (ascii_of_mem (by decide) byte)
  exact plain (same ▸ inside)

/-- A character that was cut short is one replacement, and what follows it is read on. -/
example : decode [0x61, 0xE2, 0x82, 0x62, 0xFF] = ['a', '\uFFFD', 'b', '\uFFFD'] := by decide +kernel

end Utf8
