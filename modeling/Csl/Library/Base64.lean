import Mathlib.Data.List.Basic
import Mathlib.Tactic.Common

/-! Base64 with the standard alphabet, and its strict decoding.

The decoder takes symbol after symbol and holds the bits that are no whole byte yet. Padding
that comes after a whole group is passed by, but no symbol may come after padding.
-/

set_option autoImplicit false

namespace Base64

def pad : UInt8 := 0x3D

def symbol (sextet : Nat) : UInt8 :=
  if sextet < 26 then .ofNat (0x41 + sextet)
  else if sextet < 52 then .ofNat (0x61 + (sextet - 26))
  else if sextet < 62 then .ofNat (0x30 + (sextet - 52))
  else if sextet = 62 then 0x2B
  else 0x2F

def sextet (byte : UInt8) : Option Nat :=
  if 0x41 ≤ byte ∧ byte ≤ 0x5A then some (byte.toNat - 0x41)
  else if 0x61 ≤ byte ∧ byte ≤ 0x7A then some (byte.toNat - 0x61 + 26)
  else if 0x30 ≤ byte ∧ byte ≤ 0x39 then some (byte.toNat - 0x30 + 52)
  else if byte = 0x2B then some 62
  else if byte = 0x2F then some 63
  else none

/-- `base64.b64encode(bytes)` -/
def encode : List UInt8 → List UInt8
  | [] => []
  | [a] => [symbol (a.toNat / 4), symbol (a.toNat % 4 * 16), pad, pad]
  | [a, b] =>
    [symbol (a.toNat / 4), symbol (a.toNat % 4 * 16 + b.toNat / 16), symbol (b.toNat % 16 * 4), pad]
  | a :: b :: c :: rest =>
    symbol (a.toNat / 4) :: symbol (a.toNat % 4 * 16 + b.toNat / 16) ::
      symbol (b.toNat % 16 * 4 + c.toNat / 64) :: symbol (c.toNat % 64) :: encode rest

/-- The bits that were read of a byte not yet complete. -/
inductive Held where
  | nothing
  | six (bits : Nat)
  | four (bits : Nat)
  | two (bits : Nat)

def Held.symbols : Held → Nat
  | .nothing => 0
  | .six _ => 1
  | .four _ => 2
  | .two _ => 3

def Held.take (value : Nat) : Held → Held × List UInt8
  | .nothing => (.six value, [])
  | .six bits => (.four (value % 16), [.ofNat (bits * 4 + value / 16)])
  | .four bits => (.two (value % 4), [.ofNat (bits * 16 + value / 4)])
  | .two bits => (.nothing, [.ofNat (bits * 64 + value)])

def decodeFrom (held : Held) (pads : Nat) (padded : Bool) : List UInt8 → Option (List UInt8)
  | [] => if held.symbols = 0 then some [] else none
  | byte :: rest =>
    if byte = pad then
      -- Padding is counted from the second symbol of a group on; what completes the group ends the text.
      if held.symbols < 2 then decodeFrom held pads true rest
      else if held.symbols + (pads + 1) < 4 then decodeFrom held (pads + 1) true rest
      else if rest = [] then some []
      else none
    else do
      let value ← sextet byte
      if padded then none
      else
        let taken := held.take value
        return taken.2 ++ (← decodeFrom taken.1 0 false rest)

/-- `base64.b64decode(bytes, validate=True)`, or none where it raises -/
def decode (bytes : List UInt8) : Option (List UInt8) :=
  if bytes.head? = some pad then none else decodeFrom .nothing 0 false bytes

/-! ## Encoded bytes are decoded -/

theorem symbol_spec : ∀ value < 64,
    sextet (symbol value) = some value ∧ symbol value ≠ pad ∧ (symbol value).toNat < 128 := by
  decide +kernel

theorem decodeFrom_symbol (held : Held) (pads : Nat) {value : Nat} (small : value < 64) (rest : List UInt8) :
    decodeFrom held pads false (symbol value :: rest) =
      (decodeFrom (held.take value).1 0 false rest).map ((held.take value).2 ++ ·) := by
  obtain ⟨read, data, -⟩ := symbol_spec value small
  simp only [decodeFrom, if_neg data, read, Option.bind_eq_bind, Option.bind_some, Bool.false_eq_true, if_false]
  cases decodeFrom (held.take value).1 0 false rest <;> rfl

theorem decodeFrom_pads (bits : Nat) :
    decodeFrom (.four bits) 0 false [pad, pad] = some [] ∧ decodeFrom (.two bits) 0 false [pad] = some [] := by
  simp [decodeFrom, Held.symbols]

theorem decodeFrom_encode (bytes : List UInt8) : decodeFrom .nothing 0 false (encode bytes) = some bytes := by
  have small (byte : UInt8) : byte.toNat < 256 := byte.toNat_lt
  have whole {value : Nat} {byte : UInt8} (same : value = byte.toNat) : UInt8.ofNat value = byte := by
    rw [same, UInt8.ofNat_toNat]
  induction bytes using encode.induct with
  | case1 => rfl
  | case2 a =>
    have bound := small a
    have first : UInt8.ofNat (a.toNat / 4 * 4 + a.toNat % 4 * 16 / 16) = a := whole (by omega)
    rw [encode, decodeFrom_symbol _ _ (by omega), decodeFrom_symbol _ _ (by omega)]
    simp only [Held.take, first, (decodeFrom_pads _).1, Option.map_some, List.nil_append, List.append_nil]
  | case3 a b =>
    have boundA := small a
    have boundB := small b
    have first : UInt8.ofNat (a.toNat / 4 * 4 + (a.toNat % 4 * 16 + b.toNat / 16) / 16) = a := whole (by omega)
    have second : UInt8.ofNat ((a.toNat % 4 * 16 + b.toNat / 16) % 16 * 16 + b.toNat % 16 * 4 / 4) = b :=
      whole (by omega)
    rw [encode, decodeFrom_symbol _ _ (by omega), decodeFrom_symbol _ _ (by omega), decodeFrom_symbol _ _ (by omega)]
    simp only [Held.take, first, second, (decodeFrom_pads _).2, Option.map_some, List.nil_append,
      List.cons_append]
  | case4 a b c rest ih =>
    have boundA := small a
    have boundB := small b
    have boundC := small c
    have first : UInt8.ofNat (a.toNat / 4 * 4 + (a.toNat % 4 * 16 + b.toNat / 16) / 16) = a := whole (by omega)
    have second : UInt8.ofNat ((a.toNat % 4 * 16 + b.toNat / 16) % 16 * 16 +
        (b.toNat % 16 * 4 + c.toNat / 64) / 4) = b := whole (by omega)
    have third : UInt8.ofNat ((b.toNat % 16 * 4 + c.toNat / 64) % 4 * 64 + c.toNat % 64) = c := whole (by omega)
    rw [encode, decodeFrom_symbol _ _ (by omega), decodeFrom_symbol _ _ (by omega), decodeFrom_symbol _ _ (by omega),
      decodeFrom_symbol _ _ (by omega)]
    simp only [Held.take, first, second, third, ih, Option.map_some, List.nil_append, List.cons_append]

theorem mem_encode {bytes : List UInt8} : ∀ {byte : UInt8}, byte ∈ encode bytes →
    byte = pad ∨ ∃ value < 64, byte = symbol value := by
  induction bytes using encode.induct with
  | case1 => exact nofun
  | case2 a =>
    have bound := a.toNat_lt
    simp only [encode, List.mem_cons, List.not_mem_nil, or_false]
    rintro byte (rfl | rfl | rfl | rfl)
    · exact .inr ⟨_, by omega, rfl⟩
    · exact .inr ⟨_, by omega, rfl⟩
    · exact .inl rfl
    · exact .inl rfl
  | case3 a b =>
    have boundA := a.toNat_lt
    have boundB := b.toNat_lt
    simp only [encode, List.mem_cons, List.not_mem_nil, or_false]
    rintro byte (rfl | rfl | rfl | rfl)
    · exact .inr ⟨_, by omega, rfl⟩
    · exact .inr ⟨_, by omega, rfl⟩
    · exact .inr ⟨_, by omega, rfl⟩
    · exact .inl rfl
  | case4 a b c rest ih =>
    have boundA := a.toNat_lt
    have boundB := b.toNat_lt
    have boundC := c.toNat_lt
    simp only [encode, List.mem_cons]
    rintro byte (rfl | rfl | rfl | rfl | later)
    · exact .inr ⟨_, by omega, rfl⟩
    · exact .inr ⟨_, by omega, rfl⟩
    · exact .inr ⟨_, by omega, rfl⟩
    · exact .inr ⟨_, by omega, rfl⟩
    · exact ih later

theorem encode_ascii (bytes : List UInt8) : ∀ byte ∈ encode bytes, byte.toNat < 128 := by
  have ascii {value : Nat} (small : value < 64) := (symbol_spec value small).2.2
  induction bytes using encode.induct with
  | case1 => nofun
  | case2 a =>
    have bound := a.toNat_lt
    simp only [encode, List.forall_mem_cons]
    exact ⟨ascii (by omega), ascii (by omega), by decide, by decide, nofun⟩
  | case3 a b =>
    have boundA := a.toNat_lt
    have boundB := b.toNat_lt
    simp only [encode, List.forall_mem_cons]
    exact ⟨ascii (by omega), ascii (by omega), ascii (by omega), by decide, nofun⟩
  | case4 a b c rest ih =>
    have boundA := a.toNat_lt
    have boundB := b.toNat_lt
    have boundC := c.toNat_lt
    simp only [encode, List.forall_mem_cons]
    exact ⟨ascii (by omega), ascii (by omega), ascii (by omega), ascii (by omega), ih⟩

theorem decode_encode (bytes : List UInt8) : decode (encode bytes) = some bytes := by
  have data (value : Nat) (small : value < 64) := (symbol_spec value small).2.1
  have unpadded : (encode bytes).head? ≠ some pad := by
    cases bytes using encode.induct with
    | case1 => nofun
    | case2 a => exact fun same => data _ (by have := a.toNat_lt; omega) (Option.some.inj same)
    | case3 a b => exact fun same => data _ (by have := a.toNat_lt; omega) (Option.some.inj same)
    | case4 a b c rest => exact fun same => data _ (by have := a.toNat_lt; omega) (Option.some.inj same)
  rw [decode, if_neg unpadded, decodeFrom_encode]

end Base64
