import Csl.Shared.Registration.Totality

/-! Bundles that are encoded and decoded again.

The two encodings invert each other but for texts in which a high surrogate stands directly before
a low one, and a port of too many digits is not encoded. Decoding gives no such port.
-/

set_option autoImplicit false

namespace Csl.Shared
open CodePoint

def RegistrationBundle.texts {Field : Type} (bundle : RegistrationBundle Field) : List Field :=
  [bundle.privateKey, bundle.keyFingerprint, bundle.scriptsDir, bundle.hostnameHint, bundle.platform, bundle.sshUser,
    bundle.apiToken, bundle.agentVersion]

/-- No field holds a surrogate pair as two elements. -/
def RegistrationBundle.Unpaired (bundle : RegistrationBundle Text) : Prop :=
  ∀ text ∈ bundle.texts, JsonValue.Unpaired text

instance (bundle : RegistrationBundle Text) : Decidable bundle.Unpaired :=
  inferInstanceAs (Decidable (∀ text ∈ bundle.texts, JsonValue.Unpaired text))

/-! ## The two encodings -/

theorem encodeUtf8_ascii {bytes : List UInt8} (ascii : ∀ byte ∈ bytes, byte.toNat < 128) :
    encodeUtf8 (bytes.map fun byte => scalar (Char.ofNat byte.toNat)) = some bytes := by
  have one : ∀ code < 128, String.utf8EncodeChar (Char.ofNat code) = [UInt8.ofNat code] := by decide +kernel
  induction bytes with
  | nil => rfl
  | cons byte rest ih =>
    have head := one byte.toNat (ascii byte List.mem_cons_self)
    rw [UInt8.ofNat_toNat] at head
    rw [List.map_cons, encodeUtf8, ih fun byte member => ascii byte (List.mem_cons_of_mem _ member), head]
    rfl

theorem unarmored_armored {text : Text} {bytes : List UInt8} (encoded : encodeUtf8 text = some bytes) :
    ∃ bundle, armored text = .ok bundle ∧ unarmored bundle = some bytes := by
  have symbols := encodeUtf8_ascii (Base64.encode_ascii bytes)
  refine ⟨(Base64.encode bytes).map fun byte => scalar (Char.ofNat byte.toNat), ?_, ?_⟩
  · rw [armored, encoded, Option.bind_some, decode_encode _ symbols]
  · rw [unarmored, symbols, Option.bind_some, Base64.decode_encode]

theorem loadBytes_dumps (nesting : Nat) {entry : Text × JsonValue.Plain} {rest : List (Text × JsonValue.Plain)}
    {text : Text} (unpaired : ∀ each ∈ entry :: rest, JsonValue.Unpaired each.1 ∧ each.2.Unpaired)
    (written : JsonValue.dumps (entry :: rest) = some text) :
    ∃ bytes, encodeUtf8 text = some bytes ∧
      loadBytes (nesting + 1) bytes = .ok (.object ((entry :: rest).map fun each => (each.1, each.2.value))) := by
  have loaded := JsonValue.loads_dumps nesting unpaired written
  obtain ⟨inside, writes, rfl⟩ := Option.map_eq_some_iff.mp written
  obtain ⟨tail, rfl⟩ := JsonValue.writeEntries_quote writes
  have encoded := encodeUtf8_scalars ('{' :: '"' :: tail)
  have start : ('{' :: '"' :: tail).flatMap String.utf8EncodeChar =
      0x7B :: 0x22 :: tail.flatMap String.utf8EncodeChar := rfl
  rw [start] at encoded
  have decoded := decode_encode .surrogatepass encoded
  rw [← JsonValue.decodeBytes_utf8 (by decide) (by decide)] at decoded
  refine ⟨_, encoded, ?_⟩
  simp only [loadBytes, decoded, loaded]
  rfl

/-! ## The fields -/

theorem payload_dumps (bundle : RegistrationBundle Text)
    (short : Integers.digitCount bundle.agentPort ≤ Integers.maxDigits) :
    ∃ text, JsonValue.dumps (payload bundle) = some text := by
  simp only [JsonValue.dumps, payload, JsonValue.writeEntries, JsonValue.Plain.write, if_pos short, Option.bind_some,
    Option.map_some, Option.some.injEq, exists_eq']

theorem ofData_payload (decimals : Integers.Decimals) (bundle : RegistrationBundle Text)
    (known : bundle.platform ∈ validPlatforms.map ofString) :
    ofData decimals (.object ((payload bundle).map fun entry => (entry.1, entry.2.value))) =
      .ok (bundle.map .string) := by
  have complete : missing ((payload bundle).map fun entry => (entry.1, entry.2.value)) = [] := by rfl
  have platform : field ((payload bundle).map fun entry => (entry.1, entry.2.value)) "platform" =
      .ok (.string bundle.platform) := by rfl
  have fields : ofFields decimals ((payload bundle).map fun entry => (entry.1, entry.2.value)) (.string bundle.platform) =
      .ok (bundle.map .string) := by rfl
  rw [ofData, ofEntries, if_pos complete, platform, ok_bind, knownPlatform, ok_bind, if_pos (decide_eq_true known), fields]

theorem payload_unpaired {bundle : RegistrationBundle Text} (unpaired : bundle.Unpaired) :
    ∀ entry ∈ payload bundle, JsonValue.Unpaired entry.1 ∧ entry.2.Unpaired := by
  simp only [RegistrationBundle.Unpaired, RegistrationBundle.texts, List.forall_mem_cons] at unpaired
  obtain ⟨privateKey, keyFingerprint, scriptsDir, hostnameHint, platform, sshUser, apiToken, agentVersion, -⟩ := unpaired
  simp only [payload, List.forall_mem_cons]
  exact ⟨⟨by decide, privateKey⟩, ⟨by decide, keyFingerprint⟩, ⟨by decide, trivial⟩, ⟨by decide, scriptsDir⟩,
    ⟨by decide, hostnameHint⟩, ⟨by decide, platform⟩, ⟨by decide, sshUser⟩, ⟨by decide, apiToken⟩,
    ⟨by decide, agentVersion⟩, nofun⟩

theorem decode_encoded (decimals : Integers.Decimals) (nesting : Nat) {bundle : RegistrationBundle Text}
    (known : bundle.platform ∈ validPlatforms.map ofString) (unpaired : bundle.Unpaired)
    (short : Integers.digitCount bundle.agentPort ≤ Integers.maxDigits) :
    ∃ encoded, encodeBundle bundle = .ok encoded ∧
      RegistrationBundle.decode decimals (nesting + 1) encoded = .ok (bundle.map .string) := by
  obtain ⟨text, written⟩ := payload_dumps bundle short
  obtain ⟨bytes, encoded, loaded⟩ := loadBytes_dumps nesting (payload_unpaired unpaired) written
  obtain ⟨armoredText, arms, disarms⟩ := unarmored_armored encoded
  refine ⟨armoredText, ?_, ?_⟩
  · simp only [encodeBundle, written, arms]
  · simp only [RegistrationBundle.decode, disarms]
    exact (congrArg (· >>= ofData decimals) loaded).trans (ofData_payload decimals bundle known)

/-! ## What decoding gives -/

section
variable {decimals : Integers.Decimals}

theorem lookup_of_field {entries : List (Text × JsonValue)} {name : String} {value : JsonValue}
    (found : field entries name = .ok value) : JsonValue.lookup (ofString name) entries = some value := by
  rw [field] at found
  split at found
  next same => exact same.trans (congrArg some (Except.ok.inj found))
  next => cases found

theorem ofFields_ok {entries : List (Text × JsonValue)} {platform : JsonValue} {bundle : RegistrationBundle JsonValue}
    (decoded : ofFields decimals entries platform = .ok bundle) :
    bundle.platform = platform ∧
      ∃ port, JsonValue.lookup (ofString "agent_port") entries = some port ∧ toInt decimals port = .ok bundle.agentPort := by
  obtain ⟨_, -, decoded⟩ := JsonValue.bind_eq_ok decoded
  obtain ⟨_, -, decoded⟩ := JsonValue.bind_eq_ok decoded
  obtain ⟨port, ported, decoded⟩ := JsonValue.bind_eq_ok decoded
  obtain ⟨number, converted, decoded⟩ := JsonValue.bind_eq_ok decoded
  -- The other five fields are taken as they are.
  iterate 5 obtain ⟨_, -, decoded⟩ := JsonValue.bind_eq_ok decoded
  cases decoded
  exact ⟨rfl, port, lookup_of_field ported, converted⟩

theorem ofData_ok {data : JsonValue} {bundle : RegistrationBundle JsonValue} (decoded : ofData decimals data = .ok bundle) :
    ∃ entries, data = .object entries ∧
      (∃ platform ∈ validPlatforms.map ofString, bundle.platform = .string platform) ∧
      ∃ port, JsonValue.lookup (ofString "agent_port") entries = some port ∧ toInt decimals port = .ok bundle.agentPort := by
  cases data with
  | object entries =>
    rw [ofData, ofEntries] at decoded
    split at decoded
    next =>
      obtain ⟨platform, -, decoded⟩ := JsonValue.bind_eq_ok decoded
      obtain ⟨known, asked, decoded⟩ := JsonValue.bind_eq_ok decoded
      cases known with
      | false => cases decoded
      | true =>
        obtain ⟨same, ported⟩ := ofFields_ok decoded
        cases platform with
        | string text => exact ⟨entries, rfl, ⟨text, of_decide_eq_true (Except.ok.inj asked), same⟩, ported⟩
        | _ => cases asked
    next => cases decoded
  | _ => cases decoded

theorem toInt_digitCount {port : JsonValue} {number : Int} (converted : toInt decimals port = .ok number)
    (short : ∀ value, port = .integer value → Integers.digitCount value ≤ Integers.maxDigits) :
    Integers.digitCount number ≤ Integers.maxDigits := by
  cases port with
  | bool value =>
    obtain rfl := Except.ok.inj converted
    cases value <;> decide
  | integer value =>
    obtain rfl := Except.ok.inj converted
    exact short value rfl
  | float value =>
    cases value with
    | finite value =>
      obtain rfl : Double.truncate value.val = number := Except.ok.inj converted
      have few := Integers.digitCount_le_exponent Double.maxExponent (by decide)
        (Double.natAbs_truncate_lt_pow Double.maxExponent value.property)
      exact Nat.le_trans few (by decide)
    | infinite negative => cases converted
    | nan => cases converted
  | string text =>
    rw [toInt] at converted
    split at converted
    next read =>
      cases converted
      obtain ⟨chars, -, value⟩ := Option.bind_eq_some_iff.mp read
      exact Integers.digitCount_ofText value
    next => cases converted
  | _ => cases converted

theorem loadBytes_ok {nesting : Nat} {raw : List UInt8} {data : JsonValue} (loaded : loadBytes nesting raw = .ok data) :
    ∃ text, JsonValue.loads nesting text = .ok data := by
  unfold loadBytes at loaded
  split at loaded
  next => cases loaded
  next text _ =>
    cases read : JsonValue.loads nesting text with
    | error refusal =>
      rw [read] at loaded
      cases loaded
    | ok value =>
      rw [read] at loaded
      exact ⟨text, read.trans (congrArg Except.ok (Except.ok.inj loaded))⟩

end

/-- Bundles are decoded to what was encoded, and what was decoded can be encoded and decoded again. -/
theorem decode_encodeBundle (decimals : Integers.Decimals) (nesting : Nat) :
    (∀ bundle : RegistrationBundle Text, 0 < nesting → bundle.platform ∈ validPlatforms.map ofString → bundle.Unpaired →
      Integers.digitCount bundle.agentPort ≤ Integers.maxDigits →
        ∃ encoded, encodeBundle bundle = .ok encoded ∧
          RegistrationBundle.decode decimals nesting encoded = .ok (bundle.map .string)) ∧
      ∀ (source : Text) (bundle : RegistrationBundle Text),
        RegistrationBundle.decode decimals nesting source = .ok (bundle.map .string) → bundle.Unpaired →
          ∃ encoded, encodeBundle bundle = .ok encoded ∧
            RegistrationBundle.decode decimals nesting encoded = .ok (bundle.map .string) := by
  constructor
  · intro bundle levels known unpaired short
    obtain ⟨nesting, rfl⟩ := Nat.exists_eq_succ_of_ne_zero (Nat.ne_of_gt levels)
    exact decode_encoded decimals nesting known unpaired short
  · intro source bundle decoded unpaired
    rw [RegistrationBundle.decode] at decoded
    split at decoded
    next => cases decoded
    next raw _ =>
      obtain ⟨data, loaded, decoded⟩ := JsonValue.bind_eq_ok decoded
      obtain ⟨entries, rfl, ⟨platform, known, same⟩, port, found, converted⟩ := ofData_ok decoded
      obtain ⟨text, loaded⟩ := loadBytes_ok loaded
      obtain ⟨level, rfl, -⟩ := JsonValue.loads_object loaded
      obtain rfl : bundle.platform = platform := JsonValue.string.inj same
      apply decode_encoded decimals level known unpaired
      exact toInt_digitCount converted fun value integer => JsonValue.loads_integer loaded (integer ▸ found)

/-! ## Bundles to try it on -/

def sampleBundle (privateKey : Text) (agentPort : Int) : RegistrationBundle Text where
  privateKey := privateKey
  keyFingerprint := ofString "SHA256:abc"
  agentPort := agentPort
  scriptsDir := ofString "C:\\\"scripts\""
  hostnameHint := ofString "počítač\n😀"
  platform := ofString "windows"
  sshUser := ofString "alice"
  apiToken := []
  agentVersion := ofString "0.1.2"

theorem decode_encodeBundle_sample :
    ∃ source, RegistrationBundle.decode Integers.asciiDecimals 1 source = .ok ((sampleBundle [] 47731).map .string) ∧
      ∃ encoded, encodeBundle (sampleBundle [] 47731) = .ok encoded ∧
        RegistrationBundle.decode Integers.asciiDecimals 1 encoded = .ok ((sampleBundle [] 47731).map .string) := by
  obtain ⟨forward, again⟩ := decode_encodeBundle Integers.asciiDecimals 1
  obtain ⟨source, -, decoded⟩ := forward (sampleBundle [] 47731) (by decide) (by decide) (by decide) (by decide)
  exact ⟨source, decoded, again source _ decoded (by decide)⟩

theorem digitCount_pow (exponent : Nat) (positive : 0 < exponent) :
    ¬ Integers.digitCount ((10 : Int) ^ exponent) ≤ exponent := by
  intro short
  have below := (Nat.length_toDigits_le_iff (by decide) positive).mp short
  rw [Int.natAbs_pow] at below
  exact Nat.lt_irrefl _ below

/-- A surrogate pair that is two elements of a text comes back as the one character it stands for,
and a port of one digit more than the limit has no encoding. -/
theorem not_decode_encodeBundle :
    (¬ ∀ bundle : RegistrationBundle Text, bundle.platform ∈ validPlatforms.map ofString →
      Integers.digitCount bundle.agentPort ≤ Integers.maxDigits →
        ∃ encoded, encodeBundle bundle = .ok encoded ∧
          RegistrationBundle.decode Integers.asciiDecimals 1 encoded = .ok (bundle.map .string)) ∧
      ¬ ∀ bundle : RegistrationBundle Text, bundle.platform ∈ validPlatforms.map ofString → bundle.Unpaired →
        ∃ encoded, encodeBundle bundle = .ok encoded ∧
          RegistrationBundle.decode Integers.asciiDecimals 1 encoded = .ok (bundle.map .string) := by
  constructor
  · intro all
    have alike : encodeBundle (sampleBundle [.surrogate 0x3D, .surrogate 0x600] 47731) =
        encodeBundle (sampleBundle [.scalar '😀'] 47731) := by rfl
    have one : (sampleBundle [.scalar '😀'] 47731).Unpaired := by decide
    obtain ⟨encoded, encodes, decoded⟩ := all (sampleBundle [.surrogate 0x3D, .surrogate 0x600] 47731) (by decide) (by decide)
    obtain ⟨other, otherEncodes, otherDecoded⟩ := decode_encoded Integers.asciiDecimals 0 (by decide) one (by decide)
    obtain rfl : encoded = other := Except.ok.inj (encodes.symm.trans (alike.trans otherEncodes))
    have same := congrArg RegistrationBundle.privateKey (Except.ok.inj (decoded.symm.trans otherDecoded))
    exact absurd (JsonValue.string.inj same) (by decide)
  · intro all
    have fitting (port : Int) : (sampleBundle [] port).platform ∈ validPlatforms.map ofString ∧
        (sampleBundle [] port).Unpaired :=
      ⟨(by decide : (sampleBundle [] 0).platform ∈ validPlatforms.map ofString), (by decide : (sampleBundle [] 0).Unpaired)⟩
    have long := digitCount_pow Integers.maxDigits (by decide)
    obtain ⟨known, unpaired⟩ := fitting (10 ^ Integers.maxDigits)
    obtain ⟨encoded, encodes, -⟩ := all _ known unpaired
    have refused : JsonValue.dumps (payload (sampleBundle [] (10 ^ Integers.maxDigits))) = none := by
      simp only [JsonValue.dumps, payload, sampleBundle, JsonValue.writeEntries, JsonValue.Plain.write, if_neg long,
        Option.bind_some, Option.bind_none, Option.map_none]
    rw [encodeBundle, refused] at encodes
    cases encodes

end Csl.Shared
