import Csl.Library.JsonNesting
import Csl.Shared.Registration

/-! What decoding a bundle ends with: a bundle of the declared types, a ValueError, or worse.

Decoding checks that the fields are there and that the platform is known, and takes for granted
that the JSON text holds an object of the expected types, nested no deeper than can be read.
-/

set_option autoImplicit false

namespace Csl.Shared
open CodePoint

/-- The fields have their declared types, and the platform is a known one. -/
def RegistrationBundle.AsDeclared (bundle : RegistrationBundle JsonValue) : Prop :=
  ∃ texts : RegistrationBundle Text, bundle = texts.map .string ∧ texts.platform ∈ validPlatforms.map ofString

/-- A bundle as declared, or a ValueError. -/
def Orderly : Except Raised (RegistrationBundle JsonValue) → Prop
  | .ok bundle => bundle.AsDeclared
  | .error (.valueError _) => True
  | .error _ => False

/-! ## The JSON values that are decoded in order -/

def Hashable : JsonValue → Bool
  | .array _ | .object _ => false
  | _ => true

/-- `int` gives an integer of the value or raises a ValueError. -/
def Convertible : JsonValue → Bool
  | .null | .array _ | .object _ | .float (.infinite _) => false
  | _ => true

def Integral (decimals : Integers.Decimals) : JsonValue → Bool
  | .bool _ | .integer _ | .float (.finite _) => true
  | .string text => (numeral decimals text).isSome
  | _ => false

def plainFields : List String :=
  ["private_key", "key_fingerprint", "scripts_dir", "hostname_hint", "ssh_user", "api_token", "agent_version"]

def KnownPlatform (entries : List (Text × JsonValue)) : Prop :=
  ∃ platform ∈ validPlatforms.map ofString, JsonValue.lookup (ofString "platform") entries = some (.string platform)

/-- The types as far as decoding depends on them: where the platform is unknown or the port is no
integer, the fields after it are not looked at. -/
structure ExpectedTypes (decimals : Integers.Decimals) (entries : List (Text × JsonValue)) : Prop where
  platform : ∀ platform, JsonValue.lookup (ofString "platform") entries = some platform → Hashable platform = true
  port : KnownPlatform entries →
    ∀ port, JsonValue.lookup (ofString "agent_port") entries = some port → Convertible port = true
  plain : KnownPlatform entries →
    ∀ port, JsonValue.lookup (ofString "agent_port") entries = some port → Integral decimals port = true →
      ∀ name ∈ plainFields, ∃ text, JsonValue.lookup (ofString name) entries = some (.string text)

/-- An object that has the expected types if it has all the fields. -/
def Proper (decimals : Integers.Decimals) (data : JsonValue) : Prop :=
  ∃ entries, data = .object entries ∧ (missing entries = [] → ExpectedTypes decimals entries)

/-- The JSON text in a bundle, if there is one, is nested no deeper than can be read, and its value
is proper. -/
def Wellformed (decimals : Integers.Decimals) (nesting : Nat) (bundle : Text) : Prop :=
  ∀ text, (unarmored bundle).bind JsonValue.decodeBytes = some text →
    JsonValue.depth text ≤ nesting ∧ ∀ data, JsonValue.loads nesting text = .ok data → Proper decimals data

/-! ## Decoding step by step -/

theorem ok_bind {A B : Type} (value : A) (after : A → Except Raised B) : (Except.ok value >>= after) = after value := rfl

theorem error_bind {A B : Type} (raised : Raised) (after : A → Except Raised B) :
    (Except.error raised >>= after) = .error raised := rfl

section
variable {decimals : Integers.Decimals} {entries : List (Text × JsonValue)}

theorem present (complete : missing entries = []) (name : String) (required : name ∈ requiredFields) :
    ∃ value, JsonValue.lookup (ofString name) entries = some value := by
  have found := List.filter_eq_nil_iff.mp complete name required
  exact Option.isSome_iff_exists.mp (by simpa [Option.isSome_iff_ne_none] using found)

theorem field_of_lookup {name : String} {value : JsonValue}
    (found : JsonValue.lookup (ofString name) entries = some value) : field entries name = .ok value := by
  rw [field, found]

theorem toInt_cases (value : JsonValue) :
    (Convertible value = true ∧ Integral decimals value = true ∧ ∃ number, toInt decimals value = .ok number) ∨
      (Convertible value = true ∧ Integral decimals value = false ∧ toInt decimals value = .error (.valueError .notInteger)) ∨
      (Convertible value = false ∧ ∃ raised, toInt decimals value = .error raised ∧ ¬ Orderly (.error raised)) := by
  cases value with
  | bool value => exact .inl ⟨rfl, rfl, _, rfl⟩
  | integer value => exact .inl ⟨rfl, rfl, _, rfl⟩
  | float value =>
    cases value with
    | finite value => exact .inl ⟨rfl, rfl, _, rfl⟩
    | infinite negative => exact .inr (.inr ⟨rfl, _, rfl, id⟩)
    | nan => exact .inr (.inl ⟨rfl, rfl, rfl⟩)
  | string text =>
    rw [toInt, Integral]
    cases numeral decimals text with
    | none => exact .inr (.inl ⟨rfl, rfl, rfl⟩)
    | some value => exact .inl ⟨rfl, rfl, _, rfl⟩
  | null => exact .inr (.inr ⟨rfl, _, rfl, id⟩)
  | array items => exact .inr (.inr ⟨rfl, _, rfl, id⟩)
  | object entries => exact .inr (.inr ⟨rfl, _, rfl, id⟩)

theorem ofFields_orderly_iff (complete : missing entries = []) {port : JsonValue}
    (ported : JsonValue.lookup (ofString "agent_port") entries = some port) {platform : Text}
    (known : platform ∈ validPlatforms.map ofString) :
    Orderly (ofFields decimals entries (.string platform)) ↔ Convertible port = true ∧
      (Integral decimals port = true →
        ∀ name ∈ plainFields, ∃ text, JsonValue.lookup (ofString name) entries = some (.string text)) := by
  obtain ⟨privateKey, private_⟩ := present complete "private_key" (by decide)
  obtain ⟨keyFingerprint, fingerprint⟩ := present complete "key_fingerprint" (by decide)
  obtain ⟨scriptsDir, scripts⟩ := present complete "scripts_dir" (by decide)
  obtain ⟨hostnameHint, hostname⟩ := present complete "hostname_hint" (by decide)
  obtain ⟨sshUser, user⟩ := present complete "ssh_user" (by decide)
  obtain ⟨apiToken, token⟩ := present complete "api_token" (by decide)
  obtain ⟨agentVersion, version⟩ := present complete "agent_version" (by decide)
  simp only [ofFields, field_of_lookup private_, field_of_lookup fingerprint, field_of_lookup ported,
    field_of_lookup scripts, field_of_lookup hostname, field_of_lookup user, field_of_lookup token,
    field_of_lookup version, ok_bind]
  rcases @toInt_cases decimals port with
    ⟨converts, integral, number, taken⟩ | ⟨converts, none, refused⟩ | ⟨fails, raised, escapes, out⟩
  · rw [taken, ok_bind, converts, integral]
    -- the port is a number, and the types of the other fields decide
    constructor
    · rintro ⟨texts, same, -⟩
      refine ⟨rfl, fun _ => ?_⟩
      simp only [plainFields, List.forall_mem_cons]
      exact ⟨⟨_, private_.trans (congrArg (some ·.privateKey) same)⟩,
        ⟨_, fingerprint.trans (congrArg (some ·.keyFingerprint) same)⟩,
        ⟨_, scripts.trans (congrArg (some ·.scriptsDir) same)⟩,
        ⟨_, hostname.trans (congrArg (some ·.hostnameHint) same)⟩,
        ⟨_, user.trans (congrArg (some ·.sshUser) same)⟩,
        ⟨_, token.trans (congrArg (some ·.apiToken) same)⟩,
        ⟨_, version.trans (congrArg (some ·.agentVersion) same)⟩, nofun⟩
    · rintro ⟨-, plain⟩
      have texts := plain rfl
      simp only [plainFields, List.forall_mem_cons, private_, fingerprint, scripts, hostname, user, token, version,
        Option.some.injEq] at texts
      obtain ⟨⟨_, rfl⟩, ⟨_, rfl⟩, ⟨_, rfl⟩, ⟨_, rfl⟩, ⟨_, rfl⟩, ⟨_, rfl⟩, ⟨_, rfl⟩, -⟩ := texts
      exact ⟨⟨_, _, number, _, _, platform, _, _, _⟩, rfl, known⟩
  · rw [refused, error_bind, converts, none]
    -- the port is refused before the fields after it are looked at
    exact iff_of_true trivial ⟨rfl, nofun⟩
  · rw [escapes, error_bind, fails]
    -- converting the port raises what is no ValueError
    exact iff_of_false out nofun

theorem expected_iff {platform port : JsonValue}
    (named : JsonValue.lookup (ofString "platform") entries = some platform)
    (ported : JsonValue.lookup (ofString "agent_port") entries = some port) :
    ExpectedTypes decimals entries ↔ Hashable platform = true ∧ (KnownPlatform entries → Convertible port = true ∧
      (Integral decimals port = true →
        ∀ name ∈ plainFields, ∃ text, JsonValue.lookup (ofString name) entries = some (.string text))) := by
  constructor
  · intro expected
    exact ⟨expected.platform _ named, fun known => ⟨expected.port known _ ported, expected.plain known _ ported⟩⟩
  · rintro ⟨hashable, rest⟩
    refine ⟨fun other same => ?_, fun known other same => ?_, fun known other same => ?_⟩
    · exact Option.some.inj (named.symm.trans same) ▸ hashable
    · exact Option.some.inj (ported.symm.trans same) ▸ (rest known).1
    · exact Option.some.inj (ported.symm.trans same) ▸ (rest known).2

theorem ofEntries_orderly_iff :
    Orderly (ofEntries decimals entries) ↔ (missing entries = [] → ExpectedTypes decimals entries) := by
  by_cases complete : missing entries = []
  · obtain ⟨platform, named⟩ := present complete "platform" (by decide)
    obtain ⟨port, ported⟩ := present complete "agent_port" (by decide)
    have unknown (other : ∀ text ∈ validPlatforms.map ofString, platform ≠ .string text) : ¬ KnownPlatform entries := by
      rintro ⟨text, known, found⟩
      exact other text known (Option.some.inj (named.symm.trans found))
    rw [ofEntries, if_pos complete, field_of_lookup named, ok_bind, forall_prop_of_true complete,
      expected_iff named ported]
    cases platform with
    | string text =>
      rw [knownPlatform, ok_bind]
      by_cases known : text ∈ validPlatforms.map ofString
      · have found : KnownPlatform entries := ⟨text, known, named⟩
        rw [if_pos (decide_eq_true known), ofFields_orderly_iff complete ported known, forall_prop_of_true found]
        exact (and_iff_right rfl).symm
      · have other : ∀ text' ∈ validPlatforms.map ofString, JsonValue.string text ≠ .string text' := by
          rintro text' member same
          exact known (JsonValue.string.inj same ▸ member)
        rw [if_neg (fun shown => known (of_decide_eq_true shown))]
        exact iff_of_true trivial ⟨rfl, fun found => absurd found (unknown other)⟩
    | array items => exact iff_of_false id fun expected => nomatch expected.1
    | object inner => exact iff_of_false id fun expected => nomatch expected.1
    | null => exact iff_of_true trivial ⟨rfl, fun found => absurd found (unknown nofun)⟩
    | bool value => exact iff_of_true trivial ⟨rfl, fun found => absurd found (unknown nofun)⟩
    | integer value => exact iff_of_true trivial ⟨rfl, fun found => absurd found (unknown nofun)⟩
    | float value => exact iff_of_true trivial ⟨rfl, fun found => absurd found (unknown nofun)⟩
  · rw [ofEntries, if_neg complete]
    exact iff_of_true trivial fun all => absurd all complete

theorem ofData_orderly_iff (data : JsonValue) : Orderly (ofData decimals data) ↔ Proper decimals data := by
  cases data with
  | object entries =>
    rw [ofData, ofEntries_orderly_iff]
    constructor
    · exact fun expected => ⟨entries, rfl, expected⟩
    · rintro ⟨_, same, expected⟩
      cases same
      exact expected
  | _ =>
    apply iff_of_false id
    rintro ⟨entries, same, -⟩
    cases same

end

/-- Decoding ends with a bundle of the declared types or a ValueError exactly for well-formed
bundles, and for texts that hold no JSON. -/
theorem decode_orderly_iff (decimals : Integers.Decimals) (nesting : Nat) (bundle : Text) :
    Orderly (RegistrationBundle.decode decimals nesting bundle) ↔ Wellformed decimals nesting bundle := by
  rw [RegistrationBundle.decode, Wellformed]
  cases unarmored bundle with
  | none => exact iff_of_true trivial nofun
  | some raw =>
    simp only [Option.bind_some, loadBytes]
    cases JsonValue.decodeBytes raw with
    | none => exact iff_of_true trivial nofun
    | some text =>
      have limit := JsonValue.loads_deep_iff nesting text
      simp only [Option.some.injEq, forall_eq']
      cases loaded : JsonValue.loads nesting text with
      | ok data =>
        rw [loaded] at limit
        have enough : JsonValue.depth text ≤ nesting := Nat.not_lt.mp fun short => nomatch limit.mpr short
        simp only [Except.ok.injEq, forall_eq', and_iff_right enough]
        exact ofData_orderly_iff data
      | error refusal =>
        rw [loaded] at limit
        rw [and_iff_left nofun, ← Nat.not_lt, ← limit]
        cases refusal with
        | malformed => exact iff_of_true trivial nofun
        | tooManyDigits => exact iff_of_true trivial nofun
        | tooDeep => exact iff_of_false id fun fine => fine rfl

/-- An empty list in the bundle has no keys, which is no ValueError. -/
theorem decode_empty_list : ¬ Orderly (RegistrationBundle.decode Integers.asciiDecimals 100 (ofString "W10=")) := by
  have escapes : RegistrationBundle.decode Integers.asciiDecimals 100 (ofString "W10=") = .error .attributeError := by rfl
  rw [escapes]
  exact id

end Csl.Shared
