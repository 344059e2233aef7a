import Csl.Library.Base64
import Csl.Library.JsonDumps

/-! Registration bundles: a JSON object in base64, encoded and decoded.

The decoded fields are taken as the JSON text has them, except for the port, which is
converted. What is raised is a ValueError, with the reasons its message tells, or an
exception of another kind.
-/

set_option autoImplicit false

namespace Csl.Shared
open CodePoint

def requiredFields : List String :=
  ["private_key", "key_fingerprint", "api_token", "agent_port", "scripts_dir", "hostname_hint", "platform",
    "ssh_user", "agent_version"]

def validPlatforms : List String := ["linux", "windows", "macos"]

/-- A bundle whose fields other than the port are of some type. -/
structure RegistrationBundle (Field : Type) where
  privateKey : Field
  keyFingerprint : Field
  agentPort : Int
  scriptsDir : Field
  hostnameHint : Field
  platform : Field
  sshUser : Field
  apiToken : Field
  agentVersion : Field

def RegistrationBundle.map {Field Other : Type} (convert : Field → Other) (bundle : RegistrationBundle Field) :
    RegistrationBundle Other where
  privateKey := convert bundle.privateKey
  keyFingerprint := convert bundle.keyFingerprint
  agentPort := bundle.agentPort
  scriptsDir := convert bundle.scriptsDir
  hostnameHint := convert bundle.hostnameHint
  platform := convert bundle.platform
  sshUser := convert bundle.sshUser
  apiToken := convert bundle.apiToken
  agentVersion := convert bundle.agentVersion

/-- What the message of a ValueError is about. -/
inductive Reason where
  | notBase64
  | notUnicode
  | malformed
  | tooManyDigits
  | missingFields (missing : List String)
  | unknownPlatform (platform : JsonValue)
  | notInteger

inductive Raised where
  | valueError (reason : Reason)
  | attributeError
  | typeError
  | keyError
  | overflowError
  | recursionError

/-! ## Encoding -/

/-- `base64.b64encode(text.encode()).decode()` -/
def armored (text : Text) : Except Raised Text :=
  match (encodeUtf8 text).bind fun bytes => decodeUtf8 .strict (Base64.encode bytes) with
  | some armored => .ok armored
  | none => .error (.valueError .notUnicode)

def payload (bundle : RegistrationBundle Text) : List (Text × JsonValue.Plain) :=
  [(ofString "private_key", .text bundle.privateKey),
    (ofString "key_fingerprint", .text bundle.keyFingerprint),
    (ofString "agent_port", .integer bundle.agentPort),
    (ofString "scripts_dir", .text bundle.scriptsDir),
    (ofString "hostname_hint", .text bundle.hostnameHint),
    (ofString "platform", .text bundle.platform),
    (ofString "ssh_user", .text bundle.sshUser),
    (ofString "api_token", .text bundle.apiToken),
    (ofString "agent_version", .text bundle.agentVersion)]

/-- `RegistrationBundle.encode` calls it with its own fields. -/
def encodeBundle (bundle : RegistrationBundle Text) : Except Raised Text :=
  match JsonValue.dumps (payload bundle) with
  | some text => armored text
  | none => .error (.valueError .tooManyDigits)

/-! ## Decoding -/

section
variable (decimals : Integers.Decimals)

/-- `int(text)` of a text that may hold surrogates, which are no digits. -/
def numeral (text : Text) : Option Int :=
  (characters text).bind fun chars => Integers.ofText decimals (String.ofList chars)

/-- `int(value)` -/
def toInt : JsonValue → Except Raised Int
  | .bool value => .ok (if value then 1 else 0)
  | .integer value => .ok value
  | .float (.finite value) => .ok (Double.truncate value)
  | .float (.infinite _) => .error .overflowError
  | .float .nan => .error (.valueError .notInteger)
  | .string text =>
    match numeral decimals text with
    | some value => .ok value
    | none => .error (.valueError .notInteger)
  | .null | .array _ | .object _ => .error .typeError

/-- `platform in _VALID_PLATFORMS`: a set hashes what it is asked for. -/
def knownPlatform : JsonValue → Except Raised Bool
  | .string text => .ok (decide (text ∈ validPlatforms.map ofString))
  | .array _ | .object _ => .error .typeError
  | _ => .ok false

/-- `data[name]` -/
def field (entries : List (Text × JsonValue)) (name : String) : Except Raised JsonValue :=
  match JsonValue.lookup (ofString name) entries with
  | some value => .ok value
  | none => .error .keyError

def missing (entries : List (Text × JsonValue)) : List String :=
  requiredFields.filter fun name => JsonValue.lookup (ofString name) entries |>.isNone

def ofFields (entries : List (Text × JsonValue)) (platform : JsonValue) :
    Except Raised (RegistrationBundle JsonValue) := do
  let privateKey ← field entries "private_key"
  let keyFingerprint ← field entries "key_fingerprint"
  let port ← field entries "agent_port"
  let agentPort ← toInt decimals port
  let scriptsDir ← field entries "scripts_dir"
  let hostnameHint ← field entries "hostname_hint"
  let sshUser ← field entries "ssh_user"
  let apiToken ← field entries "api_token"
  let agentVersion ← field entries "agent_version"
  return { privateKey, keyFingerprint, agentPort, scriptsDir, hostnameHint, platform, sshUser, apiToken, agentVersion }

def ofEntries (entries : List (Text × JsonValue)) : Except Raised (RegistrationBundle JsonValue) :=
  if missing entries = [] then do
    let platform ← field entries "platform"
    let known ← knownPlatform platform
    if known then ofFields decimals entries platform else throw (.valueError (.unknownPlatform platform))
  else throw (.valueError (.missingFields ((missing entries).mergeSort (· ≤ ·))))

/-- What decoding makes of the JSON value: only an object has keys. -/
def ofData : JsonValue → Except Raised (RegistrationBundle JsonValue)
  | .object entries => ofEntries decimals entries
  | _ => .error .attributeError

def unarmored (bundle : Text) : Option (List UInt8) := (encodeUtf8 bundle).bind Base64.decode

variable (nesting : Nat)

/-- A ValueError of `json.loads` is caught or passes for one; running out of levels is neither. -/
def ofRefusal : JsonValue.Refusal → Raised
  | .malformed => .valueError .malformed
  | .tooManyDigits => .valueError .tooManyDigits
  | .tooDeep => .recursionError

/-- `json.loads(raw)` -/
def loadBytes (raw : List UInt8) : Except Raised JsonValue :=
  match JsonValue.decodeBytes raw with
  | none => .error (.valueError .notUnicode)
  | some text => (JsonValue.loads nesting text).mapError ofRefusal

/-- Containers may be nested as deep as the interpreter's recursion limit leaves room for. -/
def RegistrationBundle.decode (bundle : Text) : Except Raised (RegistrationBundle JsonValue) :=
  match unarmored bundle with
  | none => .error (.valueError .notBase64)
  | some raw => loadBytes nesting raw >>= ofData decimals

end

end Csl.Shared
