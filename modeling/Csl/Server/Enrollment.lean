import Csl.Agent.Cli.Init
import Csl.Shared.SshCommands

/-! Registering a target from the bundle that it printed.

The bundle is decoded and its version compared, the target is reached once over SSH to read its
config.yaml and its host key, and the row is written. Between these three parts other requests are
served, so the name is compared again when the row is written.
-/

set_option autoImplicit false

namespace Csl.Server.Enrollment
open Csl.Shared Csl.Agent RecordModels Config CodePoint

variable {Other : Type}

/-! ## Encryption -/

/-- AES-GCM, whose tag is part of the ciphertext. -/
structure AesGcm where
  encrypt : (masterKey nonce plaintext : List UInt8) → List UInt8
  decrypt : (masterKey nonce ciphertext : List UInt8) → Option (List UInt8)
  decrypts : ∀ masterKey nonce plaintext, decrypt masterKey nonce (encrypt masterKey nonce plaintext) = some plaintext

def nonceSize : Nat := 12

/-- What `os.urandom(_NONCE_SIZE)` gives. -/
structure Nonce where
  bytes : List UInt8
  size : bytes.length = nonceSize

def encrypt (aes : AesGcm) (nonce : Nonce) (plaintext masterKey : List UInt8) : List UInt8 :=
  nonce.bytes ++ aes.encrypt masterKey nonce.bytes plaintext

/-- None where it raises: a blob that is too short, or one that was not encrypted with the key. -/
def decrypt (aes : AesGcm) (data masterKey : List UInt8) : Option (List UInt8) :=
  if data.length < nonceSize then none
  else aes.decrypt masterKey (data.take nonceSize) (data.drop nonceSize)

theorem decrypt_encrypt (aes : AesGcm) (nonce : Nonce) (plaintext masterKey : List UInt8) :
    decrypt aes (encrypt aes nonce plaintext masterKey) masterKey = some plaintext := by
  have long : ¬ (encrypt aes nonce plaintext masterKey).length < nonceSize := by
    rw [encrypt, List.length_append, nonce.size]
    omega
  rw [decrypt, if_neg long, encrypt, ← nonce.size, List.take_left, List.drop_left, aes.decrypts]

/-! ## The control station -/

structure Station (Other : Type) where
  /-- Python's `bool(value)` of a number or another scalar. -/
  truthy : Other → Bool
  /-- `==` of values that are not both texts. -/
  equal : Raw (Scalar Other) → JsonValue → Bool
  decimals : Integers.Decimals
  /-- How deep containers may be nested in a bundle. -/
  nesting : Nat
  aes : AesGcm
  masterKey : List UInt8
  serverVersion : String

structure RegisterMachineIn where
  bundle : Text
  name : String
  sshHost : String
  sshPort : Int
  sshUser : Option String
  macAddress : Option String

/-- A row of machines, with what is handed to the database. -/
structure MachineRow where
  id : Nat
  name : String
  sshHost : String
  sshPort : Int
  sshUser : JsonValue
  sshKeyEncrypted : List UInt8
  keyFingerprint : JsonValue
  sshHostKey : String
  agentTokenEncrypted : List UInt8
  agentPort : Int
  scriptsDir : JsonValue
  platform : JsonValue
  macAddress : Option String

/-- How a registration ends. What is raised and is no HTTPException is answered 500. -/
inductive Ending where
  | created (machineId : Nat)
  | refused (status : Nat)
  | raised
  deriving DecidableEq

variable (station : Station Other)

/-! ## Versions -/

def leadingCharacters : Text → List Char
  | .scalar c :: rest => c :: leadingCharacters rest
  | .surrogate _ :: _ | [] => []

/-- The digits that `\s*(\d+)` matches. -/
def majorDigits (version : Text) : List Char :=
  ((leadingCharacters version).dropWhile Whitespace.isSpace).takeWhile fun c => (station.decimals.digit c).isSome

/-- `_major`, which raises on too many digits. -/
def major (version : Text) : Except Ending (Option Int) :=
  match majorDigits station version with
  | [] => .ok none
  | digits =>
    match Integers.ofText station.decimals (String.ofList digits) with
    | some value => .ok (some value)
    | none => .error .raised

/-- `_assert_version_compatible`: a version without a number is let through. -/
def assertVersionCompatible (agentVersion : JsonValue) : Except Ending Unit :=
  match agentVersion with
  | .string version => do
    let agentMajor ← major station version
    let serverMajor ← major station (ofString station.serverVersion)
    match agentMajor, serverMajor with
    | some agent, some server => if agent = server then pure () else throw (.refused 409)
    | _, _ => pure ()
  | _ => .error .raised

/-! ## The connection test -/

/-- The entries of `value or {}`, if that is a dict. -/
def orEmpty : Raw (Scalar Other) → Option (List (String × Raw (Scalar Other)))
  | .mapping entries => some entries
  | .sequence items => if items.isEmpty then some [] else none
  | .scalar .null => some []
  | .scalar (.string text) => if text = "" then some [] else none
  | .scalar (.other value) => if station.truthy value then none else some []

/-- The fingerprint in what the config read printed, or how the test fails: a text that cannot be parsed
and one that is no mapping are ValueErrors, an identity that is no mapping has no `get`. -/
def remoteFingerprint (yaml : Yaml Other) (stdout : String) : Except Ending (Option (Raw (Scalar Other))) :=
  match yaml.safeLoad stdout with
  | none => .error (.refused 422)
  | some document =>
    match orEmpty station document.val with
    | none => .error (.refused 422)
    | some configData =>
      match (Dict.find configData "identity").elim (some []) (orEmpty station) with
      | none => .error .raised
      | some identity => .ok (Dict.find identity "key_fingerprint")

/-- `remote_fingerprint == bundle.key_fingerprint`; a missing one is None. -/
def sameFingerprint (remote : Option (Raw (Scalar Other))) (given : JsonValue) : Bool :=
  match remote.getD (.scalar .null), given with
  | .scalar (.string text), .string fingerprint => ofString text = fingerprint
  | .scalar (.string _), _ | _, .string _ => false
  | raw, value => station.equal raw value

/-- What comes of connecting: the host key line, if there is one, and what the config read prints. -/
structure Contact where
  hostKeyLine : Option String
  stdout : String

/-- `_ssh_connection_test`, of a connection that was made. -/
def sshConnectionTest (yaml : Yaml Other) (bundle : RegistrationBundle JsonValue) (contact : Contact) : Except Ending String :=
  match contact.hostKeyLine with
  | none => .error (.refused 422)
  | some hostKeyLine => do
    let remote ← remoteFingerprint station yaml contact.stdout
    if sameFingerprint station remote bundle.keyFingerprint then return hostKeyLine else throw (.refused 422)

/-! ## A registration in its parts -/

inductive Phase where
  | checked (bundle : RegistrationBundle JsonValue)
  | tested (bundle : RegistrationBundle JsonValue) (hostKeyLine : String)
  | ended (ending : Ending)

structure Registration where
  body : RegisterMachineIn
  phase : Phase

/-- `select(Machine).where(Machine.name == name)` finds a row. -/
def taken (rows : List MachineRow) (name : String) : Bool := rows.any fun row => row.name = name

/-- Up to the connection test. Of what decoding raises, a ValueError is answered 400. -/
def check (rows : List MachineRow) (body : RegisterMachineIn) : Phase :=
  match RegistrationBundle.decode station.decimals station.nesting body.bundle with
  | .error (.valueError _) => .ended (.refused 400)
  | .error _ => .ended .raised
  | .ok bundle =>
    match assertVersionCompatible station bundle.agentVersion with
    | .error ending => .ended ending
    | .ok () => if taken rows body.name then .ended (.refused 409) else .checked bundle

/-- `body.ssh_user or bundle.ssh_user` -/
def userFor (body : RegisterMachineIn) (bundle : RegistrationBundle JsonValue) : JsonValue :=
  match body.sshUser with
  | some user => if user = "" then bundle.sshUser else .string (ofString user)
  | none => bundle.sshUser

/-- `value.encode()` -/
def encoded : JsonValue → Option (List UInt8)
  | .string text => encodeUtf8 text
  | _ => none

def freshId (rows : List MachineRow) : Nat := (rows.map (·.id)).foldr max 0 + 1

def rowFor (rows : List MachineRow) (body : RegisterMachineIn) (bundle : RegistrationBundle JsonValue) (hostKeyLine : String)
    (encryptedKey encryptedToken : List UInt8) : MachineRow where
  id := freshId rows
  name := body.name
  sshHost := body.sshHost
  sshPort := body.sshPort
  sshUser := userFor body bundle
  sshKeyEncrypted := encryptedKey
  keyFingerprint := bundle.keyFingerprint
  sshHostKey := hostKeyLine
  agentTokenEncrypted := encryptedToken
  agentPort := bundle.agentPort
  scriptsDir := bundle.scriptsDir
  platform := bundle.platform
  macAddress := body.macAddress

/-- From the connection test on: the row that is written. A name that was taken meanwhile breaks the
table's constraint, and so may the database refuse the row for reasons of its own. -/
def persist (rows : List MachineRow) (body : RegisterMachineIn) (bundle : RegistrationBundle JsonValue) (hostKeyLine : String)
    (keyNonce tokenNonce : Nonce) (accepted : Bool) : Ending × List MachineRow :=
  match encoded bundle.privateKey, encoded bundle.apiToken with
  | some privateKey, some apiToken =>
    let row := rowFor rows body bundle hostKeyLine (encrypt station.aes keyNonce privateKey station.masterKey)
      (encrypt station.aes tokenNonce apiToken station.masterKey)
    if accepted && !taken rows body.name then (.created row.id, rows ++ [row]) else (.raised, rows)
  | _, _ => (.raised, rows)

def decryptPrivateKey (row : MachineRow) : Option (List UInt8) := decrypt station.aes row.sshKeyEncrypted station.masterKey

/-- The authorization that `_agent_auth_headers` sends, unless it raises; an encrypted token is no empty blob. -/
def agentAuthorization (row : MachineRow) : Option Text := do
  let token ← decrypt station.aes row.agentTokenEncrypted station.masterKey
  return ofString "Bearer " ++ (← decodeUtf8 .strict token)

end Csl.Server.Enrollment
