import Csl.Agent.Cli.AuthorizedKeys
import Csl.Agent.Cli.PolicyFile
import Csl.Shared.Registration
import Mathlib.Data.List.DropRight

/-! Setting up a target: the key pair, authorized_keys, config.yaml and the registration bundle.

A run takes over what an earlier one has left: the key files when both are there, and the token that
config.yaml has. Everything else in config.yaml is written anew.
-/

set_option autoImplicit false

namespace Csl.Agent.Init
open RecordModels Config CodePoint Shared

variable {Other : Type}

structure Libraries (Other : Type) where
  env : Env Other
  yaml : Yaml Other
  /-- A number in a YAML document. -/
  integer : Int → Other
  sha256 : List UInt8 → List UInt8
  /-- `str` of a path. -/
  pathText : String → String

/-! ## The key pair -/

structure PublicLine where
  wire : List UInt8
  filled : wire ≠ []
  hostname : String

structure KeyPair where
  privatePem : String
  publicLine : PublicLine

def characters (bytes : List UInt8) : List Char := bytes.map fun byte => Char.ofNat byte.toNat

namespace PublicLine

def body (line : PublicLine) : List Char := characters (Base64.encode line.wire)

def openssh (line : PublicLine) : List Char :=
  "ssh-ed25519".toList ++ ' ' :: (line.body ++ ' ' :: ("csl-agent@".toList ++ line.hostname.toList ++ ['\n']))

theorem body_ne_nil (line : PublicLine) : line.body ≠ [] := by
  obtain ⟨wire, filled, hostname⟩ := line
  rcases wire with _ | ⟨a, _ | ⟨b, _ | ⟨c, rest⟩⟩⟩
  · exact absurd rfl filled
  · exact List.cons_ne_nil _ _
  · exact List.cons_ne_nil _ _
  · exact List.cons_ne_nil _ _

theorem symbol_solid : ∀ value < 64, Whitespace.isSpace (Char.ofNat (Base64.symbol value).toNat) = false := by
  decide +kernel

theorem body_solid (line : PublicLine) : ∀ c ∈ line.body, Whitespace.isSpace c = false := by
  intro c member
  obtain ⟨byte, inside, same⟩ := List.mem_map.mp member
  rw [← same]
  rcases Base64.mem_encode inside with pad | ⟨value, small, symbol⟩
  · rw [pad]
    rfl
  · rw [symbol]
    exact symbol_solid value small

theorem kind_solid : "ssh-ed25519".toList ≠ [] ∧ ∀ c ∈ "ssh-ed25519".toList, Whitespace.isSpace c = false := by
  have solid : "ssh-ed25519".toList.all (fun c => !Whitespace.isSpace c) = true := by decide +kernel
  exact ⟨by decide, fun c member => (Bool.not_eq_true' _).mp (List.all_eq_true.mp solid c member)⟩

theorem words_openssh (line : PublicLine) : (Words.words line.openssh)[1]? = some line.body := by
  have blank : Whitespace.isSpace ' ' = true := by decide
  have split := Words.words_word kind_solid.1 kind_solid.2 blank
    (line.body ++ ' ' :: ("csl-agent@".toList ++ line.hostname.toList ++ ['\n']))
  rw [Words.words_word line.body_ne_nil line.body_solid blank] at split
  exact (congrArg (·[1]?) split).trans rfl

def key (line : PublicLine) : AuthorizedKeys.PublicKey := ⟨line.openssh, line.body, line.words_openssh⟩

def fingerprint (lib : Libraries Other) (line : PublicLine) : String :=
  String.ofList ("SHA256:".toList ++ (characters (Base64.encode (lib.sha256 line.wire))).rdropWhile (· = '='))

end PublicLine

/-! ## The files -/

/-- Administrators on Windows have a file of their own, where config.yaml says. -/
inductive KeysPath where
  | home
  | administrators (path : String)
  deriving DecidableEq

structure Home where
  config : Option String
  /-- `keys/csl_ed25519` -/
  privateKey : Option String
  /-- `keys/csl_ed25519.pub` -/
  publicKey : Option PublicLine
  authorizedKeys : KeysPath → AuthorizedKeys.Content
  approvals : Option String

structure Machine where
  platform : String
  known : platform ∈ validPlatforms
  site : AuthorizedKeys.Site

/-- What a run finds beside the files, and what it draws. -/
structure Setup where
  port : Int
  generated : KeyPair
  apiToken : String
  given : apiToken ≠ ""
  ascii : ∀ c ∈ apiToken.toList, c.toNat < 128
  isAdmin : Bool
  hostname : String
  sshUser : String
  version : String

/-- `_generate_keypair`: the pair that is there, or the one that is written. -/
def generateKeypair (setup : Setup) (home : Home) : KeyPair × Home :=
  match home.privateKey, home.publicKey with
  | some privatePem, some line => (⟨privatePem, line⟩, home)
  | _, _ => (setup.generated, { home with
      privateKey := some setup.generated.privatePem, publicKey := some setup.generated.publicLine })

/-! ## config.yaml -/

section
variable (lib : Libraries Other) (setup : Setup)

def text (value : String) : Raw (Scalar Other) := .scalar (.string value)

def number (value : Int) : Raw (Scalar Other) := .scalar (.other (lib.integer value))

def defaultNumber (name : String) : Int :=
  match agentSection.get? name with
  | some (.integer value) => value
  | _ => 0

def below (file : String) : String := lib.pathText (lib.env.join lib.env.platformBase file)

def agentData : List (String × Raw (Scalar Other)) :=
  [("listen_port", number lib setup.port),
    ("idle_timeout_seconds", number lib (defaultNumber "idle_timeout_seconds")),
    ("lifecycle_check_interval_seconds", number lib (defaultNumber "lifecycle_check_interval_seconds")),
    ("log_tail_lines", number lib (defaultNumber "log_tail_lines")),
    ("scripts_dir", text (below lib "scripts")),
    ("pending_dir", text (below lib "scripts.pending")),
    ("logs_dir", text (below lib "logs")),
    ("state_path", text (below lib "agent/running.json")),
    ("approvals_path", text (below lib "agent/approvals.json"))]

def identityData (fingerprint apiToken : String) : List (String × Raw (Scalar Other)) :=
  [("key_fingerprint", text fingerprint), ("hostname_hint", text setup.hostname), ("api_token", text apiToken)]

/-- What `_write_config` dumps. -/
def configData (fingerprint apiToken : String) : List (String × Raw (Scalar Other)) :=
  [("agent", .mapping (agentData lib setup)),
    ("identity", .mapping (identityData setup fingerprint apiToken)),
    ("approval_policy", .mapping [("auto_approve", .sequence [])]),
    ("advanced", .mapping [("windows_admin_authorized_keys_path",
      text (lib.pathText "C:/ProgramData/ssh/administrators_authorized_keys"))])]

end

def apiToken (config : Value) : Option String :=
  match setting config "identity" "api_token" with
  | some (.text token) => token
  | _ => none

/-- `cfg.identity.api_token or secrets.token_urlsafe(32)` -/
def tokenFor (setup : Setup) (config : Value) : String :=
  match apiToken config with
  | some token => if token = "" then setup.apiToken else token
  | none => setup.apiToken

def keysPath (machine : Machine) (setup : Setup) (config : Value) : KeysPath :=
  if machine.site.isWindows && setup.isAdmin then
    match setting config "advanced" "windows_admin_authorized_keys_path" with
    | some (.path path) => .administrators path
    | _ => .administrators ""
  else .home

/-- `json.dumps({"scripts": {}}, indent=2)` -/
def emptyApprovals : String := "\x7b\n  \"scripts\": \x7b\x7d\n\x7d"

/-! ## The command -/

inductive InitError where
  | config (error : ConfigError)
  | undecodable
  | bundle (raised : Raised)

section
variable (lib : Libraries Other) (machine : Machine) (setup : Setup)

def bundleOf (keys : KeyPair) (token : String) : RegistrationBundle Text where
  privateKey := ofString keys.privatePem
  keyFingerprint := ofString (keys.publicLine.fingerprint lib)
  agentPort := setup.port
  scriptsDir := ofString (below lib "scripts")
  hostnameHint := ofString setup.hostname
  platform := ofString machine.platform
  sshUser := ofString setup.sshUser
  apiToken := ofString token
  agentVersion := ofString setup.version

/-- `cmd_init`: the bundle that is printed, or what is raised. The prerequisite checks only print, and
a service that cannot be installed is only reported. -/
def cmdInit (home : Home) : Except InitError Text × Home :=
  match Config.loadConfig lib.env lib.yaml home.config with
  | .error error => (.error (.config error), home)
  | .ok config =>
    let token := tokenFor setup config
    let (keys, home) := generateKeypair setup home
    let path := keysPath machine setup config
    match AuthorizedKeys.appendAuthorizedKeys machine.site keys.publicLine.key setup.port (home.authorizedKeys path) with
    | none => (.error .undecodable, home)
    | some content =>
      ((encodeBundle (bundleOf lib machine setup keys token)).mapError .bundle,
        { home with
          authorizedKeys := Function.update home.authorizedKeys path content
          config := some (lib.yaml.dump (.mapping (configData lib setup (keys.publicLine.fingerprint lib) token)))
          approvals := some (home.approvals.getD emptyApprovals) })

end

/-! ## What config.yaml holds -/

section
variable {lib : Libraries Other} {file : Option String}

def Holds (lib : Libraries Other) (file : Option String) (inSection field : String) (value : Raw (Scalar Other)) : Prop :=
  ∃ content document entries fields, file = some content ∧ lib.yaml.safeLoad content = some document ∧
    entriesOf document.val = some entries ∧ Dict.find entries inSection = some (.mapping fields) ∧
    Dict.find fields field = some value

theorem keys_configData (setup : Setup) (fingerprint token : String) :
    ((configData lib setup fingerprint token).map Prod.fst).Nodup := by
  change ["agent", "identity", "approval_policy", "advanced"].Nodup
  decide

theorem holds_written {setup : Setup} {fingerprint token : String}
    (reads : PolicyFile.Reads lib.yaml (.mapping (configData lib setup fingerprint token)))
    {inSection field : String} {fields : List (String × Raw (Scalar Other))} {value : Scalar Other}
    (listed : Dict.find (configData lib setup fingerprint token) inSection = some (.mapping fields))
    (keys : (fields.map Prod.fst).Nodup) (found : Dict.find fields field = some (.scalar value)) :
    Holds lib (some (lib.yaml.dump (.mapping (configData lib setup fingerprint token)))) inSection field (.scalar value) := by
  obtain ⟨document, read, content⟩ := Option.map_eq_some_iff.mp reads
  rw [sortKeys_mapping] at content
  refine ⟨_, document, sortedEntries (configData lib setup fingerprint token), sortedEntries fields, rfl, read, ?_, ?_, ?_⟩
  · rw [content]
    rfl
  · rw [find_sortedEntries (keys_configData setup fingerprint token), listed, Option.map_some, sortKeys_mapping]
  · rw [find_sortedEntries keys, found, Option.map_some, sortKeys_scalar]

/-- The list is put into the tree, and nothing else. -/
theorem edited_eq {content : String} {current : List String} {tree : Raw (Scalar Other)} {document : Document (Scalar Other)}
    {entries : List (String × Raw (Scalar Other))} (read : lib.yaml.safeLoad content = some document)
    (mapping : entriesOf document.val = some entries) (edited : PolicyFile.edited lib.yaml content current = some tree) :
    ∃ policy, tree = .mapping (Dict.assign "approval_policy" policy entries) := by
  simp only [PolicyFile.edited, read, mapping, Option.bind_eq_bind, Option.bind_some, Option.bind_eq_some_iff,
    Option.pure_def, Option.some.injEq] at edited
  obtain ⟨new, assigned, rfl⟩ := edited
  unfold PolicyFile.assignList at assigned
  split at assigned
  · exact ⟨_, congrArg Raw.mapping (Option.some.inj assigned).symm⟩
  · cases assigned

theorem holds_policy {name : String} {add : Bool} {inSection field : String} {value : Scalar Other}
    (apart : inSection ≠ "approval_policy") (holds : Holds lib file inSection field (.scalar value))
    (reads : ∀ content current tree, file = some content → PolicyFile.edited lib.yaml content current = some tree →
      (PolicyFile.policySetEntry lib.env lib.yaml name add file).2 = some (lib.yaml.dump tree) →
        PolicyFile.Reads lib.yaml tree) :
    Holds lib (PolicyFile.policySetEntry lib.env lib.yaml name add file).2 inSection field (.scalar value) := by
  rcases PolicyFile.policySetEntry_file lib.env lib.yaml name add file with same | ⟨text, current, tree, there, edited, written⟩
  · rw [same]
    exact holds
  · -- the tree is the old one but for the list, and YAML sorts the keys of both
    obtain ⟨content, document, entries, fields, found, read, mapping, listed, given⟩ := holds
    cases there.symm.trans found
    obtain ⟨keys, proper⟩ := proper_entries document.property mapping
    have inner : (fields.map Prod.fst).Nodup := by
      cases proper inSection _ listed with
      | mapping keys _ => exact keys
    obtain ⟨again, readAgain, content⟩ := Option.map_eq_some_iff.mp (reads text current tree there edited written)
    obtain ⟨policy, rfl⟩ := edited_eq read mapping edited
    rw [sortKeys_mapping] at content
    rw [written]
    refine ⟨_, again, sortedEntries (Dict.assign "approval_policy" policy entries), sortedEntries fields, rfl, readAgain, ?_,
      ?_, ?_⟩
    · rw [content]
      rfl
    · rw [find_sortedEntries (Dict.nodup_assign _ _ _ keys), Dict.find_assign, if_neg apart, listed, Option.map_some,
        sortKeys_mapping]
    · rw [find_sortedEntries inner, given, Option.map_some, sortKeys_scalar]

theorem apiToken_loaded (texts : ∀ value, lib.env.optionalText (.string value) = .ok (some value)) {token : String}
    (holds : Holds lib file "identity" "api_token" (text token)) {config : Value}
    (loaded : Config.loadConfig lib.env lib.yaml file = .ok config) : apiToken config = some token := by
  obtain ⟨content, document, entries, fields, rfl, read, mapping, listed, given⟩ := holds
  have loads := (loadConfig_iff read mapping config).mp loaded
  have known : sections.get? "identity" = some identitySection := rfl
  have kind : identitySection.get? "api_token" = some .optionalText := rfl
  obtain ⟨value, validated, set⟩ := setting_field loads known listed kind
  have outcome : (Field.optionalText.schema lib.env).validate
      (Schema.scalars identitySection.keys (fieldSchema lib.env identitySection) fields) (some (text token)) =
      .ok (.text (some token)) := by
    simp only [Field.schema, scalarField, Schema.validate, text, texts, Except.map, refused, Except.mapError]
  rw [given, outcome] at validated
  cases validated
  rw [apiToken, set]

theorem apiToken_missing {config : Value} (loaded : Config.loadConfig lib.env lib.yaml none = .ok config) :
    apiToken config = none := by
  have loads := (defaults_iff lib.env config).mp loaded
  have default : sectionOf lib.env [] "identity" = .ok (.model
      [("key_fingerprint", .text none), ("hostname_hint", .text none), ("api_token", .text none)]) := by
    rfl
  rw [apiToken, setting_loaded loads (by decide), default]
  rfl

/-! ## What a run leaves -/

theorem keys_kept (setup : Setup) {home : Home} {keys : KeyPair} (privateKey : home.privateKey = some keys.privatePem)
    (publicKey : home.publicKey = some keys.publicLine) : generateKeypair setup home = (keys, home) := by
  simp only [generateKeypair, privateKey, publicKey]

theorem keys_generated (setup : Setup) (home : Home) :
    (generateKeypair setup home).2.privateKey = some (generateKeypair setup home).1.privatePem ∧
      (generateKeypair setup home).2.publicKey = some (generateKeypair setup home).1.publicLine ∧
      (generateKeypair setup home).2.config = home.config ∧
      ((generateKeypair setup home).1.publicLine = setup.generated.publicLine ∨
        home.publicKey = some (generateKeypair setup home).1.publicLine) := by
  unfold generateKeypair
  split
  next privatePem line privateKey publicKey => exact ⟨privateKey, publicKey, rfl, Or.inr publicKey⟩
  next => exact ⟨rfl, rfl, rfl, Or.inl rfl⟩

def configWritten (lib : Libraries Other) (setup : Setup) (home : Home) (config : Value) : List (String × Raw (Scalar Other)) :=
  configData lib setup ((generateKeypair setup home).1.publicLine.fingerprint lib) (tokenFor setup config)

/-- What a run can do: stop at config.yaml, stop at authorized_keys, or go through. -/
inductive Ran (lib : Libraries Other) (machine : Machine) (setup : Setup) (home : Home) :
    Except InitError Text × Home → Prop where
  | refused (error : ConfigError) : Ran lib machine setup home (.error (.config error), home)
  | stopped : Ran lib machine setup home (.error .undecodable, (generateKeypair setup home).2)
  | through {config : Value} {after : Home} (loaded : Config.loadConfig lib.env lib.yaml home.config = .ok config)
      (privateKey : after.privateKey = some (generateKeypair setup home).1.privatePem)
      (publicKey : after.publicKey = some (generateKeypair setup home).1.publicLine)
      (written : after.config = some (lib.yaml.dump (.mapping (configData lib setup
        ((generateKeypair setup home).1.publicLine.fingerprint lib) (tokenFor setup config))))) :
      Ran lib machine setup home
        ((encodeBundle (bundleOf lib machine setup (generateKeypair setup home).1 (tokenFor setup config))).mapError .bundle,
          after)

theorem cmdInit_ran (lib : Libraries Other) (machine : Machine) (setup : Setup) (home : Home) :
    Ran lib machine setup home (cmdInit lib machine setup home) := by
  obtain ⟨privateKey, publicKey, -⟩ := keys_generated setup home
  unfold cmdInit
  cases loaded : Config.loadConfig lib.env lib.yaml home.config with
  | error error => exact .refused error
  | ok config =>
    simp only
    split
    · exact .stopped
    · exact .through loaded privateKey publicKey rfl

structure Settled (lib : Libraries Other) (home : Home) (keys : KeyPair) (token : String) (port : Int) : Prop where
  privateKey : home.privateKey = some keys.privatePem
  publicKey : home.publicKey = some keys.publicLine
  token : Holds lib home.config "identity" "api_token" (text token)
  fingerprint : Holds lib home.config "identity" "key_fingerprint" (text (keys.publicLine.fingerprint lib))
  port : Holds lib home.config "agent" "listen_port" (number lib port)

section
variable {machine : Machine} {setup : Setup} {home : Home} {keys : KeyPair} {token : String} {port : Int}

theorem settled_written (privateKey : home.privateKey = some keys.privatePem) (publicKey : home.publicKey = some keys.publicLine)
    (written : home.config =
      some (lib.yaml.dump (.mapping (configData lib setup (keys.publicLine.fingerprint lib) token))))
    (reads : PolicyFile.Reads lib.yaml (.mapping (configData lib setup (keys.publicLine.fingerprint lib) token))) :
    Settled lib home keys token setup.port := by
  have identity : Dict.find (configData lib setup (keys.publicLine.fingerprint lib) token) "identity" =
      some (.mapping (identityData setup (keys.publicLine.fingerprint lib) token)) := rfl
  have agent : Dict.find (configData lib setup (keys.publicLine.fingerprint lib) token) "agent" =
      some (.mapping (agentData lib setup)) := rfl
  have identityKeys : ((identityData setup (keys.publicLine.fingerprint lib) token :
      List (String × Raw (Scalar Other))).map Prod.fst).Nodup := by
    change ["key_fingerprint", "hostname_hint", "api_token"].Nodup
    decide
  have agentKeys : ((agentData lib setup).map Prod.fst).Nodup := by
    change ["listen_port", "idle_timeout_seconds", "lifecycle_check_interval_seconds", "log_tail_lines", "scripts_dir",
      "pending_dir", "logs_dir", "state_path", "approvals_path"].Nodup
    decide
  refine ⟨privateKey, publicKey, ?_, ?_, ?_⟩ <;> rw [written]
  · exact holds_written reads identity identityKeys rfl
  · exact holds_written reads identity identityKeys rfl
  · exact holds_written reads agent agentKeys rfl

theorem settled_policy {name : String} {add : Bool} (settled : Settled lib home keys token port)
    (reads : ∀ content current tree, home.config = some content → PolicyFile.edited lib.yaml content current = some tree →
      (PolicyFile.policySetEntry lib.env lib.yaml name add home.config).2 = some (lib.yaml.dump tree) →
        PolicyFile.Reads lib.yaml tree) :
    Settled lib { home with config := (PolicyFile.policySetEntry lib.env lib.yaml name add home.config).2 } keys token port where
  privateKey := settled.privateKey
  publicKey := settled.publicKey
  token := holds_policy (by decide) settled.token reads
  fingerprint := holds_policy (by decide) settled.fingerprint reads
  port := holds_policy (by decide) settled.port reads

theorem ok_of_mapError {Error Other : Type} {convert : Error → Other} {result : Except Error Text} {printed : Text}
    (prints : result.mapError convert = .ok printed) : result = .ok printed := by
  cases result with
  | error raised => cases prints
  | ok encoded => exact congrArg Except.ok (Except.ok.inj prints)

/-- A further run takes over the keys and the token; what it changes is the port. -/
theorem settled_cmdInit (texts : ∀ value, lib.env.optionalText (.string value) = .ok (some value)) (given : token ≠ "")
    (reads : ∀ config, Config.loadConfig lib.env lib.yaml home.config = .ok config →
      PolicyFile.Reads lib.yaml (.mapping (configWritten lib setup home config)))
    (settled : Settled lib home keys token port) :
    ∃ listens, (listens = port ∨ listens = setup.port) ∧ Settled lib (cmdInit lib machine setup home).2 keys token listens ∧
      ∀ printed, (cmdInit lib machine setup home).1 = .ok printed →
        encodeBundle (bundleOf lib machine setup keys token) = .ok printed := by
  have ran := cmdInit_ran lib machine setup home
  have kept := keys_kept setup settled.privateKey settled.publicKey
  generalize cmdInit lib machine setup home = ended at ran
  cases ran with
  | refused error => exact ⟨port, Or.inl rfl, settled, fun _ prints => by cases prints⟩
  | stopped =>
    -- both key files were there, so the run has drawn no pair that it could leave behind
    rw [kept]
    exact ⟨port, Or.inl rfl, settled, fun _ prints => by cases prints⟩
  | @through config after loaded privateKey publicKey written =>
    have found := apiToken_loaded texts settled.token loaded
    have same : tokenFor setup config = token := by
      simp only [tokenFor, found, if_neg given]
    have again := reads config loaded
    rw [configWritten, kept, same] at again
    rw [kept] at privateKey publicKey written ⊢
    rw [same] at written ⊢
    exact ⟨setup.port, Or.inr rfl, settled_written privateKey publicKey written again,
      fun printed prints => ok_of_mapError prints⟩

/-- The run that writes config.yaml for the first time draws the token. -/
theorem first_cmdInit (missing : home.config = none)
    (reads : ∀ config, Config.loadConfig lib.env lib.yaml home.config = .ok config →
      PolicyFile.Reads lib.yaml (.mapping (configWritten lib setup home config))) :
    ((cmdInit lib machine setup home).2.config = none ∧ ∀ printed, (cmdInit lib machine setup home).1 ≠ .ok printed) ∨
      ∃ keys, Settled lib (cmdInit lib machine setup home).2 keys setup.apiToken setup.port ∧
        ∀ printed, (cmdInit lib machine setup home).1 = .ok printed →
          encodeBundle (bundleOf lib machine setup keys setup.apiToken) = .ok printed := by
  have ran := cmdInit_ran lib machine setup home
  obtain ⟨-, -, kept, -⟩ := keys_generated setup home
  generalize cmdInit lib machine setup home = ended at ran
  cases ran with
  | refused error => exact Or.inl ⟨missing, fun _ prints => by cases prints⟩
  | stopped => exact Or.inl ⟨kept.trans missing, fun _ prints => by cases prints⟩
  | @through config after loaded privateKey publicKey written =>
    have again := reads config loaded
    -- the config that is loaded without a file has no token, so the drawn one is written
    rw [missing] at loaded
    have drawn : tokenFor setup config = setup.apiToken := by
      simp only [tokenFor, apiToken_missing loaded]
    rw [configWritten, drawn] at again
    rw [drawn] at written ⊢
    exact Or.inr ⟨_, settled_written privateKey publicKey written again,
      fun printed prints => ok_of_mapError prints⟩

theorem publicKey_cmdInit {line : PublicLine} (there : (cmdInit lib machine setup home).2.publicKey = some line) :
    line = setup.generated.publicLine ∨ home.publicKey = some line := by
  have ran := cmdInit_ran lib machine setup home
  obtain ⟨-, publicKey, -, origin⟩ := keys_generated setup home
  generalize cmdInit lib machine setup home = ended at ran there
  cases ran with
  | refused error => exact Or.inr there
  | stopped =>
    rw [← Option.some.inj (publicKey.symm.trans there)]
    exact origin
  | through loaded privateKey after written =>
    rw [← Option.some.inj (after.symm.trans there)]
    exact origin

end

end

end Csl.Agent.Init
