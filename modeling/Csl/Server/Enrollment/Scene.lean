import Csl.Library.Runs
import Csl.Server.Enrollment

/-! Targets that are set up, and the control station that registers them.

On the targets `init` runs any number of times between the policy commands and edits by hand; on the
station registrations go on in their parts, one beside the other. The invariant says of a target that
every bundle it printed has the keys and the token that its files hold, and of a registration that was
tested that a key of its fingerprint was drawn where its address leads.
-/

set_option autoImplicit false

namespace Csl.Server.Enrollment
open Csl.Shared Csl.Agent RecordModels Config CodePoint Init

variable {Target Other : Type}

/-- The targets and the station, and which target an address leads to. -/
structure Deployment (Target Other : Type) where
  lib : Libraries Other
  machine : Target → Init.Machine
  station : Station Other
  route : String → Int → Option Target

inductive Dialled where
  /-- With an exception that the test catches, or with another. -/
  | failed (caught : Bool)
  /-- With the host key line, and the way in which the target prints a file. -/
  | made (hostKeyLine : Option String) (shown : String → String)

inductive Event (Target : Type) where
  | init (target : Target) (setup : Setup)
  | policy (target : Target) (name : String) (add : Bool)
  /-- config.yaml is edited by hand. -/
  | edit (target : Target) (content : String)
  | register (body : RegisterMachineIn)
  /-- The connection test of a registration. -/
  | connect (registration : Nat) (dialled : Dialled)
  | persist (registration : Nat) (keyNonce tokenNonce : Nonce) (accepted : Bool)
  | delete (machineId : Nat)

/-- The files of the targets, the bundles that they have printed, and what the station has. -/
structure Scene (Target : Type) where
  homes : Target → Home
  printed : List (Target × Text)
  registrations : List Registration
  machines : List MachineRow

/-- Nothing is set up and nothing registered; the users have keys of their own. -/
def opened (authorizedKeys : Target → KeysPath → AuthorizedKeys.Content) : Scene Target where
  homes target := ⟨none, none, none, authorizedKeys target, none⟩
  printed := []
  registrations := []
  machines := []

/-! ## Steps -/

def executed (home : Home) (shown : String → String) (command : String) : CommandResult :=
  if command ∈ configReadCmd.map Prod.snd then
    match home.config with
    | some content => ⟨shown content, 0⟩
    | none => ⟨"", 1⟩
  else ⟨"", 0⟩

def platformName : JsonValue → String
  | .string text => String.ofList (leadingCharacters text)
  | _ => ""

section
variable (d : Deployment Target Other)

/-- What the station's config read prints, as it comes through the gateway of its key. -/
def configRead (target : Target) (home : Home) (shown : String → String) (platform : JsonValue) : String :=
  (cmdSshGateway (d.machine target).platform (executed home shown) (remoteConfigCmd (platformName platform))).stdout

def connected (homes : Target → Home) (dialled : Dialled) (registration : Registration) : Registration :=
  match registration.phase with
  | .checked bundle =>
    { registration with phase :=
        match dialled, d.route registration.body.sshHost registration.body.sshPort with
        | .failed false, _ => .ended .raised
        | .failed true, _ | .made .., none => .ended (.refused 422)
        | .made hostKeyLine shown, some target =>
          match sshConnectionTest d.station d.lib.yaml bundle
              ⟨hostKeyLine, configRead d target (homes target) shown bundle.platform⟩ with
          | .error ending => .ended ending
          | .ok hostKeyLine => .tested bundle hostKeyLine }
  | .tested .. | .ended _ => registration

variable [DecidableEq Target]

-- A registration takes three steps. It waits for the connection before the second and for its own
-- transaction before the third, and whatever else happens may come in between.
def step (scene : Scene Target) : Event Target → Scene Target
  | .init target setup =>
    let ran := cmdInit d.lib (d.machine target) setup (scene.homes target)
    { scene with
      homes := Function.update scene.homes target ran.2
      printed := scene.printed ++ ran.1.toOption.toList.map fun bundle => (target, bundle) }
  | .policy target name add =>
    let home := scene.homes target
    let config := (PolicyFile.policySetEntry d.lib.env d.lib.yaml name add home.config).2
    { scene with homes := Function.update scene.homes target { home with config } }
  | .edit target content =>
    { scene with homes := Function.update scene.homes target { scene.homes target with config := some content } }
  | .register body =>
    { scene with registrations := scene.registrations ++ [⟨body, check d.station scene.machines body⟩] }
  | .connect registration dialled =>
    { scene with registrations := scene.registrations.modify registration (connected d scene.homes dialled) }
  | .persist registration keyNonce tokenNonce accepted =>
    match scene.registrations[registration]? with
    | some ⟨body, .tested bundle hostKeyLine⟩ =>
      let written := persist d.station scene.machines body bundle hostKeyLine keyNonce tokenNonce accepted
      { scene with
        registrations := scene.registrations.set registration ⟨body, .ended written.1⟩
        machines := written.2 }
    | _ => scene
  | .delete machineId => { scene with machines := scene.machines.filter fun row => row.id ≠ machineId }

end

/-! ## What a run rests on -/

/-- What is documented of the libraries. The gateway's refusal is YAML for a mapping with one entry. -/
structure Documented (lib : Libraries Other) : Prop where
  texts : ∀ value, lib.env.optionalText (.string value) = .ok (some value)
  numbers : ∀ value, lib.env.integer (.other (lib.integer value)) = .ok value
  nothing : (lib.yaml.safeLoad "").map Subtype.val = some (.scalar .null)
  refusal : (lib.yaml.safeLoad notPermitted).map Subtype.val =
    some (.mapping [("csl-agent ssh-gateway", .scalar (.string "command not permitted"))])

def identifying : List (String × String) :=
  [("identity", "api_token"), ("identity", "key_fingerprint"), ("agent", "listen_port")]

/-- What commands write is read back, edits by hand leave the identity and the port, and the fingerprint
is the same in a file and in what is printed of it. -/
def Sound (d : Deployment Target Other) (scene : Scene Target) : Event Target → Prop
  | .init target setup => ∀ config, Config.loadConfig d.lib.env d.lib.yaml (scene.homes target).config = .ok config →
      PolicyFile.Reads d.lib.yaml (.mapping (configWritten d.lib setup (scene.homes target) config))
  | .policy target name add => ∀ content current tree, (scene.homes target).config = some content →
      PolicyFile.edited d.lib.yaml content current = some tree →
      (PolicyFile.policySetEntry d.lib.env d.lib.yaml name add (scene.homes target).config).2 =
        some (d.lib.yaml.dump tree) → PolicyFile.Reads d.lib.yaml tree
  | .edit target content => (scene.homes target).config ≠ none ∧ ∀ place ∈ identifying, ∀ value,
      Holds d.lib (scene.homes target).config place.1 place.2 (.scalar value) →
        Holds d.lib (some content) place.1 place.2 (.scalar value)
  | .connect _ (.made _ shown) => ∀ target content, (scene.homes target).config = some content →
      remoteFingerprint d.station d.lib.yaml (shown content) = remoteFingerprint d.station d.lib.yaml content
  | .connect _ (.failed _) | .register _ | .persist .. | .delete _ => True

/-! ## The connection test -/

theorem ofString_injective {first second : String} (same : ofString first = ofString second) : first = second := by
  have injective : Function.Injective CodePoint.scalar := fun _ _ => CodePoint.scalar.inj
  exact String.toList_inj.mp (List.map_injective_iff.mpr injective same)

section
variable {d : Deployment Target Other} {home : Home}

/-- The station finds the fingerprint that the file has. -/
theorem remoteFingerprint_held {content : String} {value : Scalar Other}
    (holds : Holds d.lib (some content) "identity" "key_fingerprint" (.scalar value)) :
    remoteFingerprint d.station d.lib.yaml content = .ok (some (.scalar value)) := by
  obtain ⟨_, document, entries, fields, same, read, mapping, listed, given⟩ := holds
  cases Option.some.inj same
  have whole : orEmpty d.station document.val = some entries := by
    revert mapping
    cases document.val with
    | scalar scalar =>
      cases scalar with
      | null => exact id
      | string text => exact nofun
      | other value => exact nofun
    | sequence items => exact nofun
    | mapping entries => exact id
  have inner : orEmpty d.station (.mapping fields) = some fields := rfl
  simp only [remoteFingerprint, read, whole, listed, Option.elim_some, inner, given]

theorem remoteFingerprint_nothing {stdout : String} {entries : List (String × Raw (Scalar Other))} {raw : Raw (Scalar Other)}
    (read : (d.lib.yaml.safeLoad stdout).map Subtype.val = some raw) (mapping : orEmpty d.station raw = some entries)
    (absent : Dict.find entries "identity" = none) : remoteFingerprint d.station d.lib.yaml stdout = .ok none := by
  obtain ⟨document, loaded, rfl⟩ := Option.map_eq_some_iff.mp read
  simp only [remoteFingerprint, loaded, mapping, absent, Option.elim_none]
  rfl

theorem sameFingerprint_text (station : Station Other) (remote : Option (Raw (Scalar Other))) (fingerprint : String) :
    sameFingerprint station remote (.string (ofString fingerprint)) = true ↔
      remote = some (.scalar (.string fingerprint)) := by
  unfold sameFingerprint
  constructor
  · intro same
    cases remote with
    | none => cases same
    | some raw =>
      cases raw with
      | scalar value =>
        cases value with
        | null => cases same
        | string text =>
          have equal : ofString text = ofString fingerprint := of_decide_eq_true same
          rw [ofString_injective equal]
        | other value => cases same
      | sequence items => cases same
      | mapping entries => cases same
  · intro same
    rw [same]
    exact decide_eq_true rfl

theorem sshConnectionTest_ok {bundle : RegistrationBundle JsonValue} {contact : Contact} {line : String}
    (passed : sshConnectionTest d.station d.lib.yaml bundle contact = .ok line) :
    ∃ remote, remoteFingerprint d.station d.lib.yaml contact.stdout = .ok remote ∧
      sameFingerprint d.station remote bundle.keyFingerprint = true := by
  unfold sshConnectionTest at passed
  cases key : contact.hostKeyLine with
  | none =>
    rw [key] at passed
    cases passed
  | some hostKeyLine =>
    rw [key] at passed
    cases read : remoteFingerprint d.station d.lib.yaml contact.stdout with
    | error ending =>
      rw [read] at passed
      cases passed
    | ok remote =>
      refine ⟨remote, rfl, ?_⟩
      by_contra differs
      simp only [read, bind, Except.bind, if_neg differs] at passed
      cases passed

/-- Whatever the platform, the station reads the file's fingerprint or none. -/
theorem remoteFingerprint_configRead (documented : Documented d.lib) (target : Target) {shown : String → String}
    (same : ∀ content, home.config = some content →
      remoteFingerprint d.station d.lib.yaml (shown content) = remoteFingerprint d.station d.lib.yaml content)
    (platform : JsonValue) {fingerprint : String}
    (read : remoteFingerprint d.station d.lib.yaml (configRead d target home shown platform) =
      .ok (some (.scalar (.string fingerprint)))) :
    ∃ content, home.config = some content ∧
      remoteFingerprint d.station d.lib.yaml content = .ok (some (.scalar (.string fingerprint))) := by
  have nothing : remoteFingerprint d.station d.lib.yaml "" = .ok none :=
    remoteFingerprint_nothing documented.nothing rfl rfl
  rw [configRead, cmdSshGateway_eq] at read
  split_ifs at read with allowed
  · unfold executed at read
    -- of the commands that the gateway runs only the config reads print anything
    split_ifs at read with reads
    · cases there : home.config with
      | none =>
        rw [there, nothing] at read
        cases read
      | some content =>
        rw [there] at read
        exact ⟨content, rfl, (same content there).symm.trans read⟩
    · rw [nothing] at read
      cases read
  · rw [remoteFingerprint_nothing documented.refusal rfl rfl] at read
    cases read

end

/-! ## What is known of the targets and of the registrations -/

section
variable (d : Deployment Target Other) (events : List (Event Target))

def Drawn (target : Target) (fingerprint : String) : Prop :=
  ∃ setup, .init target setup ∈ events ∧ setup.generated.publicLine.fingerprint d.lib = fingerprint

/-- The target is set up with these, and they are in whatever it printed. -/
structure SetUp (scene : Scene Target) (target : Target) (keys : KeyPair) (token : String) (port : Int) : Prop where
  given : token ≠ ""
  ascii : ∀ c ∈ token.toList, c.toNat < 128
  settled : Settled d.lib (scene.homes target) keys token port
  listens : ∃ setup, .init target setup ∈ events ∧ setup.port = port
  printed : ∀ bundle, (target, bundle) ∈ scene.printed → ∃ setup, .init target setup ∈ events ∧
    encodeBundle (bundleOf d.lib (d.machine target) setup keys token) = .ok bundle

structure TargetKnown (scene : Scene Target) (target : Target) : Prop where
  drawn : ∀ line, (scene.homes target).publicKey = some line → Drawn d events target (line.fingerprint d.lib)
  state : (scene.homes target).config = none ∧ (∀ bundle, (target, bundle) ∉ scene.printed) ∨
    ∃ keys token port, SetUp d events scene target keys token port

def Decoded (body : RegisterMachineIn) (bundle : RegistrationBundle JsonValue) : Prop :=
  RegistrationBundle.decode d.station.decimals d.station.nesting body.bundle = .ok bundle

/-- The address leads to a target for which the bundle's key was drawn. -/
def Tested (body : RegisterMachineIn) (bundle : RegistrationBundle JsonValue) : Prop :=
  Decoded d body bundle ∧ ∃ target, d.route body.sshHost body.sshPort = some target ∧
    ∀ fingerprint, bundle.keyFingerprint = .string (ofString fingerprint) → Drawn d events target fingerprint

def Vetted (registration : Registration) : Prop :=
  match registration.phase with
  | .checked bundle => Decoded d registration.body bundle
  | .tested bundle _ => Tested d events registration.body bundle
  | .ended _ => True

def Stored (body : RegisterMachineIn) (bundle : RegistrationBundle JsonValue) (row : MachineRow) : Prop :=
  ∃ rows hostKeyLine privateKey apiToken, ∃ keyNonce tokenNonce : Nonce,
    encoded bundle.privateKey = some privateKey ∧ encoded bundle.apiToken = some apiToken ∧
      row = rowFor rows body bundle hostKeyLine (encrypt d.station.aes keyNonce privateKey d.station.masterKey)
        (encrypt d.station.aes tokenNonce apiToken d.station.masterKey)

structure Known (scene : Scene Target) : Prop where
  targets : ∀ target, TargetKnown d events scene target
  registrations : ∀ registration ∈ scene.registrations, Vetted d events registration
  machines : ∀ row ∈ scene.machines, ∃ body ∈ scene.registrations.map (·.body), ∃ bundle,
    Tested d events body bundle ∧ Stored d body bundle row

end

section
variable {d : Deployment Target Other} {events : List (Event Target)} {scene : Scene Target} {target : Target}
  {keys : KeyPair} {token : String} {port : Int}

/-! ### Steps of a target -/

/-- The station takes no part in what is known of a target. -/
theorem targetKnown_congr {later : Scene Target} (homes : later.homes target = scene.homes target)
    (printed : ∀ bundle, (target, bundle) ∈ later.printed → (target, bundle) ∈ scene.printed)
    (known : TargetKnown d events scene target) : TargetKnown d events later target := by
  obtain ⟨drawn, state⟩ := known
  rw [← homes] at drawn state
  refine ⟨drawn, ?_⟩
  rcases state with ⟨missing, silent⟩ | ⟨keys, token, port, given, ascii, settled, listens, said⟩
  · exact Or.inl ⟨missing, fun bundle member => silent bundle (printed bundle member)⟩
  · exact Or.inr ⟨keys, token, port, given, ascii, homes ▸ settled, listens, fun bundle member => said bundle (printed bundle member)⟩

theorem mem_printed {result : Except InitError Text} {bundle : Text}
    (member : (target, bundle) ∈ scene.printed ++ result.toOption.toList.map fun bundle => (target, bundle)) :
    (target, bundle) ∈ scene.printed ∨ result = .ok bundle := by
  rcases List.mem_append.mp member with before | now
  · exact Or.inl before
  · obtain ⟨text, listed, same⟩ := List.mem_map.mp now
    cases result with
    | error raised => cases listed
    | ok printed =>
      have text_eq : text = printed := List.mem_singleton.mp listed
      rw [← text_eq, (Prod.mk.inj same).2]
      exact Or.inr rfl

theorem targetKnown_init [DecidableEq Target] (documented : Documented d.lib) {setup : Setup} (member : .init target setup ∈ events)
    (sound : Sound d scene (.init target setup)) (known : TargetKnown d events scene target) :
    TargetKnown d events (step d scene (.init target setup)) target := by
  have home : (step d scene (.init target setup)).homes target =
      (cmdInit d.lib (d.machine target) setup (scene.homes target)).2 := Function.update_self ..
  refine ⟨fun line there => ?_, ?_⟩
  · rw [home] at there
    rcases publicKey_cmdInit there with generated | before
    · exact ⟨setup, member, by rw [generated]⟩
    · exact known.drawn line before
  rcases known.state with ⟨missing, silent⟩ | ⟨keys, token, port, setUp⟩
  · -- the first run that goes through draws the token
    rcases first_cmdInit missing sound with ⟨still, stopped⟩ | ⟨keys, settled, prints⟩
    · refine Or.inl ⟨by rw [home, still], fun bundle listed => ?_⟩
      rcases mem_printed listed with before | now
      · exact silent bundle before
      · exact stopped bundle now
    · rw [← home] at settled
      refine Or.inr ⟨keys, setup.apiToken, setup.port, setup.given, setup.ascii, settled, ⟨setup, member, rfl⟩,
        fun bundle listed => ?_⟩
      rcases mem_printed listed with before | now
      · exact absurd before (silent bundle)
      · exact ⟨setup, member, prints bundle now⟩
  · -- a later run keeps the keys and the token, whichever port it leaves
    obtain ⟨listens, which, settled, prints⟩ := settled_cmdInit documented.texts setUp.given sound setUp.settled
    rw [← home] at settled
    refine Or.inr ⟨keys, token, listens, setUp.given, setUp.ascii, settled, ?_, fun bundle listed => ?_⟩
    · rcases which with same | new
      · rw [same]
        exact setUp.listens
      · exact ⟨setup, member, new.symm⟩
    · rcases mem_printed listed with before | now
      · exact setUp.printed bundle before
      · exact ⟨setup, member, prints bundle now⟩

theorem targetKnown_policy [DecidableEq Target] {name : String} {add : Bool} (sound : Sound d scene (.policy target name add))
    (known : TargetKnown d events scene target) : TargetKnown d events (step d scene (.policy target name add)) target := by
  have home : (step d scene (.policy target name add)).homes target = { scene.homes target with
      config := (PolicyFile.policySetEntry d.lib.env d.lib.yaml name add (scene.homes target).config).2 } :=
    Function.update_self ..
  refine ⟨fun line there => known.drawn line (by rw [home] at there; exact there), ?_⟩
  rcases known.state with ⟨missing, silent⟩ | ⟨keys, token, port, setUp⟩
  · refine Or.inl ⟨?_, silent⟩
    rcases PolicyFile.policySetEntry_file d.lib.env d.lib.yaml name add (scene.homes target).config with
      same | ⟨text, current, tree, there, -⟩
    · rw [home, same, missing]
    · -- the command edits a file, and there is none
      rw [missing] at there
      cases there
  · have settled := settled_policy setUp.settled sound
    rw [← home] at settled
    exact Or.inr ⟨keys, token, port, setUp.given, setUp.ascii, settled, setUp.listens, setUp.printed⟩

theorem targetKnown_edit [DecidableEq Target] {content : String} (sound : Sound d scene (.edit target content))
    (known : TargetKnown d events scene target) : TargetKnown d events (step d scene (.edit target content)) target := by
  have home : (step d scene (.edit target content)).homes target = { scene.homes target with config := some content } :=
    Function.update_self ..
  refine ⟨fun line there => known.drawn line (by rw [home] at there; exact there), ?_⟩
  obtain ⟨present, kept⟩ := sound
  rcases known.state with ⟨missing, -⟩ | ⟨keys, token, port, setUp⟩
  · exact absurd missing present
  · obtain ⟨given, ascii, settled, listens, printed⟩ := setUp
    have after : Settled d.lib ((step d scene (.edit target content)).homes target) keys token port := by
      rw [home]
      exact ⟨settled.privateKey, settled.publicKey, kept ("identity", "api_token") (by decide) _ settled.token,
        kept ("identity", "key_fingerprint") (by decide) _ settled.fingerprint,
        kept ("agent", "listen_port") (by decide) _ settled.port⟩
    exact Or.inr ⟨keys, token, port, given, ascii, after, listens, printed⟩

/-! ### Steps of a registration -/

theorem check_cases (rows : List MachineRow) (body : RegisterMachineIn) :
    (∃ ending, check d.station rows body = .ended ending) ∨
      ∃ bundle, Decoded d body bundle ∧ check d.station rows body = .checked bundle := by
  unfold Decoded check
  cases RegistrationBundle.decode d.station.decimals d.station.nesting body.bundle with
  | error raised => cases raised <;> exact Or.inl ⟨_, rfl⟩
  | ok bundle =>
    simp only
    cases assertVersionCompatible d.station bundle.agentVersion with
    | error ending => exact Or.inl ⟨_, rfl⟩
    | ok =>
      by_cases name : taken rows body.name = true
      · exact Or.inl ⟨_, if_pos name⟩
      · exact Or.inr ⟨bundle, rfl, if_neg name⟩

theorem vetted_check (rows : List MachineRow) (body : RegisterMachineIn) :
    Vetted d events ⟨body, check d.station rows body⟩ := by
  rcases check_cases (d := d) rows body with ⟨ending, same⟩ | ⟨bundle, decoded, same⟩
  · rw [same]
    trivial
  · rw [same]
    exact decoded

theorem drawn_of_test (documented : Documented d.lib) (known : TargetKnown d events scene target) {shown : String → String}
    (same : ∀ content, (scene.homes target).config = some content →
      remoteFingerprint d.station d.lib.yaml (shown content) = remoteFingerprint d.station d.lib.yaml content)
    {bundle : RegistrationBundle JsonValue} {hostKeyLine : Option String} {line : String}
    (passed : sshConnectionTest d.station d.lib.yaml bundle
      ⟨hostKeyLine, configRead d target (scene.homes target) shown bundle.platform⟩ = .ok line)
    {fingerprint : String} (given : bundle.keyFingerprint = .string (ofString fingerprint)) :
    Drawn d events target fingerprint := by
  obtain ⟨remote, read, equal⟩ := sshConnectionTest_ok passed
  rw [given, sameFingerprint_text] at equal
  rw [equal] at read
  obtain ⟨content, there, found⟩ := remoteFingerprint_configRead documented target same bundle.platform read
  rcases known.state with ⟨missing, -⟩ | ⟨keys, token, port, setUp⟩
  · rw [missing] at there
    cases there
  · -- what was read is the file's fingerprint, which is that of the target's public key
    have held := setUp.settled.fingerprint
    rw [there] at held
    have own := remoteFingerprint_held (d := d) held
    rw [found] at own
    cases own
    exact known.drawn keys.publicLine setUp.settled.publicKey

theorem connected_body (homes : Target → Home) (dialled : Dialled) (registration : Registration) :
    (connected d homes dialled registration).body = registration.body := by
  unfold connected
  split <;> rfl

theorem vetted_connected (documented : Documented d.lib) (known : ∀ target, TargetKnown d events scene target)
    {place : Nat} {dialled : Dialled} (sound : Sound d scene (.connect place dialled)) {registration : Registration}
    (vetted : Vetted d events registration) : Vetted d events (connected d scene.homes dialled registration) := by
  obtain ⟨body, phase⟩ := registration
  cases phase with
  | tested bundle hostKeyLine => exact vetted
  | ended ending => exact vetted
  | checked bundle =>
    have decoded : Decoded d body bundle := vetted
    cases dialled with
    | failed caught => cases caught <;> trivial
    | made hostKeyLine shown =>
      unfold Vetted connected
      simp only
      cases address : d.route body.sshHost body.sshPort with
      | none => trivial
      | some target =>
        simp only
        -- only a test that passes says anything of the target
        cases passed : sshConnectionTest d.station d.lib.yaml bundle
            ⟨hostKeyLine, configRead d target (scene.homes target) shown bundle.platform⟩ with
        | error ending => trivial
        | ok line =>
          exact ⟨decoded, target, address, fun fingerprint given =>
            drawn_of_test documented (known target) (sound target) passed given⟩

theorem persist_rows (rows : List MachineRow) (body : RegisterMachineIn) (bundle : RegistrationBundle JsonValue)
    (hostKeyLine : String) (keyNonce tokenNonce : Nonce) (accepted : Bool) {row : MachineRow}
    (member : row ∈ (persist d.station rows body bundle hostKeyLine keyNonce tokenNonce accepted).2) :
    row ∈ rows ∨ Stored d body bundle row := by
  unfold persist at member
  split at member
  next privateKey apiToken key token =>
    split_ifs at member
    · rcases List.mem_append.mp member with before | new
      · exact Or.inl before
      · exact Or.inr ⟨rows, hostKeyLine, privateKey, apiToken, keyNonce, tokenNonce, key, token, List.mem_singleton.mp new⟩
    · exact Or.inl member
  next => exact Or.inl member

/-! ## Every step keeps what is known -/

theorem known_homes [DecidableEq Target] (known : Known d events scene) {event : Event Target} (at_ : Target)
    (registrations : (step d scene event).registrations = scene.registrations)
    (machines : (step d scene event).machines = scene.machines)
    (others : ∀ target, target ≠ at_ → (step d scene event).homes target = scene.homes target ∧
      ∀ bundle, (target, bundle) ∈ (step d scene event).printed → (target, bundle) ∈ scene.printed)
    (here : TargetKnown d events (step d scene event) at_) : Known d events (step d scene event) where
  targets target := by
    by_cases same : target = at_
    · rw [same]
      exact here
    · obtain ⟨homes, printed⟩ := others target same
      exact targetKnown_congr homes printed (known.targets target)
  registrations := by
    rw [registrations]
    exact known.registrations
  machines := by
    rw [registrations, machines]
    exact known.machines

theorem known_station {later : Scene Target} (known : Known d events scene) (homes : later.homes = scene.homes)
    (printed : later.printed = scene.printed)
    (registrations : ∀ registration ∈ later.registrations, Vetted d events registration)
    (machines : ∀ row ∈ later.machines, ∃ body ∈ later.registrations.map (·.body), ∃ bundle,
      Tested d events body bundle ∧ Stored d body bundle row) : Known d events later where
  targets target := targetKnown_congr (by rw [homes]) (fun bundle member => by rwa [printed] at member) (known.targets target)
  registrations := registrations
  machines := machines

theorem bodies_connected (homes : Target → Home) (dialled : Dialled) (registrations : List Registration) (place : Nat) :
    (registrations.modify place (connected d homes dialled)).map (·.body) = registrations.map (·.body) := by
  apply List.ext_getElem?
  intro index
  rw [List.getElem?_map, List.getElem?_map, List.getElem?_modify]
  cases registrations[index]? with
  | none => rfl
  | some registration =>
    change some (if place = index then connected d homes dialled registration else registration).body = _
    split_ifs
    · rw [connected_body]
      rfl
    · rfl

theorem bodies_set {registrations : List Registration} {place : Nat} {registration : Registration}
    (found : registrations[place]? = some registration) (phase : Phase) :
    (registrations.set place ⟨registration.body, phase⟩).map (·.body) = registrations.map (·.body) := by
  have asked : (registrations.map (·.body))[place]? = some registration.body := by
    rw [List.getElem?_map, found]
    rfl
  obtain ⟨inside, same⟩ := List.getElem?_eq_some_iff.mp asked
  rw [List.map_set]
  change (registrations.map _).set place registration.body = _
  rw [← same, List.set_getElem_self]

theorem known_register [DecidableEq Target] (body : RegisterMachineIn) (known : Known d events scene) :
    Known d events (step d scene (.register body)) := by
  refine known_station known rfl rfl ?_ ?_
  · intro registration listed
    rcases List.mem_append.mp listed with before | new
    · exact known.registrations registration before
    · rw [List.mem_singleton.mp new]
      exact vetted_check scene.machines body
  · intro row stored
    obtain ⟨body, listed, origin⟩ := known.machines row stored
    exact ⟨body, List.map_append ▸ List.mem_append_left _ listed, origin⟩

theorem known_connect [DecidableEq Target] (documented : Documented d.lib) {place : Nat} {dialled : Dialled}
    (sound : Sound d scene (.connect place dialled)) (known : Known d events scene) :
    Known d events (step d scene (.connect place dialled)) := by
  refine known_station known rfl rfl ?_ ?_
  · intro registration listed
    obtain ⟨index, found⟩ := List.getElem?_of_mem listed
    change (scene.registrations.modify place (connected d scene.homes dialled))[index]? = _ at found
    rw [List.getElem?_modify] at found
    obtain ⟨before, earlier, same⟩ := Option.map_eq_some_iff.mp found
    have vetted := known.registrations before (List.mem_of_getElem? earlier)
    rw [← same]
    split_ifs
    · exact vetted_connected documented known.targets sound vetted
    · exact vetted
  · have bodies := bodies_connected (d := d) scene.homes dialled scene.registrations place
    change ∀ row ∈ scene.machines, ∃ body ∈ (scene.registrations.modify place _).map _, _
    rw [bodies]
    exact known.machines

/-- The row is written from the bundle that was tested, not from what the target has by then. -/
theorem known_persist [DecidableEq Target] (place : Nat) (keyNonce tokenNonce : Nonce) (accepted : Bool)
    (known : Known d events scene) : Known d events (step d scene (.persist place keyNonce tokenNonce accepted)) := by
  simp only [step]
  split
  next body bundle hostKeyLine found =>
    have tested : Tested d events body bundle := known.registrations _ (List.mem_of_getElem? found)
    have bodies := bodies_set found
    refine known_station known rfl rfl ?_ ?_
    · intro registration listed
      rcases List.mem_or_eq_of_mem_set listed with before | new
      · exact known.registrations registration before
      · rw [new]
        trivial
    · intro row stored
      simp only [bodies]
      rcases persist_rows scene.machines body bundle hostKeyLine keyNonce tokenNonce accepted stored with before | new
      · exact known.machines row before
      · exact ⟨body, List.mem_map_of_mem (List.mem_of_getElem? found), bundle, tested, new⟩
  next => exact known

theorem known_step [DecidableEq Target] (documented : Documented d.lib) {event : Event Target} (member : event ∈ events)
    (sound : Sound d scene event) (known : Known d events scene) : Known d events (step d scene event) := by
  cases event with
  | init target setup =>
    apply known_homes known target rfl rfl
    · intro other apart
      refine ⟨Function.update_of_ne apart .., fun bundle listed => ?_⟩
      rcases List.mem_append.mp listed with before | now
      · exact before
      · obtain ⟨text, -, same⟩ := List.mem_map.mp now
        exact absurd (Prod.mk.inj same).1.symm apart
    · exact targetKnown_init documented member sound (known.targets target)
  | policy target name add =>
    apply known_homes known target rfl rfl
    · exact fun other apart => ⟨Function.update_of_ne apart .., fun _ listed => listed⟩
    · exact targetKnown_policy sound (known.targets target)
  | edit target content =>
    apply known_homes known target rfl rfl
    · exact fun other apart => ⟨Function.update_of_ne apart .., fun _ listed => listed⟩
    · exact targetKnown_edit sound (known.targets target)
  | register body => exact known_register body known
  | connect place dialled => exact known_connect documented sound known
  | persist place keyNonce tokenNonce accepted => exact known_persist place keyNonce tokenNonce accepted known
  | delete machineId =>
    refine known_station known rfl rfl ?_ ?_
    · exact known.registrations
    · exact fun row stored => known.machines row (List.mem_of_mem_filter stored)

theorem known_opened (authorizedKeys : Target → KeysPath → AuthorizedKeys.Content) : Known d events (opened authorizedKeys) where
  targets target := by
    constructor
    · intro line there
      cases there
    · exact Or.inl ⟨rfl, fun bundle listed => by cases listed⟩
  registrations registration listed := by cases listed
  machines row stored := by cases stored

end

theorem known_reached [DecidableEq Target] {d : Deployment Target Other} (documented : Documented d.lib)
    (authorizedKeys : Target → KeysPath → AuthorizedKeys.Content) (first rest : List (Event Target))
    (sound : Runs.Meets (step d) (Sound d) (opened authorizedKeys) (first ++ rest)) :
    Known d (first ++ rest) (Runs.run (step d) (opened authorizedKeys) first) := by
  have members : ∀ event ∈ first, event ∈ first ++ rest := fun event member => List.mem_append_left rest member
  have both : Runs.Meets (step d) (fun scene event => Sound d scene event ∧ event ∈ first ++ rest) (opened authorizedKeys)
      first := Runs.meets_and.mpr ⟨(Runs.meets_append.mp sound).1, Runs.meets_of_mem members⟩
  apply Runs.invariant_run (Known d (first ++ rest)) _ (known_opened authorizedKeys) both
  intro scene event known now
  exact known_step documented now.2 now.1 known

theorem known_run [DecidableEq Target] {d : Deployment Target Other} (documented : Documented d.lib)
    (authorizedKeys : Target → KeysPath → AuthorizedKeys.Content) {events : List (Event Target)}
    (sound : Runs.Meets (step d) (Sound d) (opened authorizedKeys) events) :
    Known d events (Runs.run (step d) (opened authorizedKeys) events) := by
  have known := known_reached documented authorizedKeys events [] (by rwa [List.append_nil])
  rwa [List.append_nil] at known

end Csl.Server.Enrollment
