import Csl.Library.SortedKeys
import Csl.Shared.Validation

/-! The agent's config.yaml, as it is loaded.

Every section is a record of fields, and a field of another section has no part in
it. A path may be given as any value, whose text names it; the other fields are
given as scalars, and the list of names as a list of them.
-/

set_option autoImplicit false

namespace Csl.Agent.Config
open RecordModels Shared.Validation

inductive Scalar (Other : Type) where
  | null
  | string (text : String)
  | other (value : Other)
  deriving DecidableEq

inductive Value where
  | integer (number : Int)
  | text (text : Option String)
  | path (path : String)
  | names (names : List String)
  | model (fields : List (String × Value))

def Value.field? : Value → String → Option Value
  | .model fields, name => Dict.find fields name
  | _, _ => none

/-- What validation and path handling make of single values: how pydantic takes a scalar for a number,
a text, a path or a list, Python's text of a value, and the paths of the platform. Its base directory
is a path that has nothing to expand. -/
structure Env (Other : Type) where
  integer : Scalar Other → Except Refusal Int
  optionalText : Scalar Other → Except Refusal (Option String)
  path : Scalar Other → Except Refusal String
  asText : Other → Option String
  asList : Other → Option (List String)
  str : Raw (Scalar Other) → String
  expanduser : String → Except Refusal String
  join : String → String → String
  platformBase : String

inductive Field where
  | integer (default : Int)
  | optionalText
  | path (default : String)
  /-- The directory that the other paths of its section are below by default. -/
  | root
  | below (file : String)
  | names
  deriving DecidableEq

def Field.isDerived : Field → Bool
  | .root | .below _ => true
  | .integer _ | .optionalText | .path _ | .names => false

variable {Other : Type} (env : Env Other)

/-- `Path(str(value)).expanduser()`. -/
def pathOf (raw : Raw (Scalar Other)) : Except Refusal String := env.expanduser (env.str raw)

def rootOf : Option (Raw (Scalar Other)) → Except Refusal String
  | none => .ok env.platformBase
  | some raw => pathOf env raw

def scalarField (default : Value) (check : Scalar Other → Except Refusal Value) (mismatch : Refusal) :
    Schema (Scalar Other) Value :=
  .scalar fun _ raw =>
    match raw with
    | none => .ok default
    | some (.scalar value) => check value
    | some _ => .error mismatch

def nameItem : Schema (Scalar Other) Value :=
  .scalar fun _ raw =>
    match raw with
    | some (.scalar (.string text)) => .ok (.text (some text))
    | some (.scalar (.other value)) =>
      match env.asText value with
      | some text => .ok (.text (some text))
      | none => .error (wrongType "string_type" string_type_ordinary)
    | _ => .error (wrongType "string_type" string_type_ordinary)

def Value.name? : Value → Option String
  | .text value => value
  | _ => none

def Field.schema : Field → Schema (Scalar Other) Value
  | .integer default =>
    scalarField (.integer default) (fun value => (env.integer value).map .integer) (wrongType "int_type" int_type_ordinary)
  | .optionalText =>
    scalarField (.text none) (fun value => (env.optionalText value).map .text) (wrongType "string_type" string_type_ordinary)
  | .path default =>
    scalarField (.path default) (fun value => do return .path (← env.expanduser (← env.path value)))
      (wrongType "path_type" path_type_ordinary)
  | .root => .scalar fun _ raw => (rootOf env raw).map .path
  | .below file => .scalar fun siblings raw =>
    match raw with
    | some raw => (pathOf env raw).map .path
    | none => (rootOf env (siblings "csl_dir")).map fun root => .path (env.join root file)
  | .names => .listOf (nameItem env) (fun values => .ok (.names (values.filterMap Value.name?))) fun raw =>
    match raw with
    | none => .ok (.names [])
    | some (.scalar (.other value)) =>
      match env.asList value with
      | some listed => .ok (.names listed)
      | none => .error (wrongType "list_type" (by decide))
    | some _ => .error (wrongType "list_type" (by decide))

/-! ## Sections -/

def agentSection : Dict String Field where
  entries := [("listen_port", .integer 47731), ("idle_timeout_seconds", .integer 600), ("csl_dir", .root),
    ("scripts_dir", .below "scripts"), ("pending_dir", .below "scripts.pending"), ("logs_dir", .below "logs"),
    ("state_path", .below "agent/running.json"), ("approvals_path", .below "agent/approvals.json"),
    ("lifecycle_check_interval_seconds", .integer 10), ("log_tail_lines", .integer 1000)]
  distinct := by decide

def identitySection : Dict String Field where
  entries := [("key_fingerprint", .optionalText), ("hostname_hint", .optionalText), ("api_token", .optionalText)]
  distinct := by decide

def approvalPolicySection : Dict String Field where
  entries := [("auto_approve", .names)]
  distinct := by decide

def advancedSection : Dict String Field where
  entries := [("windows_admin_authorized_keys_path", .path "C:/ProgramData/ssh/administrators_authorized_keys")]
  distinct := by decide

def sections : Dict String (Dict String Field) where
  entries := [("agent", agentSection), ("identity", identitySection), ("approval_policy", approvalPolicySection),
    ("advanced", advancedSection)]
  distinct := by decide

def collect (names : List String) (values : String → Option Value) : Value :=
  .model (names.filterMap fun name => (values name).map fun value => (name, value))

/-- A record of which each field has its own default. -/
def model (names : List String) (distinct : names.Nodup) (field : String → Schema (Scalar Other) Value) :
    Schema (Scalar Other) Value :=
  .record names distinct field (fun values => .ok (collect names values)) fun raw =>
    match raw with
    | none => .ok (collect names fun name => ((field name).validate (fun _ => none) none).toOption)
    | some _ => .error (wrongType "model_type" (by decide))

def fieldSchema (fields : Dict String Field) (name : String) : Schema (Scalar Other) Value :=
  ((fields.get? name).map (Field.schema env)).getD (scalarField (.text none) (fun _ => .ok (.text none))
    (wrongType "any_type" (by decide)))

def sectionSchema (fields : Dict String Field) : Schema (Scalar Other) Value :=
  model fields.keys fields.distinct (fieldSchema env fields)

def agentConfig : Schema (Scalar Other) Value :=
  model sections.keys sections.distinct fun name => sectionSchema env ((sections.get? name).getD Dict.empty)

/-! ## Loading -/

inductive ConfigError where
  | invalidYaml
  | notMapping
  | invalid (raised : Raised)
  deriving DecidableEq, Repr

/-- The YAML library: what it reads of a text, if anything, and the text it writes for a tree. -/
structure Yaml (Other : Type) where
  safeLoad : String → Option (Document (Scalar Other))
  dump : Raw (Scalar Other) → String

variable (yaml : Yaml Other)

/-- `AgentConfig()`. -/
def defaults : Except ConfigError Value :=
  ((agentConfig env).validate (fun _ => none) none).mapError fun errors => .invalid (.validationError errors)

/-- `load_config`, of the file's text if there is a file. -/
def loadConfig : Option String → Except ConfigError Value
  | none => defaults env
  | some text =>
    match yaml.safeLoad text with
    | none => .error .invalidYaml
    | some document =>
      match document.val with
      | .scalar .null => defaults env
      | .mapping _ => (validateStrippingUnknowns (agentConfig env) ⟨document.val, none⟩).1.mapError .invalid
      | _ => .error .notMapping

def setting (config : Value) (inSection field : String) : Option Value :=
  (config.field? inSection).bind (·.field? field)

def autoApprove (config : Value) : List String :=
  match setting config "approval_policy" "auto_approve" with
  | some (.names names) => names
  | _ => []

/-! ## What a loaded config consists of -/

/-- The entries of a document that is a mapping; an empty document has none. -/
def entriesOf : Raw (Scalar Other) → Option (List (String × Raw (Scalar Other)))
  | .scalar .null => some []
  | .mapping entries => some entries
  | _ => none

def sectionOutcome (fields : Dict String Field) (raw : Option (Raw (Scalar Other))) : Except (List Error) Value :=
  (sectionSchema env fields).validate (fun _ => none) (raw.map (sectionSchema env fields).prune)

def sectionOf (entries : List (String × Raw (Scalar Other))) (name : String) : Except (List Error) Value :=
  sectionOutcome env ((sections.get? name).getD Dict.empty) (Dict.find entries name)

def Loads (entries : List (String × Raw (Scalar Other))) (config : Value) : Prop :=
  (∀ name ∈ sections.keys, ∃ value, sectionOf env entries name = .ok value) ∧
    config = collect sections.keys (fun name => (sectionOf env entries name).toOption)

theorem collect_congr {names : List String} {first second : String → Option Value}
    (same : ∀ name ∈ names, first name = second name) : collect names first = collect names second := by
  rw [collect, collect, List.filterMap_congr]
  intro name member
  rw [same name member]

theorem field_collect {names : List String} (distinct : names.Nodup) (values : String → Option Value) (name : String) :
    (collect names values).field? name = if name ∈ names then values name else none := by
  rw [collect, Value.field?]
  induction names with
  | nil => rfl
  | cons head rest ih =>
    obtain ⟨absent, distinct⟩ := List.nodup_cons.mp distinct
    have later := ih distinct
    rw [List.filterMap_cons]
    by_cases same : head = name
    · subst same
      rw [if_neg absent] at later
      cases found : values head with
      | none => simpa [found] using later
      | some value => simp [Dict.find]
    · have apart : name ≠ head := fun other => same other.symm
      cases found : values head with
      | none => simpa [apart] using later
      | some value => simpa [Dict.find, same, apart] using later

theorem prune_field (field : Field) (raw : Raw (Scalar Other)) : (field.schema env).prune raw = raw := by
  cases field with
  | integer | optionalText | path | root | below => exact Schema.prune_scalar _ raw
  | names =>
    cases raw with
    | scalar | mapping => rfl
    | sequence items =>
      have each : items.map (nameItem env).prune = items := by
        apply (List.map_congr_left _).trans items.map_id
        exact fun raw _ => Schema.prune_scalar _ raw
      exact congrArg Raw.sequence each

theorem sectionSchema_siblings (fields : Dict String Field) (siblings : String → Option (Raw (Scalar Other)))
    (raw : Option (Raw (Scalar Other))) :
    (sectionSchema env fields).validate siblings raw = (sectionSchema env fields).validate (fun _ => none) raw := by
  rcases raw with _ | (value | entries | items) <;> rfl

theorem fieldOutcome_section {fields : Dict String Field} {name : String} {field : Field}
    (known : fields.get? name = some field) (entries : List (String × Raw (Scalar Other))) :
    Schema.fieldOutcome fields.keys (fieldSchema env fields) entries name =
      (field.schema env).validate (Schema.scalars fields.keys (fieldSchema env fields) entries) (Dict.find entries name) := by
  have schema : fieldSchema env fields name = field.schema env := by
    rw [fieldSchema, known]
    rfl
  have same : (field.schema env).prune = id := by
    funext raw
    exact prune_field env field raw
  rw [Schema.fieldOutcome, schema, same, Option.map_id, id]

theorem model_pruned {names : List String} (distinct : names.Nodup) (field : String → Schema (Scalar Other) Value)
    (entries : List (String × Raw (Scalar Other))) (value : Value) :
    (model names distinct field).validate (fun _ => none) (some (.mapping (Schema.pruned names field entries))) = .ok value ↔
      (∀ name ∈ names, ∃ v, Schema.fieldOutcome names field entries name = .ok v) ∧
        collect names (fun name => (Schema.fieldOutcome names field entries name).toOption) = value := by
  have values : collect names (fun name =>
      if name ∈ names then (Schema.fieldOutcome names field entries name).toOption else none) =
      collect names (fun name => (Schema.fieldOutcome names field entries name).toOption) :=
    collect_congr (fun name member => if_pos member)
  refine Iff.trans (Schema.validate_pruned (fun _ => none) entries value) (and_congr_right fun _ => ?_)
  rw [values, Except.ok.injEq]

theorem sectionOutcome_mapping (fields : Dict String Field) (entries : List (String × Raw (Scalar Other))) (value : Value) :
    sectionOutcome env fields (some (.mapping entries)) = .ok value ↔
      (∀ name ∈ fields.keys, ∃ v, Schema.fieldOutcome fields.keys (fieldSchema env fields) entries name = .ok v) ∧
        collect fields.keys (fun name => (Schema.fieldOutcome fields.keys (fieldSchema env fields) entries name).toOption) =
          value :=
  model_pruned fields.distinct (fieldSchema env fields) entries value

theorem nodup_sections : sections.keys.Nodup := sections.distinct

theorem modelValidate_mapping (entries : List (String × Raw (Scalar Other))) (config : Value) :
    modelValidate (agentConfig env) ((agentConfig env).prune (.mapping entries)) = .ok config ↔
      Loads env entries config := by
  have outcome : Schema.fieldOutcome sections.keys
      (fun name => sectionSchema env ((sections.get? name).getD Dict.empty)) entries = sectionOf env entries := by
    funext name
    exact sectionSchema_siblings env _ _ _
  have validated := model_pruned nodup_sections
    (fun name => sectionSchema env ((sections.get? name).getD Dict.empty)) entries config
  rw [outcome] at validated
  exact Iff.trans validated (and_congr_right fun _ => eq_comm)

theorem defaults_iff (config : Value) : defaults env = .ok config ↔ Loads env [] config := by
  have each (name : String) : sectionOf env [] name =
      (sectionSchema env ((sections.get? name).getD Dict.empty)).validate (fun _ => none) none := rfl
  have loads (name : String) : ∃ value, sectionOf env [] name = .ok value := ⟨_, rfl⟩
  have value : defaults env = .ok (collect sections.keys fun name =>
    ((sectionSchema env ((sections.get? name).getD Dict.empty)).validate (fun _ => none) none).toOption) := rfl
  rw [value, Except.ok.injEq, Loads]
  simp only [each]
  constructor
  · intro same
    exact ⟨fun name _ => loads name, same.symm⟩
  · rintro ⟨-, same⟩
    exact same.symm

variable {env yaml}

theorem loadConfig_iff {text : String} {document : Document (Scalar Other)} {entries : List (String × Raw (Scalar Other))}
    (read : yaml.safeLoad text = some document) (mapping : entriesOf document.val = some entries) (config : Value) :
    loadConfig env yaml (some text) = .ok config ↔ Loads env entries config := by
  obtain ⟨raw, proper⟩ := document
  simp only [loadConfig, read]
  rcases raw with (_ | text | value) | stored | items
  · cases mapping
    exact defaults_iff env config
  · cases mapping
  · cases mapping
  · cases mapping
    have stripped := (stripped_cases (agentConfig env) ⟨.mapping entries, proper⟩).2 config
    rw [modelValidate_mapping] at stripped
    refine Iff.trans ?_ stripped
    generalize (validateStrippingUnknowns (agentConfig env) ⟨.mapping entries, none⟩).1 = outcome
    cases outcome <;> simp [Except.mapError]
  · cases mapping

theorem entries_of_loaded {text : String} {config : Value} (valid : loadConfig env yaml (some text) = .ok config) :
    ∃ document entries, yaml.safeLoad text = some document ∧ entriesOf document.val = some entries ∧
      Loads env entries config := by
  cases read : yaml.safeLoad text with
  | none =>
    simp only [loadConfig, read] at valid
    cases valid
  | some document =>
    cases mapping : entriesOf document.val with
    | some entries => exact ⟨document, entries, rfl, mapping, (loadConfig_iff read mapping config).mp valid⟩
    | none =>
      obtain ⟨raw, proper⟩ := document
      simp only [loadConfig, read] at valid
      rcases raw with (_ | text | value) | stored | items
      · cases mapping
      · cases valid
      · cases valid
      · cases mapping
      · cases valid

theorem setting_loaded {entries : List (String × Raw (Scalar Other))} {config : Value} (loads : Loads env entries config)
    {name : String} (known : name ∈ sections.keys) (field : String) :
    setting config name field = ((sectionOf env entries name).toOption).bind (·.field? field) := by
  rw [setting, loads.2, field_collect nodup_sections, if_pos known]

theorem setting_unknown {entries : List (String × Raw (Scalar Other))} {config : Value} (loads : Loads env entries config)
    {name : String} (unknown : name ∉ sections.keys) (field : String) : setting config name field = none := by
  rw [setting, loads.2, field_collect nodup_sections, if_neg unknown]
  rfl

/-! ## Sorted keys -/

variable (env) in
def SamePath (raw : Raw (Scalar Other)) : Prop := pathOf env (sortKeys raw) = pathOf env raw

variable (env) in
/-- Every path that the agent section gives by its text keeps it: a mapping that stands for one has
its keys in order already. -/
def PathsSorted (entries : List (String × Raw (Scalar Other))) : Prop :=
  match Dict.find entries "agent" with
  | some (.mapping fields) => ∀ name field raw, agentSection.get? name = some field → field.isDerived = true →
      Dict.find fields name = some raw → SamePath env raw
  | _ => True

theorem validate_sorted {field : Field} {first second : String → Option (Raw (Scalar Other))}
    {raw : Option (Raw (Scalar Other))}
    (own : field.isDerived = true → ∀ given, raw = some given → SamePath env given)
    (root : field.isDerived = true → rootOf env (first "csl_dir") = rootOf env (second "csl_dir")) :
    (field.schema env).validate first (raw.map sortKeys) = (field.schema env).validate second raw := by
  cases field with
  -- no field of these types takes a mapping
  | integer default | optionalText | path default =>
    rcases raw with _ | (value | entries | items)
    · rfl
    · rw [Option.map_some, sortKeys_scalar]
      rfl
    · rw [Option.map_some, sortKeys_mapping]
      rfl
    · rw [Option.map_some, sortKeys_sequence]
      rfl
  | root =>
    cases raw with
    | none => rfl
    | some given =>
      -- a mapping that stands for a path gives it by its text
      have same : pathOf env (sortKeys given) = pathOf env given := own rfl given rfl
      simp only [Option.map_some, Field.schema, Schema.validate, rootOf, same]
  | below file =>
    cases raw with
    | none => simp only [Option.map_none, Field.schema, Schema.validate, root rfl]
    | some given =>
      have same : pathOf env (sortKeys given) = pathOf env given := own rfl given rfl
      simp only [Option.map_some, Field.schema, Schema.validate, same]
  | names =>
    rcases raw with _ | (value | entries | items)
    · rfl
    · rw [Option.map_some, sortKeys_scalar]
      rfl
    · rw [Option.map_some, sortKeys_mapping]
      rfl
    · have each : (items.map sortKeys).map (fun raw => (nameItem env).validate (fun _ => none) (some raw)) =
          items.map fun raw => (nameItem env).validate (fun _ => none) (some raw) := by
        rw [List.map_map]
        apply List.map_congr_left
        intro raw _
        rcases raw with value | entries | items
        · rw [Function.comp, sortKeys_scalar]
        · rw [Function.comp, sortKeys_mapping]
          rfl
        · rw [Function.comp, sortKeys_sequence]
          rfl
      rw [Option.map_some, sortKeys_sequence]
      simp only [Field.schema, Schema.validate, each]

/-- A section is loaded alike with its keys sorted, where the paths are. -/
theorem sectionOutcome_sorted {fields : Dict String Field} {raw : Option (Raw (Scalar Other))}
    (proper : ∀ given, raw = some given → given.Proper)
    (paths : ∀ entries, raw = some (.mapping entries) → ∀ name field given, fields.get? name = some field →
      field.isDerived = true → Dict.find entries name = some given → SamePath env given)
    (rooted : (∃ name ∈ fields.keys, ∃ field, fields.get? name = some field ∧ field.isDerived = true) →
      fields.get? "csl_dir" = some .root) (value : Value) :
    sectionOutcome env fields (raw.map sortKeys) = .ok value ↔ sectionOutcome env fields raw = .ok value := by
  rcases raw with _ | (scalar | entries | items)
  · rfl
  · rw [Option.map_some, sortKeys_scalar]
  · have keys : (entries.map Prod.fst).Nodup := by
      cases proper _ rfl with
      | mapping keys _ => exact keys
    have outcome : ∀ name ∈ fields.keys,
        Schema.fieldOutcome fields.keys (fieldSchema env fields) (sortedEntries entries) name =
          Schema.fieldOutcome fields.keys (fieldSchema env fields) entries name := by
      intro name member
      cases known : fields.get? name with
      | none => exact absurd member ((Dict.get?_eq_none_iff fields name).mp known)
      | some field =>
        rw [fieldOutcome_section env known, fieldOutcome_section env known, find_sortedEntries keys]
        apply validate_sorted
        · intro derived given found
          exact paths entries rfl name field given known derived found
        -- a path below the root directory looks at that field too
        · intro derived
          have isRoot := rooted ⟨name, member, field, known, derived⟩
          have listed : "csl_dir" ∈ fields.keys := by
            by_contra absent
            rw [(Dict.get?_eq_none_iff fields "csl_dir").mpr absent] at isRoot
            cases isRoot
          have scalar : (fieldSchema env fields "csl_dir").isScalar = true := by
            rw [fieldSchema, isRoot]
            rfl
          rw [Schema.scalars, Schema.scalars, if_pos ⟨listed, scalar⟩, if_pos ⟨listed, scalar⟩,
            find_sortedEntries keys]
          cases found : Dict.find entries "csl_dir" with
          | none => rfl
          | some given => exact paths entries rfl "csl_dir" .root given isRoot rfl found
    rw [Option.map_some, sortKeys_mapping, sectionOutcome_mapping, sectionOutcome_mapping]
    refine and_congr (forall₂_congr fun name member => ?_) ?_
    · rw [outcome name member]
    · rw [collect_congr (fun name member => by rw [outcome name member])]
  · rw [Option.map_some, sortKeys_sequence]
    exact Iff.rfl

/-! ## Fields of a loaded section -/

theorem mapping_of_sectionOutcome {fields : Dict String Field} {raw : Raw (Scalar Other)} {value : Value}
    (loaded : sectionOutcome env fields (some raw) = .ok value) : ∃ entries, raw = .mapping entries := by
  rcases raw with scalar | entries | items
  · cases loaded
  · exact ⟨entries, rfl⟩
  · cases loaded

theorem setting_field {entries fields : List (String × Raw (Scalar Other))} {config : Value} {name given : String}
    {known : Dict String Field} {field : Field} (loads : Loads env entries config)
    (section_ : sections.get? name = some known) (found : Dict.find entries name = some (.mapping fields))
    (kind : known.get? given = some field) :
    ∃ value, (field.schema env).validate (Schema.scalars known.keys (fieldSchema env known) fields)
      (Dict.find fields given) = .ok value ∧ setting config name given = some value := by
  have listed : name ∈ sections.keys := by
    by_contra absent
    rw [(Dict.get?_eq_none_iff sections name).mpr absent] at section_
    cases section_
  have inside : given ∈ known.keys := by
    by_contra absent
    rw [(Dict.get?_eq_none_iff known given).mpr absent] at kind
    cases kind
  have outcome : sectionOf env entries name = sectionOutcome env known (some (.mapping fields)) := by
    rw [sectionOf, section_, found]
    rfl
  obtain ⟨value, loaded⟩ := loads.1 name listed
  have whole := loaded
  rw [outcome] at loaded
  obtain ⟨each, same⟩ := (sectionOutcome_mapping env known fields value).mp loaded
  obtain ⟨own, validated⟩ := each given inside
  refine ⟨own, ?_, ?_⟩
  · rw [← fieldOutcome_section env kind fields]
    exact validated
  · have distinct : known.keys.Nodup := known.distinct
    rw [setting_loaded loads listed, whole, Except.toOption, Option.bind_some, ← same,
      field_collect distinct, if_pos inside, validated]
    rfl

theorem field_sectionOutcome {fields : Dict String Field} {raw : Option (Raw (Scalar Other))} {value : Value}
    (loaded : sectionOutcome env fields raw = .ok value) {name : String} (absent : name ∉ fields.keys) :
    value.field? name = none := by
  have distinct : fields.keys.Nodup := fields.distinct
  rcases raw with _ | (scalar | entries | items)
  · have same : collect fields.keys (fun name => ((fieldSchema env fields name).validate (fun _ => none) none).toOption) =
        value := by
      injection loaded
    rw [← same, field_collect distinct, if_neg absent]
  · cases loaded
  · rw [← ((sectionOutcome_mapping env fields entries value).mp loaded).2, field_collect distinct, if_neg absent]
  · cases loaded

theorem proper_entries {raw : Raw (Scalar Other)} {entries : List (String × Raw (Scalar Other))} (proper : raw.Proper)
    (mapping : entriesOf raw = some entries) :
    (entries.map Prod.fst).Nodup ∧ ∀ key inner, Dict.find entries key = some inner → inner.Proper := by
  rcases raw with (_ | text | value) | stored | items
  · cases mapping
    exact ⟨List.nodup_nil, by simp [Dict.find]⟩
  · cases mapping
  · cases mapping
  · cases mapping
    cases proper with
    | mapping keys inner => exact ⟨keys, fun key raw found => inner (key, raw) (Dict.mem_of_find found)⟩
  · cases mapping

theorem validate_derived {field : Field} (derived : field.isDerived = true) (siblings : String → Option (Raw (Scalar Other)))
    (raw : Raw (Scalar Other)) :
    (field.schema env).validate siblings (some raw) = ((pathOf env raw).map .path).mapError Refusal.errors := by
  cases field with
  | root | below => rfl
  | integer | optionalText | path | names => cases derived

end Csl.Agent.Config
