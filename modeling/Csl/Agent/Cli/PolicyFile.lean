import Csl.Agent.Cli.Policy
import Csl.Agent.Config

/-! The policy commands, as they edit config.yaml.

The list is taken from the file as it is validated, and put into the file as it was
read, so whatever else the file holds is written back.
-/

set_option autoImplicit false

namespace Csl.Agent.PolicyFile
open RecordModels Config

variable {Other : Type}

inductive Raised where
  | config (error : ConfigError)
  | fileNotFound
  /-- What was read is no mapping where one is edited. -/
  | typeError
  deriving DecidableEq, Repr

/-- `raw.setdefault("approval_policy", {})["auto_approve"] = current`. -/
def assignList (current : List String) (raw : List (String × Raw (Scalar Other))) :
    Option (List (String × Raw (Scalar Other))) :=
  match (Dict.find raw "approval_policy").getD (.mapping []) with
  | .mapping policy =>
    let listed := Dict.assign "auto_approve" (.sequence (current.map fun name => .scalar (.string name))) policy
    some (Dict.assign "approval_policy" (.mapping listed) raw)
  | _ => none

def edited (yaml : Yaml Other) (text : String) (current : List String) : Option (Raw (Scalar Other)) := do
  let document ← yaml.safeLoad text
  let raw ← entriesOf document.val
  return .mapping (← assignList current raw)

variable (env : Env Other) (yaml : Yaml Other) (name : String) (add : Bool)

/-- `_policy_set_entry`: what it prints or raises, and the file it leaves. -/
def policySetEntry (file : Option String) : Except Raised String × Option String :=
  let write (current : List String) (verb : String) :=
    match file with
    | none => (.error .fileNotFound, none)
    | some text =>
      match edited yaml text current with
      | none => (.error .typeError, file)
      | some tree => (.ok s!"'{name}' {verb} the auto-approve list.", some (yaml.dump tree))
  match Config.loadConfig env yaml file with
  | .error error => (.error (.config error), file)
  | .ok config =>
    let current := autoApprove config
    if add then
      if name ∈ current then (.ok s!"'{name}' is already on the auto-approve list.", file)
      else write (current ++ [name]) "added to"
    else if name ∉ current then (.ok s!"'{name}' is not on the auto-approve list.", file)
    else write (current.erase name) "removed from"

def newList (current : List String) : List String :=
  (Csl.Agent.loadConfig (Csl.Agent.policySetEntry name add (some ⟨current⟩)).2).autoApprove

variable {env yaml name add}

theorem mem_newList {current : List String} : (name ∈ newList name add current ↔ add = true) ↔
    (add = false → current.count name ≤ 1) := by
  cases add with
  | false =>
    have gone := not_mem_entries_manual name (some ⟨current⟩)
    have same : (Csl.Agent.loadConfig (some ⟨current⟩)).autoApprove = current := rfl
    rw [same] at gone
    simpa [newList] using gone
  | true =>
    have listed : name ∈ newList name true current := by
      rw [newList, entries_auto]
      split_ifs with known
      · exact known
      · exact List.mem_append_right _ (List.mem_singleton_self name)
    simp [listed]

theorem mem_newList_of_ne {current : List String} {other : String} (apart : other ≠ name) :
    other ∈ newList name add current ↔ other ∈ current := by
  cases add with
  | false =>
    rw [newList, entries_manual]
    exact List.mem_erase_of_ne apart
  | true =>
    rw [newList, entries_auto]
    split_ifs <;> simp [apart]

theorem policySetEntry_settled {text : String} {config : Value} (valid : Config.loadConfig env yaml (some text) = .ok config)
    (settled : name ∈ autoApprove config ↔ add = true) :
    ∃ message, policySetEntry env yaml name add (some text) = (.ok message, some text) ∧
      Csl.Agent.policySetEntry name add (some ⟨autoApprove config⟩) = (.ok message, some ⟨autoApprove config⟩) := by
  cases add with
  | false =>
    have absent : name ∉ autoApprove config := by simpa using settled
    exact ⟨s!"'{name}' is not on the auto-approve list.", by simp [policySetEntry, valid, absent],
      by simp [Csl.Agent.policySetEntry, Csl.Agent.loadConfig, absent]⟩
  | true =>
    have present : name ∈ autoApprove config := by simpa using settled
    exact ⟨s!"'{name}' is already on the auto-approve list.", by simp [policySetEntry, valid, present],
      by simp [Csl.Agent.policySetEntry, Csl.Agent.loadConfig, present]⟩

theorem policySetEntry_edited {text : String} {config : Value} {tree : Raw (Scalar Other)}
    (valid : Config.loadConfig env yaml (some text) = .ok config) (unsettled : ¬ (name ∈ autoApprove config ↔ add = true))
    (written : edited yaml text (newList name add (autoApprove config)) = some tree) :
    ∃ message, policySetEntry env yaml name add (some text) = (.ok message, some (yaml.dump tree)) ∧
      Csl.Agent.policySetEntry name add (some ⟨autoApprove config⟩) =
        (.ok message, some ⟨newList name add (autoApprove config)⟩) := by
  cases add with
  | false =>
    have present : name ∈ autoApprove config := by simpa using unsettled
    have list : newList name false (autoApprove config) = (autoApprove config).erase name := entries_manual name _
    rw [list] at written ⊢
    refine ⟨_, by
      simp only [policySetEntry, valid, present, written, not_true_eq_false, if_false, Bool.false_eq_true]
      rfl, ?_⟩
    simp [Csl.Agent.policySetEntry, Csl.Agent.loadConfig, present]
  | true =>
    have absent : name ∉ autoApprove config := by simpa using unsettled
    have list : newList name true (autoApprove config) = autoApprove config ++ [name] := by
      rw [newList, entries_auto, if_neg absent]
    rw [list] at written ⊢
    refine ⟨_, by
      simp only [policySetEntry, valid, absent, written, if_false, if_true]
      rfl, ?_⟩
    simp [Csl.Agent.policySetEntry, Csl.Agent.loadConfig, absent]

/-- A command leaves the file alone, or writes it with another list. -/
theorem policySetEntry_file (env : Env Other) (yaml : Yaml Other) (name : String) (add : Bool) (file : Option String) :
    (policySetEntry env yaml name add file).2 = file ∨ ∃ text current tree, file = some text ∧
      edited yaml text current = some tree ∧ (policySetEntry env yaml name add file).2 = some (yaml.dump tree) := by
  cases loaded : Config.loadConfig env yaml file with
  | error error => exact Or.inl (by simp only [policySetEntry, loaded])
  | ok config =>
    cases file with
    | none =>
      left
      simp only [policySetEntry, loaded]
      split_ifs <;> rfl
    | some text =>
      cases add with
      | true =>
        by_cases present : name ∈ autoApprove config
        · exact Or.inl (by simp [policySetEntry, loaded, present])
        · cases written : edited yaml text (autoApprove config ++ [name]) with
          | none => exact Or.inl (by simp [policySetEntry, loaded, present, written])
          | some tree =>
            exact Or.inr ⟨text, _, tree, rfl, written, by simp [policySetEntry, loaded, present, written]⟩
      | false =>
        by_cases present : name ∈ autoApprove config
        · cases written : edited yaml text ((autoApprove config).erase name) with
          | none => exact Or.inl (by simp [policySetEntry, loaded, present, written])
          | some tree =>
            exact Or.inr ⟨text, _, tree, rfl, written, by simp [policySetEntry, loaded, present, written]⟩
        · exact Or.inl (by simp [policySetEntry, loaded, present])

/-! ## The file that is written -/

theorem not_derived {inSection given : String} {field : Field} (apart : inSection ≠ "agent")
    (kind : ((sections.get? inSection).getD Dict.empty).get? given = some field) : field.isDerived = false := by
  cases known : sections.get? inSection with
  | none =>
    rw [known] at kind
    cases kind
  | some fields =>
    rw [known, Option.getD_some] at kind
    have listed := Dict.mem_of_get? known
    have inside := Dict.mem_of_get? kind
    simp only [sections, List.mem_cons, Prod.mk.injEq, List.not_mem_nil, or_false] at listed
    rcases listed with ⟨same, -⟩ | ⟨-, same⟩ | ⟨-, same⟩ | ⟨-, same⟩
    · exact absurd same apart
    · subst same
      simp only [identitySection, List.mem_cons, Prod.mk.injEq, List.not_mem_nil, or_false] at inside
      rcases inside with ⟨-, same⟩ | ⟨-, same⟩ | ⟨-, same⟩ <;> rw [same] <;> rfl
    · subst same
      simp only [approvalPolicySection, List.mem_cons, Prod.mk.injEq, List.not_mem_nil, or_false] at inside
      rw [inside.2]
      rfl
    · subst same
      simp only [advancedSection, List.mem_cons, Prod.mk.injEq, List.not_mem_nil, or_false] at inside
      rw [inside.2]
      rfl

section
variable {entries : List (String × Raw (Scalar Other))} {config after : Value} {current : List String}

/-- Sorting the keys below a section makes no difference to it, apart from the paths of the agent section. -/
theorem sectionOutcome_sortKeys (proper : ∀ key raw, Dict.find entries key = some raw → raw.Proper) {inSection : String}
    (paths : inSection = "agent" → PathsSorted env entries) (value : Value) :
    sectionOutcome env ((sections.get? inSection).getD Dict.empty) ((Dict.find entries inSection).map sortKeys) = .ok value ↔
      sectionOf env entries inSection = .ok value := by
  apply sectionOutcome_sorted
  · exact fun given found => proper inSection given found
  · intro fields found given field raw kind derived there
    by_cases agent : inSection = "agent"
    · subst agent
      have sorted := paths rfl
      rw [PathsSorted, found] at sorted
      exact sorted given field raw kind derived there
    · rw [not_derived agent kind] at derived
      cases derived
  · rintro ⟨given, -, field, kind, derived⟩
    by_cases agent : inSection = "agent"
    · subst agent
      rfl
    · rw [not_derived agent kind] at derived
      cases derived

theorem validate_names (siblings : String → Option (Raw (Scalar Other))) (current : List String) :
    (Field.names.schema env).validate siblings (some (.sequence (current.map fun name => .scalar (.string name)))) =
      .ok (.names current) := by
  have outcomes : (current.map fun name => Raw.scalar (Scalar.string name : Scalar Other)).map
      (fun raw => (nameItem env).validate (fun _ => none) (some raw)) =
      current.map fun name => .ok (.text (some name)) := by
    rw [List.map_map]
    exact List.map_congr_left (fun name _ => rfl)
  have none : ((current.map fun name => (.ok (.text (some name)) : Except (List Error) Value)).zipIdx.flatMap fun outcome =>
      under (.index outcome.2) (errorsOf outcome.1)) = [] := by
    rw [List.flatMap_eq_nil_iff]
    intro outcome member
    obtain ⟨place, below, same⟩ := List.getElem_of_mem member
    rw [← same]
    simp [under, errorsOf]
  have listed : (current.map fun name => (.ok (.text (some name)) : Except (List Error) Value)).filterMap (·.toOption) =
      current.map fun name => .text (some name) := by
    rw [List.filterMap_map]
    exact congrFun (List.filterMap_eq_map (f := fun name => Value.text (some name))) current
  have values : (current.map fun name => Value.text (some name)).filterMap Value.name? = current := by
    rw [List.filterMap_map]
    exact List.filterMap_some
  simp only [Field.schema, Schema.validate, outcomes, none, listed, values, if_true]
  rfl

variable {policy : List (String × Raw (Scalar Other))}

def rewritten (current : List String) (policy entries : List (String × Raw (Scalar Other))) : List (String × Raw (Scalar Other)) :=
  Dict.assign "approval_policy"
    (.mapping (Dict.assign "auto_approve" (.sequence (current.map fun name => .scalar (.string name))) policy)) entries

/-- A file that can be loaded can be edited. -/
theorem assignList_loaded (current : List String) (proper : ∀ key raw, Dict.find entries key = some raw → raw.Proper) (loads : Loads env entries config) :
    ∃ policy, assignList current entries = some (rewritten current policy entries) ∧ (policy.map Prod.fst).Nodup := by
  cases found : Dict.find entries "approval_policy" with
  | none =>
    refine ⟨[], ?_, List.nodup_nil⟩
    rw [assignList, found]
    rfl
  | some raw =>
    obtain ⟨value, loaded⟩ := loads.1 "approval_policy" (by decide)
    rw [sectionOf, found] at loaded
    obtain ⟨policy, same⟩ := mapping_of_sectionOutcome loaded
    subst same
    refine ⟨policy, ?_, ?_⟩
    · rw [assignList, found]
      rfl
    · cases proper "approval_policy" _ found with
      | mapping keys _ => exact keys

theorem find_rewritten (keys : (entries.map Prod.fst).Nodup) (inSection : String) :
    Dict.find (sortedEntries (rewritten current policy entries)) inSection =
      if inSection = "approval_policy" then some (sortKeys
        (.mapping (Dict.assign "auto_approve" (.sequence (current.map fun name => .scalar (.string name))) policy)))
      else (Dict.find entries inSection).map sortKeys := by
  rw [rewritten, find_sortedEntries (Dict.nodup_assign _ _ _ keys), Dict.find_assign]
  split_ifs <;> rfl

theorem sectionOf_rewritten (keys : (entries.map Prod.fst).Nodup) (inner : (policy.map Prod.fst).Nodup) :
    sectionOf env (sortedEntries (rewritten current policy entries)) "approval_policy" =
      .ok (.model [("auto_approve", .names current)]) := by
  have found : Dict.find (sortedEntries (Dict.assign "auto_approve"
      (.sequence (current.map fun name => .scalar (.string name))) policy)) "auto_approve" =
      some (.sequence (current.map fun name => .scalar (.string name)) : Raw (Scalar Other)) := by
    rw [find_sortedEntries (Dict.nodup_assign _ _ _ inner), Dict.find_assign, if_pos rfl, Option.map_some,
      sortKeys_sequence, List.map_map]
    congr 2
  have outcome : Schema.fieldOutcome approvalPolicySection.keys (fieldSchema env approvalPolicySection)
      (sortedEntries (Dict.assign "auto_approve" (.sequence (current.map fun name => .scalar (.string name))) policy))
      "auto_approve" = .ok (.names current) := by
    have known : approvalPolicySection.get? "auto_approve" = some .names := rfl
    rw [fieldOutcome_section env known, found, validate_names]
  rw [sectionOf, find_rewritten keys, if_pos rfl, sortKeys_mapping]
  change sectionOutcome env approvalPolicySection _ = _
  refine (sectionOutcome_mapping env _ _ _).mpr ⟨fun given member => ?_, ?_⟩
  · have same : given = "auto_approve" := List.mem_singleton.mp member
    rw [same]
    exact ⟨_, outcome⟩
  · change Value.model (["auto_approve"].filterMap _) = _
    simp only [List.filterMap_cons, outcome]
    rfl

theorem sectionOf_rewritten_of_ne (keys : (entries.map Prod.fst).Nodup)
    (proper : ∀ key raw, Dict.find entries key = some raw → raw.Proper) {inSection : String}
    (apart : inSection ≠ "approval_policy") (paths : inSection = "agent" → PathsSorted env entries) (value : Value) :
    sectionOf env (sortedEntries (rewritten current policy entries)) inSection = .ok value ↔
      sectionOf env entries inSection = .ok value := by
  rw [← sectionOutcome_sortKeys proper paths, sectionOf, find_rewritten keys, if_neg apart]

theorem autoApprove_rewritten (keys : (entries.map Prod.fst).Nodup) (inner : (policy.map Prod.fst).Nodup)
    (loads : Loads env (sortedEntries (rewritten current policy entries)) after) : autoApprove after = current := by
  rw [autoApprove, setting_loaded loads (by decide), sectionOf_rewritten keys inner]
  rfl

theorem toOption_congr {Error Result : Type} {first second : Except Error Result}
    (same : ∀ value, first = .ok value ↔ second = .ok value) : first.toOption = second.toOption := by
  cases first with
  | ok value => rw [(same value).mp rfl]
  | error =>
    cases second with
    | ok value => cases (same value).mpr rfl
    | error => rfl

theorem setting_rewritten (keys : (entries.map Prod.fst).Nodup)
    (proper : ∀ key raw, Dict.find entries key = some raw → raw.Proper) (before : Loads env entries config)
    (loads : Loads env (sortedEntries (rewritten current policy entries)) after) {inSection : String}
    (apart : inSection ≠ "approval_policy") (paths : inSection = "agent" → PathsSorted env entries) (field : String) :
    setting after inSection field = setting config inSection field := by
  by_cases known : inSection ∈ sections.keys
  · rw [setting_loaded loads known, setting_loaded before known,
      toOption_congr (sectionOf_rewritten_of_ne keys proper apart paths)]
  · rw [setting_unknown loads known, setting_unknown before known]

/-- Where the paths stay, the file can be loaded again. -/
theorem loads_rewritten (current : List String) (keys : (entries.map Prod.fst).Nodup) (inner : (policy.map Prod.fst).Nodup)
    (proper : ∀ key raw, Dict.find entries key = some raw → raw.Proper) (before : Loads env entries config)
    (paths : PathsSorted env entries) : ∃ after, Loads env (sortedEntries (rewritten current policy entries)) after := by
  refine ⟨_, fun inSection known => ?_, rfl⟩
  by_cases same : inSection = "approval_policy"
  · rw [same]
    exact ⟨_, sectionOf_rewritten keys inner⟩
  · obtain ⟨value, loaded⟩ := before.1 inSection known
    exact ⟨value, (sectionOf_rewritten_of_ne keys proper same (fun _ => paths) value).mpr loaded⟩

theorem pathsSorted_of_setting (keys : (entries.map Prod.fst).Nodup)
    (proper : ∀ key raw, Dict.find entries key = some raw → raw.Proper) (before : Loads env entries config)
    (loads : Loads env (sortedEntries (rewritten current policy entries)) after)
    (same : ∀ field, setting after "agent" field = setting config "agent" field) : PathsSorted env entries := by
  rw [PathsSorted]
  split
  · rename_i fields found
    intro given field raw kind derived there
    have inner : (fields.map Prod.fst).Nodup := by
      cases proper "agent" _ found with
      | mapping keys _ => exact keys
    have foundAfter : Dict.find (sortedEntries (rewritten current policy entries)) "agent" =
        some (.mapping (sortedEntries fields)) := by
      rw [find_rewritten keys, if_neg (by decide), found, Option.map_some, sortKeys_mapping]
    have agent : sections.get? "agent" = some agentSection := rfl
    obtain ⟨value, validated, set⟩ := setting_field before agent found kind
    obtain ⟨value', validated', set'⟩ := setting_field loads agent foundAfter kind
    -- both files have the path, and it is the same setting in both
    have values : value' = value := by
      have both := same given
      rw [set, set'] at both
      exact Option.some.inj both
    subst values
    rw [there, validate_derived derived] at validated
    rw [find_sortedEntries inner, there, Option.map_some, validate_derived derived] at validated'
    rw [SamePath]
    cases original : pathOf env raw with
    | error => rw [original] at validated; cases validated
    | ok path =>
      rw [original] at validated
      cases sorted : pathOf env (sortKeys raw) with
      | error => rw [sorted] at validated'; cases validated'
      | ok other =>
        rw [sorted] at validated'
        cases validated
        cases validated'
        rfl
  · trivial

theorem setting_policy (loads : Loads env entries config) {field : String} (other : field ≠ "auto_approve") :
    setting config "approval_policy" field = none := by
  obtain ⟨value, loaded⟩ := loads.1 "approval_policy" (by decide)
  have absent : field ∉ approvalPolicySection.keys := fun member => other (List.mem_singleton.mp member)
  rw [setting_loaded loads (by decide), loaded]
  exact field_sectionOutcome loaded absent

end

/-! ## Exact edits -/

/-- What the YAML library writes of a tree it reads back, with the keys of the mappings in order. -/
def Reads (yaml : Yaml Other) (tree : Raw (Scalar Other)) : Prop :=
  (yaml.safeLoad (yaml.dump tree)).map Subtype.val = some (sortKeys tree)

/-- The file's list has the name exactly if it is to be there, nothing else that is loaded is another,
and the same command leaves the file as it is. -/
structure Edited (env : Env Other) (yaml : Yaml Other) (name : String) (add : Bool) (config after : Value)
    (file : String) : Prop where
  listed : name ∈ autoApprove after ↔ add = true
  others : ∀ other, other ≠ name → (other ∈ autoApprove after ↔ other ∈ autoApprove config)
  settings : ∀ inSection field, (inSection, field) ≠ ("approval_policy", "auto_approve") →
    setting after inSection field = setting config inSection field
  again : (policySetEntry env yaml name add (some file)).2 = some file

def EditsExactly (env : Env Other) (yaml : Yaml Other) (name : String) (add : Bool) (text : String) (config : Value) : Prop :=
  ∃ message file after, policySetEntry env yaml name add (some text) = (.ok message, some file) ∧
    Config.loadConfig env yaml (some file) = .ok after ∧ Edited env yaml name add config after file

/-- The paths that the file's agent section gives by their text are the same with sorted keys. -/
def PathsKept (env : Env Other) (yaml : Yaml Other) (text : String) : Prop :=
  ∀ document entries, yaml.safeLoad text = some document → entriesOf document.val = some entries →
    PathsSorted env entries

theorem edits_settled {text : String} {config : Value} (valid : Config.loadConfig env yaml (some text) = .ok config)
    (settled : name ∈ autoApprove config ↔ add = true) : EditsExactly env yaml name add text config := by
  obtain ⟨message, done, _⟩ := policySetEntry_settled valid settled
  exact ⟨message, text, config, done, valid, settled, fun _ _ => Iff.rfl, fun _ _ _ => rfl, by rw [done]⟩

structure Rewrites (env : Env Other) (yaml : Yaml Other) (text : String) (config : Value) (current : List String)
    (entries policy : List (String × Raw (Scalar Other))) : Prop where
  read : (yaml.safeLoad text).bind (fun document => entriesOf document.val) = some entries
  keys : (entries.map Prod.fst).Nodup
  proper : ∀ key raw, Dict.find entries key = some raw → raw.Proper
  loads : Loads env entries config
  inner : (policy.map Prod.fst).Nodup
  written : edited yaml text current = some (.mapping (rewritten current policy entries))
  again : ∀ after, Config.loadConfig env yaml (some (yaml.dump (.mapping (rewritten current policy entries)))) = .ok after ↔
    Loads env (sortedEntries (rewritten current policy entries)) after

theorem rewrites_of_loaded {text : String} {config : Value} {current : List String}
    (valid : Config.loadConfig env yaml (some text) = .ok config)
    (reads : ∀ tree, edited yaml text current = some tree → Reads yaml tree) :
    ∃ entries policy, Rewrites env yaml text config current entries policy := by
  obtain ⟨document, entries, read, mapping, before⟩ := entries_of_loaded valid
  obtain ⟨keys, proper⟩ := proper_entries document.property mapping
  obtain ⟨policy, assigned, inner⟩ := assignList_loaded current proper before
  have written : edited yaml text current = some (.mapping (rewritten current policy entries)) := by
    simp [edited, read, mapping, assigned]
  obtain ⟨again, readAgain, content⟩ := Option.map_eq_some_iff.mp (reads _ written)
  have mappingAgain : entriesOf again.val = some (sortedEntries (rewritten current policy entries)) := by
    rw [content, sortKeys_mapping]
    rfl
  refine ⟨entries, policy, ?_, keys, proper, before, inner, written, loadConfig_iff readAgain mappingAgain⟩
  rw [read, Option.bind_some, mapping]

theorem Rewrites.sorted {text : String} {config : Value} {current : List String}
    {entries policy : List (String × Raw (Scalar Other))} (rewrites : Rewrites env yaml text config current entries policy) :
    PathsKept env yaml text ↔ PathsSorted env entries := by
  obtain ⟨document, read, mapping⟩ := Option.bind_eq_some_iff.mp rewrites.read
  constructor
  · exact fun paths => paths document entries read mapping
  · intro sorted document' entries' read' mapping'
    rw [read] at read'
    rw [← Option.some.inj read', mapping] at mapping'
    rw [← Option.some.inj mapping']
    exact sorted

theorem Rewrites.loaded {text : String} {config : Value} {current : List String}
    {entries policy : List (String × Raw (Scalar Other))} (rewrites : Rewrites env yaml text config current entries policy)
    (sorted : PathsSorted env entries) :
    ∃ after, Config.loadConfig env yaml (some (yaml.dump (.mapping (rewritten current policy entries)))) = .ok after ∧
      Loads env (sortedEntries (rewritten current policy entries)) after ∧ autoApprove after = current := by
  obtain ⟨after, loads⟩ :=
    loads_rewritten current rewrites.keys rewrites.inner rewrites.proper rewrites.loads sorted
  exact ⟨after, (rewrites.again after).mpr loads, loads, autoApprove_rewritten rewrites.keys rewrites.inner loads⟩

/-- A valid config.yaml is edited exactly when there is nothing to do, or the name that is removed is
listed once and no path is named by a mapping whose keys are not in order. -/
theorem policy_edits_exact (env : Env Other) (yaml : Yaml Other) (name : String) (add : Bool) {text : String} {config : Value}
    (valid : Config.loadConfig env yaml (some text) = .ok config)
    (reads : ∀ tree, edited yaml text (newList name add (autoApprove config)) = some tree → Reads yaml tree) :
    EditsExactly env yaml name add text config ↔ (name ∈ autoApprove config ↔ add = true) ∨
      (add = false → (autoApprove config).count name ≤ 1) ∧ PathsKept env yaml text := by
  by_cases settled : name ∈ autoApprove config ↔ add = true
  · exact ⟨fun _ => Or.inl settled, fun _ => edits_settled valid settled⟩
  obtain ⟨entries, policy, rewrites⟩ := rewrites_of_loaded valid reads
  obtain ⟨message, done, _⟩ := policySetEntry_edited valid settled rewrites.written
  constructor
  · rintro ⟨_, file, after, result, loaded, exact_⟩
    -- what the command leaves is the file with the new list
    rw [done] at result
    have dumped := Option.some.inj (Prod.mk.inj result).2
    rw [← dumped] at loaded
    have loads := (rewrites.again after).mp loaded
    have list := autoApprove_rewritten rewrites.keys rewrites.inner loads
    -- the agent section is loaded as before only if its paths are kept
    have kept : PathsSorted env entries :=
      pathsSorted_of_setting rewrites.keys rewrites.proper rewrites.loads loads
        (fun field => exact_.settings "agent" field (by simp))
    refine Or.inr ⟨mem_newList.mp ?_, rewrites.sorted.mpr kept⟩
    rw [← list]
    exact exact_.listed
  · rintro (nothing | ⟨once, paths⟩)
    · exact absurd nothing settled
    have sorted := rewrites.sorted.mp paths
    obtain ⟨after, loaded, loads, list⟩ := rewrites.loaded sorted
    have listed : name ∈ autoApprove after ↔ add = true := by
      rw [list]
      exact mem_newList.mpr once
    refine ⟨message, _, after, done, loaded, listed, fun other apart => ?_, fun inSection field apart => ?_, ?_⟩
    · rw [list]
      exact mem_newList_of_ne apart
    · by_cases policySection : inSection = "approval_policy"
      · subst policySection
        have other : field ≠ "auto_approve" := fun same => apart (by rw [same])
        rw [setting_policy loads other, setting_policy rewrites.loads other]
      · exact setting_rewritten rewrites.keys rewrites.proper rewrites.loads loads policySection (fun _ => sorted) field
    · obtain ⟨_, doneAgain, _⟩ := policySetEntry_settled loaded listed
      rw [doneAgain]

/-! ## The list alone

The runs of an agent and its owner's commands are about the list, which is what a valid file is there.
-/

def policyOf (env : Env Other) (yaml : Yaml Other) (file : Option String) : Option ApprovalPolicySection :=
  file.map fun text => ⟨((Config.loadConfig env yaml (some text)).toOption.map autoApprove).getD []⟩

theorem policyOf_loaded {text : String} {config : Value} (valid : Config.loadConfig env yaml (some text) = .ok config) :
    policyOf env yaml (some text) = some ⟨autoApprove config⟩ := by
  simp [policyOf, valid, Except.toOption]

theorem loadConfig_policyOf {file : Option String} {config : Value} (valid : Config.loadConfig env yaml file = .ok config) :
    (Csl.Agent.loadConfig (policyOf env yaml file)).autoApprove = autoApprove config := by
  cases file with
  | none =>
    cases valid
    rfl
  | some text =>
    rw [policyOf_loaded valid]
    rfl

/-- A command on a valid file, which is read back when it is written, does to the list what it does there. -/
theorem policySetEntry_refines {text : String} {config : Value} (valid : Config.loadConfig env yaml (some text) = .ok config)
    (reads : ∀ tree, edited yaml text (newList name add (autoApprove config)) = some tree → Reads yaml tree)
    (paths : PathsKept env yaml text) :
    ∃ message file, policySetEntry env yaml name add (some text) = (.ok message, some file) ∧
      Csl.Agent.policySetEntry name add (policyOf env yaml (some text)) =
        (.ok message, policyOf env yaml (some file)) := by
  rw [policyOf_loaded valid]
  by_cases settled : name ∈ autoApprove config ↔ add = true
  · obtain ⟨message, done, same⟩ := policySetEntry_settled valid settled
    exact ⟨message, text, done, by rw [same, policyOf_loaded valid]⟩
  · obtain ⟨entries, policy, rewrites⟩ := rewrites_of_loaded valid reads
    obtain ⟨message, done, same⟩ := policySetEntry_edited valid settled rewrites.written
    obtain ⟨after, loaded, _, list⟩ := rewrites.loaded (rewrites.sorted.mp paths)
    exact ⟨message, _, done, by rw [same, policyOf_loaded loaded, list]⟩

def Readable (env : Env Other) (yaml : Yaml Other) (file : Option String) (command : String × Bool) : Prop :=
  ∃ text config, file = some text ∧ Config.loadConfig env yaml (some text) = .ok config ∧ PathsKept env yaml text ∧
    ∀ tree, edited yaml text (newList command.1 command.2 (autoApprove config)) = some tree → Reads yaml tree

def served (env : Env Other) (yaml : Yaml Other) (file : Option String) (command : String × Bool) : Option String :=
  (policySetEntry env yaml command.1 command.2 file).2

def listServed (policy : Option ApprovalPolicySection) (command : String × Bool) : Option ApprovalPolicySection :=
  (Csl.Agent.policySetEntry command.1 command.2 policy).2

theorem policyOf_served {file : Option String} {command : String × Bool} (readable : Readable env yaml file command) :
    policyOf env yaml (served env yaml file command) = listServed (policyOf env yaml file) command := by
  obtain ⟨text, config, rfl, valid, paths, reads⟩ := readable
  obtain ⟨message, after, done, same⟩ := policySetEntry_refines valid reads paths
  rw [served, listServed, done, same]

/-- A run of commands on the file is a run on its list. -/
theorem policyOf_run {file : Option String} {commands : List (String × Bool)}
    (readable : Runs.Meets (served env yaml) (Readable env yaml) file commands) :
    policyOf env yaml (Runs.run (served env yaml) file commands) =
      Runs.run listServed (policyOf env yaml file) commands := by
  induction commands generalizing file with
  | nil => rfl
  | cons command rest ih =>
    rw [Runs.run_cons, Runs.run_cons, ih readable.2, policyOf_served readable.1]

/-- Without a file there is nothing to remove from, and nothing that a name could be added to. -/
theorem policySetEntry_refines_missing :
    (policySetEntry env yaml name add none).2 = none ∧ (Csl.Agent.policySetEntry name add none).2 = none ∧
      ((policySetEntry env yaml name add none).1 = .error .fileNotFound ↔
        (Csl.Agent.policySetEntry name add none).1 = .error (.fileNotFound (.other "config.yaml"))) := by
  cases add with
  | false =>
    refine ⟨rfl, rfl, fun raised => ?_, fun raised => ?_⟩
    · cases raised
    · cases raised
  | true => exact ⟨rfl, rfl, fun _ => rfl, fun _ => rfl⟩

/-! ## Files with a list only -/

def plainEnv : Env Int where
  integer
    | .other number => .ok number
    | _ => .error (Shared.Validation.wrongType "int_type" Shared.Validation.int_type_ordinary)
  optionalText
    | .null => .ok none
    | .string text => .ok (some text)
    | .other _ => .error (Shared.Validation.wrongType "string_type" Shared.Validation.string_type_ordinary)
  path
    | .string text => .ok text
    | _ => .error (Shared.Validation.wrongType "path_type" Shared.Validation.path_type_ordinary)
  asText _ := none
  asList _ := none
  str
    | .scalar (.string text) => text
    | .scalar (.other number) => toString number
    | _ => "None"
  expanduser := .ok
  join directory file := directory ++ "/" ++ file
  platformBase := "/home/csl/.csl"

def listDocument (names : List String) : Document (Scalar Int) where
  val := .mapping [("approval_policy",
    .mapping [("auto_approve", .sequence (names.map fun name => .scalar (.string name)))])]
  property := by
    refine .mapping (by simp) fun entry member => ?_
    rw [List.mem_singleton.mp member]
    refine .mapping (by simp) fun entry member => ?_
    rw [List.mem_singleton.mp member]
    refine .sequence fun item member => ?_
    obtain ⟨name, -, same⟩ := List.mem_map.mp member
    rw [← same]
    exact .scalar

def listText (names : List String) : String :=
  if names = [] then "approval_policy:\n  auto_approve: []\n"
  else names.foldl (fun text name => text ++ "  - " ++ name ++ "\n") "approval_policy:\n  auto_approve:\n"

def listYaml : Yaml Int where
  safeLoad text := ([[], ["deploy"], ["deploy", "deploy"]].find? fun names => listText names = text).map listDocument
  dump
    | .mapping [(_, .mapping [(_, .sequence items)])] =>
      listText (items.filterMap fun | .scalar (.string name) => some name | _ => none)
    | _ => ""

/-- One entry of two is removed, and the name is still on the list. -/
theorem duplicate_survives : ∃ config, Config.loadConfig plainEnv listYaml (some (listText ["deploy", "deploy"])) = .ok config ∧
    ¬ EditsExactly plainEnv listYaml "deploy" false (listText ["deploy", "deploy"]) config := by
  refine ⟨_, rfl, ?_⟩
  rintro ⟨message, file, after, result, loaded, exact_⟩
  have wrote : (policySetEntry plainEnv listYaml "deploy" false (some (listText ["deploy", "deploy"]))).2 =
      some (listText ["deploy"]) := by
    rfl
  rw [result] at wrote
  have same : file = listText ["deploy"] := Option.some.inj wrote
  subst same
  have listed : (Config.loadConfig plainEnv listYaml (some (listText ["deploy"]))).map autoApprove = .ok ["deploy"] := by
    rfl
  rw [loaded] at listed
  have names : autoApprove after = ["deploy"] := Except.ok.inj listed
  have gone := exact_.listed
  rw [names] at gone
  simp at gone

theorem single_entry_removed : ∃ config, Config.loadConfig plainEnv listYaml (some (listText ["deploy"])) = .ok config ∧
    EditsExactly plainEnv listYaml "deploy" false (listText ["deploy"]) config := by
  refine ⟨_, rfl, (policy_edits_exact plainEnv listYaml "deploy" false rfl ?_).mpr (Or.inr ⟨fun _ => by decide, ?_⟩)⟩
  · intro tree written
    have same : (listDocument []).val = tree := Option.some.inj written
    rw [← same]
    rfl
  · intro document entries read mapping
    have loaded : listDocument ["deploy"] = document := Option.some.inj read
    subst loaded
    cases mapping
    trivial

end Csl.Agent.PolicyFile
