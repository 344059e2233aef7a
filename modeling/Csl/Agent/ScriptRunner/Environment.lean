import Csl.Agent.ScriptRunner.ValidatedParams

/-! The environment a script is started with.

Every parameter is handed over in a variable of its own name in upper case. Parameter names are
arbitrary texts, and only the texts as they are written differ from each other.
-/

set_option autoImplicit false

namespace Csl.Agent.Environment
open Csl.Shared

def paramVariable (host : Host) (name : String) : String := "CSL_PARAM_" ++ host.upper name

/-- A variable's name, as `execve` and `CreateProcess` take it. -/
def IsName (name : String) : Prop := '=' ∉ name.toList ∧ '\x00' ∉ name.toList

def IsText (text : String) : Prop := '\x00' ∉ text.toList

def WellFormed (env : Dict String String) : Prop :=
  ∀ name text, env.get? name = some text → IsName name ∧ IsText text

/-- Every parameter has a variable of its own, and all other variables are inherited. -/
structure Unmixed (host : Host) (params : Params) (env : Dict String String) : Prop where
  wellFormed : WellFormed env
  own : ∀ name value, params.get? name = some value → env.get? (paramVariable host name) = some value.text
  alone : ∀ name ∈ params.keys, ∀ other ∈ params.keys,
    paramVariable host name = paramVariable host other → name = other
  inherited : ∀ variableName, (∀ name ∈ params.keys, variableName ≠ paramVariable host name) →
    env.get? variableName = host.environ.get? variableName

structure Separate (host : Host) (params : Params) : Prop where
  differ : ∀ name ∈ params.keys, ∀ other ∈ params.keys, host.upper name = host.upper other → name = other
  names : ∀ name ∈ params.keys, IsName (host.upper name)
  texts : ∀ name value, params.get? name = some value → IsText value.text

variable {host : Host} {params : Params}

@[simp] theorem paramVariable_inj {name other : String} :
    paramVariable host name = paramVariable host other ↔ host.upper name = host.upper other := by
  unfold paramVariable
  exact String.append_right_inj _

theorem isName_paramVariable {name : String} :
    IsName (paramVariable host name) ↔ IsName (host.upper name) := by
  have ahead : '=' ∉ "CSL_PARAM_".toList ∧ '\x00' ∉ "CSL_PARAM_".toList := by decide
  simp only [IsName, paramVariable, String.toList_append, List.mem_append, ahead.1, ahead.2, false_or]

/-- The last parameter of a variable's name decides what the variable holds. -/
theorem get?_buildEnv (params : Params) (variableName : String) :
    (buildEnv host params).get? variableName =
      ((params.entries.reverse.find? fun entry => paramVariable host entry.1 = variableName).map
        (·.2.text)).or (host.environ.get? variableName) := by
  unfold buildEnv
  generalize host.environ = env
  generalize params.entries = entries
  induction entries generalizing env with
  | nil => rfl
  | cons entry rest ih =>
    rw [List.foldl_cons, ih, List.reverse_cons, List.find?_append, Dict.get?_set]
    cases rest.reverse.find? fun entry => paramVariable host entry.1 = variableName with
    | some found => rfl
    | none =>
      by_cases same : variableName = paramVariable host entry.1
      · subst same
        simp [paramVariable]
      · have other : paramVariable host entry.1 ≠ variableName := fun equal => same equal.symm
        have missing : ¬ variableName = "CSL_PARAM_" ++ host.upper entry.1 := same
        rw [if_neg missing]
        simp [other]

theorem mem_keys_of_get? {name : String} {value : ParamValue} (given : params.get? name = some value) :
    name ∈ params.keys := by
  by_contra missing
  rw [(Dict.get?_eq_none_iff params name).mpr missing] at given
  cases given

theorem get?_of_mem_keys {name : String} (member : name ∈ params.keys) :
    ∃ value, params.get? name = some value := by
  cases given : params.get? name with
  | none => exact absurd member ((Dict.get?_eq_none_iff params name).mp given)
  | some value => exact ⟨value, rfl⟩

/-- A variable that is no parameter's. -/
theorem get?_buildEnv_other {variableName : String}
    (other : ∀ name ∈ params.keys, variableName ≠ paramVariable host name) :
    (buildEnv host params).get? variableName = host.environ.get? variableName := by
  have nowhere : (params.entries.reverse.find? fun entry => paramVariable host entry.1 = variableName) = none := by
    apply List.find?_eq_none.mpr
    intro entry member
    have key : entry.1 ∈ params.keys := List.mem_map_of_mem (List.mem_reverse.mp member)
    simpa using fun same => other entry.1 key same.symm
  rw [get?_buildEnv, nowhere]
  rfl

theorem get?_buildEnv_own (separate : Separate host params) {name : String} {value : ParamValue}
    (given : params.get? name = some value) :
    (buildEnv host params).get? (paramVariable host name) = some value.text := by
  rw [get?_buildEnv]
  cases found : params.entries.reverse.find? fun entry => paramVariable host entry.1 = paramVariable host name with
  | none =>
    have never := List.find?_eq_none.mp found (name, value) (List.mem_reverse.mpr (Dict.mem_of_get? given))
    simp at never
  | some entry =>
    obtain ⟨key, stored⟩ := entry
    have listed : (key, stored) ∈ params.entries := List.mem_reverse.mp (List.mem_of_find?_eq_some found)
    have same : paramVariable host key = paramVariable host name := by simpa using List.find?_some found
    have equal : key = name := by
      apply separate.differ key (List.mem_map_of_mem listed) name (mem_keys_of_get? given)
      exact paramVariable_inj.mp same
    subst equal
    cases (Dict.get?_of_mem listed).symm.trans given
    rfl

/-- Parameters reach the script unmixed exactly if their upper-cased names differ, none of these
has an equals sign or a NUL, and no value has a NUL. -/
theorem unmixed_iff (inherited : WellFormed host.environ) (params : Params) :
    Unmixed host params (buildEnv host params) ↔ Separate host params := by
  constructor
  · intro unmixed
    constructor
    · intro name member other known same
      exact unmixed.alone name member other known (paramVariable_inj.mpr same)
    · intro name member
      obtain ⟨value, given⟩ := get?_of_mem_keys member
      exact isName_paramVariable.mp (unmixed.wellFormed _ _ (unmixed.own name value given)).1
    · intro name value given
      exact (unmixed.wellFormed _ _ (unmixed.own name value given)).2
  · intro separate
    constructor
    · intro variableName text held
      by_cases isParam : ∃ name ∈ params.keys, variableName = paramVariable host name
      · obtain ⟨name, member, rfl⟩ := isParam
        obtain ⟨value, given⟩ := get?_of_mem_keys member
        rw [get?_buildEnv_own separate given] at held
        cases held
        exact ⟨isName_paramVariable.mpr (separate.names name member), separate.texts name value given⟩
      · have other : ∀ name ∈ params.keys, variableName ≠ paramVariable host name :=
          fun name member same => isParam ⟨name, member, same⟩
        rw [get?_buildEnv_other other] at held
        exact inherited variableName text held
    · exact fun name value given => get?_buildEnv_own separate given
    · exact fun name member other known same => separate.differ name member other known (paramVariable_inj.mp same)
    · exact fun variableName other => get?_buildEnv_other other

/-! ## Parameters that share a variable -/

def twinText : String :=
  "params:\n  - name: key\n    type: string\n    required: true\n" ++
    "  - name: KEY\n    type: string\n    required: true\n"

def twinMeta : ScriptMeta :=
  ⟨[{ name := "key", type := .string, required := true, min := none, max := none, choices := none },
    { name := "KEY", type := .string, required := true, min := none, max := none, choices := none }]⟩

def twinHost : Host :=
  { linux with
    parseMetaYaml := fun text => if text = twinText then .ok twinMeta else linux.parseMetaYaml text }

def twins : Params := (Dict.empty.set "key" (.str "one")).set "KEY" (.str "two")

/-- Both parameters are declared and given, and one of the values is lost. -/
theorem twins_are_mixed :
    checkParams twinHost "deploy" twins (some twinText) = .ok () ∧
      ¬ Unmixed twinHost twins (buildEnv twinHost twins) := by
  constructor
  · have parses : twinHost.parseMetaYaml twinText = .ok twinMeta := by simp [twinHost]
    rw [checkParams, parses]
    rfl
  · intro unmixed
    have held := unmixed.own "key" (.str "one") rfl
    have lost : (buildEnv twinHost twins).get? (paramVariable twinHost "key") = some "two" := by decide +kernel
    exact absurd (Option.some.inj (held.symm.trans lost)) (by decide)

theorem wellFormed_linux : WellFormed linux.environ := by
  intro name text held
  have entry : (name, text) ∈ [("PATH", "/usr/bin")] := Dict.mem_of_get? held
  cases List.mem_singleton.mp entry
  exact ⟨⟨by decide, by decide⟩, by unfold IsText; decide⟩

theorem unmixed_iff_proper :
    Unmixed linux ValidatedParams.proper (buildEnv linux ValidatedParams.proper) := by
  apply (unmixed_iff wellFormed_linux ValidatedParams.proper).mpr
  constructor
  · decide +kernel
  · unfold IsName
    decide +kernel
  · intro name value given
    have entry : (name, value) ∈ ValidatedParams.proper.entries := Dict.mem_of_get? given
    have texts : ∀ entry ∈ ValidatedParams.proper.entries, '\x00' ∉ entry.2.text.toList := by decide +kernel
    exact texts _ entry

end Csl.Agent.Environment
