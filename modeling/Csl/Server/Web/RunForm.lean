import Csl.Agent.ScriptRunner
import Csl.Library.Integers
import Csl.Server.Web.Machines

/-! The form of a run, as run_submit reads it and as the agent checks what it sends.

The texts of the form become values by the types of the parameters, and a field that is left blank
has a default. The agent's validator was not written with the form in mind.
-/

set_option autoImplicit false

namespace Csl.Server.Web
open Csl.Shared Csl.Agent

namespace RunForm

/-- `float` of a text, none for ValueError, and of an integer, none for OverflowError. -/
structure Numerals where
  decimals : Integers.Decimals
  float : String → Option PyFloat
  floatOfInt : Int → Option PyFloat
  float_empty : float "" = none
  float_int : ∀ value : Int, ∃ found, float (toString value) = some found

/-- A parameter's descriptor and its default, which the agent does not read. -/
structure FormParam extends ParamDescriptor where
  default : Option ParamValue
  choices_given : type = .choice → ∃ first rest, choices = some (first :: rest)
  bounds_numeric : type ≠ .int → type ≠ .float → min = none ∧ max = none
  default_given : required = false → ∃ value, default = some value

structure FormMeta where
  params : List FormParam
  unique : (params.map (·.name)).Nodup

def FormMeta.scriptMeta (formMeta : FormMeta) : ScriptMeta := ⟨formMeta.params.map (·.toParamDescriptor)⟩

variable (numerals : Numerals)

/-- `int(…)`, 0 where it raises ValueError, none where it raises OverflowError. -/
def toInt : ParamValue → Option Int
  | .int value => some value
  | .bool value => some (if value then 1 else 0)
  | .str text => some ((Integers.ofText numerals.decimals text).getD 0)
  | .float value =>
    match value.number with
    | .finite number => some (number.num.tdiv number.den)
    | .nan => some 0
    | .negInfinity | .posInfinity => none

def zero : PyFloat := ⟨"0.0", .finite 0⟩

/-- `float(…)`, 0.0 where it raises ValueError, none where it raises OverflowError. -/
def toFloat : ParamValue → Option PyFloat
  | .int value => numerals.floatOfInt value
  | .bool value => numerals.floatOfInt (if value then 1 else 0)
  | .str text => some ((numerals.float text).getD zero)
  | .float value => some value

def fieldValue (p : FormParam) (raw : Option String) : Option ParamValue :=
  match p.type with
  | .bool => some (.bool raw.isSome)
  | .int =>
    (match nonempty raw, p.default with
      | some text, _ => toInt numerals (.str text)
      | none, some value => toInt numerals value
      | none, none => some 0).map .int
  | .float =>
    (match nonempty raw, p.default with
      | some text, _ => toFloat numerals (.str text)
      | none, some value => toFloat numerals value
      | none, none => some zero).map .float
  | .string | .choice | .path =>
    match raw, p.default with
    | some text, _ => some (.str text)
    | none, some value => some (.str value.text)
    | none, none => some (.str "")

/-- The params of run_submit, from a form given by its fields. -/
def submittedParams (formMeta : FormMeta) (form : String → Option String) : Option Params :=
  formMeta.params.foldlM (fun params p => (fieldValue numerals p (form p.name)).map (params.set p.name ·)) Dict.empty

/-! ## Submissions -/

/-- What a field of a submitted form holds: a box that is not checked is missing. -/
inductive Entry where
  | missing
  | blank
  | holds (value : ParamValue)

def Entry.raw : Entry → Option String
  | .missing => none
  | .blank => some ""
  | .holds value => some value.text

/-- What may be entered for a parameter: nothing where none is required, or the text of an
admissible value, of a rendered option for a choice. The text of a float is read back as that
float. -/
def Fits (p : FormParam) : Entry → Prop
  | .missing => p.required = false ∨ p.type = .bool
  | .blank => p.required = false ∧ p.type ≠ .bool
  | .holds value => validateValue p.toParamDescriptor value = [] ∧
      (p.type = .choice → value ∈ p.choices.getD []) ∧
      ∀ found, value = .float found → numerals.float found.text = some found

def Admissible (formMeta : FormMeta) : Prop :=
  ∀ p ∈ formMeta.params, ∀ value, p.default = some value → validateValue p.toParamDescriptor value = []

def expected (p : FormParam) : Entry → Option ParamValue
  | .holds value => some value
  | .missing | .blank => if p.type = .bool then some (.bool false) else p.default

def Carries (sent value : ParamValue) : Prop := sent = value ∨ sent.eq value = true

/-- What the submission sends is accepted and means what was entered. -/
def Agrees (formMeta : FormMeta) (entries : String → Entry) : Prop :=
  ∃ params, submittedParams numerals formMeta (fun name => (entries name).raw) = some params ∧
    paramErrors formMeta.scriptMeta params = [] ∧
    ∀ p ∈ formMeta.params, ∃ sent, params.get? p.name = some sent ∧
      ∀ value, expected p (entries p.name) = some value → Carries sent value

def Exact (found : Option PyFloat) (value : Int) : Prop := ∃ float, found = some float ∧ float.number = .finite value

/-- Where the form's conversion and the validator meet. -/
def Convertible (p : FormParam) (entry : Entry) : Prop :=
  match p.type, entry with
  | .string, .blank | .path, .blank | .choice, .blank => p.default = some (.str "")
  | .choice, .missing => ∃ text, p.default = some (.str text)
  | .choice, .holds value => ∃ text, value = .str text
  | .bool, .holds value => value = .bool true
  | .int, .holds value => ∀ number, value = .int number → Integers.digitCount number ≤ Integers.maxDigits
  | .float, .holds value => ∀ number, value = .int number → Exact (numerals.float (toString number)) number
  | .float, .missing | .float, .blank =>
      ∀ number, p.default = some (.int number) → Exact (numerals.floatOfInt number) number
  | _, _ => True

/-! ## One field -/

variable {numerals} {p : FormParam} {entry : Entry}

def FieldAgrees (numerals : Numerals) (p : FormParam) (entry : Entry) : Prop :=
  ∃ sent, fieldValue numerals p entry.raw = some sent ∧ validateValue p.toParamDescriptor sent = [] ∧
    ∀ value, expected p entry = some value → Carries sent value

theorem carries_self (value : ParamValue) : Carries value value := .inl rfl

theorem carries_str {text : String} {value : ParamValue} : Carries (.str text) value ↔ value = .str text := by
  constructor
  · rintro (same | equal)
    · exact same.symm
    · cases value with
      | str other => rw [of_decide_eq_true equal]
      | _ => cases equal
  · rintro rfl
    exact carries_self _

theorem str_of_valid {value : ParamValue} (text : p.type = .string ∨ p.type = .path)
    (valid : validateValue p.toParamDescriptor value = []) : ∃ found, value = .str found := by
  unfold validateValue at valid
  rcases text with type | type <;> rw [type] at valid <;> cases value <;> first | exact ⟨_, rfl⟩ | cases valid

theorem bool_of_valid {value : ParamValue} (type : p.type = .bool)
    (valid : validateValue p.toParamDescriptor value = []) : ∃ found, value = .bool found := by
  unfold validateValue at valid
  rw [type] at valid
  cases value <;> first | exact ⟨_, rfl⟩ | cases valid

theorem int_of_valid {value : ParamValue} (type : p.type = .int)
    (valid : validateValue p.toParamDescriptor value = []) :
    ∃ found, value = .int found := by
  unfold validateValue at valid
  rw [type] at valid
  cases value <;> first | exact ⟨_, rfl⟩ | cases valid

theorem float_of_valid {value : ParamValue} (type : p.type = .float)
    (valid : validateValue p.toParamDescriptor value = []) :
    (∃ found, value = .int found) ∨ ∃ found, value = .float found := by
  unfold validateValue at valid
  rw [type] at valid
  cases value <;> first | exact .inl ⟨_, rfl⟩ | exact .inr ⟨_, rfl⟩ | cases valid

theorem valid_exact {number : Int} {float : PyFloat} (type : p.type = .float)
    (exactly : float.number = .finite number) (valid : validateValue p.toParamDescriptor (.int number) = []) :
    validateValue p.toParamDescriptor (.float float) = [] := by
  unfold validateValue at valid ⊢
  rw [type] at valid ⊢
  change checkBounds p.toParamDescriptor float.number = []
  rw [exactly]
  exact valid

theorem carries_float_int {float : PyFloat} {number : Int} :
    Carries (.float float) (.int number) ↔ float.number = .finite number := by
  constructor
  · rintro (same | equal)
    · cases same
    · cases found : float.number with
      | finite value =>
        simp only [ParamValue.eq, ParamValue.number?, found, Number.eq, decide_eq_true_eq] at equal
        exact equal
      | _ => simp [ParamValue.eq, ParamValue.number?, found, Number.eq] at equal
  · intro exactly
    right
    simp [ParamValue.eq, ParamValue.number?, exactly, Number.eq]

theorem toString_ne_empty (value : Int) : toString value ≠ "" := by
  cases value with
  | ofNat value => exact Nat.repr_ne_empty
  | negSucc value =>
    intro empty
    have letters := congrArg String.toList empty
    change ("-" ++ Nat.repr (value + 1)).toList = _ at letters
    simp at letters

theorem nonempty_some {text : String} (proper : text ≠ "") : nonempty (some text) = some text := by
  unfold nonempty
  split
  next same => exact absurd (Option.some.inj same) proper
  next => rfl

/-- Where a field sends one value that is accepted, it agrees if that is what was meant. -/
theorem fieldAgrees_of_sent {sent meant : ParamValue} (sends : fieldValue numerals p entry.raw = some sent)
    (means : expected p entry = some meant)
    (accepted : Carries sent meant → validateValue p.toParamDescriptor sent = []) :
    FieldAgrees numerals p entry ↔ Carries sent meant := by
  constructor
  · rintro ⟨value, same, -, carried⟩
    cases sends.symm.trans same
    exact carried meant means
  · intro carries
    refine ⟨sent, sends, accepted carries, fun value same => ?_⟩
    cases means.symm.trans same
    exact carries

section
variable (fits : Fits numerals p entry)
  (admissible : ∀ value, p.default = some value → validateValue p.toParamDescriptor value = [])

include fits

theorem default_meant (notBox : p.type ≠ .bool) (nothing : entry = .missing ∨ entry = .blank) :
    ∃ value, p.default = some value ∧ expected p entry = some value := by
  have optional : p.required = false := by
    rcases nothing with rfl | rfl
    · exact Or.resolve_right fits notBox
    · exact fits.1
  obtain ⟨value, given⟩ := p.default_given optional
  refine ⟨value, given, ?_⟩
  rcases nothing with rfl | rfl
  · exact (if_neg notBox).trans given
  · exact (if_neg notBox).trans given

theorem fieldAgrees_bool (type : p.type = .bool) : FieldAgrees numerals p entry ↔ Convertible numerals p entry := by
  have sends (raw : Option String) : fieldValue numerals p raw = some (.bool raw.isSome) := by
    simp only [fieldValue, type]
  have accepts (checked : Bool) : validateValue p.toParamDescriptor (.bool checked) = [] := by
    simp only [validateValue, type]
  cases entry with
  | missing =>
    have means : expected p .missing = some (.bool false) := if_pos type
    refine (fieldAgrees_of_sent (sends none) means fun _ => accepts false).trans ?_
    simp only [Convertible, type]
    exact iff_of_true (carries_self _) trivial
  | blank => exact absurd type fits.2
  | holds value =>
    obtain ⟨checked, rfl⟩ := bool_of_valid type fits.1
    refine (fieldAgrees_of_sent (sends _) rfl fun _ => accepts _).trans ?_
    simp only [Convertible, type]
    cases checked with
    | true => exact iff_of_true (carries_self _) rfl
    | false =>
      apply iff_of_false
      · rintro (same | equal)
        · cases same
        · cases equal
      · nofun

include admissible

theorem fieldAgrees_text (text : p.type = .string ∨ p.type = .path) :
    FieldAgrees numerals p entry ↔ Convertible numerals p entry := by
  have notBox : p.type ≠ .bool := by
    rcases text with type | type <;> rw [type] <;> nofun
  have accepts (found : String) : validateValue p.toParamDescriptor (.str found) = [] := by
    rcases text with type | type <;> simp only [validateValue, type]
  have sends (found : String) : fieldValue numerals p (some found) = some (.str found) := by
    rcases text with type | type <;> simp only [fieldValue, type]
  cases entry with
  | missing =>
    obtain ⟨value, given, means⟩ := default_meant fits notBox (.inl rfl)
    obtain ⟨found, rfl⟩ := str_of_valid text (admissible value given)
    have sent : fieldValue numerals p none = some (.str found) := by
      rcases text with type | type <;> simp only [fieldValue, type, given, ParamValue.text]
    refine (fieldAgrees_of_sent sent means fun _ => accepts found).trans ?_
    rcases text with type | type <;> simp only [Convertible, type] <;> exact iff_of_true (carries_self _) trivial
  | blank =>
    obtain ⟨value, given, means⟩ := default_meant fits notBox (.inr rfl)
    refine (fieldAgrees_of_sent (sends "") means fun _ => accepts "").trans ?_
    rw [carries_str]
    rcases text with type | type <;> simp only [Convertible, type, given, Option.some_inj]
  | holds value =>
    obtain ⟨found, rfl⟩ := str_of_valid text fits.1
    refine (fieldAgrees_of_sent (sends found) rfl fun _ => accepts found).trans ?_
    rcases text with type | type <;> simp only [Convertible, type] <;> exact iff_of_true (carries_self _) trivial

theorem fieldAgrees_int (type : p.type = .int) : FieldAgrees numerals p entry ↔ Convertible numerals p entry := by
  have notBox : p.type ≠ .bool := by
    rw [type]
    nofun
  -- A blank field takes the default, which is an integer and sent as it is.
  have blank (nothing : entry = .missing ∨ entry = .blank) (empty : nonempty entry.raw = none) :
      FieldAgrees numerals p entry := by
    obtain ⟨value, given, means⟩ := default_meant fits notBox nothing
    obtain ⟨number, rfl⟩ := int_of_valid type (admissible value given)
    have sent : fieldValue numerals p entry.raw = some (.int number) := by
      simp only [fieldValue, type, empty, given, toInt, Option.map_some]
    exact (fieldAgrees_of_sent sent means fun _ => admissible _ given).mpr (carries_self _)
  cases entry with
  | missing =>
    simp only [Convertible, type, iff_true]
    exact blank (.inl rfl) rfl
  | blank =>
    simp only [Convertible, type, iff_true]
    exact blank (.inr rfl) rfl
  | holds value =>
    obtain ⟨number, rfl⟩ := int_of_valid type fits.1
    have sent : fieldValue numerals p (some (toString number)) =
        some (.int ((Integers.ofText numerals.decimals (toString number)).getD 0)) := by
      simp only [fieldValue, type, nonempty_some (toString_ne_empty number), toInt, Option.map_some]
    have fitting : Carries (.int ((Integers.ofText numerals.decimals (toString number)).getD 0)) (.int number) ↔
        Integers.digitCount number ≤ Integers.maxDigits := by
      rw [Integers.ofText_toString]
      by_cases short : Integers.digitCount number ≤ Integers.maxDigits
      · rw [if_pos short]
        exact iff_of_true (carries_self _) short
      · rw [if_neg short]
        refine iff_of_false ?_ short
        -- Zero, which is sent instead, has one digit.
        have long : number ≠ 0 := by
          rintro rfl
          exact short (by decide)
        rintro (same | equal)
        · exact long (ParamValue.int.inj same).symm
        · simp only [Option.getD_none, ParamValue.eq, ParamValue.number?, Number.eq, decide_eq_true_eq,
            Number.finite.injEq] at equal
          exact long (Rat.intCast_inj.mp equal).symm
    refine (fieldAgrees_of_sent sent rfl fun carries => ?_).trans (fitting.trans ?_)
    · rw [Integers.ofText_toString, if_pos (fitting.mp carries)]
      exact fits.1
    · simp only [Convertible, type]
      exact ⟨fun short other same => ParamValue.int.inj same ▸ short, fun short => short number rfl⟩

theorem fieldAgrees_float (type : p.type = .float) : FieldAgrees numerals p entry ↔ Convertible numerals p entry := by
  have notBox : p.type ≠ .bool := by
    rw [type]
    nofun
  -- nothing was entered, and the default is converted
  have blank (nothing : entry = .missing ∨ entry = .blank) (empty : nonempty entry.raw = none) :
      FieldAgrees numerals p entry ↔
        ∀ number, p.default = some (.int number) → Exact (numerals.floatOfInt number) number := by
    obtain ⟨value, given, means⟩ := default_meant fits notBox nothing
    have sent : fieldValue numerals p entry.raw = (toFloat numerals value).map .float := by
      simp only [fieldValue, type, empty, given]
    rw [given]
    rcases float_of_valid type (admissible value given) with ⟨number, rfl⟩ | ⟨float, rfl⟩
    · cases converted : numerals.floatOfInt number with
      | none =>
        apply iff_of_false
        · rintro ⟨other, sends, -⟩
          rw [sent, toFloat, converted] at sends
          cases sends
        · intro exactly
          obtain ⟨found, some, -⟩ := exactly number rfl
          cases converted.symm.trans some
      | some found =>
        rw [toFloat, converted] at sent
        refine (fieldAgrees_of_sent sent means fun carries => ?_).trans ?_
        · exact valid_exact type (carries_float_int.mp carries) (admissible _ given)
        · rw [carries_float_int]
          constructor
          · intro exactly other same
            cases same
            exact ⟨found, converted, exactly⟩
          · intro exactly
            obtain ⟨other, same, exactly⟩ := exactly number rfl
            cases converted.symm.trans same
            exact exactly
    · refine (fieldAgrees_of_sent sent means fun _ => admissible _ given).trans ?_
      exact iff_of_true (carries_self _) nofun
  cases entry with
  | missing =>
    simp only [Convertible, type]
    exact blank (.inl rfl) rfl
  | blank =>
    simp only [Convertible, type]
    exact blank (.inr rfl) rfl
  | holds value =>
    simp only [Convertible, type]
    -- an integer is converted like a default; a float's text is read back as that float
    rcases float_of_valid type fits.1 with ⟨number, rfl⟩ | ⟨float, rfl⟩
    · obtain ⟨found, converted⟩ := numerals.float_int number
      have sent : fieldValue numerals p (some (toString number)) = some (.float found) := by
        simp only [fieldValue, type, nonempty_some (toString_ne_empty number), toFloat, converted, Option.getD_some,
          Option.map_some]
      refine (fieldAgrees_of_sent sent rfl fun carries => ?_).trans ?_
      · exact valid_exact type (carries_float_int.mp carries) fits.1
      · rw [carries_float_int]
        constructor
        · intro exactly other same
          cases same
          exact ⟨found, converted, exactly⟩
        · intro exactly
          obtain ⟨other, same, exactly⟩ := exactly number rfl
          cases converted.symm.trans same
          exact exactly
    · have reads := fits.2.2 float rfl
      have proper : float.text ≠ "" := by
        intro empty
        rw [empty, numerals.float_empty] at reads
        cases reads
      have sent : fieldValue numerals p (some float.text) = some (.float float) := by
        simp only [fieldValue, type, nonempty_some proper, toFloat, reads, Option.getD_some, Option.map_some]
      refine (fieldAgrees_of_sent sent rfl fun _ => fits.1).trans ?_
      exact iff_of_true (carries_self _) nofun

theorem fieldAgrees_choice (type : p.type = .choice) : FieldAgrees numerals p entry ↔ Convertible numerals p entry := by
  have notBox : p.type ≠ .bool := by
    rw [type]
    nofun
  have sends (found : String) : fieldValue numerals p (some found) = some (.str found) := by
    simp only [fieldValue, type]
  cases entry with
  | missing =>
    obtain ⟨value, given, means⟩ := default_meant fits notBox (.inl rfl)
    have sent : fieldValue numerals p none = some (.str value.text) := by
      simp only [fieldValue, type, given]
    refine (fieldAgrees_of_sent sent means fun carries => ?_).trans ?_
    · rw [← carries_str.mp carries]
      exact admissible value given
    · simp only [Convertible, type, given, Option.some_inj]
      rw [carries_str]
      constructor
      · exact fun same => ⟨_, same⟩
      · rintro ⟨text, rfl⟩
        rfl
  | blank =>
    obtain ⟨value, given, means⟩ := default_meant fits notBox (.inr rfl)
    refine (fieldAgrees_of_sent (sends "") means fun carries => ?_).trans ?_
    · rw [← carries_str.mp carries]
      exact admissible value given
    · simp only [Convertible, type, given, Option.some_inj]
      exact carries_str
  | holds value =>
    refine (fieldAgrees_of_sent (sends value.text) rfl fun carries => ?_).trans ?_
    · rw [← carries_str.mp carries]
      exact fits.1
    · simp only [Convertible, type]
      rw [carries_str]
      constructor
      · exact fun same => ⟨_, same⟩
      · rintro ⟨text, rfl⟩
        rfl

theorem fieldAgrees_iff : FieldAgrees numerals p entry ↔ Convertible numerals p entry := by
  cases type : p.type with
  | string => exact fieldAgrees_text fits admissible (.inl type)
  | path => exact fieldAgrees_text fits admissible (.inr type)
  | bool => exact fieldAgrees_bool fits type
  | int => exact fieldAgrees_int fits admissible type
  | float => exact fieldAgrees_float fits admissible type
  | choice => exact fieldAgrees_choice fits admissible type

end

/-! ## All fields -/

theorem submitted_from {form : String → Option String} {fields : List FormParam}
    (unique : (fields.map (·.name)).Nodup) {start params : Params}
    (submitted : fields.foldlM
      (fun params p => (fieldValue numerals p (form p.name)).map (params.set p.name ·)) start = some params) :
    (∀ p ∈ fields, (fieldValue numerals p (form p.name)).isSome ∧
        params.get? p.name = fieldValue numerals p (form p.name)) ∧
      ∀ name ∉ fields.map (·.name), params.get? name = start.get? name := by
  induction fields generalizing start with
  | nil =>
    cases submitted
    exact ⟨fun p member => absurd member List.not_mem_nil, fun _ _ => rfl⟩
  | cons field fields ih =>
    rw [List.map_cons, List.nodup_cons] at unique
    obtain ⟨absent, distinct⟩ := unique
    rw [List.foldlM_cons] at submitted
    cases sent : fieldValue numerals field (form field.name) with
    | none => simp only [sent, Option.map_none, Option.bind_eq_bind, Option.bind_none, reduceCtorEq] at submitted
    | some value =>
      simp only [sent, Option.map_some, Option.bind_eq_bind, Option.bind_some] at submitted
      obtain ⟨own, others⟩ := ih distinct submitted
      constructor
      · intro p member
        rcases List.mem_cons.mp member with rfl | later
        · rw [others p.name absent, sent]
          exact ⟨rfl, Dict.get?_set_self _ _ _⟩
        · exact own p later
      · intro name apart
        rw [List.map_cons, List.mem_cons, not_or] at apart
        obtain ⟨notFirst, notLater⟩ := apart
        rw [others name notLater]
        exact Dict.get?_set_of_ne _ notFirst _

theorem submitted_exists {form : String → Option String} {fields : List FormParam}
    (sends : ∀ p ∈ fields, ∃ sent, fieldValue numerals p (form p.name) = some sent) (start : Params) :
    ∃ params, fields.foldlM
      (fun params p => (fieldValue numerals p (form p.name)).map (params.set p.name ·)) start = some params := by
  induction fields generalizing start with
  | nil => exact ⟨start, rfl⟩
  | cons field fields ih =>
    obtain ⟨value, sent⟩ := sends field List.mem_cons_self
    obtain ⟨params, submitted⟩ := ih (fun p later => sends p (List.mem_cons_of_mem _ later)) (start.set field.name value)
    refine ⟨params, ?_⟩
    simp only [List.foldlM_cons, sent, Option.map_some, Option.bind_eq_bind, Option.bind_some]
    exact submitted

theorem paramErrors_nil {formMeta : FormMeta} {params : Params}
    (sent : ∀ p ∈ formMeta.params, ∃ value, params.get? p.name = some value)
    (others : ∀ name ∉ formMeta.params.map (·.name), params.get? name = none) :
    paramErrors formMeta.scriptMeta params = [] ↔
      ∀ p ∈ formMeta.params, ∀ value, params.get? p.name = some value → validateValue p.toParamDescriptor value = [] := by
  have names : formMeta.scriptMeta.params.map (·.name) = formMeta.params.map (·.name) := by
    rw [FormMeta.scriptMeta, List.map_map]
    rfl
  have noneUnknown : params.keys.filter (fun key => key ∉ formMeta.scriptMeta.params.map (·.name)) = [] := by
    rw [List.filter_eq_nil_iff]
    intro key present unknown
    rw [names] at unknown
    exact (Dict.get?_eq_none_iff params key).mp (others key (of_decide_eq_true unknown)) present
  rw [paramErrors, noneUnknown, List.map_nil, List.nil_append, List.flatMap_eq_nil_iff]
  constructor
  · intro silent p member value found
    have checked := silent p.toParamDescriptor (List.mem_map_of_mem member)
    rwa [found] at checked
  · intro valid descriptor member
    obtain ⟨p, isParam, rfl⟩ := List.mem_map.mp member
    obtain ⟨value, found⟩ := sent p isParam
    rw [found]
    exact valid p isParam value found

/-- The form's reading of a submission and the agent's validator agree exactly where each field's
text converts. -/
theorem form_agrees_with_validator (numerals : Numerals) (formMeta : FormMeta) (entries : String → Entry)
    (admissible : Admissible formMeta) (fits : ∀ p ∈ formMeta.params, Fits numerals p (entries p.name)) :
    Agrees numerals formMeta entries ↔ ∀ p ∈ formMeta.params, Convertible numerals p (entries p.name) := by
  have each (p : FormParam) (member : p ∈ formMeta.params) :
      FieldAgrees numerals p (entries p.name) ↔ Convertible numerals p (entries p.name) :=
    fieldAgrees_iff (fits p member) (admissible p member)
  constructor
  · rintro ⟨params, submitted, accepted, carried⟩ p member
    obtain ⟨own, others⟩ :=
      @submitted_from numerals (fun name => (entries name).raw) _ formMeta.unique Dict.empty params submitted
    have present (q : FormParam) (isParam : q ∈ formMeta.params) : ∃ value, params.get? q.name = some value :=
      (carried q isParam).imp fun _ sent => sent.1
    have valid := (paramErrors_nil present others).mp accepted
    obtain ⟨value, sent, meant⟩ := carried p member
    apply (each p member).mp
    exact ⟨value, (own p member).2.symm.trans sent, valid p member value sent, meant⟩
  · intro convertible
    have agree (p : FormParam) (member : p ∈ formMeta.params) : FieldAgrees numerals p (entries p.name) :=
      (each p member).mpr (convertible p member)
    obtain ⟨params, submitted⟩ := @submitted_exists numerals (fun name => (entries name).raw) _
      (fun p member => (agree p member).imp fun _ sends => sends.1) Dict.empty
    obtain ⟨own, others⟩ :=
      @submitted_from numerals (fun name => (entries name).raw) _ formMeta.unique Dict.empty params submitted
    have sent (p : FormParam) (member : p ∈ formMeta.params) : ∃ value, params.get? p.name = some value ∧
        validateValue p.toParamDescriptor value = [] ∧
        ∀ meant, expected p (entries p.name) = some meant → Carries value meant := by
      obtain ⟨value, sends, valid, meant⟩ := agree p member
      exact ⟨value, (own p member).2.trans sends, valid, meant⟩
    refine ⟨params, submitted, ?_, ?_⟩
    · apply (paramErrors_nil (fun p member => (sent p member).imp fun _ found => found.1) others).mpr
      intro p member value found
      obtain ⟨other, same, valid, -⟩ := sent p member
      cases found.symm.trans same
      exact valid
    · intro p member
      obtain ⟨value, found, -, meant⟩ := sent p member
      exact ⟨value, found, meant⟩

/-! ## A model server -/

/-- Floats as far as integers go; the runs below convert no text to a float. -/
def wholeNumerals : Numerals where
  decimals := Integers.asciiDecimals
  float text :=
    if text = "" then none
    else some (match Integers.ofText Integers.asciiDecimals text with
      | some value => ⟨toString value ++ ".0", .finite value⟩
      | none => ⟨"inf", .posInfinity⟩)
  floatOfInt value := some ⟨toString value ++ ".0", .finite value⟩
  float_empty := rfl
  float_int value := ⟨_, if_neg (toString_ne_empty value)⟩

def contextSize : FormParam where
  name := "context_size"
  type := .int
  required := false
  min := some ⟨"512.0", .finite 512⟩
  max := some ⟨"32768.0", .finite 32768⟩
  choices := none
  default := some (.int 4096)
  choices_given := nofun
  bounds_numeric notInt := absurd rfl notInt
  default_given _ := ⟨.int 4096, rfl⟩

def gpuLayers : FormParam where
  name := "gpu_layers"
  type := .choice
  required := false
  min := none
  max := none
  choices := some [.int 0, .int 16, .int 32, .str "all"]
  default := some (.str "all")
  choices_given _ := ⟨_, _, rfl⟩
  bounds_numeric _ _ := ⟨rfl, rfl⟩
  default_given _ := ⟨.str "all", rfl⟩

def modelServer : FormMeta where
  params := [contextSize, gpuLayers]
  unique := by decide

theorem admissible_modelServer : Admissible modelServer := by
  intro p member value given
  simp only [modelServer, List.mem_cons, List.not_mem_nil, or_false] at member
  rcases member with rfl | rfl
  · cases given
    decide +kernel
  · cases given
    decide +kernel

def chosen (option : ParamValue) (name : String) : Entry := if name = "context_size" then .blank else .holds option

theorem fits_chosen {option : ParamValue} (rendered : option ∈ gpuLayers.choices.getD [])
    (valid : validateValue gpuLayers.toParamDescriptor option = []) (noFloat : ∀ float, option ≠ .float float) :
    ∀ p ∈ modelServer.params, Fits wholeNumerals p (chosen option p.name) := by
  intro p member
  simp only [modelServer, List.mem_cons, List.not_mem_nil, or_false] at member
  rcases member with rfl | rfl
  · exact ⟨rfl, nofun⟩
  · exact ⟨valid, fun _ => rendered, fun float same => absurd same (noFloat float)⟩

/-- All layers, and the context's default size. -/
theorem form_agrees_with_validator_all : Agrees wholeNumerals modelServer (chosen (.str "all")) := by
  have fits : ∀ p ∈ modelServer.params, Fits wholeNumerals p (chosen (.str "all") p.name) :=
    fits_chosen (by decide) (by decide) nofun
  apply (form_agrees_with_validator wholeNumerals modelServer (chosen (.str "all")) admissible_modelServer fits).mpr
  intro p member
  simp only [modelServer, List.mem_cons, List.not_mem_nil, or_false] at member
  rcases member with rfl | rfl
  · trivial
  · exact ⟨"all", rfl⟩

/-- The rendered option 16 is sent as a text, which is none of the choices. -/
theorem numeric_option_is_refused :
    Admissible modelServer ∧ (∀ p ∈ modelServer.params, Fits wholeNumerals p (chosen (.int 16) p.name)) ∧
      (submittedParams wholeNumerals modelServer fun name => (chosen (.int 16) name).raw).map
          (paramErrors modelServer.scriptMeta) = some [.notChoice "gpu_layers" gpuLayers.choices] ∧
      ¬ Agrees wholeNumerals modelServer (chosen (.int 16)) := by
  have refused : (submittedParams wholeNumerals modelServer fun name => (chosen (.int 16) name).raw).map
      (paramErrors modelServer.scriptMeta) = some [.notChoice "gpu_layers" gpuLayers.choices] := by decide +kernel
  refine ⟨admissible_modelServer, fits_chosen (by decide) (by decide) nofun, refused, ?_⟩
  rintro ⟨params, submitted, accepted, -⟩
  rw [submitted, Option.map_some, accepted] at refused
  cases refused

end RunForm

end Csl.Server.Web
