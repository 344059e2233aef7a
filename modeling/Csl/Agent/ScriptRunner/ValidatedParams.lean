import Csl.Agent.Installation
import Csl.Agent.ScriptRunner.Specs

/-! Which parameters pass the check against a script's metadata.

What the metadata allows is said here by types and intervals. The check asks instead whether a
value lies outside a bound and whether it equals a choice, which lets more through: nothing is
outside a bound that is not a number, and Python's `==` crosses the types.
-/

set_option autoImplicit false

namespace Csl.Shared

inductive JsonType where
  | string | integer | float | boolean
  deriving DecidableEq, Repr

def ParamValue.type : ParamValue → JsonType
  | .str _ => .string
  | .int _ => .integer
  | .float _ => .float
  | .bool _ => .boolean

/-- `<=` between Python numbers. -/
def Number.le (a b : Number) : Bool := a.lt b || a.eq b

theorem Number.le_iff (a b : Number) : a.le b = true ↔ b.lt a = false ∧ a ≠ .nan ∧ b ≠ .nan := by
  cases a with
  | finite a =>
    cases b with
    | finite b =>
      simp only [le, lt, eq, Bool.or_eq_true, decide_eq_true_eq, decide_eq_false_iff_not, not_lt,
        finite.injEq, ne_eq, reduceCtorEq, not_false_eq_true, and_self, and_true]
      exact le_iff_lt_or_eq.symm
    | _ => simp [le, lt, eq]
  | _ => cases b <;> simp [le, lt, eq]

end Csl.Shared

namespace Csl.Agent.ValidatedParams
open Csl.Shared

/-! ## What metadata allows -/

structure Within (descriptor : ParamDescriptor) (number : Number) : Prop where
  min : ∀ min, descriptor.min = some min → min.number.le number
  max : ∀ max, descriptor.max = some max → number.le max.number

/-- The value is the choice: of the same JSON type, and the same value. -/
def Same (value choice : ParamValue) : Prop := value.type = choice.type ∧ value.eq choice

/-- An integer is a float's value too, a boolean is no number. -/
def Fits (descriptor : ParamDescriptor) (value : ParamValue) : Prop :=
  match descriptor.type with
  | .string | .path => value.type = .string
  | .bool => value.type = .boolean
  | .int => value.type = .integer ∧ ∀ number, value.number? = some number → Within descriptor number
  | .float => (value.type = .integer ∨ value.type = .float) ∧
      ∀ number, value.number? = some number → Within descriptor number
  | .choice => ∃ choice ∈ descriptor.choices.getD [], Same value choice

structure Allowed (scriptMeta : ScriptMeta) (params : Params) : Prop where
  declared : ∀ key ∈ params.keys, ∃ descriptor ∈ scriptMeta.params, descriptor.name = key
  required : ∀ descriptor ∈ scriptMeta.params, descriptor.required = true →
    params.get? descriptor.name ≠ none
  fits : ∀ descriptor ∈ scriptMeta.params, ∀ value, params.get? descriptor.name = some value →
    Fits descriptor value

/-! ## What is refused, and what slips through -/

def Outside (descriptor : ParamDescriptor) (number : Number) : Prop :=
  (∃ min, descriptor.min = some min ∧ number.lt min.number) ∨
    ∃ max, descriptor.max = some max ∧ max.number.lt number

/-- A bound is given for it, and one of the two is not a number. -/
def Unordered (descriptor : ParamDescriptor) (number : Number) : Prop :=
  ∃ bound, (descriptor.min = some bound ∨ descriptor.max = some bound) ∧
    (number = .nan ∨ bound.number = .nan)

def Wrong (descriptor : ParamDescriptor) (value : ParamValue) : Prop :=
  match descriptor.type with
  | .string | .path => value.type ≠ .string
  | .bool => value.type ≠ .boolean
  | .int => value.type ≠ .integer ∨ ∃ number, value.number? = some number ∧ Outside descriptor number
  | .float => ¬ (value.type = .integer ∨ value.type = .float) ∨
      ∃ number, value.number? = some number ∧ Outside descriptor number
  | .choice => ∀ choice ∈ descriptor.choices.getD [], value.eq choice = false

/-- A number without an order to its bounds, or a value that equals choices of other types only. -/
def Slips (descriptor : ParamDescriptor) (value : ParamValue) : Prop :=
  match descriptor.type with
  | .int | .float => ∃ number, value.number? = some number ∧ Unordered descriptor number
  | .choice => (∃ choice ∈ descriptor.choices.getD [], value.eq choice) ∧
      ∀ choice ∈ descriptor.choices.getD [], value.eq choice → value.type ≠ choice.type
  | _ => False

def Refused (scriptMeta : ScriptMeta) (params : Params) : Prop :=
  (∃ key ∈ params.keys, ∀ descriptor ∈ scriptMeta.params, descriptor.name ≠ key) ∨
    (∃ descriptor ∈ scriptMeta.params, descriptor.required = true ∧ params.get? descriptor.name = none) ∨
    ∃ descriptor ∈ scriptMeta.params, ∃ value,
      params.get? descriptor.name = some value ∧ Wrong descriptor value

def Tight (scriptMeta : ScriptMeta) (params : Params) : Prop :=
  ∀ descriptor ∈ scriptMeta.params, ∀ value, params.get? descriptor.name = some value →
    ¬ Slips descriptor value

/-! ## One value -/

variable {descriptor : ParamDescriptor} {value : ParamValue}

theorem within_iff (descriptor : ParamDescriptor) (number : Number) :
    Within descriptor number ↔ ¬ Outside descriptor number ∧ ¬ Unordered descriptor number := by
  constructor
  · intro within
    constructor
    · intro outside
      rcases outside with ⟨min, given, below⟩ | ⟨max, given, above⟩
      · have order := ((Number.le_iff _ _).mp (within.min min given)).1
        rw [below] at order
        cases order
      · have order := ((Number.le_iff _ _).mp (within.max max given)).1
        rw [above] at order
        cases order
    · intro unordered
      -- a comparison that holds is not with NaN
      obtain ⟨bound, given, isNan⟩ := unordered
      have both : number ≠ .nan ∧ bound.number ≠ .nan := by
        rcases given with given | given
        · exact ((Number.le_iff _ _).mp (within.min bound given)).2.symm
        · exact ((Number.le_iff _ _).mp (within.max bound given)).2
      exact isNan.elim both.1 both.2
  · intro inside
    obtain ⟨notOutside, ordered⟩ := inside
    constructor
    · intro min given
      apply (Number.le_iff _ _).mpr
      refine ⟨?_, ?_, ?_⟩
      · apply Bool.eq_false_iff.mpr
        exact fun below => notOutside (.inl ⟨min, given, below⟩)
      · exact fun isNan => ordered ⟨min, .inl given, .inr isNan⟩
      · exact fun isNan => ordered ⟨min, .inl given, .inl isNan⟩
    · intro max given
      apply (Number.le_iff _ _).mpr
      refine ⟨?_, ?_, ?_⟩
      · apply Bool.eq_false_iff.mpr
        exact fun above => notOutside (.inr ⟨max, given, above⟩)
      · exact fun isNan => ordered ⟨max, .inr given, .inl isNan⟩
      · exact fun isNan => ordered ⟨max, .inr given, .inr isNan⟩

theorem fits_iff (descriptor : ParamDescriptor) (value : ParamValue) :
    Fits descriptor value ↔ ¬ Wrong descriptor value ∧ ¬ Slips descriptor value := by
  have numeric : (∀ number, value.number? = some number → Within descriptor number) ↔
      ¬ (∃ number, value.number? = some number ∧ Outside descriptor number) ∧
        ¬ ∃ number, value.number? = some number ∧ Unordered descriptor number := by
    simp only [within_iff, not_exists, not_and, ← forall_and]
  unfold Fits Wrong Slips
  cases descriptor.type with
  | string | path | bool => simp
  | int =>
    dsimp only
    rw [numeric, not_or, not_not]
    exact and_assoc.symm
  | float =>
    dsimp only
    rw [numeric, not_or, not_not]
    exact and_assoc.symm
  | choice =>
    dsimp only
    constructor
    · intro fits
      -- a choice of the same type is equal to the value, so it neither is wrong nor slips
      obtain ⟨choice, member, type, equal⟩ := fits
      constructor
      · intro none
        rw [none choice member] at equal
        cases equal
      · exact fun slips => slips.2 choice member equal type
    · intro passes
      obtain ⟨equals, proper⟩ := passes
      by_contra different
      apply proper
      constructor
      · by_contra none
        apply equals
        intro choice member
        apply Bool.eq_false_iff.mpr
        exact fun equal => none ⟨choice, member, equal⟩
      · exact fun choice member equal type => different ⟨choice, member, type, equal⟩

theorem checkBounds_iff (descriptor : ParamDescriptor) (number : Number) :
    checkBounds descriptor number = [] ↔ ¬ Outside descriptor number := by
  unfold checkBounds Outside
  cases descriptor.min <;> cases descriptor.max <;> simp

theorem validateValue_iff (descriptor : ParamDescriptor) (value : ParamValue) :
    validateValue descriptor value = [] ↔ ¬ Wrong descriptor value := by
  unfold validateValue Wrong
  cases descriptor.type with
  | string | path | bool => cases value <;> simp [ParamValue.type]
  | int => cases value <;> simp [ParamValue.type, ParamValue.number?, checkBounds_iff]
  | float => cases value <;> simp [ParamValue.type, ParamValue.number?, checkBounds_iff]
  | choice =>
    simp only [ite_eq_left_iff, List.cons_ne_nil, imp_false, not_not, List.any_eq_true, not_forall,
      Bool.not_eq_false, exists_prop]

/-! ## All of them -/

variable {scriptMeta : ScriptMeta} {params : Params}

theorem paramErrors_iff (scriptMeta : ScriptMeta) (params : Params) :
    paramErrors scriptMeta params = [] ↔ ¬ Refused scriptMeta params := by
  unfold paramErrors Refused
  rw [List.append_eq_nil_iff, not_or, not_or, List.map_eq_nil_iff, List.filter_eq_nil_iff,
    List.flatMap_eq_nil_iff]
  apply and_congr
  · simp
  · rw [not_exists, not_exists, ← forall_and]
    apply forall_congr'
    intro descriptor
    by_cases member : descriptor ∈ scriptMeta.params
    · cases given : params.get? descriptor.name with
      | none => simp [member]
      | some value => simp [member, validateValue_iff]
    · simp [member]

theorem allowed_iff (scriptMeta : ScriptMeta) (params : Params) :
    Allowed scriptMeta params ↔ ¬ Refused scriptMeta params ∧ Tight scriptMeta params := by
  constructor
  · intro allowed
    constructor
    · intro refused
      rcases refused with ⟨key, given, unknown⟩ | ⟨descriptor, member, required, missing⟩ |
        ⟨descriptor, member, value, given, wrong⟩
      · obtain ⟨descriptor, member, named⟩ := allowed.declared key given
        exact unknown descriptor member named
      · exact allowed.required descriptor member required missing
      · exact ((fits_iff _ _).mp (allowed.fits descriptor member value given)).1 wrong
    · intro descriptor member value given
      exact ((fits_iff _ _).mp (allowed.fits descriptor member value given)).2
  · intro passes
    obtain ⟨accepted, tight⟩ := passes
    constructor
    · intro key given
      by_contra unknown
      apply accepted
      exact .inl ⟨key, given, fun descriptor member named => unknown ⟨descriptor, member, named⟩⟩
    · intro descriptor member required missing
      exact accepted (.inr (.inl ⟨descriptor, member, required, missing⟩))
    · intro descriptor member value given
      apply (fits_iff _ _).mpr
      constructor
      · exact fun wrong => accepted (.inr (.inr ⟨descriptor, member, value, given, wrong⟩))
      · exact tight descriptor member value given

theorem checkParams_iff {host : Host} {text : String} (parses : host.parseMetaYaml text = .ok scriptMeta)
    (name : String) : checkParams host name params (some text) = .ok () ↔ ¬ Refused scriptMeta params := by
  rw [← paramErrors_iff, checkParams, parses]
  dsimp only
  cases paramErrors scriptMeta params <;> simp

/-- The check accepts exactly what the metadata allows, unless a value slips through and nothing
else is wrong. -/
theorem accepts_allowed_iff {host : Host} {w : World} {name text : String}
    (staged : w.disk.metadata host name = some text) (parses : host.parseMetaYaml text = .ok scriptMeta)
    (params : Params) :
    ((host.run (validateParams host name params) w).1 = .ok () ↔ Allowed scriptMeta params) ↔
      Refused scriptMeta params ∨ Tight scriptMeta params := by
  rw [run_validateParams, staged, checkParams_iff parses, allowed_iff]
  by_cases refused : Refused scriptMeta params
  · simp [refused]
  · simp [refused]

/-! ## What slips through -/

def tuneText : String :=
  "params:\n  - name: ratio\n    type: float\n    required: true\n    min: 0\n    max: 1\n" ++
    "  - name: mode\n    type: choice\n    required: true\n    choices: [1, 2]\n"

def tuneMeta : ScriptMeta :=
  ⟨[{ name := "ratio", type := .float, required := true, min := some ⟨"0.0", .finite 0⟩,
      max := some ⟨"1.0", .finite 1⟩, choices := none },
    { name := "mode", type := .choice, required := true, min := none, max := none,
      choices := some [.int 1, .int 2] }]⟩

def tuner : Host :=
  { linux with
    parseMetaYaml := fun text => if text = tuneText then .ok tuneMeta else linux.parseMetaYaml text }

def tuned : World where
  memory := ⟨.empty, (0, 0)⟩
  disk := Disk.empty.write tuner (.scripts "tune.meta.yaml") tuneText
  now := "1"
  launched := []

theorem tuned_metadata : tuned.disk.metadata tuner "tune" = some tuneText := by decide +kernel

theorem tuner_parses : tuner.parseMetaYaml tuneText = .ok tuneMeta := by simp [tuner]

def slipping : Params := (Dict.empty.set "ratio" (.float ⟨"nan", .nan⟩)).set "mode" (.bool true)

theorem nan_and_true_pass :
    (tuner.run (validateParams tuner "tune" slipping) tuned).1 = .ok () ∧ ¬ Allowed tuneMeta slipping := by
  constructor
  · rw [run_validateParams, tuned_metadata, checkParams, tuner_parses]
    rfl
  · intro allowed
    have fits := allowed.fits _ List.mem_cons_self (.float ⟨"nan", .nan⟩) rfl
    have within : Within _ Number.nan := fits.2 .nan rfl
    cases within.min ⟨"0.0", .finite 0⟩ rfl

def proper : Params := (Dict.empty.set "ratio" (.float ⟨"0.5", .finite (1 / 2)⟩)).set "mode" (.int 2)

theorem accepts_allowed_iff_proper :
    (tuner.run (validateParams tuner "tune" proper) tuned).1 = .ok () ↔ Allowed tuneMeta proper := by
  apply (accepts_allowed_iff tuned_metadata tuner_parses proper).mpr
  right
  intro descriptor member value given slips
  simp only [tuneMeta, List.mem_cons, List.not_mem_nil, or_false] at member
  rcases member with rfl | rfl
  · cases given
    obtain ⟨number, same, bound, bounded, isNan⟩ := slips
    cases same
    rcases bounded with bounded | bounded
    · cases bounded
      rcases isNan with isNan | isNan <;> cases isNan
    · cases bounded
      rcases isNan with isNan | isNan <;> cases isNan
  · cases given
    exact slips.2 (.int 2) (.tail _ List.mem_cons_self) (by decide +kernel) rfl

end Csl.Agent.ValidatedParams
