import Csl.Library.Dict

/-! Trees of mappings and lists, and the record models that validate them.

A model forbids the keys it does not know. Validation collects the errors of all fields and all
unknown keys, each with its path, and what a model does after its fields have been validated is done
only if nothing was collected.
-/

set_option autoImplicit false

namespace RecordModels

inductive Raw (Atom : Type) where
  | scalar (value : Atom)
  | mapping (entries : List (String × Raw Atom))
  | sequence (items : List (Raw Atom))

inductive Raw.Proper {Atom : Type} : Raw Atom → Prop where
  | scalar {value : Atom} : Proper (.scalar value)
  | mapping {entries : List (String × Raw Atom)} : (entries.map Prod.fst).Nodup →
      (∀ entry ∈ entries, Proper entry.2) → Proper (.mapping entries)
  | sequence {items : List (Raw Atom)} : (∀ item ∈ items, Proper item) → Proper (.sequence items)

abbrev Document (Atom : Type) := { raw : Raw Atom // raw.Proper }

inductive Part where
  | key (name : String)
  | index (place : Nat)
  deriving DecidableEq, Repr

structure Error where
  loc : List Part
  type : String
  deriving DecidableEq, Repr

def Error.Extra (error : Error) : Prop := error.type = "extra_forbidden"

instance : DecidablePred Error.Extra := fun error => inferInstanceAs (Decidable (error.type = "extra_forbidden"))

structure Refusal where
  errors : List Error
  some : errors ≠ []
  ordinary : ∀ error ∈ errors, ¬ error.Extra

/-- Models of nested records. A scalar may be checked against the raw values of the other scalars of
its model, a field without a value or with one of another kind has a default or is refused, and
`after` makes the instance from the values of the fields. -/
inductive Schema (Atom Value : Type) where
  | scalar (check : (String → Option (Raw Atom)) → Option (Raw Atom) → Except Refusal Value)
  | record (names : List String) (distinct : names.Nodup) (field : String → Schema Atom Value)
      (after : (String → Option Value) → Except Refusal Value) (otherwise : Option (Raw Atom) → Except Refusal Value)
  | listOf (item : Schema Atom Value) (after : List Value → Except Refusal Value)
      (otherwise : Option (Raw Atom) → Except Refusal Value)

variable {Atom Value : Type}

def errorsOf : Except (List Error) Value → List Error
  | .ok _ => []
  | .error errors => errors

def under (part : Part) (errors : List Error) : List Error :=
  errors.map fun error => { error with loc := part :: error.loc }

def extras (names : List String) (entries : List (String × Raw Atom)) : List Error :=
  (entries.filter fun entry => entry.1 ∉ names).map fun entry => ⟨[.key entry.1], "extra_forbidden"⟩

def refused (outcome : Except Refusal Value) : Except (List Error) Value := outcome.mapError Refusal.errors

namespace Schema

def isScalar : Schema Atom Value → Bool
  | .scalar _ => true
  | .record .. | .listOf .. => false

def scalars (names : List String) (field : String → Schema Atom Value) (entries : List (String × Raw Atom))
    (name : String) : Option (Raw Atom) :=
  if name ∈ names ∧ (field name).isScalar then Dict.find entries name else none

/-- `siblings` are the raw values of the other scalars. -/
def validate : Schema Atom Value → (siblings : String → Option (Raw Atom)) → Option (Raw Atom) →
    Except (List Error) Value
  | .scalar check, siblings, raw => refused (check siblings raw)
  | .record names _ field after _, _, some (.mapping entries) =>
    let outcome := fun name => (field name).validate (scalars names field entries) (Dict.find entries name)
    let errors := names.flatMap (fun name => under (.key name) (errorsOf (outcome name))) ++ extras names entries
    if errors = [] then refused (after fun name => if name ∈ names then (outcome name).toOption else none)
    else .error errors
  | .record _ _ _ _ otherwise, _, raw => refused (otherwise raw)
  | .listOf item after _, _, some (.sequence items) =>
    let outcomes := items.map fun raw => item.validate (fun _ => none) (some raw)
    let errors := outcomes.zipIdx.flatMap fun outcome => under (.index outcome.2) (errorsOf outcome.1)
    if errors = [] then refused (after (outcomes.filterMap (·.toOption))) else .error errors
  | .listOf _ _ otherwise, _, raw => refused (otherwise raw)

/-- The tree without its unknown keys, at every depth. -/
def prune : Schema Atom Value → Raw Atom → Raw Atom
  | .record names _ field _ _, .mapping entries =>
    .mapping ((entries.filter fun entry => entry.1 ∈ names).map fun entry => (entry.1, (field entry.1).prune entry.2))
  | .listOf item _ _, .sequence items => .sequence (items.map fun raw => item.prune raw)
  | .scalar _, raw | .record .., raw | .listOf .., raw => raw

def unknown : Schema Atom Value → Raw Atom → List (List Part)
  | .record names _ field _ _, .mapping entries =>
    names.flatMap (fun name => (((Dict.find entries name).map fun raw => (field name).unknown raw).getD []).map
      (.key name :: ·)) ++ (entries.filter fun entry => entry.1 ∉ names).map fun entry => [.key entry.1]
  | .listOf item _ _, .sequence items =>
    items.zipIdx.flatMap fun raw => (item.unknown raw.1).map (.index raw.2 :: ·)
  | _, _ => []

end Schema

/-! ## Errors and their paths -/

def extraPaths (errors : List Error) : List (List Part) := (errors.filter Error.Extra).map (·.loc)

@[simp] theorem extraPaths_nil : extraPaths [] = [] := rfl

@[simp] theorem extraPaths_append (first second : List Error) :
    extraPaths (first ++ second) = extraPaths first ++ extraPaths second := by
  simp [extraPaths]

@[simp] theorem extraPaths_flatMap {A : Type} (items : List A) (errors : A → List Error) :
    extraPaths (items.flatMap errors) = items.flatMap fun item => extraPaths (errors item) := by
  induction items with
  | nil => rfl
  | cons item items ih => simp [ih]

@[simp] theorem extraPaths_under (part : Part) (errors : List Error) :
    extraPaths (under part errors) = (extraPaths errors).map (part :: ·) := by
  induction errors with
  | nil => rfl
  | cons error errors ih =>
    by_cases extra : error.Extra
    · have same : ({ error with loc := part :: error.loc } : Error).Extra := extra
      simp_all [extraPaths, under]
    · have same : ¬ ({ error with loc := part :: error.loc } : Error).Extra := extra
      simp_all [extraPaths, under]

@[simp] theorem extraPaths_extras (names : List String) (entries : List (String × Raw Atom)) :
    extraPaths (extras names entries) =
      (entries.filter fun entry => entry.1 ∉ names).map fun entry => [.key entry.1] := by
  have all : (extras names entries).filter Error.Extra = extras names entries := by
    rw [List.filter_eq_self]
    intro error member
    obtain ⟨entry, _, rfl⟩ := List.mem_map.mp member
    exact decide_eq_true rfl
  rw [extraPaths, all, extras, List.map_map]
  rfl

@[simp] theorem extraPaths_refused (outcome : Except Refusal Value) : extraPaths (errorsOf (refused outcome)) = [] := by
  cases outcome with
  | ok value => rfl
  | error refusal =>
    have none : refusal.errors.filter Error.Extra = [] := by
      rw [List.filter_eq_nil_iff]
      exact fun error member => by simpa using refusal.ordinary error member
    exact congrArg (List.map _) none

/-- What an outcome's errors say that its unknown keys do not explain. -/
def Ordinary (outcome : Except (List Error) Value) : Prop := ∃ error ∈ errorsOf outcome, ¬ error.Extra

def Fails (outcome : Except (List Error) Value) : Prop := errorsOf outcome ≠ []

theorem Ordinary.fails {outcome : Except (List Error) Value} (ordinary : Ordinary outcome) : Fails outcome := by
  obtain ⟨error, member, _⟩ := ordinary
  exact List.ne_nil_of_mem member

theorem ordinary_under {part : Part} {outcome : Except (List Error) Value} {error : Error}
    (member : error ∈ under part (errorsOf outcome)) (ordinary : ¬ error.Extra) : Ordinary outcome := by
  obtain ⟨inner, found, rfl⟩ := List.mem_map.mp member
  exact ⟨inner, found, ordinary⟩

theorem under_ne_nil {part : Part} {errors : List Error} (some : errors ≠ []) : under part errors ≠ [] := by
  simpa [under] using some

theorem refused_error {outcome : Except Refusal Value} {errors : List Error} (failed : refused outcome = .error errors) :
    errors ≠ [] := by
  cases outcome with
  | ok value => cases failed
  | error refusal =>
    cases failed
    exact refusal.some

namespace Schema

theorem validate_error {schema : Schema Atom Value} {siblings : String → Option (Raw Atom)} {raw : Option (Raw Atom)}
    {errors : List Error} (failed : schema.validate siblings raw = .error errors) : errors ≠ [] := by
  unfold validate at failed
  split at failed
  · exact refused_error failed
  · dsimp only at failed
    split_ifs at failed with none
    · exact refused_error failed
    · cases failed
      exact none
  · exact refused_error failed
  · dsimp only at failed
    split_ifs at failed with none
    · exact refused_error failed
    · cases failed
      exact none
  · exact refused_error failed

def recordErrors (names : List String) (field : String → Schema Atom Value) (entries : List (String × Raw Atom)) :
    List Error :=
  names.flatMap (fun name => under (.key name)
    (errorsOf ((field name).validate (scalars names field entries) (Dict.find entries name)))) ++ extras names entries

def listErrors (item : Schema Atom Value) (items : List (Raw Atom)) : List Error :=
  (items.map fun raw => item.validate (fun _ => none) (some raw)).zipIdx.flatMap fun outcome =>
    under (.index outcome.2) (errorsOf outcome.1)

/-- Unknown keys are reported under their paths, all of them and nothing else. -/
theorem extraPaths_validate (schema : Schema Atom Value) (siblings : String → Option (Raw Atom)) (raw : Option (Raw Atom)) :
    extraPaths (errorsOf (schema.validate siblings raw)) = (raw.map schema.unknown).getD [] := by
  induction schema generalizing siblings raw with
  | scalar check =>
    cases raw <;> simp [validate, unknown]
  | record names distinct field after otherwise ih =>
    rcases raw with _ | (value | entries | items)
    · simp [validate]
    · simp [validate, unknown]
    · have reported : extraPaths (recordErrors names field entries) =
          (record names distinct field after otherwise).unknown (.mapping entries) := by
        simp [recordErrors, unknown, ih]
      change extraPaths (errorsOf (if recordErrors names field entries = [] then _ else _)) = _
      split_ifs with none
      · rw [none] at reported
        rw [extraPaths_refused]
        exact reported
      · exact reported
    · simp [validate, unknown]
  | listOf item after otherwise ih =>
    rcases raw with _ | (value | entries | items)
    · simp [validate]
    · simp [validate, unknown]
    · simp [validate, unknown]
    · have reported : extraPaths (listErrors item items) = (listOf item after otherwise).unknown (.sequence items) := by
        simp [listErrors, unknown, ih, List.zipIdx_map, List.flatMap_map]
      change extraPaths (errorsOf (if listErrors item items = [] then _ else _)) = _
      split_ifs with none
      · rw [none] at reported
        rw [extraPaths_refused]
        exact reported
      · exact reported

/-! ## Pruning -/

@[simp] theorem prune_scalar (check : (String → Option (Raw Atom)) → Option (Raw Atom) → Except Refusal Value)
    (raw : Raw Atom) : (Schema.scalar check : Schema Atom Value).prune raw = raw := by
  cases raw <;> rfl

theorem listErrors_eq (item : Schema Atom Value) (items : List (Raw Atom)) :
    listErrors item items = items.zipIdx.flatMap fun raw =>
      under (.index raw.2) (errorsOf (item.validate (fun _ => none) (some raw.1))) := by
  simp [listErrors, List.zipIdx_map, List.flatMap_map]

section
variable {names : List String} {field : String → Schema Atom Value}

/-- The entries of a mapping after pruning. -/
def pruned (names : List String) (field : String → Schema Atom Value) (entries : List (String × Raw Atom)) :
    List (String × Raw Atom) :=
  (entries.filter fun entry => entry.1 ∈ names).map fun entry => (entry.1, (field entry.1).prune entry.2)

theorem find_pruned (entries : List (String × Raw Atom)) (name : String) :
    Dict.find (pruned names field entries) name =
      if name ∈ names then (Dict.find entries name).map (field name).prune else none := by
  induction entries with
  | nil => simp [pruned, Dict.find]
  | cons entry entries ih =>
    obtain ⟨key, raw⟩ := entry
    by_cases known : key ∈ names
    · have split : pruned names field ((key, raw) :: entries) =
          (key, (field key).prune raw) :: pruned names field entries := by
        simp [pruned, known]
      rw [split, Dict.find, Dict.find, ih]
      by_cases same : key = name
      · subst same
        simp [known]
      · simp [same]
    · have split : pruned names field ((key, raw) :: entries) = pruned names field entries := by
        simp [pruned, known]
      rw [split, Dict.find, ih]
      by_cases same : key = name
      · subst same
        simp [known]
      · simp [same]

theorem scalars_pruned (entries : List (String × Raw Atom)) :
    scalars names field (pruned names field entries) = scalars names field entries := by
  funext name
  unfold scalars
  split_ifs with scalar
  · rw [find_pruned, if_pos scalar.1]
    -- A scalar is not pruned.
    cases kind : field name with
    | scalar check =>
      have same : (Schema.scalar check : Schema Atom Value).prune = id := by
        funext raw
        exact prune_scalar check raw
      rw [same, Option.map_id, id]
    | record | listOf =>
      rw [kind] at scalar
      cases scalar.2
  · rfl

def fieldOutcome (names : List String) (field : String → Schema Atom Value) (entries : List (String × Raw Atom))
    (name : String) : Except (List Error) Value :=
  (field name).validate (scalars names field entries) ((Dict.find entries name).map (field name).prune)

theorem validate_pruned {distinct : names.Nodup} {after : (String → Option Value) → Except Refusal Value}
    {otherwise : Option (Raw Atom) → Except Refusal Value} (siblings : String → Option (Raw Atom))
    (entries : List (String × Raw Atom)) (value : Value) :
    (record names distinct field after otherwise).validate siblings (some (.mapping (pruned names field entries))) = .ok value ↔
      (∀ name ∈ names, ∃ v, fieldOutcome names field entries name = .ok v) ∧
        after (fun name => if name ∈ names then (fieldOutcome names field entries name).toOption else none) = .ok value := by
  have outcome : ∀ name ∈ names, (field name).validate (scalars names field (pruned names field entries))
      (Dict.find (pruned names field entries) name) = fieldOutcome names field entries name := by
    intro name known
    rw [scalars_pruned, find_pruned, if_pos known, fieldOutcome]
  have knownOnly : extras names (pruned names field entries) = [] := by
    have known : ∀ entry ∈ pruned names field entries, entry.1 ∈ names := by
      intro entry member
      obtain ⟨original, kept, same⟩ := List.mem_map.mp member
      rw [← same]
      simpa using (List.mem_filter.mp kept).2
    simpa [extras] using fun key raw member => known (key, raw) member
  -- there are no errors exactly if every field has a value
  have clean : recordErrors names field (pruned names field entries) = [] ↔
      ∀ name ∈ names, ∃ v, fieldOutcome names field entries name = .ok v := by
    rw [recordErrors, knownOnly, List.append_nil, List.flatMap_eq_nil_iff]
    refine forall₂_congr fun name known => ?_
    rw [outcome name known]
    cases result : fieldOutcome names field entries name with
    | ok v => simp [errorsOf, under]
    | error errors =>
      have some : errors ≠ [] := validate_error result
      simpa [errorsOf, under] using some
  have values : (fun name => if name ∈ names then ((field name).validate (scalars names field (pruned names field entries))
      (Dict.find (pruned names field entries) name)).toOption else none) =
      fun name => if name ∈ names then (fieldOutcome names field entries name).toOption else none := by
    funext name
    split_ifs with known
    · rw [outcome name known]
    · rfl
  change (if recordErrors names field (pruned names field entries) = [] then refused (after _) else _) = _ ↔ _
  rw [values, ← clean]
  split_ifs with none
  · cases after _ <;> simp [refused, Except.mapError, none]
  · simp [none]

theorem prune_eq_self {schema : Schema Atom Value} {raw : Raw Atom} (proper : raw.Proper)
    (none : schema.unknown raw = []) : schema.prune raw = raw := by
  induction schema generalizing raw with
  | scalar check => exact prune_scalar check raw
  | record names distinct field after otherwise ih =>
    cases proper with
    | scalar | sequence => rfl
    | @mapping entries keys inner =>
      simp only [unknown, List.append_eq_nil_iff, List.flatMap_eq_nil_iff, List.map_eq_nil_iff,
        List.filter_eq_nil_iff] at none
      obtain ⟨fields, known⟩ := none
      have all : entries.filter (fun entry => entry.1 ∈ names) = entries := by
        rw [List.filter_eq_self]
        exact fun entry member => by simpa using known entry member
      rw [prune, all]
      congr 1
      apply (List.map_congr_left _).trans entries.map_id
      intro entry member
      have found : Dict.find entries entry.1 = some entry.2 := Dict.find_of_mem keys member
      have inside := fields entry.1 (by simpa using known entry member)
      rw [found, Option.map_some, Option.getD_some] at inside
      rw [ih entry.1 (inner entry member) inside]
      rfl
  | listOf item after otherwise ih =>
    cases proper with
    | scalar | mapping => rfl
    | @sequence items inner =>
      simp only [unknown, List.flatMap_eq_nil_iff, List.map_eq_nil_iff] at none
      rw [prune]
      congr 1
      apply (List.map_congr_left _).trans items.map_id
      intro raw member
      obtain ⟨place, below, rfl⟩ := List.getElem_of_mem member
      apply ih (inner _ member)
      exact none (items[place], place) (List.mk_mem_zipIdx_iff_getElem?.mpr (List.getElem?_eq_getElem below))

/-- What is wrong with a tree but for its unknown keys is wrong after pruning. -/
theorem fails_prune {schema : Schema Atom Value} {siblings : String → Option (Raw Atom)} {raw : Raw Atom}
    (proper : raw.Proper) (ordinary : Ordinary (schema.validate siblings (some raw))) :
    Fails (schema.validate siblings (some (schema.prune raw))) := by
  by_cases none : schema.unknown raw = []
  · rw [prune_eq_self proper none]
    exact ordinary.fails
  induction schema generalizing siblings raw with
  | scalar check => exact absurd rfl none
  | record names distinct field after otherwise ih =>
    cases proper with
    | scalar | sequence => exact absurd rfl none
    | @mapping entries keys inner =>
      have reported := extraPaths_validate (record names distinct field after otherwise) siblings (some (.mapping entries))
      change Ordinary (if recordErrors names field entries = [] then _ else _) at ordinary
      change extraPaths (errorsOf (if recordErrors names field entries = [] then _ else _)) = _ at reported
      -- with unknown keys below it the record has errors
      split_ifs at ordinary reported with clean
      · rw [extraPaths_refused] at reported
        exact absurd reported.symm none
      · obtain ⟨error, member, notExtra⟩ := ordinary
        change error ∈ recordErrors names field entries at member
        -- an error that is about no unknown key is that of a field
        rcases List.mem_append.mp member with ofField | ofKey
        · obtain ⟨name, known, within⟩ := List.mem_flatMap.mp ofField
          -- the field fails after pruning too, whether or not anything in it was pruned
          have still : Fails ((field name).validate (scalars names field (pruned names field entries))
              (Dict.find (pruned names field entries) name)) := by
            have own := ordinary_under within notExtra
            rw [scalars_pruned, find_pruned, if_pos known]
            cases found : Dict.find entries name with
            | none =>
              rw [found] at own
              exact own.fails
            | some child =>
              rw [found] at own
              have properChild : child.Proper := inner _ (Dict.mem_of_find found)
              by_cases clean : (field name).unknown child = []
              · rw [Option.map_some, prune_eq_self properChild clean]
                exact own.fails
              · exact ih name properChild own clean
          have errors : recordErrors names field (pruned names field entries) ≠ [] := by
            intro empty
            have each := List.flatMap_eq_nil_iff.mp (List.append_eq_nil_iff.mp empty).1 name known
            exact under_ne_nil still each
          change Fails (if recordErrors names field (pruned names field entries) = [] then _ else _)
          rw [if_neg errors]
          exact errors
        · obtain ⟨entry, _, rfl⟩ := List.mem_map.mp ofKey
          exact absurd rfl notExtra
  | listOf item after otherwise ih =>
    cases proper with
    | scalar | mapping => exact absurd rfl none
    | @sequence items inner =>
      -- as for a record, item by item
      have reported := extraPaths_validate (listOf item after otherwise) siblings (some (.sequence items))
      change Ordinary (if listErrors item items = [] then _ else _) at ordinary
      change extraPaths (errorsOf (if listErrors item items = [] then _ else _)) = _ at reported
      split_ifs at ordinary reported with clean
      · rw [extraPaths_refused] at reported
        exact absurd reported.symm none
      · obtain ⟨error, member, notExtra⟩ := ordinary
        change error ∈ listErrors item items at member
        rw [listErrors_eq] at member
        obtain ⟨⟨child, place⟩, among, within⟩ := List.mem_flatMap.mp member
        have there := List.mk_mem_zipIdx_iff_getElem?.mp among
        have still : Fails (item.validate (fun _ => Option.none) (some (item.prune child))) := by
          have own := ordinary_under within notExtra
          have properChild : child.Proper := inner child (List.mem_of_getElem? there)
          by_cases clean : item.unknown child = []
          · rw [prune_eq_self properChild clean]
            exact own.fails
          · exact ih properChild own clean
        have errors : listErrors item (items.map item.prune) ≠ [] := by
          intro empty
          rw [listErrors_eq] at empty
          have after : (item.prune child, place) ∈ (items.map item.prune).zipIdx := by
            rw [List.mk_mem_zipIdx_iff_getElem?, List.getElem?_map, there]
            rfl
          exact under_ne_nil still (List.flatMap_eq_nil_iff.mp empty _ after)
        change Fails (if listErrors item (items.map item.prune) = [] then _ else _)
        rw [if_neg errors]
        exact errors

end

end Schema

end RecordModels
