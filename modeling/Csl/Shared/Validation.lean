import Csl.Library.RecordModels

/-! Validation that warns about unknown fields and goes on without them.

A first validation finds the unknown keys and their paths; where nothing else is wrong they are
deleted from a copy, which is validated again.
-/

set_option autoImplicit false

namespace Csl.Shared.Validation
open RecordModels

variable {Atom Value : Type}

namespace Tree

/-- `obj[part]`; none when it raises. -/
def item? : Raw Atom → Part → Option (Raw Atom)
  | .mapping entries, .key name => Dict.find entries name
  | .sequence items, .index place => items[place]?
  | _, _ => none

/-- The tree with another object at `obj[part]`. -/
def put : Raw Atom → Part → Raw Atom → Raw Atom
  | .mapping entries, .key name, child => .mapping (Dict.assign name child entries)
  | .sequence items, .index place, child => .sequence (items.set place child)
  | raw, _, _ => raw

/-- `obj.pop(last, None)`, on a dict. -/
def pop : Raw Atom → Part → Raw Atom
  | .mapping entries, .key name => .mapping (entries.filter fun entry => entry.1 ≠ name)
  | raw, _ => raw

end Tree

/-- `_delete_at_path`; none when it raises. -/
def deleteAtPath (obj : Raw Atom) : List Part → Option (Raw Atom)
  | [] => none
  | [last] => some (Tree.pop obj last)
  | part :: next :: path => do
    let child ← Tree.item? obj part
    return Tree.put obj part (← deleteAtPath child (next :: path))

def deleteAll (obj : Raw Atom) (paths : List (List Part)) : Option (Raw Atom) := paths.foldlM deleteAtPath obj

/-- The caller's tree, and the copy that the function makes. -/
structure Trees (Atom : Type) where
  raw : Raw Atom
  cleaned : Option (Raw Atom)

inductive Raised where
  | validationError (errors : List Error)
  /-- A KeyError, an IndexError or a TypeError of `_delete_at_path`. -/
  | lookup
  deriving DecidableEq, Repr

def modelValidate (model : Schema Atom Value) (raw : Raw Atom) : Except (List Error) Value :=
  model.validate (fun _ => none) (some raw)

def validateStrippingUnknowns (model : Schema Atom Value) (trees : Trees Atom) : Except Raised Value × Trees Atom :=
  match modelValidate model trees.raw with
  | .ok value => (.ok value, trees)
  | .error errors =>
    let extra := errors.filter Error.Extra
    let real := errors.filter fun error => ¬ error.Extra
    if real ≠ [] then (.error (.validationError errors), trees)
    else
      match deleteAll trees.raw (extra.map (·.loc)) with
      | none => (.error .lookup, trees)
      | some cleaned =>
        ((modelValidate model cleaned).mapError .validationError, { trees with cleaned := some cleaned })

/-! ## Deleting below a part -/

section
variable {raw child other : Raw Atom} {part : Part}

theorem item?_put (found : Tree.item? raw part = some child) : Tree.item? (Tree.put raw part other) part = some other := by
  unfold Tree.item? at found ⊢
  split at found
  · simp [Tree.put, Dict.find_assign]
  · obtain ⟨below, -⟩ := List.getElem?_eq_some_iff.mp found
    simp [Tree.put, below]
  · cases found

theorem put_put (found : Tree.item? raw part = some child) (last : Raw Atom) :
    Tree.put (Tree.put raw part other) part last = Tree.put raw part last := by
  unfold Tree.item? at found
  split at found
  · simp only [Tree.put, Raw.mapping.injEq]
    rename_i entries name
    clear found
    induction entries with
    | nil => simp [Dict.assign]
    | cons entry entries ih =>
      obtain ⟨key, value⟩ := entry
      by_cases same : key = name
      · simp [Dict.assign, same]
      · simp [Dict.assign, same, ih]
  · simp [Tree.put]
  · cases found

theorem put_same (found : Tree.item? raw part = some child) : Tree.put raw part child = raw := by
  unfold Tree.item? at found
  split at found
  · simp only [Tree.put, Dict.assign_found found]
  · obtain ⟨below, same⟩ := List.getElem?_eq_some_iff.mp found
    simp only [Tree.put, Raw.sequence.injEq]
    rw [← same, List.set_getElem_self]
  · cases found

theorem deleteAll_under {paths : List (List Part)} (long : ∀ path ∈ paths, path ≠ [])
    (found : Tree.item? raw part = some child) (deleted : deleteAll child paths = some other) :
    deleteAll raw (paths.map (part :: ·)) = some (Tree.put raw part other) := by
  induction paths generalizing raw child with
  | nil =>
    cases deleted
    exact congrArg some (put_same found).symm
  | cons path paths ih =>
    cases path with
    | nil => exact absurd rfl (long [] (.head _))
    | cons next path =>
      simp only [deleteAll, List.foldlM_cons, Option.bind_eq_bind, Option.bind_eq_some_iff] at deleted
      obtain ⟨between, first, rest⟩ := deleted
      have here : deleteAtPath raw (part :: next :: path) = some (Tree.put raw part between) := by
        simp [deleteAtPath, found, first]
      have later := ih (fun path member => long path (.tail _ member)) (item?_put found) rest
      simp only [deleteAll, List.map_cons, List.foldlM_cons, here, Option.bind_eq_bind, Option.bind_some]
      rw [put_put found] at later
      exact later

end

theorem deleteAll_append (raw : Raw Atom) (first rest : List (List Part)) :
    deleteAll raw (first ++ rest) = (deleteAll raw first).bind fun between => deleteAll between rest :=
  List.foldlM_append

/-! ## Deleting all unknown keys -/

theorem unknown_ne_nil (model : Schema Atom Value) (raw : Raw Atom) : ∀ path ∈ model.unknown raw, path ≠ [] := by
  intro path member
  unfold Schema.unknown at member
  split at member
  · rcases List.mem_append.mp member with ofField | ofKey
    · obtain ⟨name, _, within⟩ := List.mem_flatMap.mp ofField
      obtain ⟨rest, _, rfl⟩ := List.mem_map.mp within
      exact List.cons_ne_nil _ _
    · obtain ⟨entry, _, rfl⟩ := List.mem_map.mp ofKey
      exact List.cons_ne_nil _ _
  · obtain ⟨raw, _, within⟩ := List.mem_flatMap.mp member
    obtain ⟨rest, _, rfl⟩ := List.mem_map.mp within
    exact List.cons_ne_nil _ _
  · cases member

section
variable {entries : List (String × Raw Atom)}

def cleanedOf (field : String → Schema Atom Value) (names : List String) (entries : List (String × Raw Atom)) :
    List (String × Raw Atom) :=
  entries.map fun entry => if entry.1 ∈ names then (entry.1, (field entry.1).prune entry.2) else entry

theorem cleanedOf_cons (field : String → Schema Atom Value) (names : List String) (entry : String × Raw Atom) :
    cleanedOf field names (entry :: entries) =
      (if entry.1 ∈ names then (entry.1, (field entry.1).prune entry.2) else entry) :: cleanedOf field names entries := rfl

theorem find_cleanedOf (field : String → Schema Atom Value) {names : List String} {name : String}
    (later : name ∉ names) : Dict.find (cleanedOf field names entries) name = Dict.find entries name := by
  induction entries with
  | nil => rfl
  | cons entry entries ih =>
    obtain ⟨key, raw⟩ := entry
    by_cases same : key = name
    · subst same
      simp [cleanedOf_cons, Dict.find, later]
    · by_cases done : key ∈ names <;> simp [cleanedOf_cons, Dict.find, same, done, ih]

theorem assign_cleanedOf (field : String → Schema Atom Value) {names : List String} {name : String} {raw : Raw Atom}
    (keys : (entries.map Prod.fst).Nodup) (later : name ∉ names) (found : Dict.find entries name = some raw) :
    Dict.assign name ((field name).prune raw) (cleanedOf field names entries) = cleanedOf field (name :: names) entries := by
  induction entries with
  | nil => cases found
  | cons entry entries ih =>
    obtain ⟨key, value⟩ := entry
    obtain ⟨absent, keys⟩ := List.nodup_cons.mp keys
    rw [Dict.find] at found
    split_ifs at found with same
    · cases found
      subst same
      -- The key occurs once, so the other entries stay.
      have others : cleanedOf field (key :: names) entries = cleanedOf field names entries := by
        apply List.map_congr_left
        intro entry member
        have apart : entry.1 ≠ key := fun same => absent (List.mem_map.mpr ⟨entry, member, same⟩)
        simp [apart]
      simp [cleanedOf_cons, Dict.assign, later, others]
    · have rest := ih keys found
      by_cases done : key ∈ names <;> simp [cleanedOf_cons, Dict.assign, same, done, rest]

theorem cleanedOf_absent (field : String → Schema Atom Value) {names : List String} {name : String}
    (missing : Dict.find entries name = none) : cleanedOf field (name :: names) entries = cleanedOf field names entries := by
  have absent := (Dict.find_eq_none_iff entries name).mp missing
  apply List.map_congr_left
  intro entry member
  have apart : entry.1 ≠ name := by
    rintro rfl
    exact absent (List.mem_map_of_mem member)
  simp [apart]

/-- Field by field, the unknown keys below the fields are deleted. -/
theorem deleteAll_fields {field : String → Schema Atom Value} (keys : (entries.map Prod.fst).Nodup)
    (each : ∀ name raw, Dict.find entries name = some raw →
      deleteAll raw ((field name).unknown raw) = some ((field name).prune raw))
    (names done : List String) (distinct : names.Nodup) (apart : ∀ name ∈ names, name ∉ done) :
    deleteAll (.mapping (cleanedOf field done entries)) (names.flatMap fun name =>
        (((Dict.find entries name).map fun raw => (field name).unknown raw).getD []).map (.key name :: ·)) =
      some (.mapping (cleanedOf field (names.reverse ++ done) entries)) := by
  induction names generalizing done with
  | nil => rfl
  | cons name names ih =>
    obtain ⟨fresh, distinct⟩ := List.nodup_cons.mp distinct
    have later : name ∉ done := apart name (.head _)
    have rest := ih (name :: done) distinct (by
      intro other member
      rw [List.mem_cons, not_or]
      exact ⟨fun same => fresh (same ▸ member), apart other (.tail _ member)⟩)
    have first : deleteAll (.mapping (cleanedOf field done entries))
        ((((Dict.find entries name).map fun raw => (field name).unknown raw).getD []).map (.key name :: ·)) =
          some (.mapping (cleanedOf field (name :: done) entries)) := by
      cases found : Dict.find entries name with
      | none =>
        rw [cleanedOf_absent field found]
        rfl
      | some raw =>
        have there : Tree.item? (.mapping (cleanedOf field done entries)) (.key name) = some raw := by
          rw [Tree.item?, find_cleanedOf field later, found]
        have deleted := deleteAll_under (unknown_ne_nil (field name) raw) there (each name raw found)
        rw [Option.map_some, Option.getD_some, deleted, Tree.put, assign_cleanedOf field keys later found]
    rw [List.flatMap_cons, deleteAll_append, first, Option.bind_some, rest]
    simp

theorem deleteAll_keys (names : List String) :
    deleteAll (.mapping entries) (names.map fun name => [.key name]) =
      some (.mapping (entries.filter fun entry => entry.1 ∉ names)) := by
  induction names generalizing entries with
  | nil => simp [deleteAll]
  | cons name names ih =>
    have first : deleteAll (.mapping entries) ((name :: names).map fun name => [.key name]) =
        deleteAll (.mapping (entries.filter fun entry => entry.1 ≠ name)) (names.map fun name => [.key name]) := rfl
    rw [first, ih, List.filter_filter]
    congr 2
    apply List.filter_congr
    intro entry _
    simp [Bool.and_comm]

theorem filter_cleanedOf (field : String → Schema Atom Value) (names : List String) :
    (cleanedOf field names entries).filter
        (fun entry => entry.1 ∉ (entries.filter fun entry => entry.1 ∉ names).map Prod.fst) =
      Schema.pruned names field entries := by
  have same : ∀ part : List (String × Raw Atom), (∀ entry ∈ part, entry ∈ entries) →
      (cleanedOf field names part).filter
        (fun entry => entry.1 ∉ (entries.filter fun entry => entry.1 ∉ names).map Prod.fst) =
      Schema.pruned names field part := by
    intro part
    induction part with
    | nil => exact fun _ => rfl
    | cons entry part ih =>
      intro within
      have rest := ih fun other member => within other (.tail _ member)
      obtain ⟨key, raw⟩ := entry
      have here : (key, raw) ∈ entries := within _ (.head _)
      unfold cleanedOf Schema.pruned at rest ⊢
      by_cases known : key ∈ names
      · have kept : key ∉ (entries.filter fun entry => entry.1 ∉ names).map Prod.fst := by
          intro member
          obtain ⟨⟨other, value⟩, unknown, rfl⟩ := List.mem_map.mp member
          exact absurd known (by simpa using (List.mem_filter.mp unknown).2)
        rw [List.map_cons, if_pos known, List.filter_cons_of_pos (by simpa using kept), rest]
        simp [known]
      · have gone : key ∈ (entries.filter fun entry => entry.1 ∉ names).map Prod.fst :=
          List.mem_map.mpr ⟨(key, raw), List.mem_filter.mpr ⟨here, by simpa using known⟩, rfl⟩
        rw [List.map_cons, if_neg known, List.filter_cons_of_neg (by simpa using gone), rest]
        simp [known]
  exact same entries fun _ => id

end

theorem deleteAll_items {item : Schema Atom Value} (rest done : List (Raw Atom))
    (each : ∀ raw ∈ rest, deleteAll raw (item.unknown raw) = some (item.prune raw)) :
    deleteAll (.sequence (done ++ rest)) ((rest.zipIdx done.length).flatMap fun raw =>
        (item.unknown raw.1).map (.index raw.2 :: ·)) =
      some (.sequence (done ++ rest.map item.prune)) := by
  induction rest generalizing done with
  | nil => simp [deleteAll]
  | cons raw rest ih =>
    have there : Tree.item? (.sequence (done ++ raw :: rest)) (.index done.length) = some raw := by
      simp [Tree.item?]
    have deleted := deleteAll_under (unknown_ne_nil item raw) there (each raw (.head _))
    have later := ih (done ++ [item.prune raw]) fun other member => each other (.tail _ member)
    rw [List.zipIdx_cons, List.flatMap_cons, deleteAll_append, deleted, Option.bind_some, Tree.put]
    simpa using later

theorem deleteAll_unknown (model : Schema Atom Value) {raw : Raw Atom} (proper : raw.Proper) :
    deleteAll raw (model.unknown raw) = some (model.prune raw) := by
  induction model generalizing raw with
  | scalar check =>
    rw [Schema.prune_scalar]
    cases raw <;> rfl
  | record names distinct field after otherwise ih =>
    cases proper with
    | scalar | sequence => rfl
    | @mapping entries keys inner =>
      have fields := deleteAll_fields keys
        (fun name raw found => ih name (inner _ (Dict.mem_of_find found))) names [] distinct fun _ _ => List.not_mem_nil
      have nothing : cleanedOf field [] entries = entries := by simp [cleanedOf]
      have members : cleanedOf field (names.reverse ++ []) entries = cleanedOf field names entries := by
        simp [cleanedOf]
      rw [nothing, members] at fields
      have keysOnly : (entries.filter fun entry => entry.1 ∉ names).map (fun entry => [Part.key entry.1]) =
          ((entries.filter fun entry => entry.1 ∉ names).map Prod.fst).map fun name => [Part.key name] := by
        simp
      rw [Schema.unknown, deleteAll_append, fields, Option.bind_some, keysOnly, deleteAll_keys, filter_cleanedOf]
      rfl
  | listOf item after otherwise ih =>
    cases proper with
    | scalar | mapping => rfl
    | @sequence items inner => exact deleteAll_items items [] fun raw member => ih (inner raw member)

/-- What comes out of a call, by what the first validation finds. -/
theorem stripped_cases (model : Schema Atom Value) (raw : Document Atom) :
    (validateStrippingUnknowns model ⟨raw, none⟩).2.raw = raw ∧
      ∀ value, (validateStrippingUnknowns model ⟨raw, none⟩).1 = .ok value ↔
        modelValidate model (model.prune raw) = .ok value := by
  have reported := Schema.extraPaths_validate model (fun _ => none) (some raw.val)
  unfold validateStrippingUnknowns
  cases first : modelValidate model raw.val with
  | ok value =>
    -- Nothing is unknown, and nothing is removed.
    rw [show model.validate _ (some raw.val) = .ok value from first] at reported
    have same : model.prune raw = raw := Schema.prune_eq_self raw.property reported.symm
    refine ⟨rfl, fun other => ?_⟩
    rw [same, first]
    simp
  | error errors =>
    rw [show model.validate _ (some raw.val) = .error errors from first] at reported
    dsimp only
    split_ifs with real
    · -- Whatever else is wrong stays wrong.
      refine ⟨rfl, fun other => ?_⟩
      obtain ⟨error, member⟩ := List.exists_mem_of_ne_nil _ real
      obtain ⟨member, ordinary⟩ := List.mem_filter.mp member
      have wrong : Ordinary (modelValidate model raw.val) := by
        rw [first]
        exact ⟨error, member, of_decide_eq_true ordinary⟩
      have still : Fails (modelValidate model (model.prune raw)) := Schema.fails_prune raw.property wrong
      constructor
      · nofun
      · intro succeeded
        rw [succeeded] at still
        exact absurd rfl still
    · have deleted : deleteAll raw.val ((errors.filter Error.Extra).map (·.loc)) = some (model.prune raw) := by
        rw [show (errors.filter Error.Extra).map (·.loc) = model.unknown raw.val from reported]
        exact deleteAll_unknown model raw.property
      rw [deleted]
      refine ⟨rfl, fun other => ?_⟩
      dsimp only
      generalize modelValidate model (model.prune raw.val) = second
      cases second <;> simp [Except.mapError]

/-- For every model and every document: exactly what the model makes of the tree without its unknown
keys is returned, and the caller's tree is left as it is. So documents that differ in unknown keys
only are read alike. -/
theorem stripping_is_pruning (model : Schema Atom Value) (raw : Document Atom) :
    let ends := validateStrippingUnknowns model ⟨raw, none⟩
    ends.2.raw = raw ∧
      (∀ value, ends.1 = .ok value ↔ modelValidate model (model.prune raw) = .ok value) ∧
      ∀ other : Document Atom, model.prune other = model.prune raw →
        ∀ value, (validateStrippingUnknowns model ⟨other, none⟩).1 = .ok value ↔ ends.1 = .ok value := by
  intro ends
  obtain ⟨kept, pruned⟩ := stripped_cases model raw
  refine ⟨kept, pruned, fun other same value => ?_⟩
  rw [(stripped_cases model other).2 value, same, pruned value]

/-! ## A nested model -/

def wrongType (type : String) (ordinary : type ≠ "extra_forbidden") : Refusal where
  errors := [⟨[], type⟩]
  some := List.cons_ne_nil _ _
  ordinary error member := by
    cases List.mem_singleton.mp member
    exact ordinary

theorem int_type_ordinary : "int_type" ≠ "extra_forbidden" := by decide

theorem string_type_ordinary : "string_type" ≠ "extra_forbidden" := by decide

theorem path_type_ordinary : "path_type" ≠ "extra_forbidden" := by decide

def number : Schema Nat Nat :=
  .scalar fun _ raw =>
    match raw with
    | some (.scalar value) => .ok value
    | some _ => .error (wrongType "int_type" int_type_ordinary)
    | none => .error (wrongType "missing" (by decide))

def sumOf (names : List String) (distinct : names.Nodup) (field : String → Schema Nat Nat) : Schema Nat Nat :=
  .record names distinct field (fun values => .ok ((names.filterMap values).foldl (· + ·) 0)) fun _ => .ok 0

def outer : Schema Nat Nat :=
  sumOf ["size", "inner"] (by decide) fun name => if name = "inner" then sumOf ["value"] (by decide) fun _ => number else number

example : (validateStrippingUnknowns outer ⟨.mapping [("typo", .sequence []), ("size", .scalar 3),
    ("inner", .mapping [("value", .scalar 4), ("size", .scalar 5)])], none⟩).1 = .ok 7 := by decide +kernel

end Csl.Shared.Validation
