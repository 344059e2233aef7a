import Mathlib.Data.List.Nodup

/-! Insertion-ordered dictionaries.

Assigning to a present key keeps its position and a new key goes to the end, so
the entries are listed in the order in which their keys were first inserted.
-/

set_option autoImplicit false

/-- A dictionary; its keys are distinct by construction. -/
structure Dict (Key Value : Type) where
  entries : List (Key × Value)
  distinct : (entries.map Prod.fst).Nodup
  deriving DecidableEq

namespace Dict
variable {Key Value : Type}

@[ext] theorem ext {first second : Dict Key Value} (same : first.entries = second.entries) :
    first = second := by
  cases first; cases second; cases same; rfl

def empty : Dict Key Value := ⟨[], List.nodup_nil⟩

instance : Inhabited (Dict Key Value) := ⟨empty⟩

def keys (dict : Dict Key Value) : List Key := dict.entries.map Prod.fst

variable [DecidableEq Key]

def find : List (Key × Value) → Key → Option Value
  | [], _ => none
  | (head, stored) :: rest, key => if head = key then some stored else find rest key

def get? (dict : Dict Key Value) (key : Key) : Option Value := find dict.entries key

def assign (key : Key) (value : Value) : List (Key × Value) → List (Key × Value)
  | [] => [(key, value)]
  | (head, stored) :: rest =>
      if head = key then (head, value) :: rest else (head, stored) :: assign key value rest

theorem mem_keys_assign (entries : List (Key × Value)) (key other : Key) (value : Value) :
    other ∈ (assign key value entries).map Prod.fst ↔
      other = key ∨ other ∈ entries.map Prod.fst := by
  induction entries with
  | nil => simp [assign]
  | cons entry rest ih =>
    by_cases same : entry.1 = key
    · simp [assign, same]
    · simp only [assign, if_neg same, List.map_cons, List.mem_cons, ih]
      exact or_left_comm

theorem nodup_assign (entries : List (Key × Value)) (key : Key) (value : Value)
    (distinct : (entries.map Prod.fst).Nodup) :
    ((assign key value entries).map Prod.fst).Nodup := by
  induction entries with
  | nil => simp [assign]
  | cons entry rest ih =>
    obtain ⟨absent, tail⟩ := List.nodup_cons.mp distinct
    by_cases same : entry.1 = key
    · simp only [assign, if_pos same]
      exact distinct
    · simp only [assign, if_neg same]
      refine List.nodup_cons.mpr ⟨?_, ih tail⟩
      rw [mem_keys_assign]
      exact fun member => member.elim same absent

/-- `dict[key] = value`. -/
def set (dict : Dict Key Value) (key : Key) (value : Value) : Dict Key Value :=
  ⟨assign key value dict.entries, nodup_assign _ _ _ dict.distinct⟩

/-- `dict.pop(key, None)`. -/
def pop (dict : Dict Key Value) (key : Key) : Dict Key Value :=
  ⟨dict.entries.filter (fun entry => entry.1 ≠ key),
    dict.distinct.sublist (List.filter_sublist.map Prod.fst)⟩

theorem find_assign (entries : List (Key × Value)) (key other : Key) (value : Value) :
    find (assign key value entries) other = if other = key then some value else find entries other := by
  induction entries with
  | nil => simp only [assign, find, eq_comm]
  | cons entry rest ih =>
    obtain ⟨head, stored⟩ := entry
    by_cases same : head = key
    · subst same
      simp only [assign, if_true, find, eq_comm]
      split <;> rfl
    · simp only [assign, if_neg same, find, ih]
      by_cases atHead : head = other
      · subst atHead; simp [same]
      · simp [atHead]

theorem find_filter (entries : List (Key × Value)) (key other : Key) :
    find (entries.filter (fun entry => entry.1 ≠ key)) other =
      if other = key then none else find entries other := by
  induction entries with
  | nil => simp [find]
  | cons entry rest ih =>
    obtain ⟨head, stored⟩ := entry
    by_cases same : head = key
    · subst same
      rw [List.filter_cons_of_neg (by simp), ih]
      by_cases atHead : other = head
      · simp [atHead]
      · simp [find, atHead, Ne.symm atHead]
    · rw [List.filter_cons_of_pos (by simp [same])]
      simp only [find, ih]
      by_cases atHead : head = other
      · subst atHead; simp [same]
      · simp [atHead]

theorem find_eq_none_iff (entries : List (Key × Value)) (key : Key) :
    find entries key = none ↔ key ∉ entries.map Prod.fst := by
  induction entries with
  | nil => simp [find]
  | cons entry rest ih =>
    by_cases same : entry.1 = key
    · simp [find, same]
    · simp only [find, if_neg same, ih, List.map_cons, List.mem_cons, not_or]
      exact ⟨fun absent => ⟨Ne.symm same, absent⟩, And.right⟩

@[simp] theorem get?_empty (key : Key) : (empty : Dict Key Value).get? key = none := rfl

theorem get?_eq_none_iff (dict : Dict Key Value) (key : Key) :
    dict.get? key = none ↔ key ∉ dict.keys := find_eq_none_iff _ _

theorem get?_set (dict : Dict Key Value) (key other : Key) (value : Value) :
    (dict.set key value).get? other = if other = key then some value else dict.get? other :=
  find_assign _ _ _ _

theorem get?_pop (dict : Dict Key Value) (key other : Key) :
    (dict.pop key).get? other = if other = key then none else dict.get? other :=
  find_filter _ _ _

@[simp] theorem get?_set_self (dict : Dict Key Value) (key : Key) (value : Value) :
    (dict.set key value).get? key = some value := by simp [get?_set]

@[simp] theorem get?_set_of_ne (dict : Dict Key Value) {key other : Key} (apart : other ≠ key)
    (value : Value) : (dict.set key value).get? other = dict.get? other := by
  simp [get?_set, apart]

@[simp] theorem get?_pop_self (dict : Dict Key Value) (key : Key) :
    (dict.pop key).get? key = none := by simp [get?_pop]

@[simp] theorem get?_pop_of_ne (dict : Dict Key Value) {key other : Key} (apart : other ≠ key) :
    (dict.pop key).get? other = dict.get? other := by simp [get?_pop, apart]

theorem mem_of_find {entries : List (Key × Value)} {key : Key} {value : Value}
    (found : find entries key = some value) : (key, value) ∈ entries := by
  induction entries with
  | nil => cases found
  | cons entry rest ih =>
    rw [find] at found
    split at found
    next same =>
      cases found
      cases same
      exact .head _
    next => exact .tail _ (ih found)

theorem mem_of_get? {dict : Dict Key Value} {key : Key} {value : Value}
    (found : dict.get? key = some value) : (key, value) ∈ dict.entries := mem_of_find found

theorem find_of_mem {entries : List (Key × Value)} (distinct : (entries.map Prod.fst).Nodup)
    {key : Key} {value : Value} (member : (key, value) ∈ entries) : find entries key = some value := by
  induction entries with
  | nil => cases member
  | cons entry rest ih =>
    obtain ⟨absent, tail⟩ := List.nodup_cons.mp distinct
    rcases List.mem_cons.mp member with rfl | later
    · exact if_pos rfl
    · rw [find, if_neg, ih tail later]
      intro same
      exact absent (same ▸ List.mem_map_of_mem later)

theorem get?_of_mem {dict : Dict Key Value} {key : Key} {value : Value}
    (member : (key, value) ∈ dict.entries) : dict.get? key = some value :=
  find_of_mem dict.distinct member

theorem assign_found {entries : List (Key × Value)} {key : Key} {value : Value}
    (found : find entries key = some value) : assign key value entries = entries := by
  induction entries with
  | nil => cases found
  | cons entry rest ih =>
    rw [find] at found
    rw [assign]
    split at found
    next same =>
      cases found
      rw [if_pos same]
    next other => rw [if_neg other, ih found]

theorem set_found {dict : Dict Key Value} {key : Key} {value : Value}
    (found : dict.get? key = some value) : dict.set key value = dict := ext (assign_found found)

theorem keys_assign {entries : List (Key × Value)} {key : Key} {found : Value}
    (present : find entries key = some found) (value : Value) :
    (assign key value entries).map Prod.fst = entries.map Prod.fst := by
  induction entries with
  | nil => cases present
  | cons entry rest ih =>
    rw [find] at present
    rw [assign]
    split at present
    next same => rw [if_pos same, List.map_cons, List.map_cons]
    next other => rw [if_neg other, List.map_cons, List.map_cons, ih present]

theorem keys_set {dict : Dict Key Value} {key : Key} {found : Value}
    (present : dict.get? key = some found) (value : Value) : (dict.set key value).keys = dict.keys :=
  keys_assign present value

def filterMap {Other : Type} (f : Key → Value → Option Other) (dict : Dict Key Value) :
    Dict Key Other :=
  ⟨dict.entries.filterMap fun entry => (f entry.1 entry.2).map fun value => (entry.1, value), by
    have keys : ∀ entries : List (Key × Value),
        List.Sublist ((entries.filterMap fun entry =>
          (f entry.1 entry.2).map fun value => (entry.1, value)).map Prod.fst)
          (entries.map Prod.fst) := by
      intro entries
      induction entries with
      | nil => exact .slnil
      | cons entry rest ih =>
        rw [List.filterMap_cons]
        cases f entry.1 entry.2 with
        | none => exact ih.cons _
        | some value => exact ih.cons_cons _
    exact dict.distinct.sublist (keys _)⟩

theorem find_filterMap {Other : Type} (f : Key → Value → Option Other) (key : Key)
    {entries : List (Key × Value)} (distinct : (entries.map Prod.fst).Nodup) :
    find (entries.filterMap fun entry => (f entry.1 entry.2).map fun value => (entry.1, value)) key =
      (find entries key).bind (f key) := by
  induction entries with
  | nil => rfl
  | cons entry rest ih =>
    obtain ⟨head, stored⟩ := entry
    obtain ⟨absent, tail⟩ := List.nodup_cons.mp distinct
    rw [List.filterMap_cons]
    by_cases same : head = key
    · subst same
      have none := (find_eq_none_iff rest head).mpr absent
      cases found : f head stored with
      | none => simp [find, ih tail, none, found]
      | some value => simp [find, found]
    · cases found : f head stored with
      | none => simp [find, same, ih tail]
      | some value => simp [find, same, ih tail]

theorem get?_filterMap {Other : Type} (f : Key → Value → Option Other) (dict : Dict Key Value)
    (key : Key) : (dict.filterMap f).get? key = (dict.get? key).bind (f key) :=
  find_filterMap f key dict.distinct

/-- `dict(pairs)`: a repeated key keeps its first place and its last value. -/
def ofList (pairs : List (Key × Value)) : Dict Key Value :=
  pairs.foldl (fun dict pair => dict.set pair.1 pair.2) empty

theorem assign_of_not_mem (entries : List (Key × Value)) {key : Key}
    (absent : key ∉ entries.map Prod.fst) (value : Value) :
    assign key value entries = entries ++ [(key, value)] := by
  induction entries with
  | nil => rfl
  | cons entry rest ih =>
    simp only [List.map_cons, List.mem_cons, not_or] at absent
    simp only [assign, if_neg (Ne.symm absent.1), ih absent.2, List.cons_append]

theorem entries_ofList {pairs : List (Key × Value)} (distinct : (pairs.map Prod.fst).Nodup) :
    (ofList pairs).entries = pairs := by
  have folds : ∀ (pairs : List (Key × Value)) (done : Dict Key Value),
      ((done.entries ++ pairs).map Prod.fst).Nodup →
        (pairs.foldl (fun dict pair => dict.set pair.1 pair.2) done).entries =
          done.entries ++ pairs := by
    intro pairs
    induction pairs with
    | nil => simp
    | cons pair pairs ih =>
      intro done distinct
      have absent : pair.1 ∉ done.entries.map Prod.fst := by
        rw [List.map_append, List.map_cons] at distinct
        intro member
        exact (List.nodup_append.mp distinct).2.2 _ member _ List.mem_cons_self rfl
      have entries : (done.set pair.1 pair.2).entries = done.entries ++ [pair] :=
        assign_of_not_mem _ absent _
      rw [List.foldl_cons, ih, entries, List.append_assoc, List.singleton_append]
      rwa [entries, List.append_assoc, List.singleton_append]
  exact folds pairs empty distinct

theorem ofList_entries (dict : Dict Key Value) : ofList dict.entries = dict :=
  ext (entries_ofList dict.distinct)

theorem get?_ofList {pairs : List (Key × Value)} (distinct : (pairs.map Prod.fst).Nodup)
    (key : Key) : (ofList pairs).get? key = find pairs key := by
  rw [get?, entries_ofList distinct]

theorem find_append (first rest : List (Key × Value)) (key : Key) :
    find (first ++ rest) key = (find first key).or (find rest key) := by
  induction first with
  | nil => rfl
  | cons entry first ih =>
    simp only [List.cons_append, find, ih]
    split <;> rfl

theorem length_filter_eq {Other : Type} {first : Dict Key Value} {second : Dict Key Other}
    {p : Key × Value → Bool} {q : Key × Other → Bool} (keys : first.keys = second.keys)
    (same : ∀ key value other, first.get? key = some value → second.get? key = some other →
      p (key, value) = q (key, other)) :
    (first.entries.filter p).length = (second.entries.filter q).length := by
  have lists : ∀ (xs : List (Key × Value)) (ys : List (Key × Other)), xs.map Prod.fst = ys.map Prod.fst →
      (∀ key value other, (key, value) ∈ xs → (key, other) ∈ ys → p (key, value) = q (key, other)) →
        (xs.filter p).length = (ys.filter q).length := by
    intro xs
    induction xs with
    | nil =>
      intro ys keys _
      cases ys with
      | nil => rfl
      | cons => cases keys
    | cons x xs ih =>
      intro ys keys same
      cases ys with
      | nil => cases keys
      | cons y ys =>
        obtain ⟨key, value⟩ := x
        obtain ⟨other, stored⟩ := y
        obtain ⟨rfl, rest⟩ := List.cons_eq_cons.mp keys
        have here := same key value stored List.mem_cons_self List.mem_cons_self
        have later := ih ys rest fun key value other first second =>
          same key value other (List.mem_cons_of_mem _ first) (List.mem_cons_of_mem _ second)
        rw [List.filter_cons, List.filter_cons, here]
        split_ifs
        · rw [List.length_cons, List.length_cons, later]
        · exact later
  apply lists first.entries second.entries keys
  intro key value other member member'
  exact same key value other (get?_of_mem member) (get?_of_mem member')

end Dict
