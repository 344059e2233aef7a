import Mathlib.Data.List.Sort
import Mathlib.Order.Lattice

/-! Listings that are read page by page.

A query orders rows by a key, the largest first. Rows of the same key are given in any order, which
may be another one each time. Walking over pages that are queried one by one visits every row
once if and only if no page ends among rows of the same key.
-/

set_option autoImplicit false

namespace Paging
variable {Row Key : Type}

structure Page (Row : Type) where
  rows : List Row
  hasNext : Bool

/-- What may be answered for the page of an index; none is a failure. -/
abbrev Listing (Row : Type) := Nat → Option (Page Row) → Prop

/-- Who goes from the first page to the next while there is one asks for this page after having
seen these rows. -/
inductive Reaches (listing : Listing Row) : Nat → List Row → Prop
  | first : Reaches listing 0 []
  | next {index : Nat} {seen : List Row} {page : Page Row} :
      Reaches listing index seen → listing index (some page) → page.hasNext = true →
      Reaches listing (index + 1) (seen ++ page.rows)

/-- Every walk over the pages is answered and ends, has seen each of the rows once and in this
order when it ends, and is told that there is a next page exactly when rows remain. -/
structure VisitsOnce (listing : Listing Row) (before : Row → Row → Prop) (rows : List Row) : Prop where
  answers {index : Nat} {seen : List Row} : Reaches listing index seen → ∃ answer, listing index answer
  succeeds {index : Nat} {seen : List Row} : Reaches listing index seen → ¬listing index none
  ends : ∃ bound, ∀ index seen, Reaches listing index seen → index ≤ bound
  hasNext {index : Nat} {seen : List Row} {page : Page Row} :
    Reaches listing index seen → listing index (some page) →
    (page.hasNext = true ↔ ∃ row ∈ rows, row ∉ seen ++ page.rows)
  complete {index : Nat} {seen : List Row} {page : Page Row} :
    Reaches listing index seen → listing index (some page) → page.hasNext = false →
    (seen ++ page.rows).Perm rows ∧ (seen ++ page.rows).Pairwise before

theorem VisitsOnce.weaken {listing : Listing Row} {before weaker : Row → Row → Prop} {rows : List Row}
    (visits : VisitsOnce listing before rows) (implied : ∀ first second, before first second → weaker first second) :
    VisitsOnce listing weaker rows where
  answers := visits.answers
  succeeds := visits.succeeds
  ends := visits.ends
  hasNext := visits.hasNext
  complete reached answered last :=
    have ⟨all, sorted⟩ := visits.complete reached answered last
    ⟨all, sorted.imp fun {first second} => implied first second⟩

theorem Reaches.mono {listing larger : Listing Row} (within : ∀ index answer, listing index answer → larger index answer)
    {index : Nat} {seen : List Row} (reached : Reaches listing index seen) : Reaches larger index seen := by
  induction reached with
  | first => exact .first
  | next _ answered more ih => exact .next ih (within _ _ answered) more

theorem VisitsOnce.within {listing larger : Listing Row} {before : Row → Row → Prop} {rows : List Row}
    (visits : VisitsOnce larger before rows) (answers : ∀ index, ∃ answer, listing index answer)
    (within : ∀ index answer, listing index answer → larger index answer) :
    VisitsOnce listing before rows where
  answers _ := answers _
  succeeds reached failed := visits.succeeds (reached.mono within) (within _ _ failed)
  ends :=
    have ⟨bound, bounded⟩ := visits.ends
    ⟨bound, fun index seen reached => bounded index seen (reached.mono within)⟩
  hasNext reached answered := visits.hasNext (reached.mono within) (within _ _ answered)
  complete reached answered last := visits.complete (reached.mono within) (within _ _ answered) last

theorem not_visitsOnce_of_failing {listing : Listing Row} {before : Row → Row → Prop} {rows : List Row}
    (fails : listing 0 none) : ¬VisitsOnce listing before rows :=
  fun visits => visits.succeeds .first fails

/-! ## Rows in the order of a key -/

variable [LinearOrder Key] (key : Row → Key) (rows : List Row)

def Before (first second : Row) : Prop := key second ≤ key first

structure Arranged (arranged : List Row) : Prop where
  perm : arranged.Perm rows
  sorted : arranged.Pairwise (Before key)

def newer (row : Row) : Nat := rows.countP fun other => key row < key other

def notOlder (row : Row) : Nat := rows.countP fun other => key row ≤ key other

/-- No page of this size ends among rows of the same key. -/
def Uncut (size : Nat) : Prop :=
  ∀ row ∈ rows, ∀ count, count * size ≤ newer key rows row ∨ notOlder key rows row ≤ count * size

theorem exists_arranged : ∃ arranged, Arranged key rows arranged := by
  classical
  have total : Std.Total (Before key) := ⟨fun first second => le_total (key second) (key first)⟩
  have transitive : IsTrans Row (Before key) := ⟨fun _ _ _ early late => le_trans late early⟩
  exact ⟨rows.insertionSort (Before key), List.perm_insertionSort _ rows, List.pairwise_insertionSort _ rows⟩

theorem notOlder_le_newer {row other : Row} (older : key other < key row) :
    notOlder key rows row ≤ newer key rows other := by
  apply List.countP_mono_left
  intro third _ after
  simp only [decide_eq_true_eq] at after ⊢
  exact lt_of_lt_of_le older after

variable {key rows}

theorem Arranged.newer_eq {arranged : List Row} (order : Arranged key rows arranged) (row : Row) :
    newer key arranged row = newer key rows row := order.perm.countP_eq _

theorem Arranged.notOlder_eq {arranged : List Row} (order : Arranged key rows arranged) (row : Row) :
    notOlder key arranged row = notOlder key rows row := order.perm.countP_eq _

theorem index_bounds {sorted : List Row} (order : sorted.Pairwise (Before key)) {index : Nat} {row : Row}
    (found : sorted[index]? = some row) : newer key sorted row ≤ index ∧ index < notOlder key sorted row := by
  induction sorted generalizing index with
  | nil => simp at found
  | cons head tail ih =>
    obtain ⟨first, order⟩ := List.pairwise_cons.mp order
    cases index with
    | zero =>
      obtain rfl : head = row := by simpa using found
      -- Nothing behind the first row is newer than it.
      have none : newer key tail head = 0 := by
        apply List.countP_eq_zero.mpr
        intro other member
        simpa [Before] using first other member
      have self : newer key (head :: tail) head = newer key tail head := by simp [newer]
      have counted : notOlder key (head :: tail) head = notOlder key tail head + 1 := by simp [notOlder]
      omega
    | succ index =>
      have found : tail[index]? = some row := by simpa using found
      have ⟨low, high⟩ := ih order found
      have reaches : key row ≤ key head := first row (List.mem_of_getElem? found)
      have counted : notOlder key (head :: tail) row = notOlder key tail row + 1 := by simp [notOlder, reaches]
      have atMost : newer key (head :: tail) row ≤ newer key tail row + 1 := by
        simp only [newer, List.countP_cons]
        split <;> omega
      omega

theorem key_of_index {sorted : List Row} (order : sorted.Pairwise (Before key)) {index : Nat} {row other : Row}
    (found : sorted[index]? = some other) (low : newer key sorted row ≤ index)
    (high : index < notOlder key sorted row) : key other = key row := by
  have ⟨lowest, highest⟩ := index_bounds order found
  rcases lt_trichotomy (key other) (key row) with older | same | younger
  · have := notOlder_le_newer key sorted older
    omega
  · exact same
  · have := notOlder_le_newer key sorted younger
    omega

/-! ## Queries -/

variable (key) in
/-- `ORDER BY key DESC` as a database may carry it out. -/
def Sorts (order : List Row → List Row) : Prop := ∀ rows, Arranged key rows (order rows)

/-- `OFFSET offset LIMIT limit` -/
def fetch (order : List Row → List Row) (rows : List Row) (offset limit : Nat) : List Row :=
  ((order rows).drop offset).take limit

variable (key) in
theorem exists_sorts : ∃ order, Sorts key order := by
  choose order sorts using exists_arranged key
  exact ⟨order, sorts⟩

theorem Arranged.exists_sorts {arranged : List Row} (given : Arranged key rows arranged) :
    ∃ order, Sorts key order ∧ order rows = arranged := by
  classical
  obtain ⟨order, sorts⟩ := Paging.exists_sorts key
  refine ⟨fun other => if other = rows then arranged else order other, ?_, if_pos rfl⟩
  intro other
  dsimp only
  split
  next same =>
    rw [same]
    exact given
  next => exact sorts other

theorem fetch_extra {order : List Row → List Row} (sorts : Sorts key order) (index size : Nat) :
    size < (fetch order rows (index * size) (size + 1)).length ↔ (index + 1) * size < rows.length := by
  have length := (sorts rows).perm.length_eq
  have succ : (index + 1) * size = index * size + size := Nat.succ_mul index size
  simp only [fetch, List.length_take, List.length_drop]
  omega

theorem take_fetch (order : List Row → List Row) (offset size : Nat) :
    (fetch order rows offset (size + 1)).take size = fetch order rows offset size := by
  simp [fetch, List.take_take]

/-! ## Pages of a fixed size -/

variable (key rows) (size : Nat)

def Pages : Listing Row := fun index answer =>
  ∃ arranged, Arranged key rows arranged ∧
    answer = some ⟨(arranged.drop (index * size)).take size, decide ((index + 1) * size < rows.length)⟩

variable {key rows size}

theorem take_eq_filter {keep : Row → Bool} {count : Nat} {list : List Row}
    (kept : ∀ index row, list[index]? = some row → (keep row = true ↔ index < count)) :
    list.take count = list.filter keep := by
  induction list generalizing count with
  | nil => simp
  | cons head tail ih =>
    have first := kept 0 head (by simp)
    cases count with
    | zero =>
      have later : tail.take 0 = tail.filter keep :=
        ih fun index row found => by simpa using kept (index + 1) row (by simpa using found)
      rw [List.filter_cons_of_neg (by simpa using first), ← later]
      simp
    | succ count =>
      have later : tail.take count = tail.filter keep :=
        ih fun index row found => by simpa using kept (index + 1) row (by simpa using found)
      rw [List.filter_cons_of_pos (by simpa using first), ← later, List.take_succ_cons]

/-- Where no page is cut among tied rows, the first pages hold the same rows in every order. -/
theorem Uncut.take_perm (uncut : Uncut key rows size) {arranged other : List Row} (order : Arranged key rows arranged)
    (otherOrder : Arranged key rows other) (count : Nat) :
    (arranged.take (count * size)).Perm (other.take (count * size)) := by
  have kept {list : List Row} (order : Arranged key rows list) (index : Nat) (row : Row)
      (found : list[index]? = some row) : decide (newer key rows row < count * size) = true ↔ index < count * size := by
    have ⟨low, high⟩ := index_bounds order.sorted found
    rw [order.newer_eq] at low
    rw [order.notOlder_eq] at high
    have := uncut row (order.perm.mem_iff.mp (List.mem_of_getElem? found)) count
    rw [decide_eq_true_eq]
    omega
  rw [take_eq_filter (kept order), take_eq_filter (kept otherOrder)]
  exact (order.perm.trans otherOrder.perm.symm).filter _

theorem take_next (list : List Row) (index : Nat) :
    list.take (index * size) ++ (list.drop (index * size)).take size = list.take ((index + 1) * size) := by
  rw [Nat.succ_mul, List.take_add]

theorem Reaches.within {index : Nat} {seen : List Row} (reached : Reaches (Pages key rows size) index seen) :
    index = 0 ∨ index * size < rows.length := by
  cases reached with
  | first => exact .inl rfl
  | next _ answered more =>
    obtain ⟨arranged, order, same⟩ := answered
    cases same
    exact .inr (by simpa using more)

theorem Reaches.seen (uncut : Uncut key rows size) {index : Nat} {seen : List Row}
    (reached : Reaches (Pages key rows size) index seen) :
    seen.Pairwise (Before key) ∧
      ∀ arranged, Arranged key rows arranged → seen.Perm (arranged.take (index * size)) := by
  induction reached with
  | first => simp
  | @next index seen page _ answered _ ih =>
    obtain ⟨arranged, order, same⟩ := answered
    cases same
    obtain ⟨sorted, known⟩ := ih
    have split : (arranged.take (index * size) ++ arranged.drop (index * size)).Pairwise (Before key) := by
      rw [List.take_append_drop]
      exact order.sorted
    obtain ⟨_, later, across⟩ := List.pairwise_append.mp split
    constructor
    · apply List.pairwise_append.mpr
      refine ⟨sorted, later.sublist (List.take_sublist _ _), ?_⟩
      intro early wasSeen late shown
      exact across early ((known arranged order).mem_iff.mp wasSeen) late (List.mem_of_mem_take shown)
    · intro other otherOrder
      calc seen ++ (arranged.drop (index * size)).take size
        _ |>.Perm (arranged.take (index * size) ++ (arranged.drop (index * size)).take size) :=
            (known arranged order).append_right _
        _ = arranged.take ((index + 1) * size) := take_next arranged index
        _ |>.Perm (other.take ((index + 1) * size)) := uncut.take_perm order otherOrder _

theorem visitsOnce_of_uncut (distinct : rows.Nodup) (positive : 0 < size) (uncut : Uncut key rows size) :
    VisitsOnce (Pages key rows size) (Before key) rows where
  answers _ :=
    have ⟨arranged, order⟩ := exists_arranged key rows
    ⟨_, arranged, order, rfl⟩
  succeeds _ failed := by
    obtain ⟨_, _, same⟩ := failed
    cases same
  ends := by
    refine ⟨rows.length, fun index seen reached => ?_⟩
    have far : index * 1 ≤ index * size := Nat.mul_le_mul_left index positive
    have := reached.within
    omega
  hasNext {index seen page} reached answered := by
    obtain ⟨arranged, order, same⟩ := answered
    cases same
    -- whatever the order of each query, the pages so far have shown the same rows
    have shown : (seen ++ (arranged.drop (index * size)).take size).Perm (arranged.take ((index + 1) * size)) := by
      rw [← take_next]
      exact ((reached.seen uncut).2 arranged order).append_right _
    have length := order.perm.length_eq
    rw [decide_eq_true_eq, ← length]
    constructor
    · intro more
      refine ⟨arranged[(index + 1) * size], order.perm.mem_iff.mp (List.getElem_mem more), fun early => ?_⟩
      have late : arranged[(index + 1) * size] ∈ arranged.drop ((index + 1) * size) := by
        rw [List.drop_eq_getElem_cons more]
        exact List.mem_cons_self
      exact List.disjoint_take_drop (order.perm.nodup_iff.mpr distinct) (Nat.le_refl _)
        (shown.mem_iff.mp early) late
    · rintro ⟨row, member, unseen⟩
      by_contra last
      apply unseen
      rw [shown.mem_iff, List.take_of_length_le (by omega)]
      exact order.perm.mem_iff.mpr member
  complete {index seen page} reached answered last := by
    have reachedSeen := reached.seen uncut
    obtain ⟨arranged, order, same⟩ := answered
    cases same
    have ended : rows.length ≤ (index + 1) * size := by simpa using last
    have all : arranged.take (index * size) ++ (arranged.drop (index * size)).take size = arranged := by
      rw [take_next, List.take_of_length_le (by rw [order.perm.length_eq]; exact ended)]
    have split := order.sorted
    rw [← all] at split
    obtain ⟨_, later, across⟩ := List.pairwise_append.mp split
    have known := reachedSeen.2 arranged order
    constructor
    · refine (known.append_right _).trans ?_
      rw [all]
      exact order.perm
    · refine List.pairwise_append.mpr ⟨reachedSeen.1, later, ?_⟩
      -- what was seen comes before this page in its own order
      intro early wasSeen late shown
      exact across early (known.mem_iff.mp wasSeen) late shown

/-! ## A cut among tied rows -/

theorem reaches_take {arranged : List Row} (order : Arranged key rows arranged) {index : Nat}
    (within : index = 0 ∨ index * size < rows.length) :
    Reaches (Pages key rows size) index (arranged.take (index * size)) := by
  induction index with
  | zero => simpa using Reaches.first
  | succ index ih =>
    have later : (index + 1) * size < rows.length := by omega
    have early : index * size ≤ (index + 1) * size := Nat.mul_le_mul_right size (Nat.le_succ index)
    rw [← take_next]
    exact (ih (.inr (by omega))).next ⟨arranged, order, rfl⟩ (by simpa using later)

theorem Reaches.finish (positive : 0 < size) {arranged : List Row} (order : Arranged key rows arranged)
    {index : Nat} {seen : List Row} (reached : Reaches (Pages key rows size) index seen) :
    ∃ last before page, Reaches (Pages key rows size) last before ∧ Pages key rows size last (some page) ∧
      page.hasNext = false ∧ before ++ page.rows = seen ++ arranged.drop (index * size) := by
  induction left : rows.length - index generalizing index seen with
  | zero =>
    have far : (index + 1) * 1 ≤ (index + 1) * size := Nat.mul_le_mul_left (index + 1) positive
    have length := order.perm.length_eq
    have succ : (index + 1) * size = index * size + size := Nat.succ_mul index size
    refine ⟨index, seen, _, reached, ⟨arranged, order, rfl⟩, decide_eq_false (by omega), ?_⟩
    simp only
    rw [List.take_of_length_le (by rw [List.length_drop]; omega)]
  | succ left ih =>
    have length := order.perm.length_eq
    have succ : (index + 1) * size = index * size + size := Nat.succ_mul index size
    by_cases more : (index + 1) * size < rows.length
    · obtain ⟨last, before, page, goal⟩ := ih (reached.next ⟨arranged, order, rfl⟩ (by simpa using more)) (by omega)
      refine ⟨last, before, page, goal.1, goal.2.1, goal.2.2.1, ?_⟩
      rw [goal.2.2.2, List.append_assoc, succ, ← List.drop_drop, List.take_append_drop]
    · refine ⟨index, seen, _, reached, ⟨arranged, order, rfl⟩, decide_eq_false more, ?_⟩
      simp only
      rw [List.take_of_length_le (by rw [List.length_drop]; omega)]

theorem Arranged.swap {front back : List Row} {first second : Row}
    (order : Arranged key rows (front ++ first :: second :: back)) (tied : key first = key second) :
    Arranged key rows (front ++ second :: first :: back) where
  perm := (List.Perm.append_left front (List.Perm.swap first second back)).trans order.perm
  sorted := by
    have sorted := order.sorted
    simp only [List.pairwise_append, List.pairwise_cons, List.mem_cons, Before, forall_eq_or_imp, tied] at sorted ⊢
    grind

theorem exists_neighbours {list : List Row} {index : Nat} (inside : index + 1 < list.length) :
    ∃ front first second back, list = front ++ first :: second :: back ∧ front.length = index := by
  refine ⟨list.take index, list[index], list[index + 1], list.drop (index + 2), ?_, by simp; omega⟩
  rw [← List.drop_eq_getElem_cons inside, ← List.drop_eq_getElem_cons, List.take_append_drop]

theorem uncut_of_visitsOnce (distinct : rows.Nodup) (positive : 0 < size)
    {order : Row → Row → Prop} (visits : VisitsOnce (Pages key rows size) order rows) : Uncut key rows size := by
  intro row member count
  by_contra cut
  obtain ⟨low, high⟩ := not_or.mp cut
  obtain ⟨arranged, order⟩ := exists_arranged key rows
  have length := order.perm.length_eq
  have bound : notOlder key rows row ≤ rows.length := List.countP_le_length
  obtain ⟨front, last, next, back, rfl, before⟩ : ∃ front last next back,
      arranged = front ++ last :: next :: back ∧ front.length = count * size - 1 := exists_neighbours (by omega)
  have place : count * size = front.length + 1 := by omega
  -- The rows on both sides of the cut are tied.
  have side (index : Nat) (other : Row) (found : (front ++ last :: next :: back)[index]? = some other)
      (above : newer key rows row ≤ index) (below : index < notOlder key rows row) : key other = key row :=
    key_of_index order.sorted found (by rw [order.newer_eq]; exact above) (by rw [order.notOlder_eq]; exact below)
  have tied : key last = key next := by
    rw [side front.length last (by simp) (by omega) (by omega),
      side (front.length + 1) next (by simp) (by omega) (by omega)]
  -- Cut from the rows with these two exchanged, the next page begins with the last row seen.
  have reached : Reaches (Pages key rows size) count (front ++ [last]) := by
    have seen : Reaches (Pages key rows size) count _ := reaches_take order (.inr (by omega))
    rwa [place, List.take_append, List.take_of_length_le (by omega),
      Nat.add_sub_cancel_left, List.take_succ_cons, List.take_zero] at seen
  obtain ⟨index, seen, page, atEnd, answered, ended, all⟩ := reached.finish positive (order.swap tied)
  have twice := (visits.complete atEnd answered ended).1.nodup_iff.mpr distinct
  rw [all, place, ← List.drop_drop, List.drop_left] at twice
  simp [List.nodup_append] at twice

/-- Pages visit every row once exactly when none ends among rows of the same key. -/
theorem visitsOnce_iff_uncut (distinct : rows.Nodup) (positive : 0 < size) :
    VisitsOnce (Pages key rows size) (Before key) rows ↔ Uncut key rows size :=
  ⟨uncut_of_visitsOnce distinct positive, visitsOnce_of_uncut distinct positive⟩

theorem uncut_of_injOn (distinct : (rows.map key).Nodup) : Uncut key rows size := by
  intro row member count
  suffices notOlder key rows row ≤ newer key rows row + 1 by omega
  have split : notOlder key rows row = newer key rows row + rows.countP fun other => key other = key row := by
    unfold notOlder newer
    clear distinct member
    induction rows with
    | nil => rfl
    | cons head tail ih =>
      simp only [List.countP_cons, ih]
      rcases lt_trichotomy (key row) (key head) with less | same | greater
      · simp [less, less.le, less.ne']
        omega
      · simp [same]
        omega
      · simp [greater.not_ge, greater.not_gt, greater.ne]
  have own : (rows.countP fun other => key other = key row) ≤ 1 := by
    have counted := List.nodup_iff_count_le_one.mp distinct (key row)
    rwa [List.count_eq_countP, List.countP_map] at counted
  omega

end Paging
