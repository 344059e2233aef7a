import Csl.Library.JsonValues
import Csl.Library.Paging
import Csl.Library.Tables
import Csl.Server.Queries
import Csl.Server.Session
import Mathlib.Data.Prod.Lex

/-! The pages of the audit log and of the jobs, read from a database that may list rows equal
under `ORDER BY` in another order for each query.

The API's listing of the audit log is ordered by the time and the id, the pages of the web
interface by the time alone.
-/

set_option autoImplicit false

namespace Csl.Server.Listings
open Csl.Shared Csl.Agent Paging
open Csl.Server.Session (Account)

/-- A row of audit_log. -/
structure AuditRow where
  id : Nat
  timestamp : Timestamp
  userId : Option Nat
  action : String
  targetType : String
  targetId : String
  result : String
  detailsJson : Option String
  deriving DecidableEq

/-- The tables that are listed. A bookmark is a user's id with a machine's. -/
structure Content where
  auditLog : Table AuditRow.id
  users : Table fun account : Account => account.id
  machines : Table Machine.id
  userMachines : List (Nat × Nat)
  scripts : Table Script.id
  jobs : Table Job.id

structure Packages where
  /-- `AuditLog.action.contains(action)`, which is the database's LIKE. -/
  contains : String → String → Bool
  decimals : Integers.Decimals
  /-- How deep `json.loads` reads. -/
  nesting : Nat

/-- A filter that is empty is no filter. -/
def given : Option String → Option String
  | some "" => none
  | filter => filter

variable (packages : Packages)

/-! ## The audit log -/

structure AuditFilter where
  action : Option String
  targetType : Option String
  username : Option String

namespace Content
variable (db : Content)

/-- The rows of the statement of list_audit_entries and admin_audit. -/
def auditRows (filter : AuditFilter) : List (AuditRow × Option String) :=
  let joined := db.auditLog.rows.flatMap
    (Table.outerJoin (fun entry account => entry.userId = some account.id) db.users.rows)
  let rows := joined.filter fun row => (given filter.action).all (packages.contains row.1.action)
  let rows := rows.filter fun row => (given filter.targetType).all (row.1.targetType = ·)
  let rows := rows.filter fun row => (given filter.username).all fun name => row.2.any (·.username = name)
  rows.map fun row => (row.1, row.2.map (·.username))

def username (entry : AuditRow) : Option String := (entry.userId.bind db.users.find?).map (·.username)

def wants (filter : AuditFilter) (entry : AuditRow) : Bool :=
  (given filter.action).all (packages.contains entry.action) &&
    (given filter.targetType).all (entry.targetType = ·) &&
    (given filter.username).all (db.username entry = some ·)

def matchingEntries (filter : AuditFilter) : List (AuditRow × Option String) :=
  (db.auditLog.rows.filter (db.wants packages filter)).map fun entry => (entry, db.username entry)

end Content

structure AuditEntryOut where
  id : Nat
  timestamp : Timestamp
  userId : Option Nat
  username : Option String
  action : String
  targetType : String
  targetId : String
  result : String
  details : Option (List (Text × JsonValue))

structure AuditPageOut where
  items : List AuditEntryOut
  limit : Nat
  offset : Nat
  hasNext : Bool

/-- `json.loads(details_json) if details_json else None`, or none where it raises or gives what
is not a dictionary. -/
def readDetails (row : AuditRow × Option String) : Option (Option (List (Text × JsonValue))) :=
  match given row.1.detailsJson with
  | none => some none
  | some text =>
    match JsonValue.loads packages.nesting (CodePoint.ofString text) with
    | .ok (.object entries) => some (some entries)
    | .ok .null => some none
    | _ => none

def entryWith (row : AuditRow × Option String) (details : Option (List (Text × JsonValue))) : AuditEntryOut :=
  { id := row.1.id, timestamp := row.1.timestamp, userId := row.1.userId, username := row.2
    action := row.1.action, targetType := row.1.targetType, targetId := row.1.targetId
    result := row.1.result, details }

def entryOut (row : AuditRow × Option String) : Option AuditEntryOut :=
  (readDetails packages row).map (entryWith row)

/-- `Query(default=50, ge=1, le=500)` -/
abbrev Limit := { limit : Nat // 1 ≤ limit ∧ limit ≤ 500 }

/-- The answer, or none where it cannot be made of the rows. -/
def listAuditEntries (db : Content) (filter : AuditFilter) (limit : Limit) (offset : Nat)
    (order : List (AuditRow × Option String) → List (AuditRow × Option String)) : Option AuditPageOut :=
  -- One extra row is fetched to determine whether a further page exists.
  let rows := fetch order (db.auditRows packages filter) offset (limit + 1)
  let hasNext := decide (limit < rows.length)
  ((rows.take limit).mapM (entryOut packages)).map fun items => ⟨items, limit, offset, hasNext⟩

def pageSize : Nat := 50

structure AuditView where
  rows : List (AuditRow × Option String)
  hasNext : Bool
  page : Nat
  filterAction : String
  filterTargetType : String
  filterUsername : String
  actions : List String
  targetTypes : List String

def adminAudit (db : Content) (filter : AuditFilter) (page : Int)
    (order : List (AuditRow × Option String) → List (AuditRow × Option String)) : AuditView :=
  let page := (max 1 page).toNat
  let offset := (page - 1) * pageSize
  let rowsRaw := fetch order (db.auditRows packages filter) offset (pageSize + 1)
  let hasNext := decide (pageSize < rowsRaw.length)
  { rows := rowsRaw.take pageSize, hasNext, page
    filterAction := filter.action.getD "", filterTargetType := filter.targetType.getD ""
    filterUsername := filter.username.getD ""
    actions := (db.auditLog.rows.map (·.action)).dedup.insertionSort (· ≤ ·)
    targetTypes := (db.auditLog.rows.map (·.targetType)).dedup.insertionSort (· ≤ ·) }

/-! ## The jobs -/

structure JobQuery where
  machineId : Option String
  scriptName : Option String
  status : Option String

abbrev JoinedJob := Job × Option Machine × Option Script

namespace Content
variable (db : Content)

def accessibleMachines (user : User) : List Machine :=
  if user.role = .admin then db.machines.rows.insertionSort (·.name ≤ ·.name)
  else (db.machines.rows.filter fun machine => db.userMachines.any (· = (user.id, machine.id))).insertionSort
    (·.name ≤ ·.name)

/-- The rows of the statement of jobs_list. -/
def jobRows (accessibleIds : List Nat) (machineId : Option Int) (scriptName status : Option String) :
    List JoinedJob :=
  let joined := db.jobs.rows.flatMap
    (Table.outerJoin (fun job machine => some job.machineId = some machine.id) db.machines.rows)
  let joined := joined.flatMap (Table.outerJoin (fun row script => row.1.scriptId = some script.id) db.scripts.rows)
  let rows := joined.filter fun row => row.1.1.machineId ∈ accessibleIds
  let rows := rows.filter fun row => machineId.all (row.1.1.machineId = ·)
  let rows := rows.filter fun row => scriptName.all fun name => row.2.any (·.name = name)
  let rows := rows.filter fun row => status.all (jobStatusText row.1.1.status = ·)
  rows.map fun row => (row.1.1, row.1.2, row.2)

/-- The rows of the statement that counts. The scripts are joined where their names are asked for. -/
def countedRows (accessibleIds : List Nat) (machineId : Option Int) (scriptName status : Option String) :
    List Nat :=
  let rows := db.jobs.rows.filter (·.machineId ∈ accessibleIds)
  let rows := rows.filter fun job => machineId.all (job.machineId = ·)
  let rows : List Job := match scriptName with
    | none => rows
    | some name =>
      let joined : List (Job × Option Script) := rows.flatMap
        (Table.outerJoin (fun job script => job.scriptId = some script.id) db.scripts.rows)
      (joined.filter fun row => row.2.any (·.name = name)).map (·.1)
  (rows.filter fun job => status.all (jobStatusText job.status = ·)).map (·.id)

def joined (job : Job) : JoinedJob :=
  (job, db.machines.find? job.machineId, job.scriptId.bind db.scripts.find?)

def wantsJob (user : User) (machineId : Option Int) (scriptName status : Option String) (job : Job) : Bool :=
  job.machineId ∈ (db.accessibleMachines user).map (·.id) && machineId.all ((job.machineId : Int) = ·) &&
    scriptName.all (((job.scriptId.bind db.scripts.find?).map (·.name)) = some ·) &&
    status.all (jobStatusText job.status = ·)

end Content

/-- What `int(machine_id)` gives. It is bound to a statement, which takes 64 bits. -/
def readMachineId (text : String) : Option Int :=
  (Integers.ofText packages.decimals text).filter fun value => -2 ^ 63 ≤ value ∧ value < 2 ^ 63

def askedMachine (query : JobQuery) : Option (Option Int) :=
  match given query.machineId with
  | none => some none
  | some text => (readMachineId packages text).map some

def Content.matchingJobs (db : Content) (user : User) (query : JobQuery) : List JoinedJob :=
  match askedMachine packages query with
  | none => []
  | some machineId =>
    (db.jobs.rows.filter (db.wantsJob user machineId (given query.scriptName) (given query.status))).map db.joined

structure JobRow where
  job : Job
  machine : Option Machine
  script : Option Script
  running : Bool
  deriving DecidableEq

def jobRow (row : JoinedJob) : JobRow := ⟨row.1, row.2.1, row.2.2, isActive row.1.status⟩

structure JobsView where
  user : User
  jobs : List JobRow
  machines : List Machine
  scripts : List Script
  statuses : List String
  filterMachineId : Option Int
  filterScriptName : Option String
  filterStatus : Option String
  page : Nat
  total : Nat
  pageSize : Nat
  hasPrev : Bool
  hasNext : Bool

def jobPageSize : Nat := 50

def jobsList (db : Content) (user : User) (query : JobQuery) (page : Int)
    (order : List JoinedJob → List JoinedJob) : Option JobsView := do
  let machineId ← askedMachine packages query
  let scriptName := given query.scriptName
  let status := given query.status
  let page := (max 1 page).toNat
  let offset := (page - 1) * jobPageSize
  let accessible := db.accessibleMachines user
  let accessibleIds := accessible.map (·.id)
  let total := (db.countedRows accessibleIds machineId scriptName status).length
  let rows := fetch order (db.jobRows accessibleIds machineId scriptName status) offset jobPageSize
  return { user, jobs := rows.map jobRow, machines := accessible
           scripts := db.scripts.rows.insertionSort (·.name ≤ ·.name)
           statuses := [JobStatus.pending, .running, .completed, .failed, .killed].map jobStatusText
           filterMachineId := machineId, filterScriptName := scriptName, filterStatus := status
           page, total, pageSize := jobPageSize, hasPrev := decide (1 < page)
           hasNext := decide (offset + jobPageSize < total) }

/-! ## What the statements select -/

theorem any_eq_decide {A : Type} (field : A → String) (row : Option A) (value : String) :
    (row.any fun found => field found = value) = decide (row.map field = some value) := by
  cases row <;> simp

namespace Content
variable (db : Content)

theorem auditRows_eq (filter : AuditFilter) : db.auditRows packages filter = db.matchingEntries packages filter := by
  have joined : db.auditLog.rows.flatMap
      (Table.outerJoin (fun entry account => entry.userId = some account.id) db.users.rows) =
      db.auditLog.rows.map fun entry => (entry, entry.userId.bind db.users.find?) := by
    rw [List.map_eq_flatMap]
    apply List.flatMap_congr
    intro entry _
    exact db.users.outerJoin_key AuditRow.userId entry
  simp only [auditRows, matchingEntries, joined, List.filter_filter, List.filter_map, List.map_map]
  congr 1
  apply List.filter_congr
  intro entry _
  simp only [wants, username, Function.comp_apply, any_eq_decide, Bool.and_assoc, Bool.and_comm]
  rfl

theorem joined_eq : (db.jobs.rows.flatMap
    (Table.outerJoin (fun job machine => some job.machineId = some machine.id) db.machines.rows)).flatMap
      (Table.outerJoin (fun row script => row.1.scriptId = some script.id) db.scripts.rows) =
    db.jobs.rows.map fun job => ((job, db.machines.find? job.machineId), job.scriptId.bind db.scripts.find?) := by
  rw [List.flatMap_assoc, List.map_eq_flatMap]
  apply List.flatMap_congr
  intro job _
  rw [db.machines.outerJoin_key (fun job : Job => some job.machineId) job, List.flatMap_singleton,
    db.scripts.outerJoin_key (fun row : Job × Option Machine => row.1.scriptId)]
  rfl

theorem jobRows_eq (user : User) (machineId : Option Int) (scriptName status : Option String) :
    db.jobRows ((db.accessibleMachines user).map (·.id)) machineId scriptName status =
      (db.jobs.rows.filter (db.wantsJob user machineId scriptName status)).map db.joined := by
  simp only [jobRows, joined_eq, List.filter_filter, List.filter_map, List.map_map]
  congr 1
  apply List.filter_congr
  intro job _
  simp only [wantsJob, Function.comp_apply, any_eq_decide, Bool.and_assoc, Bool.and_comm]

/-- The statement that counts selects as many rows as the one that lists. -/
theorem countedRows_eq (user : User) (machineId : Option Int) (scriptName status : Option String) :
    db.countedRows ((db.accessibleMachines user).map (·.id)) machineId scriptName status =
      (db.jobs.rows.filter (db.wantsJob user machineId scriptName status)).map (·.id) := by
  unfold countedRows
  cases scriptName with
  | none =>
    simp only [List.filter_filter]
    congr 1
    apply List.filter_congr
    intro job _
    simp only [wantsJob, Option.all_none, Bool.true_and, Bool.and_comm, Bool.and_left_comm]
  | some name =>
    have joined (jobs : List Job) : jobs.flatMap
        (Table.outerJoin (fun job script => job.scriptId = some script.id) db.scripts.rows) =
        jobs.map fun job => (job, job.scriptId.bind db.scripts.find?) := by
      rw [List.map_eq_flatMap]
      apply List.flatMap_congr
      intro job _
      exact db.scripts.outerJoin_key (fun job : Job => job.scriptId) job
    simp only [joined, List.filter_filter, List.filter_map, List.map_map]
    apply congrArg (List.map Job.id)
    apply List.filter_congr
    intro job _
    simp only [wantsJob, Function.comp_apply, any_eq_decide, Option.all_some, Bool.and_assoc, Bool.and_comm,
      Bool.and_left_comm]

end Content

/-! ## Walking over the pages -/

/-- `ORDER BY timestamp DESC, id DESC` -/
def timeAndId (row : AuditRow × Option String) : Lex (Timestamp × Nat) := toLex (row.1.timestamp, row.1.id)

/-- The pages of list_audit_entries. From each one the reader moves the offset on by the limit. -/
def auditEntryPages (db : Content) (filter : AuditFilter) (limit : Limit) : Listing AuditEntryOut :=
  fun index answer => ∃ order, Sorts timeAndId order ∧
    answer = (listAuditEntries packages db filter limit (index * limit) order).map fun page =>
      ⟨page.items, page.hasNext⟩

def adminAuditPages (db : Content) (filter : AuditFilter) : Listing (AuditRow × Option String) :=
  fun index answer => ∃ order, Sorts (fun row : AuditRow × Option String => row.1.timestamp) order ∧
    ∃ view, adminAudit packages db filter (index + 1) order = view ∧ answer = some ⟨view.rows, view.hasNext⟩

def jobPages (db : Content) (user : User) (query : JobQuery) : Listing JoinedJob :=
  fun index answer => ∃ order, Sorts (fun row : JoinedJob => row.1.startedAt) order ∧
    answer = (jobsList packages db user query (index + 1) order).map fun view =>
      ⟨view.jobs.map fun row => (row.job, row.machine, row.script), view.hasNext⟩

variable {packages}

theorem adminAuditPages_eq (db : Content) (filter : AuditFilter) :
    adminAuditPages packages db filter =
      Pages (fun row => row.1.timestamp) (db.matchingEntries packages filter) pageSize := by
  have shown (index : Nat) {order : List (AuditRow × Option String) → List (AuditRow × Option String)}
      (sorts : Sorts (fun row : AuditRow × Option String => row.1.timestamp) order) :
      (⟨(adminAudit packages db filter (index + 1) order).rows, (adminAudit packages db filter (index + 1) order).hasNext⟩ :
        Page (AuditRow × Option String)) =
      ⟨((order (db.matchingEntries packages filter)).drop (index * pageSize)).take pageSize,
        decide ((index + 1) * pageSize < (db.matchingEntries packages filter).length)⟩ := by
    have number : (max 1 ((index : Int) + 1)).toNat = index + 1 := by omega
    simp only [adminAudit, number, Nat.add_sub_cancel, take_fetch, fetch_extra sorts, db.auditRows_eq]
    rfl
  funext index answer
  apply propext
  constructor
  · rintro ⟨order, sorts, view, rfl, rfl⟩
    exact ⟨_, sorts _, congrArg some (shown index sorts)⟩
  · rintro ⟨arranged, arrangement, rfl⟩
    obtain ⟨order, sorts, same⟩ := arrangement.exists_sorts
    refine ⟨order, sorts, _, rfl, ?_⟩
    rw [shown index sorts, same]

theorem jobPages_eq (db : Content) (user : User) (query : JobQuery) (read : (askedMachine packages query).isSome) :
    jobPages packages db user query =
      Pages (fun row => row.1.startedAt) (db.matchingJobs packages user query) jobPageSize := by
  obtain ⟨machineId, asked⟩ := Option.isSome_iff_exists.mp read
  have shown (index : Nat) (order : List JoinedJob → List JoinedJob) :
      (jobsList packages db user query (index + 1) order).map (fun view =>
        (⟨view.jobs.map fun row => (row.job, row.machine, row.script), view.hasNext⟩ : Page JoinedJob)) =
      some ⟨((order (db.matchingJobs packages user query)).drop (index * jobPageSize)).take jobPageSize,
        decide ((index + 1) * jobPageSize < (db.matchingJobs packages user query).length)⟩ := by
    have same : (fun row : JobRow => (row.job, row.machine, row.script)) ∘ jobRow = id := rfl
    simp [jobsList, Content.matchingJobs, asked, db.jobRows_eq, db.countedRows_eq, fetch, same, Nat.succ_mul]
  funext index answer
  apply propext
  constructor
  · rintro ⟨order, sorts, rfl⟩
    exact ⟨_, sorts _, shown index order⟩
  · rintro ⟨arranged, arrangement, rfl⟩
    obtain ⟨order, sorts, same⟩ := arrangement.exists_sorts
    refine ⟨order, sorts, ?_⟩
    rw [shown index order, same]

/-! ### The audit log of the API -/

theorem mapM_eq_some_map {A B : Type} {read : A → Option B} {item : A → B} {rows : List A}
    (reads : ∀ row ∈ rows, read row = some (item row)) : rows.mapM read = some (rows.map item) := by
  induction rows with
  | nil => rfl
  | cons head tail ih =>
    rw [List.mapM_cons, reads head List.mem_cons_self, ih fun row member => reads row (List.mem_cons_of_mem _ member)]
    rfl

theorem mapM_eq_none {A B : Type} {read : A → Option B} {rows : List A} {row : A} (member : row ∈ rows)
    (fails : read row = none) : rows.mapM read = none := by
  induction rows with
  | nil => cases member
  | cons head tail ih =>
    rw [List.mapM_cons]
    rcases List.mem_cons.mp member with rfl | member
    · rw [fails]
      rfl
    · rw [ih member]
      cases read head <;> rfl

theorem Content.matchingEntries_ids (db : Content) (filter : AuditFilter) :
    ((db.matchingEntries packages filter).map fun row => row.1.id).Nodup := by
  rw [matchingEntries, List.map_map]
  exact db.auditLog.distinct.sublist (List.filter_sublist.map _)

theorem Content.matchingJobs_ids (db : Content) (user : User) (query : JobQuery) :
    ((db.matchingJobs packages user query).map fun row => row.1.id).Nodup := by
  unfold matchingJobs
  cases askedMachine packages query with
  | none => exact List.nodup_nil
  | some machineId =>
    simp only [List.map_map]
    exact db.jobs.distinct.sublist (List.filter_sublist.map _)

/-- The pages of list_audit_entries where all details can be read. -/
theorem auditEntryPages_visit {db : Content} {filter : AuditFilter} {limit : Limit}
    (readable : ∀ row ∈ db.matchingEntries packages filter, (readDetails packages row).isSome) :
    VisitsOnce (auditEntryPages packages db filter limit) (Before (·.timestamp))
      ((db.matchingEntries packages filter).filterMap (entryOut packages)) := by
  let rows := db.matchingEntries packages filter
  let item (row : AuditRow × Option String) : AuditEntryOut := entryWith row ((readDetails packages row).getD none)
  let key (entry : AuditEntryOut) : Lex (Timestamp × Nat) := toLex (entry.timestamp, entry.id)
  have reads : ∀ row ∈ rows, entryOut packages row = some (item row) := by
    intro row member
    obtain ⟨details, read⟩ := Option.isSome_iff_exists.mp (readable row member)
    simp only [entryOut, item, read, Option.map_some, Option.getD_some]
  have items : rows.filterMap (entryOut packages) = rows.map item := by
    rw [← List.filterMap_eq_map]
    exact List.filterMap_congr reads
  have keys : ((rows.map item).map key).Nodup := by
    apply List.Nodup.of_map (fun key => (ofLex key).2)
    simp only [List.map_map]
    exact db.matchingEntries_ids filter
  have visits : VisitsOnce (Pages key (rows.map item) limit) (Before key) (rows.map item) :=
    visitsOnce_of_uncut keys.of_map limit.2.1 (uncut_of_injOn keys)
  have listed : VisitsOnce (auditEntryPages packages db filter limit) (Before key) (rows.map item) := by
    apply visits.within
    · intro index
      obtain ⟨order, sorts⟩ := exists_sorts timeAndId
      exact ⟨_, order, sorts, rfl⟩
    -- a page of the statement's rows is a page of their entries
    · rintro index _ ⟨order, sorts, rfl⟩
      refine ⟨(order rows).map item, ⟨(sorts rows).perm.map item, ?_⟩, ?_⟩
      · rw [List.pairwise_map]
        exact (sorts rows).sorted
      · have read : (fetch order rows (index * limit) limit).mapM (entryOut packages) =
            some ((fetch order rows (index * limit) limit).map item) := by
          apply mapM_eq_some_map
          intro row member
          exact reads row ((sorts rows).perm.mem_iff.mp (List.mem_of_mem_drop (List.mem_of_mem_take member)))
        simp only [listAuditEntries, db.auditRows_eq, take_fetch, fetch_extra sorts]
        rw [show db.matchingEntries packages filter = rows from rfl, read]
        simp [fetch]
  rw [items]
  apply listed.weaken
  intro first second sooner
  exact (Prod.Lex.le_iff.mp sooner).elim le_of_lt fun same => le_of_eq same.1

theorem readable_of_visits {db : Content} {filter : AuditFilter} {limit : Limit}
    {before : AuditEntryOut → AuditEntryOut → Prop} {items : List AuditEntryOut}
    (visits : VisitsOnce (auditEntryPages packages db filter limit) before items)
    (row : AuditRow × Option String) (member : row ∈ db.matchingEntries packages filter) :
    (readDetails packages row).isSome := by
  let rows := db.matchingEntries packages filter
  obtain ⟨order, sorts⟩ := exists_sorts timeAndId
  have length := (sorts rows).perm.length_eq
  have positive : 0 < (limit : Nat) := limit.2.1
  -- Every page that rows are left for is asked for.
  have reaches (index : Nat) (within : index = 0 ∨ index * limit < rows.length) :
      ∃ seen, Reaches (auditEntryPages packages db filter limit) index seen := by
    induction index with
    | zero => exact ⟨[], .first⟩
    | succ index ih =>
      have later : (index + 1) * limit < rows.length := by omega
      have early : index * limit ≤ (index + 1) * limit := Nat.mul_le_mul_right _ (Nat.le_succ index)
      obtain ⟨seen, reached⟩ := ih (.inr (by omega))
      cases answer : listAuditEntries packages db filter limit (index * limit) order with
      | none => exact absurd ⟨order, sorts, by rw [answer]; rfl⟩ (visits.succeeds reached)
      | some page =>
        have more : page.hasNext = true := by
          simp only [listAuditEntries, db.auditRows_eq, fetch_extra sorts, Option.map_eq_some_iff] at answer
          obtain ⟨_, _, rfl⟩ := answer
          exact decide_eq_true later
        have shown : auditEntryPages packages db filter limit index (some ⟨page.items, page.hasNext⟩) :=
          ⟨order, sorts, by rw [answer]; rfl⟩
        exact ⟨_, reached.next shown more⟩
  obtain ⟨place, inside, rfl⟩ := List.mem_iff_getElem.mp ((sorts rows).perm.mem_iff.mpr member)
  by_contra unreadable
  have fails : entryOut packages (order rows)[place] = none := by
    rw [entryOut, Option.not_isSome_iff_eq_none.mp unreadable]
    rfl
  have low : place / limit * limit ≤ place := Nat.div_mul_le_self place limit
  have high : place < place / limit * limit + limit := Nat.lt_div_mul_add positive
  obtain ⟨seen, reached⟩ := reaches (place / limit) (.inr (by omega))
  have shown : (order rows)[place] ∈ fetch order rows (place / limit * limit) limit := by
    refine List.mem_iff_getElem.mpr ⟨place - place / limit * limit, by simp [fetch]; omega, ?_⟩
    simp only [fetch, List.getElem_take, List.getElem_drop]
    congr 1
    omega
  refine visits.succeeds reached ⟨order, sorts, ?_⟩
  simp only [listAuditEntries, db.auditRows_eq, take_fetch]
  rw [mapM_eq_none shown fails]
  rfl

/-- Walking over pages visits every row once: on the API if all details can be read, on the web
interface if the machine's id can be read and no page ends among rows of the same time. -/
theorem pages_visit_once_iff (packages : Packages) (db : Content) (filter : AuditFilter) (limit : Limit)
    (user : User) (query : JobQuery) :
    (VisitsOnce (auditEntryPages packages db filter limit) (Before (·.timestamp))
        ((db.matchingEntries packages filter).filterMap (entryOut packages)) ↔
      ∀ row ∈ db.matchingEntries packages filter, (readDetails packages row).isSome) ∧
    (VisitsOnce (adminAuditPages packages db filter) (Before (·.1.timestamp)) (db.matchingEntries packages filter) ↔
      Uncut (·.1.timestamp) (db.matchingEntries packages filter) pageSize) ∧
    (VisitsOnce (jobPages packages db user query) (Before (·.1.startedAt)) (db.matchingJobs packages user query) ↔
      (askedMachine packages query).isSome ∧
        Uncut (·.1.startedAt) (db.matchingJobs packages user query) jobPageSize) := by
  refine ⟨⟨readable_of_visits, auditEntryPages_visit⟩, ?_, ?_⟩
  · rw [adminAuditPages_eq]
    exact visitsOnce_iff_uncut (db.matchingEntries_ids filter).of_map (by decide)
  · by_cases read : (askedMachine packages query).isSome
    · rw [jobPages_eq db user query read, visitsOnce_iff_uncut (db.matchingJobs_ids user query).of_map (by decide)]
      simp only [read, true_and]
    · apply iff_of_false
      · obtain ⟨order, sorts⟩ := exists_sorts fun row : JoinedJob => row.1.startedAt
        apply not_visitsOnce_of_failing
        refine ⟨order, sorts, ?_⟩
        rw [jobsList, Option.not_isSome_iff_eq_none.mp read]
        rfl
      · exact fun holds => read holds.1

/-! ## Two entries of one instant -/

def infixPackages : Packages where
  contains text part := text.toList.tails.any (part.toList.isPrefixOf ·)
  decimals := Integers.asciiDecimals
  nesting := 100

def loginEntry (number : Nat) : AuditRow :=
  { id := number, timestamp := if number ≤ 2 then "2025-12-31 08:00:00.000000" else "2026-01-01 09:00:00.000000"
    userId := none, action := "login", targetType := "user", targetId := "1", result := "success"
    detailsJson := none }

def logins : Content where
  auditLog := ⟨(List.range' 1 51).map loginEntry, by decide⟩
  users := ⟨[], List.nodup_nil⟩
  machines := ⟨[], List.nodup_nil⟩
  userMachines := []
  scripts := ⟨[], List.nodup_nil⟩
  jobs := ⟨[], List.nodup_nil⟩

/-- The second page of the audit log may show the last entry of the first page again. -/
theorem audit_entry_shown_twice :
    ¬VisitsOnce (adminAuditPages infixPackages logins ⟨none, none, none⟩) (Before (·.1.timestamp))
      (logins.matchingEntries infixPackages ⟨none, none, none⟩) := by
  rw [adminAuditPages_eq]
  intro visits
  have uncut := uncut_of_visitsOnce (logins.matchingEntries_ids _).of_map (by decide) visits
  have first : (loginEntry 1, none) ∈ logins.matchingEntries infixPackages ⟨none, none, none⟩ :=
    List.mem_map.mpr ⟨loginEntry 1, by decide, rfl⟩
  exact absurd (uncut _ first 1) (by decide +kernel)

end Csl.Server.Listings
