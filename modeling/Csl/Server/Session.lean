import Csl.Library.Pool
import Csl.Library.Transactions
import Csl.Server.Calls
import Csl.Server.ScriptRegistry

/-! Database sessions of the requests: statements, commits and the clock.

Each request has a connection of its own. A statement that reads sees the committed rows, and
the request's own changes after its first one, which takes the write lock.
-/

set_option autoImplicit false

namespace Csl.Server.Session
open Csl.Shared Csl.Agent Transactions

/-- A row of users. -/
structure Account extends User where
  username : String
  passwordHash : String
  disabled : Bool
  deriving DecidableEq, Repr

/-- Who set the `revoked` column: a request, by its connection, or someone earlier. -/
inductive Revoker where
  | earlier
  | request (connection : Nat)
  deriving DecidableEq, Repr

/-- A row of refresh_tokens. Times are in seconds. -/
structure RefreshToken where
  id : Nat
  userId : Nat
  tokenHash : String
  expiresAt : Nat
  revokedBy : Option Revoker
  deriving DecidableEq, Repr

def RefreshToken.revoked (row : RefreshToken) : Bool := row.revokedBy.isSome

structure AuditEntry where
  userId : Option Nat
  action : String
  targetType : String
  targetId : String
  result : String
  details : List (String × String)
  deriving DecidableEq, Repr

/-- The columns of a script that a request writes; the database gives the row its id. -/
structure ScriptFields where
  name : String
  content : String
  metaYaml : Option String
  md5 : String
  persistent : Bool
  updatedAt : Timestamp
  updatedBy : Nat
  deriving DecidableEq, Repr

def ScriptFields.row (fields : ScriptFields) (id : Nat) : Script :=
  { id, name := fields.name, content := fields.content, metaYaml := fields.metaYaml,
    md5 := fields.md5, persistent := fields.persistent, updatedAt := fields.updatedAt,
    updatedBy := fields.updatedBy }

structure Rows where
  users : List Account
  refreshTokens : List RefreshToken
  machines : List Machine
  userMachines : List (Nat × Nat)
  scripts : List Script
  targetStates : List ((Nat × Nat) × ScriptTargetState)
  jobs : List Job
  auditLog : List AuditEntry
  deriving DecidableEq

def Rows.empty : Rows := ⟨[], [], [], [], [], [], [], []⟩

/-- SQLite's rowid for a new row: one more than the largest in use. -/
def nextRowid (ids : List Nat) : Nat := ids.foldl max 0 + 1

inductive Raised where
  /-- `HTTPException`, and `CslHTTPException` with its code. -/
  | http (status : Nat) (code : Option String) (detail : String)
  | registry (e : RegistryError)
  /-- What the agent's client raises, and what a route makes of it. -/
  | client (e : Failure)
  /-- `OperationalError`: another connection has the write lock. -/
  | databaseLocked
  | integrity
  | staleData
  /-- `InvalidRequestError`: a row that is refreshed is gone. -/
  | invalidRequest
  | multipleResults
  /-- `NoResultFound`. -/
  | noResult
  /-- `ValueError`. -/
  | value
  deriving DecidableEq, Repr

inductive Statement where
  | findUser (userId : Nat)
  | findUserByName (username : String)
  | updateUser (userId : Nat) (role : Option Role) (disabled : Option Bool)
  | findRefreshToken (tokenHash : String)
  | insertRefreshToken (userId : Nat) (tokenHash : String) (expiresAt : Nat)
  | revokeRefreshToken (id : Nat)
  /-- The first administrator's id. -/
  | firstAdmin
  | findMachine (machineId : Nat)
  | findMachineByName (name : String)
  | insertMachine (name platform : String)
  | deleteMachine (machineId : Nat)
  | findBookmark (userId machineId : Nat)
  | insertBookmark (userId machineId : Nat)
  | deleteBookmark (userId machineId : Nat)
  | deleteBookmarks (machineId : Nat)
  | findScript (name : String)
  | findScriptById (scriptId : Nat)
  | insertScript (fields : ScriptFields)
  | updateScript (loaded : Script) (fields : ScriptFields)
  | deleteScript (scriptId : Nat)
  | deleteTargetStates (scriptId : Nat)
  | findTargetState (machineId scriptId : Nat)
  /-- The states of a machine, joined with their scripts. -/
  | targetStatesOf (machineId : Nat)
  | insertTargetState (machineId scriptId : Nat) (state : ScriptTargetState)
  | updateTargetState (machineId scriptId : Nat) (loaded state : ScriptTargetState)
  | findJob (jobUuid : String)
  | findJobById (id : Nat)
  | insertJob (fields : JobFields)
  | updateJob (id : Nat) (update : JobUpdate)
  | insertAudit (entry : AuditEntry)

abbrev Statement.Reply : Statement → Type
  | .findUser _ | .findUserByName _ => Option Account
  | .firstAdmin => Option Nat
  | .findRefreshToken _ => Option RefreshToken
  | .findMachine _ | .findMachineByName _ => Option Machine
  | .insertMachine .. => Machine
  | .findBookmark .. => Bool
  | .findScript _ | .findScriptById _ => Option Script
  | .insertScript _ => Script
  | .findTargetState .. => Option ScriptTargetState
  | .targetStatesOf _ => List (ScriptTargetState × Script)
  | .findJob _ | .findJobById _ => Option Job
  | .insertJob _ => Job
  | .updateUser .. | .insertRefreshToken .. | .revokeRefreshToken _ | .deleteMachine _
  | .insertBookmark .. | .deleteBookmark .. | .deleteBookmarks _ | .updateScript ..
  | .deleteScript _ | .deleteTargetStates _ | .insertTargetState .. | .updateTargetState ..
  | .updateJob .. | .insertAudit _ => Unit

def Statement.writes : Statement → Bool
  | .findUser _ | .findUserByName _ | .firstAdmin | .findRefreshToken _ | .findMachine _
  | .findMachineByName _ | .findBookmark .. | .findScript _ | .findScriptById _ | .findTargetState ..
  | .targetStatesOf _ | .findJob _ | .findJobById _ => false
  | _ => true

namespace Rows
variable (rows : Rows)

/-- The columns that differ from those loaded. -/
def updatedScript (loaded : Script) (fields : ScriptFields) (row : Script) : Script :=
  { row with
    content := (changed loaded.content fields.content).getD row.content
    metaYaml := (changed loaded.metaYaml fields.metaYaml).getD row.metaYaml
    md5 := (changed loaded.md5 fields.md5).getD row.md5
    persistent := (changed loaded.persistent fields.persistent).getD row.persistent
    updatedAt := (changed loaded.updatedAt fields.updatedAt).getD row.updatedAt
    updatedBy := (changed loaded.updatedBy fields.updatedBy).getD row.updatedBy }

def updatedAccount (role : Option Role) (disabled : Option Bool) (row : Account) : Account :=
  { row with role := role.getD row.role, disabled := disabled.getD row.disabled }

/-- The first statement that revokes a token is the one that changes its row. -/
def revokedToken (connection : Nat) (row : RefreshToken) : RefreshToken :=
  { row with revokedBy := some (row.revokedBy.getD (.request connection)) }

def updatedTarget (loaded state row : ScriptTargetState) : ScriptTargetState :=
  { state := (changed loaded.state state.state).getD row.state
    approvedMd5 := (changed loaded.approvedMd5 state.approvedMd5).getD row.approvedMd5
    pendingMd5 := (changed loaded.pendingMd5 state.pendingMd5).getD row.pendingMd5
    lastRefreshedAt := (changed loaded.lastRefreshedAt state.lastRefreshedAt).getD row.lastRefreshedAt }

/-- A row with this property is written; an UPDATE that the session issues for a row fails when
the row is gone. -/
def present {A : Type} (table : List A) (is : A → Bool) (after : Rows) : Except Raised Unit × Rows :=
  if table.any is then (.ok (), after) else (.error .staleData, rows)

def unique {A : Type} (table : List A) (is : A → Bool) : Except Raised (Option A) :=
  match table.filter is with
  | [] => .ok none
  | [row] => .ok (some row)
  | _ => .error .multipleResults

def insertMachine (name platform : String) : Except Raised Machine × Rows :=
  let machine : Machine := ⟨nextRowid (rows.machines.map (·.id)), name, platform⟩
  if rows.machines.any (·.name = name) then (.error .integrity, rows)
  else (.ok machine, { rows with machines := rows.machines ++ [machine] })

def insertScript (fields : ScriptFields) : Except Raised Script × Rows :=
  let script := fields.row (nextRowid (rows.scripts.map (·.id)))
  if rows.scripts.any (·.name = fields.name) then (.error .integrity, rows)
  else (.ok script, { rows with scripts := rows.scripts ++ [script] })

def insertJob (fields : JobFields) : Except Raised Job × Rows :=
  let job : Job := { fields with id := nextRowid (rows.jobs.map (·.id)) }
  if rows.jobs.any (·.jobUuid = fields.jobUuid) then (.error .integrity, rows)
  else (.ok job, { rows with jobs := rows.jobs ++ [job] })

def insertRefreshToken (userId : Nat) (tokenHash : String) (expiresAt : Nat) : Rows :=
  { rows with refreshTokens := rows.refreshTokens ++
      [⟨nextRowid (rows.refreshTokens.map (·.id)), userId, tokenHash, expiresAt, none⟩] }

end Rows

open Rows

def Statement.run (connection : Nat) (rows : Rows) :
    (statement : Statement) → Except Raised statement.Reply × Rows
  | .findUser userId => (unique rows.users (·.id = userId), rows)
  | .findUserByName username => (unique rows.users (·.username = username), rows)
  | .firstAdmin =>
      (.ok (((rows.users.filter (·.role = .admin)).map (·.id)).min?), rows)
  | .updateUser userId role disabled =>
      rows.present rows.users (·.id = userId) { rows with
        users := rows.users.map fun row =>
          if row.id = userId then updatedAccount role disabled row else row }
  | .findRefreshToken tokenHash => (unique rows.refreshTokens (·.tokenHash = tokenHash), rows)
  | .insertRefreshToken userId tokenHash expiresAt =>
      (.ok (), rows.insertRefreshToken userId tokenHash expiresAt)
  | .revokeRefreshToken id =>
      rows.present rows.refreshTokens (·.id = id) { rows with
        refreshTokens := rows.refreshTokens.map fun row =>
          if row.id = id then revokedToken connection row else row }
  | .findMachine machineId => (unique rows.machines (·.id = machineId), rows)
  | .findMachineByName name => (unique rows.machines (·.name = name), rows)
  | .insertMachine name platform => rows.insertMachine name platform
  | .deleteMachine machineId =>
      (.ok (), { rows with machines := rows.machines.filter (·.id ≠ machineId) })
  | .findBookmark userId machineId => (.ok (rows.userMachines.any (· = (userId, machineId))), rows)
  | .insertBookmark userId machineId =>
      if rows.userMachines.any (· = (userId, machineId)) then (.error .integrity, rows)
      else (.ok (), { rows with userMachines := rows.userMachines ++ [(userId, machineId)] })
  | .deleteBookmark userId machineId =>
      (.ok (), { rows with userMachines := rows.userMachines.filter (· ≠ (userId, machineId)) })
  | .deleteBookmarks machineId =>
      (.ok (), { rows with userMachines := rows.userMachines.filter (·.2 ≠ machineId) })
  | .findScript name => (unique rows.scripts (·.name = name), rows)
  | .findScriptById scriptId => (unique rows.scripts (·.id = scriptId), rows)
  | .insertScript fields => rows.insertScript fields
  | .updateScript loaded fields =>
      rows.present rows.scripts (·.id = loaded.id) { rows with
        scripts := rows.scripts.map fun row =>
          if row.id = loaded.id then updatedScript loaded fields row else row }
  | .deleteScript scriptId =>
      (.ok (), { rows with scripts := rows.scripts.filter (·.id ≠ scriptId) })
  | .deleteTargetStates scriptId =>
      (.ok (), { rows with targetStates := rows.targetStates.filter (·.1.2 ≠ scriptId) })
  | .findTargetState machineId scriptId =>
      ((unique rows.targetStates (·.1 = (machineId, scriptId))).map fun row => row.map (·.2), rows)
  | .targetStatesOf machineId =>
      (.ok (rows.targetStates.filterMap fun row =>
        if row.1.1 = machineId then
          (rows.scripts.find? (·.id = row.1.2)).map fun script => (row.2, script)
        else none), rows)
  | .insertTargetState machineId scriptId state =>
      if rows.targetStates.any (·.1 = (machineId, scriptId)) then (.error .integrity, rows)
      else (.ok (), { rows with targetStates := rows.targetStates ++ [((machineId, scriptId), state)] })
  | .updateTargetState machineId scriptId loaded state =>
      rows.present rows.targetStates (·.1 = (machineId, scriptId)) { rows with
        targetStates := rows.targetStates.map fun row =>
          if row.1 = (machineId, scriptId) then (row.1, updatedTarget loaded state row.2) else row }
  | .findJob jobUuid => (unique rows.jobs (·.jobUuid = jobUuid), rows)
  | .findJobById id => (unique rows.jobs (·.id = id), rows)
  | .insertJob fields => rows.insertJob fields
  | .updateJob id update =>
      rows.present rows.jobs (·.id = id)
        { rows with jobs := rows.jobs.map fun row => if row.id = id then update.apply row else row }
  | .insertAudit entry => (.ok (), { rows with auditLog := rows.auditLog ++ [entry] })

/-- The awaits of a request on its database session, and the clock. -/
inductive Op where
  | query (statement : Statement)
  | commit
  /-- The end of `async with`: what is not committed is rolled back. -/
  | close
  | utcNow

abbrev Reply : Op → Type
  | .query statement => statement.Reply
  | .commit | .close => Unit
  | .utcNow => Nat

structure Shared where
  store : Store Rows
  /-- Seconds. -/
  now : Nat

def handle (connection : Nat) : Handler Op Reply Raised Shared
  | .query statement, s =>
    if statement.writes then
      if s.store.locked connection then (.error .databaseLocked, s)
      else
        let done := statement.run connection (s.store.view connection)
        (done.1, { s with store := s.store.write connection done.2 })
    else ((statement.run connection (s.store.view connection)).1, s)
  | .commit, s => (.ok (), { s with store := s.store.commit connection })
  | .close, s => (.ok (), { s with store := s.store.rollback connection })
  | .utcNow, s => (.ok s.now, s)

def tick (seconds : Nat) (s : Shared) : Shared := { s with now := s.now + seconds }

def opened (rows : Rows) (now : Nat) : Shared := ⟨⟨rows, none⟩, now⟩

abbrev Work := Proc Op Reply Raised

abbrev serve {A : Type} (work : Nat → Work A) :
    Proc.Pool Op Reply Raised A Shared → Proc.Turn Nat → Proc.Pool Op Reply Raised A Shared :=
  Proc.Pool.step work handle tick

def call (op : Op) : Work (Reply op) := Proc.perform op

def run (statement : Statement) : Work statement.Reply := call (.query statement)

def commit : Work Unit := call .commit

def utcNow : Work Nat := call .utcNow

/-- `async with` around a request's work: the session is closed whatever happens. -/
def withSession {A : Type} (work : Work A) : Work A := do
  let result ← tryCatch work fun e => do
    call .close
    throw e
  call .close
  return result

/-- `get_session` closes after the answer; `record_audit` flushes unless told to commit. -/
def recordAudit (action targetType targetId result : String) (userId : Option Nat)
    (details : List (String × String)) (commits : Bool) : Work Unit := do
  run (.insertAudit ⟨userId, action, targetType, targetId, result, details⟩)
  if commits then commit else pure ()

end Csl.Server.Session
