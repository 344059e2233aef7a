import Csl.Server.Api.Auth
import Csl.Server.Auth.Installation
import Csl.Server.Session.Specs
import Csl.Server.Web.Admin
import Csl.Server.Web.Auth

/-! That what users do is in the audit log.

A change and its audit row are in one transaction when the commit that publishes the change
publishes the row.
-/

set_option autoImplicit false

namespace Csl.Server.Session.Audited
open Csl.Shared Csl.Agent Transactions Proc Runs

inductive AuditRequest where
  | login (body : Api.LoginRequest) (jti : String)
  | webLogin (username password jti : String)
  | register (registration : Registration) (credentials : Option String)
  | webRegister (registration : Registration) (access : Option String)
  | deleteMachine (machineId : Nat) (credentials : Option String)
  | webDeleteMachine (machineId : Nat) (access : Option String)
  | addBookmark (machineId : Nat) (credentials : Option String)
  | removeBookmark (machineId : Nat) (credentials : Option String)
  | createScript (body : Api.ScriptIn) (credentials : Option String)
  | webCreateScript (name content metaYaml : String) (access : Option String)
  | updateScript (name : String) (body : Api.ScriptUpdateIn) (credentials : Option String)
  | webEditScript (name content metaYaml : String) (access : Option String)
  | deleteScript (name : String) (credentials : Option String)
  | webDeleteScript (name : String) (access : Option String)
  | webToggle (userId : Nat) (access : Option String)
  | webRole (userId : Nat) (role : String) (access : Option String)
  | submit (c : Conversation) (machineId : Nat) (body : Server.Api.SubmitJobIn) (jobUuid : String)
      (credentials : Option String)
  | webSubmit (c : Conversation) (machineId : Nat) (scriptName : String) (form : Script → Params)
      (jobUuid : String) (access : Option String)
  | kill (c : Conversation) (jobUuid : String) (credentials : Option String)
  | webKill (c : Conversation) (jobUuid : String) (access : Option String)

inductive Event where
  | request (request : AuditRequest)
  | wait (seconds : Nat)

variable (runtime : Runtime)

def AuditRequest.work : AuditRequest → Work Answer
  | .login body jti => Api.login runtime body jti
  | .webLogin username password jti => Web.loginSubmit runtime username password jti
  | .register registration credentials => Api.registerMachine runtime registration credentials
  | .webRegister registration access => Web.adminMachineNewSubmit runtime registration access
  | .deleteMachine machineId credentials => Api.deleteMachine runtime machineId credentials
  | .webDeleteMachine machineId access => Web.adminMachineDelete runtime machineId access
  | .addBookmark machineId credentials => Api.addBookmark runtime machineId credentials
  | .removeBookmark machineId credentials => Api.removeBookmark runtime machineId credentials
  | .createScript body credentials => Api.createScriptEndpoint runtime body credentials
  | .webCreateScript name content metaYaml access =>
      Web.adminScriptNewSubmit runtime name content metaYaml access
  | .updateScript name body credentials => Api.updateScriptEndpoint runtime name body credentials
  | .webEditScript name content metaYaml access =>
      Web.adminScriptEditSubmit runtime name content metaYaml access
  | .deleteScript name credentials => Api.deleteScriptEndpoint runtime name credentials
  | .webDeleteScript name access => Web.adminScriptDelete runtime name access
  | .webToggle userId access => Web.adminUserToggle runtime userId access
  | .webRole userId role access => Web.adminUserRole runtime userId role access
  | .submit c machineId body jobUuid credentials =>
      Api.submitJob runtime c machineId body jobUuid credentials
  | .webSubmit c machineId scriptName form jobUuid access =>
      Web.runSubmit runtime c machineId scriptName form jobUuid access
  | .kill c jobUuid credentials => Api.killJob runtime c jobUuid credentials
  | .webKill c jobUuid access => Web.killJobWeb runtime c jobUuid access

def step (s : Shared) : Event → Shared
  | .request request => ((withSession (request.work runtime)).run (handle 0) s).2
  | .wait seconds => tick seconds s

/-! ## What the audit log has to say -/

def AuditRequest.token : AuditRequest → Option String
  | .login .. | .webLogin .. => none
  | .register _ token | .webRegister _ token | .deleteMachine _ token | .webDeleteMachine _ token
  | .addBookmark _ token | .removeBookmark _ token | .createScript _ token | .webCreateScript _ _ _ token
  | .updateScript _ _ token | .webEditScript _ _ _ token | .deleteScript _ token | .webDeleteScript _ token
  | .webToggle _ token | .webRole _ _ token | .submit _ _ _ _ token | .webSubmit _ _ _ _ _ token
  | .kill _ _ token | .webKill _ _ token => token

/-- The action and the target of what a request does, by the rows that it commits. Nothing in the
program names the actions on users. -/
def AuditRequest.Tells (after : Rows) (entry : AuditEntry) : AuditRequest → Prop
  | .login .. | .webLogin .. => entry.action = "auth.login" ∧ entry.targetType = "user"
  | .register registration _ =>
      entry.action = "machine.register" ∧ entry.targetType = "machine" ∧
        ∃ machine ∈ after.machines, machine.name = registration.body.name ∧ entry.targetId = toString machine.id
  | .webRegister registration _ =>
      entry.action = "machine.register" ∧ entry.targetType = "machine" ∧
        ∃ machine ∈ after.machines, machine.name = (Web.submitted registration).body.name ∧
          entry.targetId = toString machine.id
  | .deleteMachine machineId _ | .webDeleteMachine machineId _ =>
      entry.action = "machine.delete" ∧ entry.targetType = "machine" ∧ entry.targetId = toString machineId
  | .addBookmark machineId _ =>
      entry.action = "machine.bookmark" ∧ entry.targetType = "machine" ∧ entry.targetId = toString machineId
  | .removeBookmark machineId _ =>
      entry.action = "machine.unbookmark" ∧ entry.targetType = "machine" ∧ entry.targetId = toString machineId
  | .createScript body _ =>
      entry.action = "script.create" ∧ entry.targetType = "script" ∧ entry.targetId = body.name
  | .webCreateScript name _ _ _ =>
      entry.action = "script.create" ∧ entry.targetType = "script" ∧ entry.targetId = name
  | .updateScript name _ _ | .webEditScript name _ _ _ =>
      entry.action = "script.update" ∧ entry.targetType = "script" ∧ entry.targetId = name
  | .deleteScript name _ | .webDeleteScript name _ =>
      entry.action = "script.delete" ∧ entry.targetType = "script" ∧ entry.targetId = name
  | .webToggle userId _ | .webRole userId _ _ =>
      entry.targetType = "user" ∧ entry.targetId = toString userId
  | .submit _ _ _ jobUuid _ | .webSubmit _ _ _ _ jobUuid _ =>
      entry.action = "job.submit" ∧ entry.targetType = "job" ∧ entry.targetId = jobUuid
  | .kill _ jobUuid _ | .webKill _ jobUuid _ =>
      entry.action = "job.kill" ∧ entry.targetType = "job" ∧ entry.targetId = jobUuid

def Changed (before after : Rows) : Prop :=
  after.users ≠ before.users ∨ after.machines ≠ before.machines ∨ after.userMachines ≠ before.userMachines ∨
    after.scripts ≠ before.scripts ∨ after.jobs ≠ before.jobs

instance (before after : Rows) : Decidable (Changed before after) := inferInstanceAs (Decidable (_ ∨ _))

def newEntries (before after : Rows) : List AuditEntry := after.auditLog.drop before.auditLog.length

/-- A change comes with an audit row of the acting user. -/
def Accompanied (now : Nat) (request : AuditRequest) (before after : Rows) : Prop :=
  Changed before after → ∃ entry ∈ newEntries before after,
    entry.userId = request.token.bind (decodeAccessToken runtime now) ∧ request.Tells after entry

def AuditRequest.loginName : AuditRequest → Option String
  | .login body _ => some body.username
  | .webLogin username _ _ => some username
  | _ => none

/-- There is a new audit row of the attempt, with the user of that name. -/
def Attempted (username : String) (before after : Rows) : Prop :=
  ∃ entry ∈ newEntries before after, entry.action = "auth.login" ∧ entry.targetType = "user" ∧
    ∀ user ∈ before.users, user.username = username →
      entry.userId = some user.id ∧ entry.targetId = toString user.id

def IsCommit : Op → Prop
  | .commit => True
  | .query _ | .close | .utcNow => False

instance : DecidablePred IsCommit
  | .commit => isTrue trivial
  | .query _ | .close | .utcNow => isFalse id

def commits (s : Shared) (request : AuditRequest) : List (Rows × Rows) :=
  ((withSession (request.work runtime)).stops (handle 0) IsCommit s).map fun stop =>
    (stop.store.committed, stop.store.view 0)

/-- All that a request commits is in the audit log, and so is every attempt to log in. -/
structure Complete (s : Shared) (request : AuditRequest) : Prop where
  changes : ∀ commit ∈ commits runtime s request, Accompanied runtime s.now request commit.1 commit.2
  attempts : ∀ username ∈ request.loginName, Attempted username s.store.committed
    (step runtime s (.request request)).store.committed ∧
      ∀ commit ∈ commits runtime s request, Attempted username commit.1 commit.2

/-! ## The routes that write no audit row -/

/-- What `sync_script` resolves to when the agent answers so. -/
def Resolves (c : Conversation) (round : Nat) (script : Script) (resolved : TargetState) : Prop :=
  ∃ found, c.state round script.name = .ok found ∧
    if NeedsStaging script found then ∃ staged, c.staged round = .ok staged ∧ resolved = .agent staged
    else resolved = resolve script found

structure Takes (c : Conversation) (script : Script) : Prop where
  key : c.key = .ok ()
  opened : c.opened = .ok ()
  ensured : c.ensured = .ok ()
  approved : Resolves c 0 script (.agent .approved)
  submitted : ∃ answer, c.submitted = .ok answer
  closed : c.closed = .ok ()

structure Kills (c : Conversation) : Prop where
  key : c.key = .ok ()
  opened : c.opened = .ok ()
  killed : c.killed = .ok ()
  closed : c.closed = .ok ()

/-- A login, or a change, of a route that writes no audit row. -/
def Unaudited (now : Nat) (rows : Rows) : AuditRequest → Prop
  -- The JSON login writes its row after the password check, if that does not raise.
  | .login body _ =>
      ∃ user ∈ rows.users, user.username = body.username ∧ user.disabled = false ∧
        runtime.verifyPassword body.password user.passwordHash = none
  | .webLogin .. => True
  | .webDeleteMachine machineId token =>
      Admits runtime now rows token ∧ ∃ machine ∈ rows.machines, machine.id = machineId
  | .webCreateScript name _ metaYaml token =>
      Admits runtime now rows token ∧ (∀ script ∈ rows.scripts, script.name ≠ name) ∧
        validateMeta runtime.toPlatform (Web.submittedMeta metaYaml) = .ok ()
  | .webEditScript name content metaYaml token =>
      ∃ admin ∈ rows.users, SignedIn runtime now rows token admin ∧ admin.role = .admin ∧
        ∃ script ∈ rows.scripts, script.name = name ∧
          validateMeta runtime.toPlatform (Web.submittedMeta metaYaml) = .ok () ∧
          (versionFields runtime script.name content (Web.submittedMeta metaYaml) admin.id
            (runtime.timestamp now)).row script.id ≠ script
  | .webDeleteScript name token =>
      Admits runtime now rows token ∧ ∃ script ∈ rows.scripts, script.name = name
  | .webToggle userId token =>
      ∃ admin ∈ rows.users, SignedIn runtime now rows token admin ∧ admin.role = .admin ∧
        ∃ target ∈ rows.users, target.id = userId ∧ target.id ≠ admin.id
  | .webRole userId role token =>
      ∃ admin ∈ rows.users, SignedIn runtime now rows token admin ∧ admin.role = .admin ∧
        ∃ newRole ∈ Web.roleOf role, ∃ target ∈ rows.users, target.id = userId ∧
          target.id ≠ admin.id ∧ newRole ≠ target.role
  | .webSubmit c machineId scriptName _ jobUuid token =>
      (∃ user ∈ rows.users, SignedIn runtime now rows token user ∧
        (user.role = .admin ∨ (user.id, machineId) ∈ rows.userMachines)) ∧
        (∃ machine ∈ rows.machines, machine.id = machineId) ∧ (∀ job ∈ rows.jobs, job.jobUuid ≠ jobUuid) ∧
        ∃ script ∈ rows.scripts, script.name = scriptName ∧ Takes c script
  | .webKill c jobUuid token =>
      (∃ user ∈ rows.users, SignedIn runtime now rows token user) ∧ Kills c ∧
        ∃ job ∈ rows.jobs, job.jobUuid = jobUuid ∧ (∃ machine ∈ rows.machines, machine.id = job.machineId) ∧
          Server.Api.killOf job (runtime.timestamp now) ≠ {}
  | _ => False

def Audits (s : Shared) : Event → Prop
  | .request request => ¬ Unaudited runtime s.now s.store.committed request
  | .wait _ => True

/-! ## What a commit publishes -/

/-- What every commit of a request has to meet. -/
def Publishes (now : Nat) (request : AuditRequest) (before after : Rows) : Prop :=
  Accompanied runtime now request before after ∧
    ∀ username ∈ request.loginName, Attempted username before after

abbrev Any {A : Type} : Except Raised A → Rows → Rows → Prop := fun _ _ _ => True

structure Unchanged (before after : Rows) : Prop where
  users : after.users = before.users
  machines : after.machines = before.machines
  userMachines : after.userMachines = before.userMachines
  scripts : after.scripts = before.scripts
  jobs : after.jobs = before.jobs
  auditLog : after.auditLog = before.auditLog

section
variable {runtime} {now : Nat} {request : AuditRequest} {before after : Rows} {entry : AuditEntry}

theorem Unchanged.refl (rows : Rows) : Unchanged rows rows := ⟨rfl, rfl, rfl, rfl, rfl, rfl⟩

theorem newEntries_append (log : after.auditLog = before.auditLog ++ [entry]) : entry ∈ newEntries before after := by
  unfold newEntries
  rw [log, List.drop_left]
  exact List.mem_singleton_self entry

theorem publishes_entry (noLogin : request.loginName = none)
    (log : after.auditLog = before.auditLog ++ [entry])
    (acting : entry.userId = request.token.bind (decodeAccessToken runtime now))
    (tells : request.Tells after entry) : Publishes runtime now request before after := by
  constructor
  · intro _
    exact ⟨entry, newEntries_append log, acting, tells⟩
  · rw [noLogin]
    intro username none
    cases none

theorem publishes_same (noLogin : request.loginName = none) (users : after.users = before.users)
    (machines : after.machines = before.machines) (userMachines : after.userMachines = before.userMachines)
    (scripts : after.scripts = before.scripts) (jobs : after.jobs = before.jobs) :
    Publishes runtime now request before after := by
  constructor
  · rintro (changed | changed | changed | changed | changed)
    · exact absurd users changed
    · exact absurd machines changed
    · exact absurd userMachines changed
    · exact absurd scripts changed
    · exact absurd jobs changed
  · rw [noLogin]
    intro username none
    cases none

theorem Unchanged.publishes (unchanged : Unchanged before after) (noLogin : request.loginName = none) :
    Publishes runtime now request before after :=
  publishes_same noLogin unchanged.users unchanged.machines unchanged.userMachines unchanged.scripts
    unchanged.jobs

end

/-! ## The routes -/

section
variable {runtime} {now : Nat} {rows : Rows} {token : Option String}

theorem does_register (registration : Registration) :
    Does (Publishes runtime now (.register registration token)) now Any
      (Api.registerMachine runtime registration token) rows rows := by
  apply does_requireAdmin
  · intro admin signedIn _
    apply does_registerMachineFromInput
    · intro machine after named _ added
      subst added
      refine ⟨publishes_entry rfl rfl signedIn.token.symm ?_, fun _ => does_pure trivial, fun _ => trivial⟩
      exact ⟨rfl, rfl, machine, List.mem_append_right _ (List.mem_singleton_self _), named, rfl⟩
    · exact fun _ => trivial
  · exact fun _ => trivial

theorem does_caught {A : Type} {publishes : Rows → Rows → Prop} {committed view : Rows} {work : Work A}
    {recover : Raised → Work A} (does : Does publishes now Any work committed view)
    (recovers : ∀ e committed view, Does publishes now Any (recover e) committed view) :
    Does publishes now Any (MonadExcept.tryCatch work recover) committed view := by
  apply does_tryCatch
  apply does.mono
  intro result committed view _
  cases result with
  | ok a => trivial
  | error e => exact recovers e committed view

theorem does_webRegister (registration : Registration) :
    Does (Publishes runtime now (.webRegister registration token)) now Any
      (Web.adminMachineNewSubmit runtime registration token) rows rows := by
  apply does_webRequireAdmin
  · intro admin signedIn _
    apply does_caught
    · apply does_registerMachineFromInput
      · intro machine after named _ added
        subst added
        refine ⟨publishes_entry rfl rfl signedIn.token.symm ?_, fun _ => does_pure trivial, fun _ => trivial⟩
        exact ⟨rfl, rfl, machine, List.mem_append_right _ (List.mem_singleton_self _), named, rfl⟩
      · exact fun _ => trivial
    · intro e committed view
      cases e with
      | http => exact does_pure trivial
      | _ => exact does_throw trivial
  · exact fun _ => trivial

theorem does_audited {A : Type} {request : AuditRequest} {committed view : Rows} {user : Account}
    {action targetType targetId : String} {details : List (String × String)} {next : Unit → Work A}
    (noLogin : request.loginName = none) (log : view.auditLog = committed.auditLog)
    (acting : request.token.bind (decodeAccessToken runtime now) = some user.id)
    (tells : ∀ after, request.Tells after ⟨some user.id, action, targetType, targetId, "success", details⟩)
    (onward : ∀ after, Does (Publishes runtime now request) now Any (next ()) after after) :
    Does (Publishes runtime now request) now Any
      (recordAudit action targetType targetId "success" (some user.id) details false >>= fun _ =>
        commit >>= next) committed view := by
  apply does_recordAudit
  apply does_commit
  · exact publishes_entry noLogin (by rw [log]) acting.symm (tells _)
  · exact onward _

theorem does_deleteMachine (machineId : Nat) :
    Does (Publishes runtime now (.deleteMachine machineId token)) now Any
      (Api.deleteMachine runtime machineId token) rows rows := by
  apply does_requireAdmin
  · intro admin signedIn _
    apply does_getMachineOr404
    · intro _ _ _
      apply does_run
      · intro _ _
        apply does_select rfl
        · intro found _
          cases found with
          | none => exact does_throw trivial
          | some machine =>
            apply does_run
            · intro _ _
              exact does_audited rfl rfl signedIn.token (fun _ => ⟨rfl, rfl, rfl⟩) fun _ => does_pure trivial
            · exact fun _ _ => trivial
        · exact fun _ => trivial
      · exact fun _ _ => trivial
    · exact fun _ => trivial
  · exact fun _ => trivial

theorem does_addBookmark (machineId : Nat) :
    Does (Publishes runtime now (.addBookmark machineId token)) now Any
      (Api.addBookmark runtime machineId token) rows rows := by
  apply does_currentUser
  · intro user signedIn
    apply does_getMachineOr404
    · intro _ _ _
      apply does_select rfl
      · intro bookmarked _
        split_ifs
        · exact does_pure trivial
        · apply does_run
          · intro _ inserted
            apply does_audited
            · rfl
            · simp only [Statement.run]
              split_ifs <;> rfl
            · exact signedIn.token
            · exact fun _ => ⟨rfl, rfl, rfl⟩
            · exact fun _ => does_pure trivial
          · exact fun _ _ => trivial
      · exact fun _ => trivial
    · exact fun _ => trivial
  · exact fun _ => trivial

theorem does_removeBookmark (machineId : Nat) :
    Does (Publishes runtime now (.removeBookmark machineId token)) now Any
      (Api.removeBookmark runtime machineId token) rows rows := by
  apply does_currentUser
  · intro user signedIn
    apply does_getMachineOr404
    · intro _ _ _
      apply does_run
      · intro _ _
        exact does_audited rfl rfl signedIn.token (fun _ => ⟨rfl, rfl, rfl⟩) fun _ => does_pure trivial
      · exact fun _ _ => trivial
    · exact fun _ => trivial
  · exact fun _ => trivial

theorem does_answerRegistry {publishes : Rows → Rows → Prop} {committed view : Rows}
    {status : RegistryError → Nat} {work : Work Answer} (does : Does publishes now Any work committed view) :
    Does publishes now Any (Api.answerRegistry runtime status work) committed view := by
  apply does_caught does
  intro e committed view
  cases e <;> exact does_throw trivial

theorem does_apiCreateScript (body : Api.ScriptIn) :
    Does (Publishes runtime now (.createScript body token)) now Any
      (Api.createScriptEndpoint runtime body token) rows rows := by
  apply does_requireAdmin
  · intro admin signedIn _
    apply does_answerRegistry
    apply does_createScript
    · intro _ _
      apply does_insertScript
      · intro script named _
        apply does_audited
        · rfl
        · rfl
        · exact signedIn.token
        · exact fun _ => ⟨rfl, rfl, named⟩
        · intro after
          apply does_refreshScript
          · exact fun _ => does_pure trivial
          · exact fun _ => trivial
      · exact fun _ => trivial
    · exact fun _ => trivial
  · exact fun _ => trivial

theorem does_flushUpdate {A : Type} {publishes : Rows → Rows → Prop} {committed view : Rows} {loaded : Script}
    {fields : ScriptFields} {next : Unit → Work A}
    (unwritten : Does publishes now Any (next ()) committed view)
    (written : ∀ after, fields.row loaded.id ≠ loaded → after.auditLog = view.auditLog →
      Does publishes now Any (next ()) committed after) :
    Does publishes now Any (flushUpdate loaded fields >>= next) committed view := by
  apply does_bind
  rw [flushUpdate]
  split_ifs with same
  · exact does_pure unwritten
  · apply does_statement
    generalize answered : (Statement.run 0 view (.updateScript loaded fields)).1 = answer
    cases answer with
    | error e => trivial
    | ok _ =>
      apply written _ same
      simp only [Statement.run, Rows.present]
      split_ifs <;> rfl

theorem does_apiUpdateScript (name : String) (body : Api.ScriptUpdateIn) :
    Does (Publishes runtime now (.updateScript name body token)) now Any
      (Api.updateScriptEndpoint runtime name body token) rows rows := by
  apply does_requireAdmin
  · intro admin signedIn _
    apply does_answerRegistry
    apply does_updateScript
    · intro script _ named _
      have audited : ∀ after : Rows, after.auditLog = rows.auditLog →
          Does (Publishes runtime now (.updateScript name body token)) now Any (do
            recordAudit "script.update" "script" script.name "success" (some admin.id)
              [("md5", (versionFields runtime script.name body.content body.metaYaml admin.id
                (runtime.timestamp now)).md5)] false
            commit
            return Answer.script (← Api.refreshScript script)) rows after := by
        intro after log
        apply does_audited
        · rfl
        · exact log
        · exact signedIn.token
        · exact fun _ => ⟨rfl, rfl, named⟩
        · intro after
          apply does_refreshScript
          · exact fun _ => does_pure trivial
          · exact fun _ => trivial
      apply does_flushUpdate
      · exact audited rows rfl
      · exact fun after _ log => audited after log
    · exact fun _ => trivial
  · exact fun _ => trivial

theorem does_apiDeleteScript (name : String) :
    Does (Publishes runtime now (.deleteScript name token)) now Any
      (Api.deleteScriptEndpoint runtime name token) rows rows := by
  apply does_requireAdmin
  · intro admin signedIn _
    apply does_answerRegistry
    apply does_deleteScript
    · intro script _ _
      apply does_run
      · intro _ _
        exact does_audited rfl rfl signedIn.token (fun _ => ⟨rfl, rfl, rfl⟩) fun _ => does_pure trivial
      · exact fun _ _ => trivial
    · exact fun _ => trivial
  · exact fun _ => trivial

/-! ## The routes that write no audit row change nothing otherwise -/

theorem does_webDeleteMachine {machineId : Nat}
    (audits : ¬ Unaudited runtime now rows (.webDeleteMachine machineId token)) :
    Does (Publishes runtime now (.webDeleteMachine machineId token)) now Any
      (Web.adminMachineDelete runtime machineId token) rows rows := by
  apply does_webRequireAdmin
  · intro admin signedIn role
    apply does_select rfl
    · intro found answered
      cases found with
      | none => exact does_pure trivial
      | some machine =>
        obtain ⟨member, same⟩ := unique_some answered
        exact absurd ⟨⟨admin, signedIn.member, signedIn, role⟩, machine, member, of_decide_eq_true same⟩ audits
    · exact fun _ => trivial
  · exact fun _ => trivial

theorem does_webCreateScript {name content metaYaml : String}
    (audits : ¬ Unaudited runtime now rows (.webCreateScript name content metaYaml token)) :
    Does (Publishes runtime now (.webCreateScript name content metaYaml token)) now Any
      (Web.adminScriptNewSubmit runtime name content metaYaml token) rows rows := by
  apply does_webRequireAdmin
  · intro admin signedIn role
    apply does_caught
    · apply does_createScript
      · intro free valid
        exact absurd ⟨⟨admin, signedIn.member, signedIn, role⟩, free, valid⟩ audits
      · exact fun _ => trivial
    · intro e committed view
      cases e with
      | registry => exact does_pure trivial
      | _ => exact does_throw trivial
  · exact fun _ => trivial

theorem does_webEditScript {name content metaYaml : String}
    (audits : ¬ Unaudited runtime now rows (.webEditScript name content metaYaml token)) :
    Does (Publishes runtime now (.webEditScript name content metaYaml token)) now Any
      (Web.adminScriptEditSubmit runtime name content metaYaml token) rows rows := by
  apply does_webRequireAdmin
  · intro admin signedIn role
    apply does_caught
    · apply does_updateScript
      · intro script member named valid
        apply does_flushUpdate
        · apply does_commit
          · exact (Unchanged.refl rows).publishes rfl
          · exact does_pure trivial
        · intro _ differs _
          exact absurd ⟨admin, signedIn.member, signedIn, role, script, member, named, valid, differs⟩ audits
      · exact fun _ => trivial
    · intro e committed view
      cases e with
      | registry =>
        apply does_select rfl
        · intro shown _
          cases shown <;> exact does_pure trivial
        · exact fun _ => trivial
      | _ => exact does_throw trivial
  · exact fun _ => trivial

theorem does_webDeleteScript {name : String} (audits : ¬ Unaudited runtime now rows (.webDeleteScript name token)) :
    Does (Publishes runtime now (.webDeleteScript name token)) now Any
      (Web.adminScriptDelete runtime name token) rows rows := by
  apply does_webRequireAdmin
  · intro admin signedIn role
    apply does_caught
    · apply does_deleteScript
      · intro script member named
        exact absurd ⟨⟨admin, signedIn.member, signedIn, role⟩, script, member, named⟩ audits
      · exact fun _ => trivial
    · intro e committed view
      cases e with
      | registry => exact does_pure trivial
      | _ => exact does_throw trivial
  · exact fun _ => trivial

theorem does_webToggle {userId : Nat} (audits : ¬ Unaudited runtime now rows (.webToggle userId token)) :
    Does (Publishes runtime now (.webToggle userId token)) now Any
      (Web.adminUserToggle runtime userId token) rows rows := by
  apply does_webRequireAdmin
  · intro admin signedIn role
    apply does_select rfl
    · intro found answered
      cases found with
      | none => exact does_pure trivial
      | some target =>
        rw [Option.map_some]
        dsimp only
        by_cases own : target.id = admin.id
        · rw [Web.heldOr_own own, if_pos rfl]
          exact does_pure trivial
        · obtain ⟨member, same⟩ := unique_some answered
          exact absurd ⟨admin, signedIn.member, signedIn, role, target, member, of_decide_eq_true same, own⟩ audits
    · exact fun _ => trivial
  · exact fun _ => trivial

theorem does_webRole {userId : Nat} {role : String}
    (audits : ¬ Unaudited runtime now rows (.webRole userId role token)) :
    Does (Publishes runtime now (.webRole userId role token)) now Any
      (Web.adminUserRole runtime userId role token) rows rows := by
  apply does_webRequireAdmin
  · intro admin signedIn isAdmin
    cases known : Web.roleOf role with
    | none => exact does_pure trivial
    | some newRole =>
      apply does_select rfl
      · intro found answered
        cases found with
        | none => exact does_pure trivial
        | some target =>
          have commits : ∀ answer : Answer, Does (Publishes runtime now (.webRole userId role token)) now Any
              (commit >>= fun _ => pure answer) rows rows := by
            intro answer
            exact does_commit ((Unchanged.refl rows).publishes rfl) (does_pure trivial)
          rw [Option.map_some]
          dsimp only
          by_cases own : target.id = admin.id
          · rw [Web.heldOr_own own]
            split_ifs with demotes same
            · exact does_pure trivial
            · exact commits _
            · -- The administrator's role, as it was loaded, is the new one.
              have stays : newRole = .admin := by
                by_contra other
                exact demotes ⟨rfl, other⟩
              exact absurd (stays.trans isAdmin.symm) same
          · rw [Web.heldOr_other own, if_neg fun demotes => own demotes.1]
            split_ifs with same
            · exact commits _
            · obtain ⟨member, identified⟩ := unique_some answered
              exact absurd ⟨admin, signedIn.member, signedIn, isAdmin, newRole, known, target, member,
                of_decide_eq_true identified, own, same⟩ audits
      · exact fun _ => trivial
  · exact fun _ => trivial

end

/-! ## Jobs -/

section
variable {runtime} {now : Nat} {rows committed view : Rows} {token : Option String} {A B : Type}
  {publishes : Rows → Rows → Prop} {c : Conversation}

def Through (publishes : Rows → Rows → Prop) (now : Nat) (c : Conversation)
    (ends : Except Raised A → Rows → Rows → Prop) (next : B → Work A) : Except Raised B → Rows → Rows → Prop
  | .ok b => fun committed view => c.closed = .ok () → Does publishes now ends (next b) committed view
  | .error _ => fun _ _ => True

theorem does_withAgent {ends : Except Raised A → Rows → Rows → Prop} {body : Work B} {next : B → Work A}
    (does : c.opened = .ok () → Does publishes now (Through publishes now c ends next) body committed view)
    (fails : ∀ e committed view, ends (.error e) committed view) :
    Does publishes now ends (withAgent c body >>= next) committed view := by
  apply does_bind
  apply does_hear
  · intro _ opened
    apply does_bind
    apply does_tryCatch
    apply (does opened).mono
    intro result committed view ended
    cases result with
    | ok b =>
      apply does_hear
      · exact fun _ closed => does_pure (ended closed)
      · exact fun e => fails e _ _
    | error e =>
      apply does_hear
      · exact fun _ _ => does_throw (fails e _ _)
      · exact fun e => fails e _ _
  · exact fun e => fails e _ _

theorem does_flush {ends : Except Raised A → Rows → Rows → Prop} {change : TargetChange} {next : Unit → Work A}
    (onward : ∀ after, Unchanged view after → Does publishes now ends (next ()) committed after)
    (fails : ∀ e committed view, ends (.error e) committed view) :
    Does publishes now ends (change.flush >>= next) committed view := by
  apply does_bind
  rw [TargetChange.flush]
  split
  · apply does_statement
    generalize answered : (Statement.run 0 view (.insertTargetState change.machineId change.scriptId
      change.state)).1 = answer
    cases answer with
    | error e => exact fails e _ _
    | ok _ =>
      apply onward
      simp only [Statement.run]
      split_ifs <;> exact ⟨rfl, rfl, rfl, rfl, rfl, rfl⟩
  next loaded _ =>
    split_ifs
    · exact does_pure (onward view (Unchanged.refl view))
    · apply does_statement
      generalize answered : (Statement.run 0 view (.updateTargetState change.machineId change.scriptId loaded
        change.state)).1 = answer
      cases answer with
      | error e => exact fails e _ _
      | ok _ =>
        apply onward
        simp only [Statement.run, Rows.present]
        split_ifs <;> exact ⟨rfl, rfl, rfl, rfl, rfl, rfl⟩

theorem does_syncAndCommit {ends : Except Raised A → Rows → Rows → Prop} {round : Nat} {machine : Machine}
    {script : Script} {next : TargetState → Work A}
    (publish : ∀ after, Unchanged view after → publishes committed after)
    (onward : ∀ resolved after, Resolves c round script resolved → Unchanged view after →
      Does publishes now ends (next resolved) after after)
    (fails : ∀ e committed view, ends (.error e) committed view) :
    Does publishes now ends (syncAndCommit runtime c round machine script >>= next) committed view := by
  -- staged or not, the cached row is written and committed
  have writes : ∀ resolved change, Resolves c round script resolved →
      Does publishes now (Onward publishes now ends next) (do
        TargetChange.flush change
        commit
        return resolved) committed view := by
    intro resolved change resolves
    apply does_flush
    · intro after unchanged
      apply does_commit (publish after unchanged)
      exact does_pure (onward resolved after resolves unchanged)
    · exact fails
  apply does_bind
  apply does_bind
  apply does_hear
  · intro found described
    have upserts : ∀ resolved, Resolves c round script resolved →
        Does publishes now (Onward publishes now (Onward publishes now ends next)
            fun (upserted : TargetState × TargetChange) => do
              upserted.2.flush
              commit
              return upserted.1) (do
          let change ← upsertState runtime machine.id script.id resolved found
          return (resolved, change)) committed view := by
      intro resolved resolves
      apply does_bind
      apply does_select rfl
      · intro loaded _
        apply does_utcNow
        apply does_pure
        apply does_pure
        exact writes resolved _ resolves
      · exact fun e => fails e _ _
    dsimp only
    split_ifs with stages
    · apply does_hear
      · intro staged answered
        apply upserts
        refine ⟨found, described, ?_⟩
        rw [if_pos stages]
        exact ⟨staged, answered, rfl⟩
      · exact fun e => fails e _ _
    · apply upserts
      refine ⟨found, described, ?_⟩
      rw [if_neg stages]
  · exact fun e => fails e _ _

theorem Unchanged.trans {first second third : Rows} (one : Unchanged first second)
    (two : Unchanged second third) : Unchanged first third where
  users := two.users.trans one.users
  machines := two.machines.trans one.machines
  userMachines := two.userMachines.trans one.userMachines
  scripts := two.scripts.trans one.scripts
  jobs := two.jobs.trans one.jobs
  auditLog := two.auditLog.trans one.auditLog

theorem does_refusal {request : AuditRequest} (noLogin : request.loginName = none) {next : JobStatusResponse → Work A}
    {machine : Machine} {script : Script} {scriptName : String} (e : Raised) :
    Does (Publishes runtime now request) now (Through (Publishes runtime now request) now c Any next)
      (Api.refusal runtime c machine script scriptName e) view view := by
  unfold Api.refusal
  split
  · exact does_throw trivial
  · apply does_syncAndCommit
    · exact fun after unchanged => unchanged.publishes noLogin
    · exact fun _ _ _ _ => does_throw trivial
    · exact fun _ _ _ => trivial
  · exact does_throw trivial
  · exact does_throw trivial
  · exact does_throw trivial

theorem does_submit {machineId : Nat} {body : Server.Api.SubmitJobIn} {jobUuid : String} :
    Does (Publishes runtime now (.submit c machineId body jobUuid token)) now Any
      (Api.submitJob runtime c machineId body jobUuid token) rows rows := by
  apply does_currentUser
  · intro user signedIn
    apply does_getMachineOr404
    · intro machine _ _
      apply does_assertAccess
      · intro _
        apply does_getScriptOr404
        · intro script _ _
          apply does_hear
          · intro _ _
            -- From the agent's answer on, whatever the rows are by then.
            have records : ∀ answer after, Does (Publishes runtime now (.submit c machineId body jobUuid token))
                now Any (do
                  let job ← run (.insertJob
                    (Server.Api.jobFields user.toUser machineId script body.params jobUuid answer))
                  recordAudit "job.submit" "job" jobUuid "success" (some user.id)
                    [("machine_id", toString machineId), ("script", body.scriptName),
                      ("persistent", toString script.persistent)] false
                  commit
                  return Answer.job (← refreshJob job)) after after := by
              intro answer after
              apply does_run
              · intro job _
                apply does_audited
                · rfl
                · simp only [Statement.run, Rows.insertJob]
                  split_ifs <;> rfl
                · exact signedIn.token
                · exact fun _ => ⟨rfl, rfl, rfl⟩
                · intro after
                  apply does_bind
                  apply does_select rfl
                  · intro found _
                    cases found with
                    | none => exact does_throw trivial
                    | some fresh => exact does_pure (does_pure trivial)
                  · exact fun _ => trivial
              · exact fun _ _ => trivial
            apply does_withAgent
            · intro _
              apply does_hear
              · intro _ _
                apply does_syncAndCommit
                · exact fun after unchanged => unchanged.publishes rfl
                · intro resolved after _ _
                  split_ifs
                  · apply does_recordAudit_commit rfl
                    · exact publishes_same rfl rfl rfl rfl rfl rfl
                    · exact does_throw trivial
                  · apply does_tryCatch
                    cases submitted : c.submitted with
                    | ok answer => exact does_pure fun _ => records answer after
                    | error e => exact does_throw (does_refusal rfl _)
                · exact fun _ _ _ => trivial
              · exact fun _ => trivial
            · exact fun _ _ _ => trivial
          · exact fun _ => trivial
        · exact fun _ => trivial
      · exact fun _ => trivial
    · exact fun _ => trivial
  · exact fun _ => trivial

theorem does_kill {jobUuid : String} :
    Does (Publishes runtime now (.kill c jobUuid token)) now Any (Api.killJob runtime c jobUuid token) rows rows := by
  apply does_currentUser
  · intro user signedIn
    apply does_getJobOr404
    · intro job _ _
      split_ifs
      · exact does_throw trivial
      · apply does_getMachineOr404
        · intro _ _ _
          apply does_hear
          · intro _ _
            -- the audit row is written whatever has become of the job's row
            have records : ∀ after : Rows, after.auditLog = rows.auditLog →
                Does (Publishes runtime now (.kill c jobUuid token)) now Any (do
                  recordAudit "job.kill" "job" jobUuid "success" (some user.id)
                    [("machine_id", toString job.machineId)] false
                  commit
                  return Answer.noContent) rows after := by
              intro after log
              apply does_audited
              · rfl
              · exact log
              · exact signedIn.token
              · exact fun _ => ⟨rfl, rfl, rfl⟩
              · exact fun _ => does_pure trivial
            apply does_withAgent
            · intro _
              cases c.killed with
              | error e => exact does_throw trivial
              | ok _ =>
                apply does_pure
                intro _
                apply does_utcNow
                apply does_bind
                rw [flushJob]
                split_ifs
                · exact does_pure (records rows rfl)
                · apply does_statement
                  generalize answered : (Statement.run 0 rows (.updateJob job.id
                    (Server.Api.killOf job (runtime.timestamp now)))).1 = answer
                  cases answer with
                  | error e => trivial
                  | ok _ =>
                    apply records
                    simp only [Statement.run, Rows.present]
                    split_ifs <;> rfl
            · exact fun _ _ _ => trivial
          · exact fun _ => trivial
        · exact fun _ => trivial
    · exact fun _ => trivial
  · exact fun _ => trivial

theorem does_webSubmit {machineId : Nat} {scriptName : String} {form : Script → Params} {jobUuid : String}
    (audits : ¬ Unaudited runtime now rows (.webSubmit c machineId scriptName form jobUuid token)) :
    Does (Publishes runtime now (.webSubmit c machineId scriptName form jobUuid token)) now Any
      (Web.runSubmit runtime c machineId scriptName form jobUuid token) rows rows := by
  apply does_webCurrentUser
  · intro user signedIn
    apply does_getMachineOr404
    · intro machine hasMachine identified
      apply does_assertAccess
      · intro access
        apply does_getScriptOr404
        · intro script hasScript named
          apply does_hear
          · intro _ key
            -- The agent has taken the job: it cannot be written without the audit row.
            have refuses : ∀ answer after, Takes c script → Unchanged rows after →
                (Statement.run 0 after (.insertJob
                  (Server.Api.jobFields user.toUser machineId script (form script) jobUuid answer))).1.isOk = false := by
              intro answer after runs unchanged
              by_contra inserted
              refine audits ⟨⟨user, signedIn.member, signedIn, access⟩, ⟨machine, hasMachine, identified⟩, ?_,
                script, hasScript, named, runs⟩
              intro job member same
              rw [← unchanged.jobs] at member
              apply inserted
              change (Rows.insertJob after _).1.isOk = false
              rw [insertJob_taken member same]
              rfl
            apply does_bind
            apply does_tryCatch
            rw [← bind_pure (withAgent c _)]
            apply does_withAgent
            · intro opened
              apply does_hear
              · intro _ ensured
                apply does_syncAndCommit
                · exact fun after unchanged => unchanged.publishes rfl
                · intro resolved after resolves unchanged
                  split_ifs with approved
                  · exact does_pure fun _ => does_pure (does_pure trivial)
                  · apply does_hear
                    · intro answer submitted
                      apply does_pure
                      intro closed
                      apply does_pure
                      obtain rfl := not_not.mp approved
                      have runs : Takes c script := ⟨key, opened, ensured, resolves, ⟨answer, submitted⟩, closed⟩
                      have refused := refuses answer after runs unchanged
                      apply does_run
                      · intro job inserted
                        rw [inserted] at refused
                        cases refused
                      · exact fun _ _ => trivial
                    · exact fun _ => trivial
                · exact fun _ _ _ => trivial
              · exact fun _ => trivial
            · intro e committed view
              cases e with
              | client e =>
                dsimp only [Rescued]
                split_ifs
                · exact does_pure (does_pure trivial)
                · exact does_throw trivial
              | _ => exact does_throw trivial
          · exact fun _ => trivial
        · exact fun _ => trivial
      · exact fun _ => trivial
    · exact fun _ => trivial
  · exact fun _ => trivial

theorem does_webKill {jobUuid : String} (audits : ¬ Unaudited runtime now rows (.webKill c jobUuid token)) :
    Does (Publishes runtime now (.webKill c jobUuid token)) now Any
      (Web.killJobWeb runtime c jobUuid token) rows rows := by
  apply does_webCurrentUser
  · intro user signedIn
    apply does_getJobOr404
    · intro job hasJob identified
      apply does_select rfl
      · intro found answered
        cases found with
        | none => exact does_pure trivial
        | some machine =>
          obtain ⟨hasMachine, same⟩ := unique_some answered
          apply does_hear
          · intro _ key
            apply does_bind
            apply does_tryCatch
            apply does_withAgent
            · intro opened
              cases killed : c.killed with
              | error e => exact does_throw trivial
              | ok _ =>
                apply does_pure
                intro closed
                apply does_pure
                apply does_utcNow
                apply does_bind
                rw [flushJob]
                split_ifs with idle
                · apply does_pure
                  apply does_commit
                  · exact (Unchanged.refl rows).publishes rfl
                  · exact does_pure trivial
                · exact absurd ⟨⟨user, signedIn.member, signedIn⟩, ⟨key, opened, killed, closed⟩, job, hasJob,
                    identified, ⟨machine, hasMachine, of_decide_eq_true same⟩, idle⟩ audits
            · intro e committed view
              cases e with
              | client e =>
                dsimp only [Rescued]
                split_ifs
                · exact does_pure (does_pure trivial)
                · exact does_throw trivial
              | _ => exact does_throw trivial
          · exact fun _ => trivial
      · exact fun _ => trivial
    · exact fun _ => trivial
  · exact fun _ => trivial

end

/-! ## Logging in -/

section
variable {runtime} {now : Nat} {rows after : Rows} {entry : AuditEntry}

def Named (rows : Rows) : Prop := (rows.users.map (·.username)).Nodup

instance (rows : Rows) : Decidable (Named rows) := inferInstanceAs (Decidable (List.Nodup _))

theorem unique_keyed {A : Type} {key : A → String} {table : List A} (distinct : (table.map key).Nodup)
    (value : String) : ∃ found, Rows.unique table (key · = value) = .ok found := by
  have kept := distinct.sublist ((List.filter_sublist (p := fun row => decide (key row = value))).map key)
  have each : ∀ row ∈ table.filter (key · = value), key row = value :=
    fun row member => of_decide_eq_true (List.mem_filter.mp member).2
  unfold Rows.unique
  generalize table.filter (key · = value) = rows at kept each ⊢
  rcases rows with _ | ⟨first, _ | ⟨second, rest⟩⟩
  · exact ⟨none, rfl⟩
  · exact ⟨some first, rfl⟩
  · have same : key first = key second :=
      (each first (by simp)).trans (each second (by simp)).symm
    rw [List.map_cons, List.map_cons, List.nodup_cons] at kept
    exact absurd (same ▸ List.mem_cons_self) kept.1

theorem unique_named (named : Named rows) {user : Account} (member : user ∈ rows.users) :
    Rows.unique rows.users (·.username = user.username) = .ok (some user) := by
  obtain ⟨found, answered⟩ := unique_keyed named user.username
  rw [answered]
  cases found with
  | none => exact absurd rfl (of_decide_eq_false (unique_none answered user member))
  | some other =>
    obtain ⟨there, same⟩ := unique_some answered
    rw [List.inj_on_of_nodup_map named there member (of_decide_eq_true same)]

theorem named_statement (statement : Statement) (rows : Rows) (named : Named rows) :
    Named (statement.run 0 rows).2 := by
  have users : (statement.run 0 rows).2.users.map (·.username) = rows.users.map (·.username) := by
    cases statement with
    | updateUser userId role disabled =>
      simp only [Statement.run, Rows.present]
      split_ifs
      · rw [List.map_map]
        apply List.map_congr_left
        intro user _
        simp only [Function.comp_apply]
        split_ifs <;> rfl
      · rfl
    | revokeRefreshToken | updateScript | updateTargetState | updateJob =>
      simp only [Statement.run, Rows.present]
      split_ifs <;> rfl
    | insertMachine | insertScript | insertJob =>
      simp only [Statement.run, Rows.insertMachine, Rows.insertScript, Rows.insertJob]
      split_ifs <;> rfl
    | insertBookmark | insertTargetState =>
      simp only [Statement.run]
      split_ifs <;> rfl
    | _ => rfl
  unfold Named
  rw [users]
  exact named

theorem attempted_found {username : String} {found : Option Account} (named : Named rows)
    (answered : Rows.unique rows.users (·.username = username) = .ok found)
    (log : after.auditLog = rows.auditLog ++ [entry]) (action : entry.action = "auth.login")
    (targetType : entry.targetType = "user")
    (acting : ∀ user ∈ found, entry.userId = some user.id ∧ entry.targetId = toString user.id) :
    Attempted username rows after := by
  refine ⟨entry, newEntries_append log, action, targetType, ?_⟩
  intro user member same
  subst same
  rw [unique_named named member] at answered
  cases answered
  exact acting user rfl

def Recorded (username : String) (rows : Rows) : Except Raised Answer → Rows → Prop :=
  fun _ committed => Attempted username rows committed

theorem does_login {body : Api.LoginRequest} {jti : String} (named : Named rows)
    (audits : ¬ Unaudited runtime now rows (.login body jti)) :
    Does (Publishes runtime now (.login body jti)) now (Closed (Recorded body.username rows))
      (Api.login runtime body jti) rows rows := by
  -- a login changes none of the five tables
  have publishes : ∀ {after : Rows}, Attempted body.username rows after → after.users = rows.users →
      after.machines = rows.machines → after.userMachines = rows.userMachines →
      after.scripts = rows.scripts → after.jobs = rows.jobs →
        Publishes runtime now (.login body jti) rows after := by
    intro after attempted users machines userMachines scripts jobs
    constructor
    · rintro (changed | changed | changed | changed | changed)
      · exact absurd users changed
      · exact absurd machines changed
      · exact absurd userMachines changed
      · exact absurd scripts changed
      · exact absurd jobs changed
    · intro username same
      cases same
      exact attempted
  apply does_run
  · intro found answered
    apply does_authenticated
    · intro user passed
      subst passed
      dsimp only
      apply does_bind
      apply does_utcNow
      apply does_statement
      apply does_recordAudit
      have attempted : ∀ tokens, Attempted body.username rows { rows with
          refreshTokens := tokens
          auditLog := rows.auditLog ++ [⟨some user.id, "auth.login", "user", toString user.id, "success",
            [("username", user.username)]⟩] } := by
        intro tokens
        apply attempted_found named answered rfl rfl rfl
        intro other same
        cases same
        exact ⟨rfl, rfl⟩
      apply does_commit
      · exact publishes (attempted _) rfl rfl rfl rfl rfl
      · exact does_pure (attempted _)
    -- there is no such user, or the password is not theirs
    · have attempted : Attempted body.username rows { rows with
          auditLog := rows.auditLog ++ [⟨found.map (·.id), "auth.login", "user", Api.idText found, "failure",
            [("username", body.username)]⟩] } := by
        apply attempted_found named answered rfl rfl rfl
        intro user same
        cases same
        exact ⟨rfl, rfl⟩
      dsimp only
      apply does_recordAudit_commit rfl
      · exact publishes attempted rfl rfl rfl rfl rfl
      · exact does_throw attempted
    -- bcrypt refuses the password
    · intro user passed enabled raises
      subst passed
      obtain ⟨member, same⟩ := unique_some answered
      exact absurd ⟨user, member, of_decide_eq_true same, enabled, raises⟩ audits
  · intro e failed
    -- a select by name fails only where several users have it
    obtain ⟨found, answered⟩ := unique_keyed named body.username
    cases answered.symm.trans failed

end

/-! ## Every run -/

section
variable {runtime} {s : Shared}

/-- A request that is no unaudited one commits nothing without its audit row. -/
theorem does_request {now : Nat} {rows : Rows} {request : AuditRequest} (named : Named rows)
    (audits : ¬ Unaudited runtime now rows request) :
    Does (Publishes runtime now request) now (Closed fun _ committed =>
      ∀ username ∈ request.loginName, Attempted username rows committed) (request.work runtime) rows rows := by
  -- requests other than logins present no name
  have nobody : ∀ {A : Type} {request : AuditRequest} {work : Work A}, request.loginName = none →
      Does (Publishes runtime now request) now Any work rows rows →
        Does (Publishes runtime now request) now (Closed fun _ committed =>
          ∀ username ∈ request.loginName, Attempted username rows committed) work rows rows := by
    intro A request work noLogin does
    apply does.mono
    intro _ _ _ _
    unfold Closed
    rw [noLogin]
    intro username none
    cases none
  cases request with
  | login body jti =>
    apply (does_login named audits).mono
    intro _ _ _ recorded username same
    cases same
    exact recorded
  | webLogin => exact absurd trivial audits
  | register registration => exact nobody rfl (does_register registration)
  | webRegister registration => exact nobody rfl (does_webRegister registration)
  | deleteMachine machineId => exact nobody rfl (does_deleteMachine machineId)
  | webDeleteMachine => exact nobody rfl (does_webDeleteMachine audits)
  | addBookmark machineId => exact nobody rfl (does_addBookmark machineId)
  | removeBookmark machineId => exact nobody rfl (does_removeBookmark machineId)
  | createScript body => exact nobody rfl (does_apiCreateScript body)
  | webCreateScript => exact nobody rfl (does_webCreateScript audits)
  | updateScript name body => exact nobody rfl (does_apiUpdateScript name body)
  | webEditScript => exact nobody rfl (does_webEditScript audits)
  | deleteScript name => exact nobody rfl (does_apiDeleteScript name)
  | webDeleteScript => exact nobody rfl (does_webDeleteScript audits)
  | webToggle => exact nobody rfl (does_webToggle audits)
  | webRole => exact nobody rfl (does_webRole audits)
  | submit => exact nobody rfl does_submit
  | webSubmit => exact nobody rfl (does_webSubmit audits)
  | kill => exact nobody rfl does_kill
  | webKill => exact nobody rfl (does_webKill audits)

def Sound (s : Shared) : Prop := Idle s ∧ Named s.store.committed

theorem sound_step {event : Event} (sound : Sound s) : Sound (step runtime s event) := by
  cases event with
  | wait seconds => exact ⟨sound.1.tick seconds, sound.2⟩
  | request request => exact sound.1.request (does_keeping named_statement _ sound.2 sound.2)

theorem complete_of_audits {request : AuditRequest} (sound : Sound s)
    (audits : Audits runtime s (.request request)) : Complete runtime s request := by
  have does := does_request sound.2 audits
  have published : ∀ commit ∈ commits runtime s request,
      Publishes runtime s.now request commit.1 commit.2 := by
    intro commit member
    obtain ⟨stop, stops, rfl⟩ := List.mem_map.mp member
    obtain ⟨op, counted, met⟩ := (does_withSession does s sound.1).stopsAt (stopsAt_of_mem_stops stops)
    cases op with
    | commit => exact met
    | query | close | utcNow => exact absurd counted id
  constructor
  · exact fun commit member => (published commit member).1
  · intro username same
    constructor
    · exact (sound.1.request does).2 username same
    · exact fun commit member => (published commit member).2 username same

end

def deskRows : Rows :=
  { Rows.empty with users := [⟨⟨1, .admin⟩, "ada", "", false⟩, ⟨⟨2, .user⟩, "bob", "", false⟩] }

def registered : AuditRequest := .register ⟨⟨"laptop", "laptop"⟩, .ok "linux", .ok ()⟩ (some "ada")

def longPassword : String := String.ofList (List.replicate 73 'x')

end Csl.Server.Session.Audited
