import Csl.Server.Auth.Installation
import Csl.Server.Session.Specs
import Csl.Server.Web.Admin

/-! That rows keep the machine and the script they were written for.

The database does not check that the ids in a row exist, and gives a new row an id that a deleted
row may have had.
-/

set_option autoImplicit false

namespace Csl.Server.Session.Owners
open Csl.Shared Csl.Agent Transactions Proc Runs

inductive OwnerRequest where
  | register (registration : Registration) (credentials : Option String)
  | webRegister (registration : Registration) (access : Option String)
  | deleteMachine (machineId : Nat) (credentials : Option String)
  | webDeleteMachine (machineId : Nat) (access : Option String)
  | createScript (body : Api.ScriptIn) (credentials : Option String)
  | webCreateScript (name content metaYaml : String) (access : Option String)
  | deleteScript (name : String) (credentials : Option String)
  | webDeleteScript (name : String) (access : Option String)
  | submit (c : Conversation) (machineId : Nat) (body : Server.Api.SubmitJobIn) (jobUuid : String)
      (credentials : Option String)
  | webSubmit (c : Conversation) (machineId : Nat) (scriptName : String) (form : Script → Params)
      (jobUuid : String) (access : Option String)
  | syncStates (c : Conversation) (machineId : Nat) (access : Option String)
  | stateBadge (c : Conversation) (machineId : Nat) (scriptName : String) (access : Option String)
  | restage (c : Conversation) (machineId : Nat) (scriptName : String) (access : Option String)

inductive Event where
  | request (request : OwnerRequest)
  | wait (seconds : Nat)

variable (runtime : Runtime)

def OwnerRequest.work : OwnerRequest → Work Answer
  | .register registration credentials => Api.registerMachine runtime registration credentials
  | .webRegister registration access => Web.adminMachineNewSubmit runtime registration access
  | .deleteMachine machineId credentials => Api.deleteMachine runtime machineId credentials
  | .webDeleteMachine machineId access => Web.adminMachineDelete runtime machineId access
  | .createScript body credentials => Api.createScriptEndpoint runtime body credentials
  | .webCreateScript name content metaYaml access =>
      Web.adminScriptNewSubmit runtime name content metaYaml access
  | .deleteScript name credentials => Api.deleteScriptEndpoint runtime name credentials
  | .webDeleteScript name access => Web.adminScriptDelete runtime name access
  | .submit c machineId body jobUuid credentials =>
      Api.submitJob runtime c machineId body jobUuid credentials
  | .webSubmit c machineId scriptName form jobUuid access =>
      Web.runSubmit runtime c machineId scriptName form jobUuid access
  | .syncStates c machineId access => Web.syncStates runtime c machineId access
  | .stateBadge c machineId scriptName access =>
      Web.scriptStateBadge runtime c machineId scriptName access
  | .restage c machineId scriptName access => Web.restage runtime c machineId scriptName access

def step (s : Shared) : Event → Shared
  | .request request => ((withSession (request.work runtime)).run (handle 0) s).2
  | .wait seconds => tick seconds s

def reached (rows : Rows) (now : Nat) (events : List Event) : Rows :=
  (Runs.run (step runtime) (opened rows now) events).store.committed

/-! ## Owners -/

def Refers (rows : Rows) (machineId : Nat) (scriptId : Option Nat) : Prop :=
  (∃ machine ∈ rows.machines, machine.id = machineId) ∧
    ∀ id ∈ scriptId, ∃ script ∈ rows.scripts, script.id = id

structure Referential (rows : Rows) : Prop where
  jobs : ∀ job ∈ rows.jobs, Refers rows job.machineId job.scriptId
  targets : ∀ row ∈ rows.targetStates, Refers rows row.1.1 (some row.1.2)

instance (rows : Rows) (machineId : Nat) (scriptId : Option Nat) : Decidable (Refers rows machineId scriptId) :=
  @instDecidableAnd _ _ (List.decidableBEx _ _) <|
    match scriptId with
    | none => isTrue nofun
    | some id => decidable_of_iff (∃ script ∈ rows.scripts, script.id = id) (by simp)

instance (rows : Rows) : Decidable (Referential rows) :=
  decidable_of_iff ((∀ job ∈ rows.jobs, Refers rows job.machineId job.scriptId) ∧
    ∀ row ∈ rows.targetStates, Refers rows row.1.1 (some row.1.2))
    ⟨fun both => ⟨both.1, both.2⟩, fun all => ⟨all.jobs, all.targets⟩⟩

def SameOwner (before after : Rows) (machineId : Nat) (scriptId : Option Nat) : Prop :=
  (∀ machine ∈ before.machines, machine.id = machineId → machine ∈ after.machines) ∧
    ∀ script ∈ before.scripts, scriptId = some script.id → script ∈ after.scripts

/-- Jobs stay, and the rows that stay keep their machine and their script. -/
structure KeepsOwners (before after : Rows) : Prop where
  jobs : ∀ job ∈ before.jobs, job ∈ after.jobs ∧ SameOwner before after job.machineId job.scriptId
  targets : ∀ row ∈ before.targetStates, ∀ later ∈ after.targetStates, later.1 = row.1 →
    SameOwner before after row.1.1 (some row.1.2)

/-- What is new has no jobs and no cached states. -/
structure BornFree (before after : Rows) : Prop where
  machines : ∀ machine ∈ after.machines, machine ∉ before.machines →
    (∀ job ∈ after.jobs, job.machineId ≠ machine.id) ∧ ∀ row ∈ after.targetStates, row.1.1 ≠ machine.id
  scripts : ∀ script ∈ after.scripts, script ∉ before.scripts →
    (∀ job ∈ after.jobs, job.scriptId ≠ some script.id) ∧ ∀ row ∈ after.targetStates, row.1.2 ≠ script.id

structure Faithful (before after : Rows) : Prop where
  referential : Referential after
  keeps : KeepsOwners before after
  born : BornFree before after

section
variable {rows after : Rows} {machineId : Nat} {scriptId : Option Nat}

theorem SameOwner.refl (rows : Rows) (machineId : Nat) (scriptId : Option Nat) :
    SameOwner rows rows machineId scriptId :=
  ⟨fun _ member _ => member, fun _ member _ => member⟩

theorem SameOwner.trans {first second third : Rows} (one : SameOwner first second machineId scriptId)
    (two : SameOwner second third machineId scriptId) : SameOwner first third machineId scriptId := by
  constructor
  · intro machine member same
    exact two.1 machine (one.1 machine member same) same
  · intro script member own
    exact two.2 script (one.2 script member own) own

theorem sameOwner_of_kept (machines : ∀ machine ∈ rows.machines, machine ∈ after.machines)
    (scripts : ∀ script ∈ rows.scripts, script ∈ after.scripts) :
    SameOwner rows after machineId scriptId :=
  ⟨fun machine member _ => machines machine member, fun script member _ => scripts script member⟩

theorem Refers.kept (refers : Refers rows machineId scriptId)
    (same : SameOwner rows after machineId scriptId) : Refers after machineId scriptId := by
  obtain ⟨⟨machine, member, sameId⟩, script⟩ := refers
  constructor
  · exact ⟨machine, same.1 machine member sameId, sameId⟩
  · intro id own
    obtain ⟨row, found, equal⟩ := script id own
    refine ⟨row, same.2 row found ?_, equal⟩
    rw [equal]
    exact own

/-- A change is faithful when the rows that there are afterwards refer to machines and scripts that
there were before and that are still there, and new machines and scripts have new ids. -/
theorem faithful (jobs : ∀ job ∈ rows.jobs, job ∈ after.jobs)
    (owned : ∀ job ∈ after.jobs, Refers rows job.machineId job.scriptId ∧
      SameOwner rows after job.machineId job.scriptId)
    (targets : ∀ row ∈ after.targetStates, Refers rows row.1.1 (some row.1.2) ∧
      SameOwner rows after row.1.1 (some row.1.2))
    (freshMachines : ∀ machine ∈ after.machines, machine ∉ rows.machines →
      ∀ other ∈ rows.machines, other.id ≠ machine.id)
    (freshScripts : ∀ script ∈ after.scripts, script ∉ rows.scripts →
      ∀ other ∈ rows.scripts, other.id ≠ script.id) : Faithful rows after := by
  constructor
  · constructor
    · intro job member
      exact (owned job member).1.kept (owned job member).2
    · intro row member
      exact (targets row member).1.kept (targets row member).2
  · constructor
    · intro job member
      exact ⟨jobs job member, (owned job (jobs job member)).2⟩
    · intro row _ later member same
      rw [← same]
      exact (targets later member).2
  · constructor
    · intro machine member unknown
      -- what referred to the new machine would refer to an old one with its id
      have fresh := freshMachines machine member unknown
      constructor
      · intro job found same
        obtain ⟨other, there, equal⟩ := (owned job found).1.1
        exact fresh other there (equal.trans same)
      · intro row found same
        obtain ⟨other, there, equal⟩ := (targets row found).1.1
        exact fresh other there (equal.trans same)
    · intro script member unknown
      have fresh := freshScripts script member unknown
      constructor
      · intro job found same
        obtain ⟨other, there, equal⟩ := (owned job found).1.2 script.id same
        exact fresh other there equal
      · intro row found same
        obtain ⟨other, there, equal⟩ := (targets row found).1.2 script.id (congrArg some same)
        exact fresh other there equal

/-- Machines and scripts may be added, and rows that refer to those that there were. -/
theorem faithful_grown (machines : ∀ machine ∈ rows.machines, machine ∈ after.machines)
    (scripts : ∀ script ∈ rows.scripts, script ∈ after.scripts)
    (jobs : ∀ job ∈ rows.jobs, job ∈ after.jobs)
    (owned : ∀ job ∈ after.jobs, Refers rows job.machineId job.scriptId)
    (targets : ∀ row ∈ after.targetStates, Refers rows row.1.1 (some row.1.2))
    (freshMachines : ∀ machine ∈ after.machines, machine ∉ rows.machines →
      ∀ other ∈ rows.machines, other.id ≠ machine.id)
    (freshScripts : ∀ script ∈ after.scripts, script ∉ rows.scripts →
      ∀ other ∈ rows.scripts, other.id ≠ script.id) : Faithful rows after := by
  apply faithful jobs
  · intro job member
    exact ⟨owned job member, sameOwner_of_kept machines scripts⟩
  · intro row member
    exact ⟨targets row member, sameOwner_of_kept machines scripts⟩
  · exact freshMachines
  · exact freshScripts

/-- Machines and scripts may be deleted to which no row refers. -/
theorem faithful_shrunk (referential : Referential rows)
    (machines : ∀ machine ∈ after.machines, machine ∈ rows.machines)
    (scripts : ∀ script ∈ after.scripts, script ∈ rows.scripts) (jobs : after.jobs = rows.jobs)
    (targets : ∀ row ∈ after.targetStates, row ∈ rows.targetStates)
    (jobOwners : ∀ job ∈ rows.jobs, SameOwner rows after job.machineId job.scriptId)
    (targetOwners : ∀ row ∈ after.targetStates, SameOwner rows after row.1.1 (some row.1.2)) :
    Faithful rows after := by
  apply faithful
  · intro job member
    rw [jobs]
    exact member
  · intro job member
    rw [jobs] at member
    exact ⟨referential.jobs job member, jobOwners job member⟩
  · intro row member
    exact ⟨referential.targets row (targets row member), targetOwners row member⟩
  · intro machine member unknown
    exact absurd (machines machine member) unknown
  · intro script member unknown
    exact absurd (scripts script member) unknown

theorem faithful_same (referential : Referential rows) (machines : after.machines = rows.machines)
    (scripts : after.scripts = rows.scripts) (jobs : after.jobs = rows.jobs)
    (targets : after.targetStates = rows.targetStates) : Faithful rows after := by
  have sameOwners : ∀ {machineId : Nat} {scriptId : Option Nat}, SameOwner rows after machineId scriptId := by
    intro machineId scriptId
    apply sameOwner_of_kept
    · rw [machines]
      exact fun _ member => member
    · rw [scripts]
      exact fun _ member => member
  apply faithful_shrunk referential
  · rw [machines]
    exact fun _ member => member
  · rw [scripts]
    exact fun _ member => member
  · exact jobs
  · rw [targets]
    exact fun _ member => member
  · exact fun _ _ => sameOwners
  · exact fun _ _ => sameOwners

theorem faithful_without_machine {gone : Nat} (referential : Referential rows)
    (noJobs : ∀ job ∈ rows.jobs, job.machineId ≠ gone) (noStates : ∀ row ∈ rows.targetStates, row.1.1 ≠ gone)
    (machines : after.machines = rows.machines.filter (·.id ≠ gone)) (scripts : after.scripts = rows.scripts)
    (jobs : after.jobs = rows.jobs) (targets : after.targetStates = rows.targetStates) :
    Faithful rows after := by
  have stays : ∀ {machineId : Nat} {scriptId : Option Nat}, machineId ≠ gone →
      SameOwner rows after machineId scriptId := by
    intro machineId scriptId other
    constructor
    · intro machine member same
      rw [machines]
      exact List.mem_filter.mpr ⟨member, decide_eq_true (same ▸ other)⟩
    · intro script member _
      rw [scripts]
      exact member
  apply faithful_shrunk referential
  · intro machine member
    rw [machines] at member
    exact (List.mem_filter.mp member).1
  · rw [scripts]
    exact fun _ member => member
  · exact jobs
  · rw [targets]
    exact fun _ member => member
  · exact fun job member => stays (noJobs job member)
  · rw [targets]
    exact fun row member => stays (noStates row member)

theorem faithful_without_script {gone : Nat} (referential : Referential rows)
    (noJobs : ∀ job ∈ rows.jobs, job.scriptId ≠ some gone)
    (machines : after.machines = rows.machines) (scripts : after.scripts = rows.scripts.filter (·.id ≠ gone))
    (jobs : after.jobs = rows.jobs) (targets : after.targetStates = rows.targetStates.filter (·.1.2 ≠ gone)) :
    Faithful rows after := by
  have stays : ∀ {machineId : Nat} {scriptId : Option Nat}, scriptId ≠ some gone →
      SameOwner rows after machineId scriptId := by
    intro machineId scriptId other
    constructor
    · intro machine member _
      rw [machines]
      exact member
    · intro script member own
      rw [scripts]
      refine List.mem_filter.mpr ⟨member, decide_eq_true ?_⟩
      intro same
      exact other (same ▸ own)
  apply faithful_shrunk referential
  · rw [machines]
    exact fun _ member => member
  · intro script member
    rw [scripts] at member
    exact (List.mem_filter.mp member).1
  · exact jobs
  · intro row member
    rw [targets] at member
    exact (List.mem_filter.mp member).1
  · exact fun job member => stays (noJobs job member)
  · intro row member
    rw [targets] at member
    refine stays fun same => ?_
    exact of_decide_eq_true (List.mem_filter.mp member).2 (Option.some.inj same)

theorem Faithful.logged (faithful : Faithful rows after) (log : List AuditEntry) :
    Faithful rows { after with auditLog := log } where
  referential := ⟨faithful.referential.jobs, faithful.referential.targets⟩
  keeps := ⟨faithful.keeps.jobs, faithful.keeps.targets⟩
  born := ⟨faithful.born.machines, faithful.born.scripts⟩

end

/-! ## Registering, creating and deleting -/

def MachineFree (rows : Rows) (machineId : Nat) : Prop :=
  (∀ job ∈ rows.jobs, job.machineId ≠ machineId) ∧ ∀ row ∈ rows.targetStates, row.1.1 ≠ machineId

def ScriptFree (rows : Rows) (name : String) : Prop :=
  ∀ script ∈ rows.scripts, script.name = name → ∀ job ∈ rows.jobs, job.scriptId ≠ some script.id

instance (rows : Rows) (machineId : Nat) : Decidable (MachineFree rows machineId) :=
  inferInstanceAs (Decidable (_ ∧ _))

instance (rows : Rows) (name : String) : Decidable (ScriptFree rows name) :=
  List.decidableBAll _ _

section
variable {runtime} {now : Nat} {rows committed view : Rows} {A B : Type} {token : Option String}

def Ends (rows : Rows) : Except Raised A → Rows → Rows → Prop := Closed fun _ committed => Faithful rows committed

abbrev Whatever (_before _after : Rows) : Prop := True

theorem ends_tryCatch {work : Work A} {recover : Raised → Work A}
    (does : Does Whatever now (Ends rows) work committed view)
    (recovers : ∀ e committed view, Faithful rows committed →
      Does Whatever now (Ends rows) (recover e) committed view) :
    Does Whatever now (Ends rows) (MonadExcept.tryCatch work recover) committed view := by
  apply does_tryCatch
  apply does.mono
  intro result committed view ended
  cases result with
  | ok a => exact ended
  | error e => exact recovers e committed view ended

theorem ends_answerRegistry {status : RegistryError → Nat} {work : Work Answer}
    (does : Does Whatever now (Ends rows) work committed view) :
    Does Whatever now (Ends rows) (Api.answerRegistry runtime status work) committed view := by
  apply ends_tryCatch does
  intro e committed view ended
  cases e <;> exact does_throw ended

variable (referential : Referential rows)
include referential

theorem faithful_refl : Faithful rows rows := faithful_same referential rfl rfl rfl rfl

theorem ends_register {registration : Registration} {adminId : Nat} {next : Machine → Work A}
    (onward : ∀ machine after, Faithful rows after → Does Whatever now (Ends rows) (next machine) after after) :
    Does Whatever now (Ends rows) (registerMachineFromInput runtime registration adminId >>= next) rows rows := by
  apply does_registerMachineFromInput
  · intro machine after _ fresh added
    have registered : Faithful rows after := by
      subst added
      apply faithful_grown
      · exact fun other member => List.mem_append_left _ member
      · exact fun _ member => member
      · exact fun _ member => member
      · exact referential.jobs
      · exact referential.targets
      · intro other member unknown
        rcases List.mem_append.mp member with old | new
        · exact absurd old unknown
        · rw [List.mem_singleton.mp new]
          exact fresh
      · intro script member unknown
        exact absurd member unknown
    exact ⟨trivial, fun fresh => onward fresh after registered, fun _ => registered⟩
  · exact fun _ => faithful_refl referential

theorem ends_apiRegister (registration : Registration) :
    Does Whatever now (Ends rows) (Api.registerMachine runtime registration token) rows rows := by
  apply does_requireAdmin
  · intro admin _ _
    apply ends_register referential
    exact fun machine after registered => does_pure registered
  · exact fun _ => faithful_refl referential

theorem ends_webRegister (registration : Registration) :
    Does Whatever now (Ends rows) (Web.adminMachineNewSubmit runtime registration token) rows rows := by
  apply does_webRequireAdmin
  · intro admin _ _
    apply ends_tryCatch
    · apply ends_register referential
      exact fun machine after registered => does_pure registered
    · intro e committed view ended
      cases e with
      | http => exact does_pure ended
      | _ => exact does_throw ended
  · exact fun _ => faithful_refl referential

theorem ends_insertScript {fields : ScriptFields} {next : Script → Work A}
    (onward : ∀ script after, Faithful rows after → Does Whatever now (Ends rows) (next script) rows after) :
    Does Whatever now (Ends rows) (run (.insertScript fields) >>= next) rows rows := by
  apply does_insertScript
  · intro script _ fresh
    apply onward
    apply faithful_grown
    · exact fun _ member => member
    · exact fun other member => List.mem_append_left _ member
    · exact fun _ member => member
    · exact referential.jobs
    · exact referential.targets
    · intro machine member unknown
      exact absurd member unknown
    · intro other member unknown
      rcases List.mem_append.mp member with old | new
      · exact absurd old unknown
      · rw [List.mem_singleton.mp new]
        exact fresh
  · exact fun _ => faithful_refl referential

theorem ends_apiCreateScript (body : Api.ScriptIn) :
    Does Whatever now (Ends rows) (Api.createScriptEndpoint runtime body token) rows rows := by
  apply does_requireAdmin
  · intro admin _ _
    apply ends_answerRegistry
    apply does_createScript
    · intro _ _
      apply ends_insertScript referential
      intro script after created
      apply does_recordAudit
      apply does_commit trivial
      apply does_refreshScript
      · intro fresh
        exact does_pure (created.logged _)
      · intro e
        exact created.logged _
    · exact fun _ => faithful_refl referential
  · exact fun _ => faithful_refl referential

theorem ends_webCreateScript (name content metaYaml : String) :
    Does Whatever now (Ends rows) (Web.adminScriptNewSubmit runtime name content metaYaml token) rows rows := by
  apply does_webRequireAdmin
  · intro admin _ _
    apply ends_tryCatch
    · apply does_createScript
      · intro _ _
        apply ends_insertScript referential
        intro script after created
        apply does_commit trivial
        exact does_pure created
      · exact fun _ => faithful_refl referential
    · intro e committed view ended
      cases e with
      | registry =>
        exact does_pure ended
      | _ =>
        exact does_throw ended
  · exact fun _ => faithful_refl referential

theorem ends_deleteScript {name : String} {next : Script → Work Answer} (free : ScriptFree rows name)
    (onward : ∀ script after, Faithful rows after → Does Whatever now (Ends rows) (next script) rows after) :
    Does Whatever now (Ends rows) (do
      let script ← deleteScript name
      run (.deleteScript script.id)
      next script) rows rows := by
  apply does_deleteScript
  · intro script member same
    apply does_run
    · intro _ _
      apply onward
      exact faithful_without_script referential (free script member same) rfl rfl rfl rfl
    · intro e failed
      cases failed
  · exact fun _ => faithful_refl referential

theorem ends_apiDeleteScript {name : String} (free : Admits runtime now rows token → ScriptFree rows name) :
    Does Whatever now (Ends rows) (Api.deleteScriptEndpoint runtime name token) rows rows := by
  apply does_requireAdmin
  · intro admin signedIn role
    apply ends_answerRegistry
    apply ends_deleteScript referential (free ⟨admin, signedIn.member, signedIn, role⟩)
    intro script after deleted
    apply does_recordAudit
    apply does_commit trivial
    exact does_pure (deleted.logged _)
  · exact fun _ => faithful_refl referential

theorem ends_webDeleteScript {name : String} (free : Admits runtime now rows token → ScriptFree rows name) :
    Does Whatever now (Ends rows) (Web.adminScriptDelete runtime name token) rows rows := by
  apply does_webRequireAdmin
  · intro admin signedIn role
    apply ends_tryCatch
    · apply ends_deleteScript referential (free ⟨admin, signedIn.member, signedIn, role⟩)
      intro script after deleted
      apply does_commit trivial
      exact does_pure deleted
    · intro e committed view ended
      cases e with
      | registry =>
        exact does_pure ended
      | _ =>
        exact does_throw ended
  · exact fun _ => faithful_refl referential

theorem ends_apiDeleteMachine {machineId : Nat}
    (free : Admits runtime now rows token → MachineFree rows machineId) :
    Does Whatever now (Ends rows) (Api.deleteMachine runtime machineId token) rows rows := by
  have unchanged : ∀ e : Raised, Ends rows (.error e : Except Raised Answer) rows rows :=
    fun _ => faithful_refl referential
  apply does_requireAdmin
  · intro admin signedIn role
    have spared := free ⟨admin, signedIn.member, signedIn, role⟩
    apply does_getMachineOr404
    · intro _ _ _
      apply does_run
      · intro _ _
        apply does_select rfl
        · intro found answered
          cases found with
          | none => exact does_throw (faithful_refl referential)
          | some machine =>
            obtain ⟨_, same⟩ := unique_some answered
            obtain rfl := of_decide_eq_true same
            apply does_run
            · intro _ _
              apply does_recordAudit
              apply does_commit trivial
              apply does_pure
              exact faithful_without_machine referential spared.1 spared.2 rfl rfl rfl rfl
            · exact fun e _ => unchanged e
        · exact unchanged
      · exact fun e _ => unchanged e
    · exact unchanged
  · exact unchanged

theorem ends_webDeleteMachine {machineId : Nat}
    (free : Admits runtime now rows token → MachineFree rows machineId) :
    Does Whatever now (Ends rows) (Web.adminMachineDelete runtime machineId token) rows rows := by
  have unchanged : ∀ e : Raised, Ends rows (.error e : Except Raised Answer) rows rows :=
    fun _ => faithful_refl referential
  apply does_webRequireAdmin
  · intro admin signedIn role
    have spared := free ⟨admin, signedIn.member, signedIn, role⟩
    apply does_select rfl
    · intro found answered
      cases found with
      | none => exact does_pure (faithful_refl referential)
      | some machine =>
        obtain ⟨_, same⟩ := unique_some answered
        obtain rfl := of_decide_eq_true same
        apply does_run
        · intro _ _
          apply does_run
          · intro _ _
            apply does_commit trivial
            apply does_pure
            exact faithful_without_machine referential spared.1 spared.2 rfl rfl rfl rfl
          · exact fun e _ => unchanged e
        · exact fun e _ => unchanged e
    · exact unchanged
  · exact unchanged

end

/-! ## Jobs and cached states

The machine and the script of a new row have been selected before.
-/

def Found (rows : Rows) : (op : Op) → Except Raised (Reply op) → Prop
  | .query (.findMachine machineId), reply => ∀ machine, reply = .ok (some machine) →
      machine ∈ rows.machines ∧ machine.id = machineId
  | .query (.findScript _), reply => ∀ script, reply = .ok (some script) → script ∈ rows.scripts
  | .query (.targetStatesOf _), reply => ∀ staged, reply = .ok staged → ∀ row ∈ staged, row.2 ∈ rows.scripts
  | _, _ => True

def Links (rows : Rows) : Op → Prop
  | .query (.insertJob fields) => Refers rows fields.machineId fields.scriptId
  | .query (.insertTargetState machineId scriptId _) => Refers rows machineId (some scriptId)
  | .query (.updateTargetState ..) | .query (.insertAudit _) => True
  | .query statement => statement.writes = false
  | .commit | .close | .utcNow => True

structure Linked (rows after : Rows) : Prop where
  machines : after.machines = rows.machines
  scripts : after.scripts = rows.scripts
  jobs : ∀ job ∈ rows.jobs, job ∈ after.jobs
  owned : ∀ job ∈ after.jobs, Refers rows job.machineId job.scriptId
  targets : ∀ row ∈ after.targetStates, Refers rows row.1.1 (some row.1.2)

section
variable {runtime} {rows after : Rows} {A : Type} {c : Conversation}

theorem Linked.faithful (linked : Linked rows after) : Faithful rows after := by
  apply faithful_grown
  · rw [linked.machines]
    exact fun _ member => member
  · rw [linked.scripts]
    exact fun _ member => member
  · exact linked.jobs
  · exact linked.owned
  · exact linked.targets
  · intro machine member unknown
    rw [linked.machines] at member
    exact absurd member unknown
  · intro script member unknown
    rw [linked.scripts] at member
    exact absurd member unknown

theorem linked_run {connection : Nat} {statement : Statement} (links : Links rows (.query statement))
    (linked : Linked rows after) : Linked rows (statement.run connection after).2 := by
  cases statement with
  | insertJob fields =>
    simp only [Statement.run, Rows.insertJob]
    split_ifs
    · exact linked
    · constructor
      · exact linked.machines
      · exact linked.scripts
      · exact fun job member => List.mem_append_left _ (linked.jobs job member)
      · intro job member
        rcases List.mem_append.mp member with old | new
        · exact linked.owned job old
        · rw [List.mem_singleton.mp new]
          exact links
      · exact linked.targets
  | insertTargetState machineId scriptId state =>
    simp only [Statement.run]
    split_ifs
    · exact linked
    · constructor
      · exact linked.machines
      · exact linked.scripts
      · exact linked.jobs
      · exact linked.owned
      · intro row member
        rcases List.mem_append.mp member with old | new
        · exact linked.targets row old
        · rw [List.mem_singleton.mp new]
          exact links
  | updateTargetState machineId scriptId loaded state =>
    simp only [Statement.run, Rows.present]
    split_ifs
    · constructor
      · exact linked.machines
      · exact linked.scripts
      · exact linked.jobs
      · exact linked.owned
      · intro row member
        obtain ⟨before, found, rfl⟩ := List.mem_map.mp member
        split_ifs <;> exact linked.targets before found
    · exact linked
  | insertAudit entry => exact ⟨linked.machines, linked.scripts, linked.jobs, linked.owned, linked.targets⟩
  | _ =>
    -- the other statements only read
    rw [run_reads links]
    exact linked

theorem found_handle {op : Op} {s : Shared} (linked : Everywhere (Linked rows) s.store) :
    Found rows op (handle 0 op s).1 := by
  have there := linked.view 0
  cases op with
  | commit | close | utcNow => trivial
  | query statement =>
    cases statement with
    | findMachine machineId =>
      intro machine found
      obtain ⟨member, same⟩ := unique_some found
      rw [there.machines] at member
      exact ⟨member, of_decide_eq_true same⟩
    | findScript name =>
      intro script found
      obtain ⟨member, _⟩ := unique_some found
      rw [there.scripts] at member
      exact member
    | targetStatesOf machineId =>
      intro staged selected row member
      cases selected
      obtain ⟨target, _, joined⟩ := List.mem_filterMap.mp member
      split_ifs at joined
      obtain ⟨script, found, rfl⟩ := Option.map_eq_some_iff.mp joined
      rw [← there.scripts]
      exact List.mem_of_find?_eq_some found
    | _ => trivial

/-- A request that only links keeps the owners. -/
theorem faithful_links {work : Work Answer} {s : Shared} {now : Nat} (referential : Referential rows)
    (there : At s rows rows now) (keeps : work.Keeps (Found rows) (Links rows) fun _ => True) :
    Faithful rows ((withSession work).run (handle 0) s).2.store.committed := by
  have same : Linked rows rows := ⟨rfl, rfl, fun _ member => member, referential.jobs, referential.targets⟩
  have initial : Everywhere (Linked rows) s.store := by
    constructor
    · rw [there.committed]
      exact same
    · intro number copy held
      rcases there.writer with ⟨none, _⟩ | own
      · rw [none] at held
        cases held
      · rw [own] at held
        cases held
        exact same
  have serves : ∀ op s, Links rows op → Everywhere (Linked rows) s.store →
      Everywhere (Linked rows) (handle 0 op s).2.store := by
    intro op s links linked
    apply everywhere_handle _ linked
    intro statement same
    subst same
    exact linked_run links (linked.view 0)
  have answers : ∀ op s, Everywhere (Linked rows) s.store → Found rows op (handle 0 op s).1 :=
    fun _ _ => found_handle
  have kept := Keeps.run answers serves (keeps_withSession trivial keeps) initial
  exact kept.committed.faithful

section
variable {good : A → Prop}

theorem links_of_reads {op : Op} (reads : Reads op) : Links rows op := by
  cases op with
  | commit | close | utcNow => trivial
  | query statement =>
    cases statement with
    | insertJob | insertTargetState | updateTargetState | insertAudit => cases reads
    | _ => exact reads

theorem keeps_reads {work : Work A} (uses : work.Uses Reads) :
    work.Keeps (Found rows) (Links rows) fun _ => True := (uses.mono fun _ => links_of_reads).keeps

theorem keeps_hear {result : Except Failure A} :
    (hear result).Keeps (Found rows) (Links rows) fun a => result = .ok a := by
  cases result with
  | ok a => exact keeps_pure rfl
  | error e => exact keeps_throw

theorem keeps_getMachineOr404 (machineId : Nat) :
    (getMachineOr404 machineId).Keeps (Found rows) (Links rows)
      fun machine => machine ∈ rows.machines ∧ machine.id = machineId := by
  apply keeps_run
  · rfl
  intro machine found
  cases machine with
  | none => exact keeps_throw
  | some machine => exact keeps_pure (found machine rfl)

theorem keeps_assertAccess (user : Account) (machineId : Nat) :
    (assertAccess user machineId).Keeps (Found rows) (Links rows) fun _ => True := by
  rw [assertAccess]
  split_ifs
  · exact keeps_pure trivial
  · apply keeps_run
    · rfl
    intro bookmarked _
    split_ifs
    · exact keeps_pure trivial
    · exact keeps_throw

theorem keeps_getScriptOr404 (name : String) :
    (getScriptOr404 runtime name).Keeps (Found rows) (Links rows) fun script => script ∈ rows.scripts := by
  apply keeps_run
  · rfl
  intro script found
  cases script with
  | none => exact keeps_throw
  | some script => exact keeps_pure (found script rfl)

theorem keeps_withAgent {body : Work A} (keeps : body.Keeps (Found rows) (Links rows) good) :
    (withAgent c body).Keeps (Found rows) (Links rows) good := by
  apply keeps_bind keeps_hear
  intro _ _
  apply keeps_bind (keeps_tryCatch keeps _)
  · intro result fine
    exact keeps_bind keeps_hear fun _ _ => keeps_pure fine
  · intro e
    exact keeps_bind keeps_hear fun _ _ => keeps_throw

theorem keeps_flush {change : TargetChange} (refers : Refers rows change.machineId (some change.scriptId)) :
    change.flush.Keeps (Found rows) (Links rows) fun _ => True := by
  rw [TargetChange.flush]
  split
  · exact keeps_call refers fun _ _ => trivial
  · split_ifs
    · exact keeps_pure trivial
    · exact keeps_call trivial fun _ _ => trivial

theorem refers_rows {machine : Machine} {script : Script} (hasMachine : machine ∈ rows.machines)
    (hasScript : script ∈ rows.scripts) : Refers rows machine.id (some script.id) := by
  refine ⟨⟨machine, hasMachine, rfl⟩, ?_⟩
  intro id own
  exact ⟨script, hasScript, Option.some.inj own⟩

theorem keeps_upsertState {machineId scriptId : Nat} (resolved : TargetState) (found : ScriptDescriptor) :
    (upsertState runtime machineId scriptId resolved found).Keeps (Found rows) (Links rows)
      fun change => change.machineId = machineId ∧ change.scriptId = scriptId := by
  apply keeps_run
  · rfl
  intro loaded _
  apply keeps_then trivial
  intro now _
  exact keeps_pure ⟨rfl, rfl⟩

theorem keeps_syncScript (machine : Machine) (script : Script) (round : Nat) :
    (syncScript runtime c round machine script).Keeps (Found rows) (Links rows)
      fun synced => synced.2.machineId = machine.id ∧ synced.2.scriptId = script.id := by
  apply keeps_bind keeps_hear
  intro found _
  have upserts : ∀ resolved : TargetState, (do
      let change ← upsertState runtime machine.id script.id resolved found
      return (resolved, change) : Work (TargetState × TargetChange)).Keeps (Found rows) (Links rows)
        fun synced => synced.2.machineId = machine.id ∧ synced.2.scriptId = script.id := by
    intro resolved
    apply keeps_bind (keeps_upsertState resolved found)
    intro change same
    exact keeps_pure same
  dsimp only
  split_ifs
  · apply keeps_bind keeps_hear
    intro staged _
    exact upserts _
  · exact upserts _

theorem keeps_syncAndCommit {machine : Machine} {script : Script} (round : Nat)
    (hasMachine : machine ∈ rows.machines) (hasScript : script ∈ rows.scripts) :
    (syncAndCommit runtime c round machine script).Keeps (Found rows) (Links rows) fun _ => True := by
  apply keeps_bind (keeps_syncScript machine script round)
  intro synced ids
  apply keeps_bind (keeps_flush _)
  · intro _ _
    exact keeps_then trivial fun _ _ => keeps_pure trivial
  · rw [ids.1, ids.2]
    exact refers_rows hasMachine hasScript

theorem keeps_recordAudit {action targetType targetId result : String} {userId : Option Nat}
    {details : List (String × String)} {commits : Bool} :
    (recordAudit action targetType targetId result userId details commits).Keeps (Found rows) (Links rows)
      fun _ => True := by
  apply keeps_run trivial
  intro _ _
  split_ifs
  · exact keeps_call trivial fun _ _ => trivial
  · exact keeps_pure trivial

theorem keeps_refusal {machine : Machine} {script : Script} (scriptName : String)
    (hasMachine : machine ∈ rows.machines) (hasScript : script ∈ rows.scripts) (e : Raised) :
    (Api.refusal runtime c machine script scriptName e).Keeps (Found rows) (Links rows) fun _ => True := by
  unfold Api.refusal
  split
  · exact keeps_throw
  · exact keeps_bind (keeps_syncAndCommit 1 hasMachine hasScript) fun _ _ => keeps_throw
  · exact keeps_throw
  · exact keeps_throw
  · exact keeps_throw

theorem keeps_refreshJob (job : Job) :
    (refreshJob job).Keeps (Found rows) (Links rows) fun _ => True := by
  apply keeps_run
  · rfl
  intro fresh _
  cases fresh with
  | none => exact keeps_throw
  | some _ => exact keeps_pure trivial

theorem keeps_submitJob (machineId : Nat) (body : Server.Api.SubmitJobIn) (jobUuid : String)
    (credentials : Option String) :
    (Api.submitJob runtime c machineId body jobUuid credentials).Keeps (Found rows) (Links rows)
      fun _ => True := by
  apply keeps_bind (keeps_reads uses_currentUser)
  intro user _
  apply keeps_bind (keeps_getMachineOr404 machineId)
  rintro machine ⟨hasMachine, rfl⟩
  apply keeps_bind (keeps_assertAccess user machine.id)
  intro _ _
  apply keeps_bind (keeps_getScriptOr404 body.scriptName)
  intro script hasScript
  apply keeps_bind keeps_hear
  intro _ _
  apply keeps_bind (keeps_withAgent _)
  · intro answer _
    apply keeps_run (refers_rows hasMachine hasScript)
    intro job _
    apply keeps_bind keeps_recordAudit
    intro _ _
    apply keeps_then trivial
    intro _ _
    exact keeps_bind (keeps_refreshJob job) fun _ _ => keeps_pure trivial
  · exact fun _ => True
  · apply keeps_bind keeps_hear
    intro _ _
    apply keeps_bind (keeps_syncAndCommit 0 hasMachine hasScript)
    intro resolved _
    split_ifs
    · exact keeps_bind keeps_recordAudit fun _ _ => keeps_throw
    · apply keeps_tryCatch
      · exact keeps_hear.mono (fun _ may => may) fun _ _ => trivial
      · exact keeps_refusal body.scriptName hasMachine hasScript

theorem keeps_runSubmit (machineId : Nat) (scriptName : String) (form : Script → Params) (jobUuid : String)
    (access : Option String) :
    (Web.runSubmit runtime c machineId scriptName form jobUuid access).Keeps (Found rows) (Links rows)
      fun _ => True := by
  apply keeps_bind (keeps_reads uses_webCurrentUser)
  intro user _
  apply keeps_bind (keeps_getMachineOr404 machineId)
  rintro machine ⟨hasMachine, rfl⟩
  apply keeps_bind (keeps_assertAccess user machine.id)
  intro _ _
  apply keeps_bind (keeps_getScriptOr404 scriptName)
  intro script hasScript
  apply keeps_bind keeps_hear
  intro _ _
  apply keeps_bind (keeps_tryCatch (keeps_withAgent _) _)
  · intro submitted _
    cases submitted with
    | error page => exact keeps_pure trivial
    | ok answer =>
      apply keeps_run (refers_rows hasMachine hasScript)
      intro _ _
      exact keeps_then trivial fun _ _ => keeps_pure trivial
  · exact fun _ => True
  · apply keeps_bind keeps_hear
    intro _ _
    apply keeps_bind (keeps_syncAndCommit 0 hasMachine hasScript)
    intro resolved _
    split_ifs
    · exact keeps_pure trivial
    · exact keeps_bind keeps_hear fun _ _ => keeps_pure trivial
  · intro e
    split
    · split_ifs
      · exact keeps_pure trivial
      · exact keeps_throw
    · exact keeps_throw

theorem keeps_flushAll {changes : List TargetChange}
    (refer : ∀ change ∈ changes, Refers rows change.machineId (some change.scriptId)) :
    (Web.flushAll changes).Keeps (Found rows) (Links rows) fun _ => True := by
  induction changes with
  | nil => exact keeps_pure trivial
  | cons change rest ih =>
    apply keeps_bind (keeps_flush (refer change List.mem_cons_self))
    intro _ _
    exact ih fun other member => refer other (List.mem_cons_of_mem _ member)

theorem keeps_syncStates (machineId : Nat) (access : Option String) :
    (Web.syncStates runtime c machineId access).Keeps (Found rows) (Links rows) fun _ => True := by
  apply keeps_bind (keeps_reads uses_webCurrentUser)
  intro user _
  apply keeps_bind (keeps_getMachineOr404 machineId)
  rintro machine ⟨hasMachine, rfl⟩
  apply keeps_bind (keeps_assertAccess user machine.id)
  intro _ _
  apply keeps_run
  · rfl
  intro staged found
  split_ifs
  · exact keeps_pure trivial
  apply keeps_bind keeps_hear
  intro _ _
  apply keeps_then trivial
  intro now _
  apply keeps_bind (keeps_flushAll _)
  · intro _ _
    exact keeps_then trivial fun _ _ => keeps_pure trivial
  · intro change member
    unfold Web.refreshed at member
    split at member
    · obtain ⟨row, selected, described⟩ := List.mem_filterMap.mp member
      dsimp only at described
      split at described
      · cases described
        exact refers_rows hasMachine (found staged rfl row selected)
      · cases described
    · cases member

theorem keeps_writeBadge {machine : Machine} {script : Script} (loaded : Option ScriptTargetState)
    (resolved : TargetState) (description : ScriptDescriptor) (hasMachine : machine ∈ rows.machines)
    (hasScript : script ∈ rows.scripts) :
    (Web.writeBadge runtime machine script loaded resolved description).Keeps (Found rows) (Links rows)
      fun _ => True := by
  apply keeps_then trivial
  intro now _
  apply keeps_bind (keeps_flush (refers_rows hasMachine hasScript))
  intro _ _
  exact keeps_then trivial fun _ _ => keeps_pure trivial

theorem keeps_badge {machine : Machine} {script : Script} {describes : Work (Option ScriptDescriptor)}
    {resolved : ScriptDescriptor → TargetState} (loaded : Option ScriptTargetState)
    (hasMachine : machine ∈ rows.machines) (hasScript : script ∈ rows.scripts)
    (keeps : describes.Keeps (Found rows) (Links rows) fun _ => True) :
    (do
      match ← describes with
      | none => return Web.cachedBadge loaded
      | some found => Web.writeBadge runtime machine script loaded (resolved found) found :
      Work Answer).Keeps (Found rows) (Links rows) fun _ => True := by
  apply keeps_bind keeps
  intro found _
  cases found with
  | none => exact keeps_pure trivial
  | some found => exact keeps_writeBadge loaded _ found hasMachine hasScript

theorem keeps_stateBadge (machineId : Nat) (scriptName : String) (access : Option String) :
    (Web.scriptStateBadge runtime c machineId scriptName access).Keeps (Found rows) (Links rows)
      fun _ => True := by
  apply keeps_bind (keeps_reads uses_webCurrentUser)
  intro user _
  apply keeps_bind (keeps_getMachineOr404 machineId)
  rintro machine ⟨hasMachine, rfl⟩
  apply keeps_bind (keeps_assertAccess user machine.id)
  intro _ _
  apply keeps_run
  · rfl
  intro script found
  cases script with
  | none => exact keeps_pure trivial
  | some script =>
    apply keeps_bind keeps_hear
    intro _ _
    apply keeps_run
    · rfl
    intro loaded _
    apply keeps_badge loaded hasMachine (found script rfl)
    apply keeps_tryCatch
    · apply keeps_withAgent
      exact keeps_bind keeps_hear fun _ _ => keeps_pure trivial
    · intro e
      split
      · exact keeps_pure trivial
      · exact keeps_throw

theorem keeps_restage (machineId : Nat) (scriptName : String) (access : Option String) :
    (Web.restage runtime c machineId scriptName access).Keeps (Found rows) (Links rows) fun _ => True := by
  apply keeps_bind (keeps_reads uses_webCurrentUser)
  intro user _
  apply keeps_bind (keeps_getMachineOr404 machineId)
  rintro machine ⟨hasMachine, rfl⟩
  apply keeps_bind (keeps_assertAccess user machine.id)
  intro _ _
  apply keeps_run
  · rfl
  intro script found
  cases script with
  | none => exact keeps_pure trivial
  | some script =>
    apply keeps_bind keeps_hear
    intro _ _
    apply keeps_run
    · rfl
    intro loaded _
    apply keeps_badge loaded hasMachine (found script rfl)
    apply keeps_tryCatch
    · apply keeps_withAgent
      apply keeps_bind keeps_hear
      intro _ _
      apply keeps_bind keeps_hear
      intro _ _
      exact keeps_bind keeps_hear fun _ _ => keeps_pure trivial
    · intro e
      split
      · split_ifs
        · exact keeps_pure trivial
        · exact keeps_throw
      · exact keeps_throw

end

end

/-! ## Every run -/

/-- An administrator who deletes a machine or a script finds no rows that stay and refer to it. -/
def Spares (s : Shared) : Event → Prop
  | .request (.deleteMachine machineId token) | .request (.webDeleteMachine machineId token) =>
      Admits runtime s.now s.store.committed token → MachineFree s.store.committed machineId
  | .request (.deleteScript name token) | .request (.webDeleteScript name token) =>
      Admits runtime s.now s.store.committed token → ScriptFree s.store.committed name
  | _ => True

section
variable {runtime}

instance (s : Shared) : (event : Event) → Decidable (Spares runtime s event)
  | .request (.deleteMachine _ token) | .request (.webDeleteMachine _ token) =>
      inferInstanceAs (Decidable (Admits runtime _ _ token → _))
  | .request (.deleteScript _ token) | .request (.webDeleteScript _ token) =>
      inferInstanceAs (Decidable (Admits runtime _ _ token → _))
  | .wait _ | .request (.register ..) | .request (.webRegister ..) | .request (.createScript ..)
  | .request (.webCreateScript ..) | .request (.submit ..) | .request (.webSubmit ..)
  | .request (.syncStates ..) | .request (.stateBadge ..) | .request (.restage ..) => isTrue trivial

theorem idle_step {s : Shared} {event : Event} (idle : Idle s) : Idle (step runtime s event) := by
  cases event with
  | wait seconds => exact idle.tick seconds
  | request request =>
    have kept (statement : Statement) (rows : Rows) : True → (fun _ : Rows => True) (statement.run 0 rows).2 := id
    exact (idle.request (does_keeping kept _ trivial trivial)).1

theorem faithful_step {s : Shared} {event : Event} (referential : Referential s.store.committed)
    (idle : Idle s) (spares : Spares runtime s event) :
    Faithful s.store.committed (step runtime s event).store.committed := by
  have done : ∀ {work : Work Answer}, Does Whatever s.now (Ends s.store.committed) work
      s.store.committed s.store.committed →
        Faithful s.store.committed ((withSession work).run (handle 0) s).2.store.committed := by
    intro work does
    obtain ⟨committed, _, there, _, ended⟩ := (does_withSession does s idle).run
    rw [there.committed]
    exact ended
  have links : ∀ {work : Work Answer}, (work.Keeps (Found s.store.committed) (Links s.store.committed)
      fun _ => True) →
        Faithful s.store.committed ((withSession work).run (handle 0) s).2.store.committed :=
    fun keeps => faithful_links referential idle keeps
  cases event with
  | wait seconds => exact faithful_refl referential
  | request request =>
    cases request with
    | register registration token => exact done (ends_apiRegister referential registration)
    | webRegister registration token => exact done (ends_webRegister referential registration)
    | deleteMachine machineId token => exact done (ends_apiDeleteMachine referential spares)
    | webDeleteMachine machineId token => exact done (ends_webDeleteMachine referential spares)
    | createScript body token => exact done (ends_apiCreateScript referential body)
    | webCreateScript name content metaYaml token =>
      exact done (ends_webCreateScript referential name content metaYaml)
    | deleteScript name token => exact done (ends_apiDeleteScript referential spares)
    | webDeleteScript name token => exact done (ends_webDeleteScript referential spares)
    | submit c machineId body jobUuid token =>
      exact links (keeps_submitJob machineId body jobUuid token)
    | webSubmit c machineId scriptName form jobUuid token =>
      exact links (keeps_runSubmit machineId scriptName form jobUuid token)
    | syncStates c machineId token => exact links (keeps_syncStates machineId token)
    | stateBadge c machineId scriptName token =>
      exact links (keeps_stateBadge machineId scriptName token)
    | restage c machineId scriptName token =>
      exact links (keeps_restage machineId scriptName token)

def Sound (s : Shared) : Prop := Referential s.store.committed ∧ Idle s

theorem sound_step {s : Shared} {event : Event} (sound : Sound s) (spares : Spares runtime s event) :
    Sound (step runtime s event) :=
  ⟨(faithful_step sound.1 sound.2 spares).referential, idle_step sound.2⟩

theorem keeps_run {s : Shared} {events : List Event} (sound : Sound s)
    (spares : Meets (step runtime) (Spares runtime) s events) :
    ∀ job ∈ s.store.committed.jobs,
      job ∈ (Runs.run (step runtime) s events).store.committed.jobs ∧
        SameOwner s.store.committed (Runs.run (step runtime) s events).store.committed
          job.machineId job.scriptId := by
  induction events generalizing s with
  | nil => exact fun job member => ⟨member, SameOwner.refl _ _ _⟩
  | cons event rest ih =>
    intro job member
    have keeps := (faithful_step sound.1 sound.2 spares.1).keeps
    obtain ⟨later, same⟩ := keeps.jobs job member
    obtain ⟨last, ends⟩ := ih (sound_step sound spares.1) spares.2 job later
    exact ⟨last, same.trans ends⟩

end

/-- In every run of requests that register and delete machines, create and delete scripts, sync and
submit, where no machine or script is deleted while rows that stay refer to it: all rows refer to
machines and scripts that there are, those they were written for, and what is new has no jobs and no
cached states. -/
theorem owners_are_kept (runtime : Runtime) (rows : Rows) (now : Nat) (starts : Referential rows)
    (events : List Event) (spares : Meets (step runtime) (Spares runtime) (opened rows now) events) :
    (∀ first rest, events = first ++ rest → Referential (reached runtime rows now first) ∧
      ∀ job ∈ (reached runtime rows now first).jobs, job ∈ (reached runtime rows now events).jobs ∧
        SameOwner (reached runtime rows now first) (reached runtime rows now events)
          job.machineId job.scriptId) ∧
    ∀ first event rest, events = first ++ event :: rest →
      KeepsOwners (reached runtime rows now first) (reached runtime rows now (first ++ [event])) ∧
        BornFree (reached runtime rows now first) (reached runtime rows now (first ++ [event])) := by
  have initial : Sound (opened rows now) := ⟨starts, opened_at rows now⟩
  have kept : ∀ s event, Sound s → Spares runtime s event → Sound (step runtime s event) :=
    fun _ _ => sound_step
  constructor
  · intro first rest split
    subst split
    obtain ⟨before, later⟩ := meets_append.mp spares
    have sound := invariant_run Sound kept initial before
    refine ⟨sound.1, ?_⟩
    unfold reached
    rw [run_append]
    exact keeps_run sound later
  · intro first event rest split
    subst split
    obtain ⟨before, later⟩ := meets_append.mp spares
    have sound := invariant_run Sound kept initial before
    unfold reached
    rw [run_snoc]
    have faithful := faithful_step sound.1 sound.2 later.1
    exact ⟨faithful.keeps, faithful.born⟩

/-! ## Two machines -/

def keeperRows : Rows := { Rows.empty with users := [⟨⟨1, .admin⟩, "ada", "", false⟩] }

def agreeable : Conversation where
  key := .ok ()
  opened := .ok ()
  ensured := .ok ()
  state _ name := .ok ⟨name, .approved, some (office.host.md5 "tar c ."), none⟩
  staged _ := .ok .pending
  submitted := .ok { jobUuid := "job-1", scriptName := "backup", status := .running, persistent := false, startedAt := "" }
  killed := .ok ()
  closed := .ok ()

def registers (name : String) : Event :=
  .request (.register ⟨⟨name, name⟩, .ok "linux", .ok ()⟩ (some "ada"))

def backups : List Event :=
  [registers "laptop", .request (.createScript ⟨"backup", "tar c .", none⟩ (some "ada")),
    .request (.submit agreeable 1 ⟨"backup", Dict.empty⟩ "job-1" (some "ada"))]

/-- The machine that is deleted has run nothing. -/
theorem owners_are_kept_after_delete :
    Referential (reached office keeperRows 0
      (backups ++ [registers "server", .request (.webDeleteMachine 2 (some "ada"))])) := by
  have kept := owners_are_kept office keeperRows 0 (by decide +kernel)
    (backups ++ [registers "server", .request (.webDeleteMachine 2 (some "ada"))]) (by decide +kernel)
  exact (kept.1 _ [] (List.append_nil _).symm).1

/-- The machine that has run the script is deleted, and the one that is registered next has its id,
its job and its cached state. -/
theorem job_changes_owner :
    ¬ Referential (reached office keeperRows 0
        (backups ++ [.request (.webDeleteMachine 1 (some "ada"))])) ∧
      ∃ machine ∈ (reached office keeperRows 0
          (backups ++ [.request (.webDeleteMachine 1 (some "ada")), registers "server"])).machines,
        machine.name = "server" ∧
        (∃ job ∈ (reached office keeperRows 0
            (backups ++ [.request (.webDeleteMachine 1 (some "ada")), registers "server"])).jobs,
          job.machineId = machine.id) ∧
        ∃ row ∈ (reached office keeperRows 0
            (backups ++ [.request (.webDeleteMachine 1 (some "ada")), registers "server"])).targetStates,
          row.1.1 = machine.id := by
  constructor
  · decide +kernel
  · decide +kernel

end Csl.Server.Session.Owners
