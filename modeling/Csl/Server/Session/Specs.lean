import Csl.Server.Api.Scripts
import Csl.Server.Session.Alone
import Csl.Server.Session.Jobs

/-! What the functions that the routes share do in a request without others. -/

set_option autoImplicit false

namespace Csl.Server.Session
open Csl.Shared Csl.Agent Transactions Proc

variable {runtime : Runtime} {A B : Type} {publishes : Rows → Rows → Prop} {now : Nat} {committed view : Rows}
  {ends : Except Raised A → Rows → Rows → Prop}

theorem does_liftRaised {result : Except Raised B} {next : B → Work A}
    (passes : ∀ b, result = .ok b → Does publishes now ends (next b) committed view)
    (refuses : ∀ e, ends (.error e) committed view) :
    Does publishes now ends (liftRaised result >>= next) committed view := by
  apply does_bind
  cases result with
  | ok b => exact does_pure (passes b rfl)
  | error e => exact does_throw (refuses e)

theorem does_hear {result : Except Failure B} {next : B → Work A}
    (passes : ∀ b, result = .ok b → Does publishes now ends (next b) committed view)
    (refuses : ∀ e, ends (.error e) committed view) :
    Does publishes now ends (hear result >>= next) committed view := by
  apply does_bind
  cases result with
  | ok b => exact does_pure (passes b rfl)
  | error e => exact does_throw (refuses _)

theorem does_raiseRegistry {result : Except RegistryError B} {next : B → Work A}
    (passes : ∀ b, result = .ok b → Does publishes now ends (next b) committed view)
    (refuses : ∀ e, ends (.error e) committed view) :
    Does publishes now ends (raiseRegistry result >>= next) committed view := by
  apply does_bind
  cases result with
  | ok b => exact does_pure (passes b rfl)
  | error e => exact does_throw (refuses _)

theorem does_createScript {name content : String} {metaYaml : Option String} {userId : Nat}
    {next : ScriptFields → Work A}
    (passes : (∀ script ∈ view.scripts, script.name ≠ name) → validateMeta runtime.toPlatform metaYaml = .ok () →
      Does publishes now ends
        (next (versionFields runtime name content metaYaml userId (runtime.timestamp now))) committed view)
    (refuses : ∀ e, ends (.error e) committed view) :
    Does publishes now ends (createScript runtime name content metaYaml userId >>= next) committed view := by
  apply does_bind
  apply does_select rfl
  · intro existing answered
    cases existing with
    | some _ => exact does_throw (refuses _)
    | none =>
      apply does_raiseRegistry
      · intro _ valid
        apply does_utcNow
        have free : ∀ script ∈ view.scripts, script.name ≠ name :=
          fun script member => of_decide_eq_false (unique_none answered script member)
        exact does_pure (passes free valid)
      · exact refuses
  · exact refuses

theorem does_getScriptOrRaise {name : String} {next : Script → Work A}
    (passes : ∀ script ∈ view.scripts, script.name = name → Does publishes now ends (next script) committed view)
    (refuses : ∀ e, ends (.error e) committed view) :
    Does publishes now ends (getScriptOrRaise name >>= next) committed view := by
  apply does_bind
  apply does_select rfl
  · intro found answered
    cases found with
    | none => exact does_throw (refuses _)
    | some script =>
      obtain ⟨member, same⟩ := unique_some answered
      exact does_pure (passes script member (of_decide_eq_true same))
  · exact refuses

theorem does_updateScript {name content : String} {metaYaml : Option String} {userId : Nat}
    {next : Script × ScriptFields → Work A}
    (passes : ∀ script ∈ view.scripts, script.name = name → validateMeta runtime.toPlatform metaYaml = .ok () →
      Does publishes now ends
        (next (script, versionFields runtime script.name content metaYaml userId (runtime.timestamp now)))
        committed view)
    (refuses : ∀ e, ends (.error e) committed view) :
    Does publishes now ends (updateScript runtime name content metaYaml userId >>= next) committed view := by
  apply does_bind
  apply does_getScriptOrRaise
  · intro script member same
    apply does_raiseRegistry
    · intro _ valid
      apply does_utcNow
      exact does_pure (passes script member same valid)
    · exact refuses
  · exact refuses

def withoutStates (rows : Rows) (scriptId : Nat) : Rows :=
  { rows with targetStates := rows.targetStates.filter (·.1.2 ≠ scriptId) }

theorem does_deleteScript {name : String} {next : Script → Work A}
    (passes : ∀ script ∈ view.scripts, script.name = name →
      Does publishes now ends (next script) committed (withoutStates view script.id))
    (refuses : ∀ e, ends (.error e) committed view) :
    Does publishes now ends (deleteScript name >>= next) committed view := by
  apply does_bind
  apply does_getScriptOrRaise
  · intro script member same
    apply does_run
    · intro _ _
      exact does_pure (passes script member same)
    · intro e failed
      cases failed
  · exact refuses

theorem does_getMachineOr404 {machineId : Nat} {next : Machine → Work A}
    (passes : ∀ machine ∈ view.machines, machine.id = machineId →
      Does publishes now ends (next machine) committed view)
    (refuses : ∀ e, ends (.error e) committed view) :
    Does publishes now ends (getMachineOr404 machineId >>= next) committed view := by
  apply does_bind
  apply does_select rfl
  · intro found answered
    cases found with
    | none => exact does_throw (refuses _)
    | some machine =>
      obtain ⟨member, same⟩ := unique_some answered
      exact does_pure (passes machine member (of_decide_eq_true same))
  · exact refuses

theorem does_assertAccess {user : Account} {machineId : Nat} {next : Unit → Work A}
    (passes : (user.role = .admin ∨ (user.id, machineId) ∈ view.userMachines) →
      Does publishes now ends (next ()) committed view)
    (refuses : ∀ e, ends (.error e) committed view) :
    Does publishes now ends (assertAccess user machineId >>= next) committed view := by
  apply does_bind
  rw [assertAccess]
  split_ifs with admin
  · exact does_pure (passes (.inl admin))
  · apply does_select rfl
    · intro bookmarked answered
      cases bookmarked with
      | true =>
        have member : (user.id, machineId) ∈ view.userMachines := by
          simpa [Statement.run] using answered
        exact does_pure (passes (.inr member))
      | false => exact does_throw (refuses _)
    · exact refuses

theorem does_getScriptOr404 {name : String} {next : Script → Work A}
    (passes : ∀ script ∈ view.scripts, script.name = name → Does publishes now ends (next script) committed view)
    (refuses : ∀ e, ends (.error e) committed view) :
    Does publishes now ends (getScriptOr404 runtime name >>= next) committed view := by
  apply does_bind
  apply does_select rfl
  · intro found answered
    cases found with
    | none => exact does_throw (refuses _)
    | some script =>
      obtain ⟨member, same⟩ := unique_some answered
      exact does_pure (passes script member (of_decide_eq_true same))
  · exact refuses

theorem does_getJobOr404 {jobUuid : String} {next : Job → Work A}
    (passes : ∀ job ∈ view.jobs, job.jobUuid = jobUuid → Does publishes now ends (next job) committed view)
    (refuses : ∀ e, ends (.error e) committed view) :
    Does publishes now ends (getJobOr404 jobUuid >>= next) committed view := by
  apply does_bind
  apply does_select rfl
  · intro found answered
    cases found with
    | none => exact does_throw (refuses _)
    | some job =>
      obtain ⟨member, same⟩ := unique_some answered
      exact does_pure (passes job member (of_decide_eq_true same))
  · exact refuses

theorem does_refreshScript {script : Script} {next : Script → Work A}
    (passes : ∀ fresh, Does publishes now ends (next fresh) committed view)
    (refuses : ∀ e, ends (.error e) committed view) :
    Does publishes now ends (Api.refreshScript script >>= next) committed view := by
  apply does_bind
  apply does_select rfl
  · intro found _
    cases found with
    | none => exact does_throw (refuses _)
    | some fresh => exact does_pure (passes fresh)
  · exact refuses

/-! ## New rows -/

theorem lt_nextRowid {ids : List Nat} {id : Nat} (member : id ∈ ids) : id < nextRowid ids := by
  suffices bound : ∀ (ids : List Nat) (start : Nat), start ≤ ids.foldl max start ∧
      ∀ id ∈ ids, id ≤ ids.foldl max start by
    have least := (bound ids 0).2 id member
    unfold nextRowid
    omega
  intro ids
  induction ids with
  | nil => simp
  | cons first rest ih =>
    intro start
    obtain ⟨least, members⟩ := ih (max start first)
    rw [List.foldl_cons]
    constructor
    · omega
    · intro id member
      rcases List.mem_cons.mp member with same | later
      · omega
      · exact members id later

theorem insertMachine_ok {rows : Rows} {name platform : String} {machine : Machine}
    (inserted : (rows.insertMachine name platform).1 = .ok machine) :
    (rows.insertMachine name platform).2 = { rows with machines := rows.machines ++ [machine] } ∧
      machine.name = name ∧ ∀ other ∈ rows.machines, other.id ≠ machine.id := by
  unfold Rows.insertMachine at inserted ⊢
  split_ifs at inserted ⊢
  cases inserted
  refine ⟨rfl, rfl, ?_⟩
  intro other member same
  have less := lt_nextRowid (List.mem_map_of_mem (f := (·.id)) member)
  exact absurd same (Nat.ne_of_lt less)

theorem insertScript_ok {rows : Rows} {fields : ScriptFields} {script : Script}
    (inserted : (rows.insertScript fields).1 = .ok script) :
    (rows.insertScript fields).2 = { rows with scripts := rows.scripts ++ [script] } ∧
      script.name = fields.name ∧ ∀ other ∈ rows.scripts, other.id ≠ script.id := by
  unfold Rows.insertScript at inserted ⊢
  split_ifs at inserted ⊢
  cases inserted
  refine ⟨rfl, rfl, ?_⟩
  intro other member same
  have less := lt_nextRowid (List.mem_map_of_mem (f := (·.id)) member)
  exact absurd same (Nat.ne_of_lt less)

theorem insertJob_taken {rows : Rows} {fields : JobFields} {job : Job} (member : job ∈ rows.jobs)
    (same : job.jobUuid = fields.jobUuid) : rows.insertJob fields = (.error .integrity, rows) := by
  have taken : rows.jobs.any (·.jobUuid = fields.jobUuid) = true :=
    List.any_eq_true.mpr ⟨job, member, decide_eq_true same⟩
  unfold Rows.insertJob
  rw [if_pos taken]

theorem does_registerMachineFromInput {registration : Registration} {adminId : Nat} {next : Machine → Work A}
    (registers : ∀ (machine : Machine) (after : Rows), machine.name = registration.body.name →
      (∀ other ∈ view.machines, other.id ≠ machine.id) →
      after = { view with
        machines := view.machines ++ [machine]
        auditLog := view.auditLog ++ [⟨some adminId, "machine.register", "machine", toString machine.id, "success",
          [("name", machine.name), ("ssh_host", registration.body.sshHost), ("platform", machine.platform)]⟩] } →
      publishes committed after ∧ (∀ fresh, Does publishes now ends (next fresh) after after) ∧
        ∀ e, ends (.error e) after after)
    (refuses : ∀ e, ends (.error e) committed view) :
    Does publishes now ends (registerMachineFromInput runtime registration adminId >>= next) committed view := by
  apply does_bind
  apply does_liftRaised
  · intro platform _
    apply does_select rfl
    · intro existing _
      cases existing with
      | some _ => exact does_throw (refuses _)
      | none =>
        apply does_liftRaised
        · intro _ _
          apply does_run
          · intro machine inserted
            obtain ⟨added, named, fresh⟩ := insertMachine_ok inserted
            obtain ⟨publish, onward, fails⟩ := registers machine _ named fresh rfl
            change Does _ _ _ _ _ (view.insertMachine registration.body.name platform).2
            rw [added]
            apply does_recordAudit
            apply does_commit publish
            apply does_select rfl
            · intro found _
              cases found with
              | none => exact does_throw (fails _)
              | some machine => exact does_pure (onward machine)
            · exact fails
          -- an insert that fails leaves the rows
          · intro e failed
            have same : (Statement.run 0 view (.insertMachine registration.body.name platform)).2 = view := by
              simp only [Statement.run, Rows.insertMachine] at failed ⊢
              split_ifs at failed ⊢
              rfl
            rw [same]
            exact refuses e
        · exact refuses
    · exact refuses
  · exact refuses

theorem does_insertScript {fields : ScriptFields} {next : Script → Work A}
    (inserts : ∀ script : Script, script.name = fields.name → (∀ other ∈ view.scripts, other.id ≠ script.id) →
      Does publishes now ends (next script) committed { view with scripts := view.scripts ++ [script] })
    (refuses : ∀ e, ends (.error e) committed view) :
    Does publishes now ends (run (.insertScript fields) >>= next) committed view := by
  apply does_run
  · intro script inserted
    obtain ⟨added, named, fresh⟩ := insertScript_ok inserted
    change Does _ _ _ _ _ (view.insertScript fields).2
    rw [added]
    exact inserts script named fresh
  · intro e failed
    have same : (Statement.run 0 view (.insertScript fields)).2 = view := by
      simp only [Statement.run, Rows.insertScript] at failed ⊢
      split_ifs at failed ⊢
      rfl
    rw [same]
    exact refuses e

end Csl.Server.Session
