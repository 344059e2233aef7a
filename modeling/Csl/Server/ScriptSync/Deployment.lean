import Csl.Agent.Approvals.Sharing
import Csl.Server.ScriptRegistry
import Csl.Server.ScriptSync

/-! The control station's library over the agent of one machine.

The agent and the owner's command line work on one approvals.json, each with a manager of its
own. A request reads a script's row once and may stage it long after, when the library holds
another version.
-/

set_option autoImplicit false

namespace Csl.Server
open Csl.Shared Csl.Agent ApprovalsManager Sharing Runs

structure Deployment (platform : Platform) where
  tables : Tables platform
  agent : Shared
  launched : List Launch
  now : Timestamp
  /-- The rows that requests in flight have read. -/
  rows : Dict Nat Script

namespace Deployment
variable {platform : Platform}

def world (s : Deployment platform) : World :=
  ⟨s.agent.memory .agent, s.agent.disk, s.now, s.launched⟩

def left (s : Deployment platform) (w : World) : Deployment platform :=
  { s with agent := ⟨Function.update s.agent.memory .agent w.memory, w.disk⟩, launched := w.launched }

def cached (s : Deployment platform) (machineId scriptId : Nat) (state : TargetState)
    (approvedMd5 pendingMd5 : Option String) : Deployment platform :=
  { s with tables := { s.tables with
      targetStates := s.tables.targetStates.set (machineId, scriptId)
        ⟨state, approvedMd5, pendingMd5, s.now⟩ } }

@[simp] theorem left_world (s : Deployment platform) : s.left s.world = s := by
  simp [left, world]

@[simp] theorem left_left (s : Deployment platform) (first second : World) :
    (s.left first).left second = s.left second := by
  simp [left]

theorem world_left (s : Deployment platform) (w : World) (now : w.now = s.now) :
    (s.left w).world = w := by
  obtain ⟨memory, disk, _, launched⟩ := w
  cases now
  simp [left, world]

end Deployment

variable (platform : Platform) (autoApprove : Party → List String)

def answer : Request → Action Body
  | .getScriptState name => do
      return .descriptor (← getScriptState platform.host name)
  | .stageScript name content md5 metaYaml => do
      return .staged name (← stageScript platform.host (autoApprove .agent) name content md5 metaYaml)
  | .submitJob body => do
      return .job (← submitJob platform.host body)
  | .healthz | .getJobStatus _ | .killJob _ | .streamJobLogs .. => return .other

def successStatus : Request → Nat
  | .submitJob _ => 202
  | _ => 200

/-- An exception that escapes the agent's handler is answered with 500. -/
def respond (request : Request) : Except Err Body → Response
  | .ok body => ⟨successStatus request, body⟩
  | .error (.http status detail) => ⟨status, .detail detail⟩
  | .error _ => ⟨500, .unreadable⟩

/-- The meaning of the awaits when the machine is reachable and its agent runs. -/
def handle : Handler Op Reply Failure (Deployment platform)
  | .query statement, s =>
      let ends := statement.run s.now s.tables
      (.ok ends.1, { s with tables := ends.2 })
  | .utcNow, s => (.ok s.now, s)
  | .openTunnel _, s | .closeTunnel, s | .ensureAgentRunning, s => (.ok (), s)
  | .send request, s =>
      let ends := platform.host.run (answer platform autoApprove request) s.world
      (.ok (respond request ends.1), s.left ends.2)
  | .streamLogs _, s => (.ok ⟨[], none⟩, s)

abbrev Deployment.perform {A : Type} (task : Task A) (s : Deployment platform) :
    Except Failure A × Deployment platform := task.run (handle platform autoApprove) s

/-- What the owner does at the command line; a command constructs its manager first. -/
inductive OwnerCall where
  | construct
  | list
  | approve (name : String)
  | reject (name : String)
  | clear (name : String)
  deriving DecidableEq, Repr

def OwnerCall.call : OwnerCall → Call
  | .construct => .construct
  | .list => .listAll
  | .approve name => .mutate (.approve name)
  | .reject name => .mutate (.reject name)
  | .clear name => .mutate (.clear name)

inductive Event where
  | clock (now : Timestamp)
  | edit (edit : Edit)
  /-- A request reads the row of a script. -/
  | load (request : Nat) (name : String)
  /-- A request synchronises the script it has read. -/
  | sync (request : Nat)
  | restage (request : Nat)
  | owner (call : OwnerCall)
  | restartAgent
  deriving DecidableEq, Repr

def Script.stage (script : Script) : Mutation :=
  .stage script.name script.content script.md5 script.metaYaml

variable (machine : Machine)

def step (s : Deployment platform) : Event → Deployment platform
  | .clock now => { s with now }
  | .edit edit => { s with tables := edit.apply platform s.now s.tables }
  | .load request name => match s.tables.scripts.find name with
    | none => s
    | some script => { s with rows := s.rows.set request script }
  | .sync request => match s.rows.get? request with
    | none => s
    | some script => (s.perform platform autoApprove (syncScript machine script)).2
  | .restage request => match s.rows.get? request with
    | none => s
    | some script => (s.perform platform autoApprove (restage machine script)).2
  | .owner call =>
    { s with agent := Sharing.serve platform.host autoApprove s.agent ⟨s.now, .cli, call.call⟩ }
  | .restartAgent =>
    { s with agent := Sharing.serve platform.host autoApprove s.agent ⟨s.now, .agent, .construct⟩ }

def installed : Deployment platform :=
  ⟨⟨Dict.empty, [], .empty, Dict.empty, Dict.empty⟩, fresh, [], "", Dict.empty⟩

/-! ## The client's calls -/

variable {platform autoApprove}
variable (s : Deployment platform)

theorem perform_send (request : Request) :
    s.perform platform autoApprove (send request) =
      let ends := platform.host.run (answer platform autoApprove request) s.world
      (.ok (respond request ends.1), s.left ends.2) := Proc.run_perform _ _ _

/-- A manager that has just saved is in step with approvals.json. -/
theorem resynced_staged (host : Host) (names : List String) (w : World) (name content md5 : String)
    (metaYaml : Option String) :
    (w.staged host names name content md5 metaYaml).resynced host =
      w.staged host names name content md5 metaYaml := by
  apply World.Synced.resynced_eq
  exact World.saved_synced _

theorem perform_getScriptState (name : String) :
    s.perform platform autoApprove (AgentClient.getScriptState name) =
      if EndpointName name then
        (.ok (describe (s.world.resynced platform.host).memory.store name),
          s.left (s.world.resynced platform.host))
      else (.error (.httpStatus 422), s) := by
  by_cases endpoint : EndpointName name
  · simp [Deployment.perform, AgentClient.getScriptState, perform_send, answer, getScriptState,
      endpoint, run_getState, respond, successStatus, raiseForStatus]
  · simp [Deployment.perform, AgentClient.getScriptState, perform_send, answer, getScriptState,
      endpoint, invalidName, respond, raiseForStatus]

theorem perform_stageScript (name content md5 : String) (metaYaml : Option String) :
    s.perform platform autoApprove (AgentClient.stageScript name content md5 metaYaml) =
      if EndpointName name then
        if s.world.memory.store.stateOf name = .rejected then (.error (.httpStatus 409), s)
        else if AlreadyStaged s.world.memory.store name md5 then
          (.ok (s.world.memory.store.stateOf name), s)
        else
          (.ok (stagedRecord (decide (name ∈ autoApprove .agent))
              (s.world.memory.store.scripts.get? name) md5 s.now).state,
            s.left (s.world.staged platform.host (autoApprove .agent) name content md5 metaYaml))
      else (.error (.httpStatus 422), s) := by
  by_cases endpoint : EndpointName name
  · by_cases rejected : s.world.memory.store.stateOf name = .rejected
    · simp [Deployment.perform, AgentClient.stageScript, perform_send, answer, stageScript, endpoint,
        run_stage, rejected, isRejected, stageRefusal, respond, raiseForStatus]
    · by_cases same : AlreadyStaged s.world.memory.store name md5
      · simp [Deployment.perform, AgentClient.stageScript, perform_send, answer, stageScript, endpoint,
          run_stage, rejected, same, respond, successStatus, raiseForStatus]
      · simp [Deployment.perform, AgentClient.stageScript, perform_send, answer, stageScript, endpoint,
          run_stage, rejected, same, respond, successStatus, raiseForStatus]
        rfl
  · simp [Deployment.perform, AgentClient.stageScript, perform_send, answer, stageScript, endpoint,
      invalidName, respond, raiseForStatus]

theorem perform_upsertState (machineId scriptId : Nat) (resolved : TargetState)
    (found : ScriptDescriptor) :
    s.perform platform autoApprove (upsertState machineId scriptId resolved found) =
      (.ok (), s.cached machineId scriptId resolved found.approvedMd5 found.pendingMd5) :=
  Proc.run_perform _ _ _

theorem record_of_described {store : ApprovalsStore} {name : String}
    (approved : (describe store name).state = .approved) :
    ∃ record, store.scripts.get? name = some record ∧ describe store name = descriptor name record := by
  unfold describe at approved ⊢
  cases found : store.scripts.get? name with
  | none =>
    rw [found] at approved
    cases approved
  | some record => exact ⟨record, rfl, rfl⟩

theorem needsStaging_moves {script : Script} {store : ApprovalsStore}
    (needs : NeedsStaging script (describe store script.name)) :
    store.stateOf script.name ≠ .rejected ∧ ¬ AlreadyStaged store script.name script.md5 := by
  simp only [NeedsStaging, resolve, describe_state, describe_approvedMd5] at needs
  unfold AlreadyStaged
  rcases needs with absent | stale
  · simp [absent]
  · split at stale
    next other => simp [other.1, other.2]
    · cases stale

/-- What synchronising a script does: the agent looks at approvals.json, and the script is
staged when it is absent there or approved in another version. -/
theorem perform_syncScript (machine : Machine) (script : Script) :
    s.perform platform autoApprove (syncScript machine script) =
      if EndpointName script.name then
        let w := s.world.resynced platform.host
        let found := describe w.memory.store script.name
        if NeedsStaging script found then
          let staged := stagedRecord (decide (script.name ∈ autoApprove .agent))
            (w.memory.store.scripts.get? script.name) script.md5 s.now
          (.ok (.agent staged.state),
            (s.left (w.staged platform.host (autoApprove .agent) script.name script.content script.md5
              script.metaYaml)).cached machine.id script.id (.agent staged.state) found.approvedMd5
                found.pendingMd5)
        else
          (.ok (resolve script found), (s.left w).cached machine.id script.id (resolve script found)
            found.approvedMd5 found.pendingMd5)
      else (.error (.httpStatus 422), s) := by
  by_cases endpoint : EndpointName script.name
  · have looked := s.world_left (s.world.resynced platform.host) (World.now_resynced _ _)
    simp only [Deployment.perform, syncScript, Proc.run_bind, perform_getScriptState, if_pos endpoint,
      Proc.follow_ok]
    by_cases needs : NeedsStaging script (describe (s.world.resynced platform.host).memory.store script.name)
    · obtain ⟨notRejected, moves⟩ := needsStaging_moves needs
      simp only [if_pos needs, Proc.run_bind, perform_stageScript, if_pos endpoint, looked,
        if_neg notRejected, if_neg moves, Proc.follow_ok, Proc.run_pure, perform_upsertState]
      simp [Deployment.left]
    · simp only [if_neg needs, Proc.run_pure, Proc.follow_ok, Proc.run_bind, perform_upsertState]
  · simp only [Deployment.perform, syncScript, Proc.run_bind, perform_getScriptState, if_neg endpoint,
      Proc.follow_error]

theorem perform_openTunnel (machine : Machine) :
    s.perform platform autoApprove (openTunnel machine) = (.ok (), s) := Proc.run_perform _ _ _

theorem perform_closeTunnel : s.perform platform autoApprove closeTunnel = (.ok (), s) :=
  Proc.run_perform _ _ _

theorem perform_ensureAgentRunning :
    s.perform platform autoApprove ensureAgentRunning = (.ok (), s) := Proc.run_perform _ _ _

theorem perform_withAgent {A : Type} (machine : Machine) (body : Task A) :
    s.perform platform autoApprove (withAgent machine body) = s.perform platform autoApprove body := by
  simp only [Deployment.perform, withAgent, Proc.run_bind, perform_openTunnel, Proc.follow_ok,
    Proc.run_tryCatch]
  generalize body.run (handle platform autoApprove) s = ends
  rcases ends with ⟨e | result, after⟩
  · simp only [Proc.recoverWith_error, Proc.run_bind, perform_closeTunnel, Proc.follow_ok,
      Proc.run_throw, Proc.follow_error]
  · simp only [Proc.recoverWith_ok, Proc.follow_ok, Proc.run_bind, perform_closeTunnel, Proc.run_pure]

/-- What re-staging does: the script is staged unless the agent rejected it or holds its md5,
and then the agent looks at approvals.json. -/
theorem perform_restage (machine : Machine) (script : Script) :
    s.perform platform autoApprove (restage machine script) =
      if EndpointName script.name then
        if s.world.memory.store.stateOf script.name = .rejected then (.error (.httpStatus 409), s)
        else
          let w := if AlreadyStaged s.world.memory.store script.name script.md5 then
              s.world.resynced platform.host
            else s.world.staged platform.host (autoApprove .agent) script.name script.content script.md5
              script.metaYaml
          let found := describe w.memory.store script.name
          (.ok (some (.agent found.state)), (s.left w).cached machine.id script.id (.agent found.state)
            found.approvedMd5 found.pendingMd5)
      else (.error (.httpStatus 422), s) := by
  have body := fun (after : Deployment platform) (found : ScriptDescriptor) =>
    @perform_upsertState platform autoApprove after machine.id script.id (.agent found.state) found
  simp only [Deployment.perform] at body
  simp only [Deployment.perform, restage, Proc.run_bind, Proc.run_tryCatch, perform_withAgent,
    perform_ensureAgentRunning, Proc.follow_ok, perform_stageScript]
  by_cases endpoint : EndpointName script.name
  · by_cases rejected : s.world.memory.store.stateOf script.name = .rejected
    · simp [endpoint, rejected, Failure.isAgentClientError]
    · by_cases same : AlreadyStaged s.world.memory.store script.name script.md5
      · simp only [if_pos endpoint, if_neg rejected, if_pos same, Proc.follow_ok, Proc.run_bind,
          perform_getScriptState, Proc.run_pure, Proc.recoverWith_ok, body]
      · have looked := s.world_left (s.world.staged platform.host (autoApprove .agent) script.name
          script.content script.md5 script.metaYaml) rfl
        simp only [if_pos endpoint, if_neg rejected, if_neg same, Proc.follow_ok, Proc.run_bind,
          perform_getScriptState, looked, resynced_staged, Proc.run_pure, Proc.recoverWith_ok, body,
          Deployment.left_left]
  · simp [endpoint, Failure.isAgentClientError]

/-! ## What a step leaves alone -/

@[simp] theorem Deployment.cached_agent (machineId scriptId : Nat) (state : TargetState)
    (approvedMd5 pendingMd5 : Option String) :
    (s.cached machineId scriptId state approvedMd5 pendingMd5).agent = s.agent := rfl

def Deployment.server (s : Deployment platform) : Dict Nat Script × Library platform.host :=
  (s.rows, s.tables.scripts)

theorem scripts_of_server {first second : Deployment platform} (same : first.server = second.server) :
    first.rows = second.rows ∧ first.tables.scripts = second.tables.scripts := Prod.mk.inj same

theorem server_syncScript (machine : Machine) (script : Script) :
    (s.perform platform autoApprove (syncScript machine script)).2.server = s.server := by
  rw [perform_syncScript]
  by_cases endpoint : EndpointName script.name
  · simp only [if_pos endpoint]
    split <;> rfl
  · rw [if_neg endpoint]

theorem server_restage (machine : Machine) (script : Script) :
    (s.perform platform autoApprove (restage machine script)).2.server = s.server := by
  rw [perform_restage]
  by_cases endpoint : EndpointName script.name
  · simp only [if_pos endpoint]
    split <;> rfl
  · rw [if_neg endpoint]

theorem disk_resynced (host : Host) (w : World) : (w.resynced host).disk = w.disk := by
  unfold World.resynced
  split <;> rfl

variable {s}

theorem synced_resynced (coherent : Coherent platform.host s.agent) :
    (s.world.resynced platform.host).Synced platform.host := by
  unfold World.resynced
  split
  next same => exact ⟨same.symm, coherent.store .agent same.symm⟩
  next => exact ⟨rfl, rfl⟩

theorem coherent_resynced (coherent : Coherent platform.host s.agent) :
    Coherent platform.host (s.left (s.world.resynced platform.host)).agent := by
  unfold World.resynced
  split
  · exact coherent_reread coherent .agent (.inl rfl)
  · exact coherent_reread coherent .agent (.inr rfl)

theorem coherent_staged (coherent : Coherent platform.host s.agent) {w : World}
    (same : w.disk = s.agent.disk) (names : List String) (script : Script) :
    Coherent platform.host (s.left (w.staged platform.host names script.name script.content script.md5
      script.metaYaml)).agent := by
  have later := writes_finished platform.host w.disk names
    (.stage script.name script.content script.md5 script.metaYaml)
  rw [same] at later
  apply coherent_saved coherent .agent
  rw [same]
  exact later

theorem coherent_step (machine : Machine) (coherent : Coherent platform.host s.agent) (event : Event) :
    Coherent platform.host (step platform autoApprove machine s event).agent := by
  cases event with
  | clock now | edit edit => exact coherent
  | load request name =>
    simp only [step]
    split <;> exact coherent
  | owner call => exact coherent_serve coherent _
  | restartAgent => exact coherent_serve coherent _
  | sync request =>
    simp only [step]
    split
    · exact coherent
    next script _ =>
      -- synchronising looks first, so that what it stages is staged in step with the file
      rw [perform_syncScript]
      by_cases endpoint : EndpointName script.name
      · simp only [if_pos endpoint]
        split
        · exact coherent_staged coherent (disk_resynced _ _) _ script
        · exact coherent_resynced coherent
      · rw [if_neg endpoint]
        exact coherent
  | restage request =>
    simp only [step]
    split
    · exact coherent
    next script _ =>
      rw [perform_restage]
      by_cases endpoint : EndpointName script.name
      · simp only [if_pos endpoint]
        split
        · exact coherent
        · dsimp only [Deployment.cached_agent]
          split
          · exact coherent_resynced coherent
          · exact coherent_staged coherent rfl _ script
      · rw [if_neg endpoint]
        exact coherent

/-! ## What a step does with approvals.json -/

inductive Makes (s : Deployment platform) : Event → Party → Mutation → Prop where
  | sync {request : Nat} {script : Script} :
      s.rows.get? request = some script → EndpointName script.name →
      NeedsStaging script (describe (s.agent.disk.loaded platform.host) script.name) →
      Makes s (.sync request) .agent script.stage
  | restage {request : Nat} {script : Script} :
      s.rows.get? request = some script → EndpointName script.name →
      script.stage.Effective platform.host s.world → Makes s (.restage request) .agent script.stage
  | owner {call : OwnerCall} {mutation : Mutation} :
      call.call = .mutate mutation → mutation.Effective platform.host (s.agent.world .cli s.now) →
      Makes s (.owner call) .cli mutation

/-- Whoever mutates has looked at approvals.json since it was last written. Synchronising looks
first. -/
def Current (s : Deployment platform) : Event → Prop
  | .restage _ => (s.agent.memory .agent).sig = s.agent.disk.currentSig platform.host
  | .owner _ => (s.agent.memory .cli).sig = s.agent.disk.currentSig platform.host
  | _ => True

/-- The files after a step: those before it, or those one mutation leaves that is applied to the
contents of approvals.json. -/
inductive Leaves (autoApprove : Party → List String) (s : Deployment platform) (event : Event) :
    Disk → Prop where
  | same : Leaves autoApprove s event s.agent.disk
  | mutated {party : Party} {mutation : Mutation} {w : World} :
      Makes s event party mutation → w.Synced platform.host → w.disk = s.agent.disk →
      Leaves autoApprove s event
        (platform.host.run (mutation.action platform.host (autoApprove party)) w).2.disk

theorem leaves_syncScript (machine : Machine) (coherent : Coherent platform.host s.agent) {request : Nat}
    {script : Script} (found : s.rows.get? request = some script) :
    Leaves autoApprove s (.sync request)
      (s.perform platform autoApprove (syncScript machine script)).2.agent.disk := by
  have synced := synced_resynced coherent
  have disk := disk_resynced platform.host s.world
  rw [perform_syncScript]
  by_cases endpoint : EndpointName script.name
  · simp only [if_pos endpoint]
    generalize s.world.resynced platform.host = w at synced disk ⊢
    by_cases needs : NeedsStaging script (describe w.memory.store script.name)
    · obtain ⟨notRejected, moves⟩ := needsStaging_moves needs
      have staged := Mutation.run_stage_moves platform.host (autoApprove .agent) notRejected moves
        script.content script.metaYaml
      rw [if_pos needs]
      rw [synced.store, disk] at needs
      have leaves := @Leaves.mutated platform autoApprove s _ _ _ w (.sync found endpoint needs) synced disk
      rw [Script.stage, staged] at leaves
      exact leaves
    · rw [if_neg needs]
      change Leaves autoApprove s _ w.disk
      rw [disk]
      exact .same
  · rw [if_neg endpoint]
    exact .same

theorem leaves_restage (machine : Machine) (coherent : Coherent platform.host s.agent) {request : Nat}
    {script : Script} (found : s.rows.get? request = some script)
    (current : ∀ party mutation, Makes s (.restage request) party mutation → Current s (.restage request)) :
    Leaves autoApprove s (.restage request)
      (s.perform platform autoApprove (restage machine script)).2.agent.disk := by
  rw [perform_restage]
  by_cases endpoint : EndpointName script.name
  · rw [if_pos endpoint]
    by_cases rejected : s.world.memory.store.stateOf script.name = .rejected
    · rw [if_pos rejected]
      exact .same
    · rw [if_neg rejected]
      by_cases same : AlreadyStaged s.world.memory.store script.name script.md5
      · simp only [if_pos same]
        change Leaves autoApprove s _ (s.world.resynced platform.host).disk
        rw [disk_resynced]
        exact .same
      · simp only [if_neg same]
        have staged := Mutation.run_stage_moves platform.host (autoApprove .agent) rejected same
          script.content script.metaYaml
        have makes : Makes s (.restage request) .agent script.stage :=
          .restage found endpoint ⟨rejected, same⟩
        have upToDate := current _ _ makes
        have leaves := @Leaves.mutated platform autoApprove s _ _ _ s.world makes
          ⟨upToDate, coherent.store .agent upToDate⟩ rfl
        rw [Script.stage, staged] at leaves
        exact leaves
  · rw [if_neg endpoint]
    exact .same

theorem leaves_owner (coherent : Coherent platform.host s.agent) (call : OwnerCall)
    (current : ∀ party mutation, Makes s (.owner call) party mutation → Current s (.owner call)) :
    Leaves autoApprove s (.owner call)
      (Sharing.serve platform.host autoApprove s.agent ⟨s.now, .cli, call.call⟩).disk := by
  have mutated : ∀ mutation, call.call = .mutate mutation → Leaves autoApprove s (.owner call)
      (platform.host.run (mutation.action platform.host (autoApprove .cli))
        (s.agent.world .cli s.now)).2.disk := by
    intro mutation same
    rcases mutation.run_cases (autoApprove .cli) (s.agent.world .cli s.now) with unchanged | effective
    · rw [unchanged]
      exact .same
    · have upToDate := current _ _ (.owner same effective)
      exact .mutated (.owner same effective) ⟨upToDate, coherent.store .cli upToDate⟩ rfl
  cases call with
  | construct =>
    simp only [Sharing.serve, OwnerCall.call, Call.action, run_init, Shared.world]
    exact .same
  | list =>
    simp only [Sharing.serve, OwnerCall.call, Call.action, Proc.run_bind, run_listAll, Proc.follow_ok,
      Proc.run_pure, disk_resynced, Shared.world]
    exact .same
  | approve name | reject name | clear name => exact mutated _ rfl

theorem leaves_step (machine : Machine) (coherent : Coherent platform.host s.agent) {event : Event}
    (current : ∀ party mutation, Makes s event party mutation → Current s event) :
    Leaves autoApprove s event (step platform autoApprove machine s event).agent.disk := by
  cases event with
  | clock | edit => exact .same
  | load request name =>
    simp only [step]
    split <;> exact .same
  | sync request =>
    simp only [step]
    split
    · exact .same
    next script found => exact leaves_syncScript machine coherent found
  | restage request =>
    simp only [step]
    split
    · exact .same
    next script found => exact leaves_restage machine coherent found current
  | owner call => exact leaves_owner coherent call current
  | restartAgent =>
    simp only [step, Sharing.serve, Call.action, run_init, Shared.world]
    exact .same

theorem scripts_step (machine : Machine) {event : Event} (other : ∀ edit, event ≠ .edit edit) :
    (step platform autoApprove machine s event).tables.scripts = s.tables.scripts := by
  cases event with
  | edit edit => exact absurd rfl (other edit)
  | clock | owner | restartAgent => rfl
  | load request name =>
    simp only [step]
    split <;> rfl
  | sync request =>
    simp only [step]
    split
    · rfl
    next script _ => exact (scripts_of_server (server_syncScript s machine script)).2
  | restage request =>
    simp only [step]
    split
    · rfl
    next script _ => exact (scripts_of_server (server_restage s machine script)).2

theorem rows_step (machine : Machine) {event : Event} {request : Nat} {script : Script}
    (read : (step platform autoApprove machine s event).rows.get? request = some script) :
    s.rows.get? request = some script ∨ s.tables.scripts.find script.name = some script := by
  cases event with
  | clock | edit | owner | restartAgent => exact .inl read
  | load reader name =>
    simp only [step] at read
    split at read
    · exact .inl read
    next row canonical =>
      rw [Dict.get?_set] at read
      split at read
      · obtain rfl := Option.some.inj read
        rw [s.tables.scripts.named name row canonical]
        exact .inr canonical
      · exact .inl read
  | sync reader =>
    simp only [step] at read
    split at read
    · exact .inl read
    next row _ =>
      rw [(scripts_of_server (server_syncScript s machine row)).1] at read
      exact .inl read
  | restage reader =>
    simp only [step] at read
    split at read
    · exact .inl read
    next row _ =>
      rw [(scripts_of_server (server_restage s machine row)).1] at read
      exact .inl read

end Csl.Server
