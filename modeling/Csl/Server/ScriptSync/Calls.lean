import Csl.Library.Interference
import Csl.Server.ScriptSync

/-! The calls that the client's functions are made of. -/

set_option autoImplicit false

namespace Csl.Server
open Csl.Shared Csl.Agent Proc

variable {allowed : Op → Prop}

theorem uses_withAgent {A : Type} {machine : Machine} {body : Task A}
    (opens : allowed (.openTunnel machine)) (closes : allowed .closeTunnel) (uses : body.Uses allowed) :
    (withAgent machine body).Uses allowed := by
  refine uses_bind (uses_perform opens) fun _ => ?_
  apply uses_bind
  · apply uses_tryCatch uses
    exact fun e => uses_bind (uses_perform closes) fun _ => uses_throw
  · exact fun result => uses_bind (uses_perform closes) fun _ => uses_pure

theorem uses_raiseForStatus (response : Response) : (raiseForStatus response).Uses allowed := by
  unfold raiseForStatus
  split <;> trivial

theorem uses_raiseRefusal (response : Response) : (AgentClient.raiseRefusal response).Uses allowed := by
  unfold AgentClient.raiseRefusal
  split
  · split <;> trivial
  · split
    · split <;> trivial
    · trivial

theorem uses_decoded {A : Type} {request : Request} {decode : Response → Task A}
    (sends : allowed (.send request)) (decodes : ∀ response, (decode response).Uses allowed) :
    (send request >>= fun response => raiseForStatus response >>= fun _ => decode response).Uses allowed :=
  uses_bind (uses_perform sends) fun response =>
    uses_bind (uses_raiseForStatus response) fun _ => decodes response

theorem uses_getScriptState {name : String} (sends : allowed (.send (.getScriptState name))) :
    (AgentClient.getScriptState name).Uses allowed := by
  apply uses_decoded sends
  intro response
  split <;> trivial

theorem uses_stageScript {name content md5 : String} {metaYaml : Option String}
    (sends : allowed (.send (.stageScript name content md5 metaYaml))) :
    (AgentClient.stageScript name content md5 metaYaml).Uses allowed := by
  apply uses_decoded sends
  intro response
  split <;> trivial

theorem uses_submitJob {request : JobRequest} (sends : allowed (.send (.submitJob request))) :
    (AgentClient.submitJob request).Uses allowed := by
  refine uses_bind (uses_perform sends) fun response => ?_
  refine uses_bind (uses_raiseRefusal response) fun _ => ?_
  refine uses_bind (uses_raiseForStatus response) fun _ => ?_
  split <;> trivial

theorem uses_getJobStatus {jobUuid : String} (sends : allowed (.send (.getJobStatus jobUuid))) :
    (AgentClient.getJobStatus jobUuid).Uses allowed := by
  apply uses_decoded sends
  intro response
  split <;> trivial

theorem uses_killJob {jobUuid : String} (sends : allowed (.send (.killJob jobUuid))) :
    (AgentClient.killJob jobUuid).Uses allowed :=
  uses_bind (uses_perform sends) fun response => uses_raiseForStatus response

structure Syncs (allowed : Op → Prop) : Prop where
  state : ∀ name, allowed (.send (.getScriptState name))
  stage : ∀ name content md5 metaYaml, allowed (.send (.stageScript name content md5 metaYaml))
  save : ∀ machineId scriptId state approvedMd5 pendingMd5,
    allowed (.query (.saveTargetState machineId scriptId state approvedMd5 pendingMd5))

theorem uses_syncScript (syncs : Syncs allowed) (machine : Machine) (script : Script) :
    (syncScript machine script).Uses allowed := by
  refine uses_bind (uses_getScriptState (syncs.state _)) fun found => ?_
  have saved : ∀ resolved, (do
      upsertState machine.id script.id resolved found
      return resolved : Task TargetState).Uses allowed :=
    fun resolved => uses_bind (uses_perform (syncs.save _ _ _ _ _)) fun _ => uses_pure
  split
  · exact uses_bind (uses_stageScript (syncs.stage _ _ _ _)) fun staged => saved _
  · exact saved _

end Csl.Server
