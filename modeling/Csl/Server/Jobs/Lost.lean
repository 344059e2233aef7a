import Csl.Library.Calls
import Csl.Server.Jobs.ResolvedVersion

/-! Jobs that run and have no row.

Both submit handlers insert the row of a job once the agent has answered and the tunnel is closed.
What is launched before an answer gets lost is known to the agent alone.
-/

set_option autoImplicit false

namespace Csl.Server
open Csl.Shared Csl.Agent Proc

namespace LostJobs

/-- Agents of any behaviour: what is answered, and whether a posted job is launched, may depend on
all the calls before, and neither on the other. -/
structure Agents where
  answer : List Op → (op : Op) → Except Failure (Reply op)
  launches : List Op → JobRequest → Bool

structure Post where
  before : List Op
  request : JobRequest

def Post.op (post : Post) : Op := .send (.submitJob post.request)

structure Station (platform : Platform) where
  tables : Tables platform
  calls : List Op
  launched : List Post
  now : Timestamp

variable {platform : Platform}

def Agents.handle (agents : Agents) : Handler Op Reply Failure (Station platform)
  | .query statement, s =>
      let ran := statement.run s.now s.tables
      (.ok ran.1, { s with tables := ran.2 })
  | .send (.submitJob request), s =>
      (agents.answer s.calls (.send (.submitJob request)),
        { s with
          calls := s.calls ++ [.send (.submitJob request)]
          launched := if agents.launches s.calls request then s.launched ++ [⟨s.calls, request⟩] else s.launched })
  | op, s => (agents.answer s.calls op, { s with calls := s.calls ++ [op] })

def Answered (agents : Agents) (post : Post) : Prop :=
  ∃ response answer, agents.answer post.before post.op = .ok response ∧
    (200 ≤ response.status ∧ response.status < 300) ∧ response.body = .job answer

/-- The answer comes through, and the tunnel is closed without an exception. -/
def Delivered (agents : Agents) (post : Post) : Prop :=
  Answered agents post ∧ agents.answer (post.before ++ [post.op]) .closeTunnel = .ok ()

def Listed (jobUuid : String) (s : Station platform) : Prop :=
  (∃ post ∈ s.launched, post.request.jobUuid = jobUuid) → ∃ job, s.tables.jobs.get? jobUuid = some job

section
variable {agents : Agents} {jobUuid : String}

/-! ## What is known of a submission between its calls -/

def Idle (jobUuid : String) (s : Station platform) : Prop :=
  s.tables.jobs.get? jobUuid = none ∧ s.launched = []

/-- There is no row, and what was launched, if anything, was not answered for. -/
def Doomed (agents : Agents) (jobUuid : String) (s : Station platform) : Prop :=
  s.tables.jobs.get? jobUuid = none ∧
    (s.launched = [] ∨ ∃ post ∈ s.launched, post.request.jobUuid = jobUuid ∧ ¬ Delivered agents post)

def Told (agents : Agents) (jobUuid : String) (s : Station platform) : Prop :=
  s.tables.jobs.get? jobUuid = none ∧
    (s.launched = [] ∨ ∃ post, s.launched = [post] ∧ post.request.jobUuid = jobUuid ∧
      s.calls = post.before ++ [post.op] ∧ Answered agents post)

def Ready (agents : Agents) (jobUuid : String) (s : Station platform) : Prop :=
  s.tables.jobs.get? jobUuid = none ∧ ∀ post ∈ s.launched, post.request.jobUuid = jobUuid → Delivered agents post

/-- The job is listed exactly if the agent's word of it came through. -/
def Settled (agents : Agents) (jobUuid : String) (s : Station platform) : Prop :=
  Listed jobUuid s ↔ ∀ post ∈ s.launched, post.request.jobUuid = jobUuid → Delivered agents post

theorem Idle.doomed {s : Station platform} (idle : Idle jobUuid s) : Doomed agents jobUuid s := ⟨idle.1, .inl idle.2⟩

theorem Doomed.settled {s : Station platform} (doomed : Doomed agents jobUuid s) : Settled agents jobUuid s := by
  obtain ⟨noRow, nothing | ⟨post, launched, own, lost⟩⟩ := doomed
  · unfold Settled Listed
    rw [nothing]
    simp
  · apply iff_of_false
    · intro listed
      obtain ⟨job, row⟩ := listed ⟨post, launched, own⟩
      cases noRow.symm.trans row
    · exact fun delivered => lost (delivered post launched own)

def Preparing : Op → Prop
  | .query (.insertJob _) | .query (.updateJob ..) | .send (.submitJob _) => False
  | _ => True

variable (agents) in
theorem keeps_rows {op : Op} (preparing : Preparing op) (s : Station platform) :
    (agents.handle op s).2.tables.jobs = s.tables.jobs ∧ (agents.handle op s).2.launched = s.launched := by
  cases op with
  | query statement => cases statement <;> first | exact preparing.elim | exact ⟨rfl, rfl⟩
  | send request => cases request <;> first | exact preparing.elim | exact ⟨rfl, rfl⟩
  | _ => exact ⟨rfl, rfl⟩

theorem idle_preparing (op : Op) (s : Station platform) (preparing : Preparing op) (idle : Idle jobUuid s) :
    Idle jobUuid (agents.handle op s).2 := by
  obtain ⟨jobs, launched⟩ := keeps_rows agents preparing s
  exact ⟨by rw [jobs, idle.1], by rw [launched, idle.2]⟩

variable (agents) in
theorem doomed_preparing (op : Op) (s : Station platform) (preparing : Preparing op)
    (doomed : Doomed agents jobUuid s) : Doomed agents jobUuid (agents.handle op s).2 := by
  obtain ⟨jobs, launched⟩ := keeps_rows agents preparing s
  unfold Doomed
  rw [jobs, launched]
  exact doomed

/-! ## Along a submission -/

theorem raiseRefusal_success {response : Response} (success : 200 ≤ response.status ∧ response.status < 300) :
    AgentClient.raiseRefusal response = pure () := by
  have notConflict : response.status ≠ 409 := by omega
  have notInvalid : response.status ≠ 422 := by omega
  rw [AgentClient.raiseRefusal, if_neg notConflict, if_neg notInvalid]

theorem raiseRefusal_cases (response : Response) :
    AgentClient.raiseRefusal response = pure () ∨ ∃ e, AgentClient.raiseRefusal response = throw e := by
  unfold AgentClient.raiseRefusal
  split
  · split <;> simp
  · split
    · split <;> simp
    · exact .inl rfl

abbrev Ends {A : Type} (agents : Agents) (ends : Except Failure A → Station platform → Prop) (task : Task A)
    (s : Station platform) : Prop :=
  task.Leads agents.handle (fun _ _ => True) ends s

theorem ends_call (op : Op) {ends : Except Failure (Reply op) → Station platform → Prop} {s : Station platform}
    (ended : ends (agents.handle op s).1 (agents.handle op s).2) : Ends agents ends (call op) s :=
  leads_perform trivial ended

theorem ends_prepared {A B : Type} {task : Task A} {next : A → Task B} {s : Station platform}
    {ends : Except Failure B → Station platform → Prop} (uses : task.Uses Preparing) (idle : Idle jobUuid s)
    (failed : ∀ e s, Idle jobUuid s → ends (.error e) s)
    (rest : ∀ a s, Idle jobUuid s → Ends agents ends (next a) s) : Ends agents ends (task >>= next) s := by
  apply leads_bind
  apply (uses.leads idle_preparing idle).mono
  intro result after idle
  cases result with
  | ok a => exact rest a after idle
  | error e => exact failed e after idle

def Posted (agents : Agents) (jobUuid : String) {A : Type} : Except Failure A → Station platform → Prop
  | .ok _, s => Told agents jobUuid s
  | .error _, s => Doomed agents jobUuid s

theorem ends_submitJob {request : JobRequest} {s : Station platform} (own : request.jobUuid = jobUuid)
    (idle : Idle jobUuid s) : Ends agents (Posted agents jobUuid) (AgentClient.submitJob request) s := by
  let post : Post := ⟨s.calls, request⟩
  let posted : Station platform := (agents.handle post.op s).2
  have noRow : posted.tables.jobs.get? jobUuid = none := idle.1
  have launched : posted.launched = [] ∨ posted.launched = [post] := by
    by_cases launches : agents.launches s.calls request = true
    · right
      change (if _ then _ else _) = _
      rw [if_pos launches, idle.2]
      rfl
    · left
      change (if _ then _ else _) = _
      rw [if_neg launches, idle.2]
  have lost (notAnswered : ¬ Answered agents post) : Doomed agents jobUuid posted := by
    refine ⟨noRow, launched.imp id fun only => ⟨post, ?_, own, fun delivered => notAnswered delivered.1⟩⟩
    rw [only]
    exact List.mem_singleton_self post
  have heard (answered : Answered agents post) : Told agents jobUuid posted :=
    ⟨noRow, launched.imp id fun only => ⟨post, only, own, rfl, answered⟩⟩
  apply leads_bind
  apply ends_call post.op
  change Leads.Onward _ _ _ _ (agents.answer s.calls post.op) posted
  cases answer : agents.answer s.calls post.op with
  | error e =>
    apply lost
    rintro ⟨response, status, replied, -⟩
    cases answer.symm.trans replied
  | ok response =>
    -- an answer that is no job's is not heard
    have unread (other : ¬ ((200 ≤ response.status ∧ response.status < 300) ∧ ∃ found, response.body = .job found)) :
        Doomed agents jobUuid posted := by
      apply lost
      rintro ⟨replied, found, same, success, body⟩
      cases answer.symm.trans same
      exact other ⟨success, found, body⟩
    change Ends agents (Posted agents jobUuid) (AgentClient.raiseRefusal response >>= fun _ =>
      raiseForStatus response >>= fun _ => _) posted
    by_cases success : 200 ≤ response.status ∧ response.status < 300
    · simp only [raiseRefusal_success success, raiseForStatus, if_pos success, Proc.pure_bind]
      cases body : response.body with
      | job found => exact heard ⟨response, found, answer, success, body⟩
      | _ => exact unread fun read => by simp [body] at read
    · rcases raiseRefusal_cases response with passes | ⟨e, refuses⟩
      · simp only [passes, raiseForStatus, if_neg success, Proc.pure_bind, Proc.throw_bind]
        exact unread fun read => success read.1
      · simp only [refuses, Proc.throw_bind]
        exact unread fun read => success read.1

/-- How a part of a submission ends that posts the job, or returns a value that carries none. -/
def Part (agents : Agents) (jobUuid : String) {A : Type} (carries : A → Prop) (told : Station platform → Prop) :
    Except Failure A → Station platform → Prop
  | .ok a, s => (carries a → told s) ∧ (¬ carries a → Idle jobUuid s)
  | .error _, s => Doomed agents jobUuid s

theorem ends_withAgent {A : Type} {carries : A → Prop} {machine : Machine} {body : Task A} {s : Station platform}
    (idle : Idle jobUuid s)
    (posts : ∀ s : Station platform, Idle jobUuid s →
      Ends agents (Part agents jobUuid carries (Told agents jobUuid)) body s) :
    Ends agents (Part agents jobUuid carries (Ready agents jobUuid)) (withAgent machine body) s := by
  have opens : (openTunnel machine).Uses Preparing := uses_perform trivial
  apply ends_prepared opens idle
  · exact fun e after idle => idle.doomed
  intro _ opened idle
  apply leads_bind
  apply leads_tryCatch
  apply (posts opened idle).mono
  intro result after part
  cases result with
  | error e =>
    -- The tunnel is closed and the exception raised on.
    apply leads_bind
    apply ends_call .closeTunnel
    have doomed := doomed_preparing agents .closeTunnel after trivial part
    generalize (agents.handle .closeTunnel after).1 = closed
    cases closed with
    | error closing => exact doomed
    | ok _ => exact doomed
  | ok a =>
    apply leads_bind
    apply ends_call .closeTunnel
    obtain ⟨told, idle⟩ := part
    change Leads.Onward _ _ _ _ (agents.answer after.calls .closeTunnel) _
    cases closing : agents.answer after.calls .closeTunnel with
    | error e =>
      by_cases carried : carries a
      · obtain ⟨noRow, nothing | ⟨post, only, own, last, answered⟩⟩ := told carried
        · exact ⟨noRow, .inl nothing⟩
        · refine ⟨noRow, .inr ⟨post, ?_, own, ?_⟩⟩
          · change post ∈ after.launched
            rw [only]
            exact List.mem_singleton_self post
          · rintro ⟨-, closes⟩
            rw [← last, closing] at closes
            cases closes
      · exact (idle_preparing .closeTunnel after trivial (idle carried)).doomed
    | ok _ =>
      refine ⟨fun carried => ?_, fun carries => idle_preparing .closeTunnel after trivial (idle carries)⟩
      obtain ⟨noRow, nothing | ⟨post, only, own, last, answered⟩⟩ := told carried
      · refine ⟨noRow, fun post launched => ?_⟩
        change post ∈ after.launched at launched
        rw [nothing] at launched
        cases launched
      · refine ⟨noRow, fun other launched _ => ?_⟩
        change other ∈ after.launched at launched
        rw [only] at launched
        cases List.mem_singleton.mp launched
        exact ⟨answered, by rw [← last, closing]⟩

theorem ends_insertJob {fields : JobFields} {s : Station platform} (own : fields.jobUuid = jobUuid)
    (ready : Ready agents jobUuid s) :
    Ends agents (fun _ s => Settled agents jobUuid s) (insertJob fields) s := by
  apply ends_call (.query (.insertJob fields))
  apply iff_of_true
  · intro _
    rw [← own]
    exact ⟨_, Dict.get?_set_self _ _ _⟩
  · exact ready.2

/-! ## The handlers -/

theorem syncs_preparing : Syncs Preparing :=
  ⟨fun _ => trivial, fun _ _ _ _ => trivial, fun _ _ _ _ _ => trivial⟩

theorem ends_checked {A : Type} {user : User} {machineId : Nat} {name : String} {s : Station platform}
    {rest : Machine → Script → Task A} (idle : Idle jobUuid s)
    (settles : ∀ machine script (s : Station platform), Idle jobUuid s →
      Ends agents (fun _ s => Settled agents jobUuid s) (rest machine script) s) :
    Ends agents (fun _ s => Settled agents jobUuid s)
      (Api.getMachineOr404 machineId >>= fun machine => Api.assertAccess user machineId >>= fun _ =>
        Api.getScriptOr404 platform name >>= rest machine) s := by
  have refused (e : Failure) (s : Station platform) (idle : Idle jobUuid s) : Settled agents jobUuid s :=
    idle.doomed.settled
  apply ends_prepared (uses_getMachineOr404 trivial) idle refused
  intro machine s idle
  apply ends_prepared (uses_assertAccess trivial) idle refused
  intro _ s idle
  apply ends_prepared (uses_getScriptOr404 trivial) idle refused
  exact fun script s idle => settles machine script s idle

theorem ends_refusal {carries : JobStatusResponse → Prop} {machine : Machine} {script : Script} {name : String}
    {s : Station platform} (doomed : Doomed agents jobUuid s) (e : Failure) :
    Ends agents (Part agents jobUuid carries (Told agents jobUuid)) (Api.refusal platform machine script name e) s := by
  cases e with
  | agentApproval =>
    apply leads_bind
    apply ((uses_syncScript syncs_preparing machine script).leads (doomed_preparing agents) doomed).mono
    intro result after doomed
    cases result with
    | ok resolved => exact doomed
    | error e => exact doomed
  | _ => exact leads_throw doomed

theorem ends_submitJobApi {user : User} {machineId : Nat} {body : Api.SubmitJobIn} {s : Station platform}
    (idle : Idle jobUuid s) :
    Ends agents (fun _ s => Settled agents jobUuid s) (Api.submitJob platform user machineId body jobUuid) s := by
  apply ends_checked idle
  intro machine script s idle
  apply leads_bind
  apply (@ends_withAgent _ agents jobUuid _ (fun _ => True) machine _ s idle ?_).mono
  · intro result after part
    cases result with
    | ok answer => exact ends_insertJob rfl (part.1 trivial)
    | error e => exact Doomed.settled part
  · intro s idle
    have wakes : ensureAgentRunning.Uses Preparing := uses_perform trivial
    apply ends_prepared wakes idle fun e s idle => idle.doomed
    intro _ s idle
    apply ends_prepared (uses_syncScript syncs_preparing machine script) idle fun e s idle => idle.doomed
    intro resolved s idle
    by_cases approved : resolved ≠ .agent .approved
    · rw [if_pos approved]
      exact leads_throw idle.doomed
    · rw [if_neg approved]
      apply leads_tryCatch
      apply (ends_submitJob rfl idle).mono
      intro result after posted
      cases result with
      | ok answer => exact ⟨fun _ => posted, fun none => absurd trivial none⟩
      | error e => exact ends_refusal posted e

theorem ends_runSubmit {user : User} {machineId : Nat} {name : String} {form : Script → Params}
    {s : Station platform} (idle : Idle jobUuid s) :
    Ends agents (fun _ s => Settled agents jobUuid s) (Web.runSubmit platform user machineId name form jobUuid) s := by
  apply ends_checked idle
  intro machine script s idle
  apply leads_bind
  apply leads_tryCatch
  apply (@ends_withAgent _ agents jobUuid _ (fun submitted => ∃ answer, submitted = .ok answer) machine _ s idle ?_).mono
  · intro result after part
    cases result with
    | error e =>
      by_cases refused : e.isAgentClientError = true
      · simp only [Leads.Rescued, if_pos refused]
        exact Doomed.settled part
      · simp only [Leads.Rescued, if_neg refused]
        exact Doomed.settled part
    | ok submitted =>
      cases submitted with
      | error page => exact (part.2 nofun).doomed.settled
      | ok answer =>
        apply leads_bind
        apply (ends_insertJob rfl (part.1 ⟨answer, rfl⟩)).mono
        intro result after settled
        cases result <;> exact settled
  · intro s idle
    have wakes : ensureAgentRunning.Uses Preparing := uses_perform trivial
    apply ends_prepared wakes idle fun e s idle => idle.doomed
    intro _ s idle
    apply ends_prepared (uses_syncScript syncs_preparing machine script) idle fun e s idle => idle.doomed
    intro resolved s idle
    by_cases approved : resolved ≠ .agent .approved
    · rw [if_pos approved]
      -- nothing was posted, and the dialog is shown again
      exact ⟨nofun, fun _ => idle⟩
    · rw [if_neg approved]
      apply leads_bind
      apply (ends_submitJob rfl idle).mono
      intro result after posted
      cases result with
      | ok answer => exact ⟨fun _ => posted, fun none => absurd ⟨answer, rfl⟩ none⟩
      | error e => exact posted

end

section
open Installation Agent.Installation ResolvedVersion

def launching (outcome : Except Failure Response) : Agents where
  answer _
    | .query _ => .error .undecodable
    | .utcNow => .ok "12:00"
    | .openTunnel _ | .closeTunnel | .ensureAgentRunning => .ok ()
    | .send (.getScriptState name) => .ok ⟨200, .descriptor ⟨name, .approved, some md5One, none⟩⟩
    | .send (.submitJob _) => outcome
    | .send _ => .ok ⟨200, .other⟩
    | .streamLogs _ => .ok ⟨[], none⟩
  launches _ _ := true

def jsonSubmission : Submission := .json ⟨2, .user⟩ 1 ⟨"deploy", Dict.empty⟩ jobUuid

def submittedTo (agents : Agents) (submission : Submission) : Except Failure Submission.Answer × Station station :=
  (submission.handler station).run agents.handle ⟨published.tables, [], [], "12:00"⟩

def running : JobStatusResponse := ⟨jobUuid, "deploy", .running, false, "12:00", none, none⟩

end

end LostJobs

end Csl.Server
