import Csl.Agent.Jobs.Submission
import Csl.Library.Recorded
import Csl.Server.Installation
import Csl.Server.Jobs.Calls
import Csl.Server.ScriptSync.Calls
import Csl.Server.ScriptSync.Deployment
import Csl.Server.Web.Machines

/-! The version a submission runs.

Both submit handlers synchronise the row they have read and then post the job. Between the two
another request may have a newer version approved. Only the JSON handler tells the agent which
version it resolved.
-/

set_option autoImplicit false

namespace Csl.Server
open Csl.Shared Csl.Agent ApprovalsManager Proc

inductive Submission where
  | json (user : User) (machineId : Nat) (body : Api.SubmitJobIn) (jobUuid : String)
  | web (user : User) (machineId : Nat) (scriptName : String) (form : Script → Params) (jobUuid : String)

namespace Submission

inductive Answer where
  | row (job : Job)
  | page (page : Web.RunPage)
  deriving DecidableEq

def handler (platform : Platform) : Submission → Task Answer
  | json user machineId body jobUuid => do
      return .row (← Api.submitJob platform user machineId body jobUuid)
  | web user machineId scriptName form jobUuid => do
      return .page (← Web.runSubmit platform user machineId scriptName form jobUuid)

def jobUuid : Submission → String
  | json _ _ _ jobUuid | web _ _ _ _ jobUuid => jobUuid

/-- What the handler posts to the agent once it has read the script's row. -/
def request (script : Script) : Submission → JobRequest
  | json _ _ body jobUuid => Api.jobRequest script body jobUuid
  | web _ _ scriptName form jobUuid => Web.jobRequest script scriptName (form script) jobUuid

@[simp] theorem request_jobUuid (submission : Submission) (script : Script) :
    (submission.request script).jobUuid = submission.jobUuid := by
  cases submission <;> rfl

/-- The request was not refused: the job's row or the redirect to it is answered. -/
def Accepted : Except Failure Answer → Prop
  | .ok (.row _) | .ok (.page (.redirect ..)) => True
  | _ => False

end Submission

namespace ResolvedVersion
open Submission

variable (platform : Platform) (autoApprove : Sharing.Party → List String)

/-- What happens between two awaits of a request: an event of the deployment, or the next call
of another request. -/
inductive Meanwhile (machine : Machine) (s : Deployment platform) : Deployment platform → Prop where
  | event (event : Event) : Meanwhile machine s (step platform autoApprove machine s event)
  | request (op : Op) : Meanwhile machine s (handle platform autoApprove op s).2

abbrev Calls := Log Op (Deployment platform)

variable {platform}

def resolved (calls : Calls platform) : Option Script :=
  calls.findSome? fun (op, s) => match op with
    | .query (.findScript name) => s.tables.scripts.find name
    | _ => none

def posts (calls : Calls platform) : List (JobRequest × Deployment platform) :=
  calls.filterMap fun (op, s) => match op with
    | .send (.submitJob body) => some (body, s)
    | _ => none

def launches (post : JobRequest × Deployment platform) : List Launch :=
  (handle platform autoApprove (.send (.submitJob post.1)) post.2).2.launched.drop post.2.launched.length

/-- Whatever a request had launched is the version it resolved. -/
def RunsResolved (calls : Calls platform) : Prop :=
  ∀ post ∈ posts calls, ∀ launch ∈ launches autoApprove post,
    ∃ script, resolved calls = some script ∧ launch.content.map platform.host.md5 = some script.md5

def Launched (calls : Calls platform) : Prop := ∃ post ∈ posts calls, launches autoApprove post ≠ []

/-- When the agent serves the posted job and lets it through, the approved version is the one
the request resolved. -/
def StillApproved (calls : Calls platform) (post : JobRequest × Deployment platform) : Prop :=
  Passes platform.host post.2.world post.1 →
    (describe (post.2.world.resynced platform.host).memory.store post.1.scriptName).approvedMd5 =
      (resolved calls).map (·.md5)

/-- The request came in over the JSON API, or no newer version was approved in between. -/
def Undisturbed (submission : Submission) (calls : Calls platform) : Prop :=
  match submission with
  | .json .. => True
  | .web .. => ∀ post ∈ posts calls, StillApproved calls post

variable {autoApprove}

/-! ## The calls of a request -/

theorem resolved_append (calls : Calls platform) (op : Op) (s : Deployment platform) :
    resolved (calls ++ [(op, s)]) = (resolved calls).or (resolved [(op, s)]) := by
  simp [resolved, List.findSome?_append]

theorem posts_append (calls : Calls platform) (op : Op) (s : Deployment platform) :
    posts (calls ++ [(op, s)]) = posts calls ++ posts [(op, s)] := by
  simp [posts]

def Quiet : Op → Prop
  | .query (.findScript _) | .send (.submitJob _) => False
  | _ => True

theorem quiet_silent {op : Op} (quiet : Quiet op) (s : Deployment platform) :
    resolved [(op, s)] = none ∧ posts [(op, s)] = [] := by
  cases op with
  | query statement => cases statement <;> first | exact quiet.elim | exact ⟨rfl, rfl⟩
  | send request => cases request <;> first | exact quiet.elim | exact ⟨rfl, rfl⟩
  | _ => exact ⟨rfl, rfl⟩

def Fresh (calls : Calls platform) : Prop := resolved calls = none ∧ posts calls = []

/-- The row has been read, and whatever was posted is the job for it. -/
def Posts (submission : Submission) (script : Script) (calls : Calls platform) : Prop :=
  resolved calls = some script ∧ ∀ post ∈ posts calls, post.1 = submission.request script

def For (submission : Submission) (script : Script) (op : Op) : Prop :=
  Quiet op ∨ op = .send (.submitJob (submission.request script))

theorem fresh_quiet (calls : Calls platform) (op : Op) (s : Deployment platform) (quiet : Quiet op)
    (fresh : Fresh calls) : Fresh (calls ++ [(op, s)]) := by
  obtain ⟨unread, silent⟩ := quiet_silent quiet s
  unfold Fresh
  rw [resolved_append, posts_append, fresh.1, fresh.2, unread, silent]
  exact ⟨rfl, rfl⟩

theorem posts_for {submission : Submission} {script : Script} (calls : Calls platform) (op : Op)
    (s : Deployment platform) (may : For submission script op) (before : Posts submission script calls) :
    Posts submission script (calls ++ [(op, s)]) := by
  unfold Posts
  rw [resolved_append, posts_append, before.1]
  refine ⟨rfl, ?_⟩
  intro post member
  rcases List.mem_append.mp member with earlier | now
  · exact before.2 post earlier
  · rcases may with quiet | rfl
    · rw [(quiet_silent quiet s).2] at now
      cases now
    · rw [List.mem_singleton.mp now]

theorem lasting_launched : Lasting (@Launched platform autoApprove) := by
  intro calls entry held
  obtain ⟨post, member, launched⟩ := held
  refine ⟨post, ?_, launched⟩
  rw [posts_append]
  exact List.mem_append_left _ member

/-! ## What the handlers call -/

theorem quiet_syncs : Syncs Quiet :=
  ⟨fun _ => trivial, fun _ _ _ _ => trivial, fun _ _ _ _ _ => trivial⟩

variable {others : List Op → Deployment platform → Deployment platform → Prop}

def Ends {A : Type} (autoApprove : Sharing.Party → List String) (submission : Submission)
    (good : A → Prop) (result : Except Failure A) (past : List Op)
    (s : Deployment platform × Calls platform) : Prop :=
  (Fresh s.2 ∨ ∃ script, Posts submission script s.2) ∧ Yields good (Launched autoApprove) result past s

def Looked (result : Except Failure Script) (_ : List Op) (s : Deployment platform × Calls platform) :
    Prop :=
  match result with
  | .ok script => resolved s.2 = some script ∧ posts s.2 = []
  | .error _ => Fresh s.2

theorem stable_looked (result : Except Failure Script) :
    Stable (Aside others) (@Looked platform result) := by
  intro past s next before moved
  cases result <;> simpa only [Looked, moved.2] using before

theorem along_getScriptOr404 {name : String} {past : List Op} {s : Deployment platform × Calls platform}
    (fresh : Fresh s.2) :
    (Api.getScriptOr404 platform name).Along (recorded (handle platform autoApprove)) (Aside others)
      Looked past s := by
  apply along_perform (Of Fresh) (stable_of Fresh) fresh
  intro s' fresh
  have added : resolved [(Op.query (.findScript name), s'.1)] = s'.1.tables.scripts.find name := by
    simp only [resolved, List.findSome?_cons]
    cases s'.1.tables.scripts.find name <;> rfl
  have reads : resolved (s'.2 ++ [(Op.query (.findScript name), s'.1)]) = s'.1.tables.scripts.find name ∧
      posts (s'.2 ++ [(Op.query (.findScript name), s'.1)]) = [] := by
    rw [resolved_append, posts_append, fresh.1, fresh.2, added]
    exact ⟨rfl, rfl⟩
  have replied : recorded (handle platform autoApprove) (.query (.findScript name)) s' =
      (.ok (s'.1.tables.scripts.find name), s'.1, s'.2 ++ [(Op.query (.findScript name), s'.1)]) := rfl
  rw [replied]
  cases found : s'.1.tables.scripts.find name with
  | none =>
    rw [found] at reads
    change (throw _ : Task Script).Along (recorded (handle platform autoApprove)) (Aside others) Looked _ _
    exact along_throw (stable_looked _) reads
  | some script =>
    rw [found] at reads
    change (pure script : Task Script).Along (recorded (handle platform autoApprove)) (Aside others) Looked _ _
    exact along_pure (stable_looked _) reads

/-- A handler reads the row of the script once, and then posts the job for it or nothing. -/
theorem along_resolves {A : Type} {submission : Submission} {user : User} {machineId : Nat}
    {name : String} {good : A → Prop} {rest : Machine → Script → Task A}
    (uses : ∀ machine script, (rest machine script).Uses (For submission script))
    (earns : ∀ machine script past s, (rest machine script).Along (recorded (handle platform autoApprove))
      (Aside others) (Yields good (Launched autoApprove)) past s) (s : Deployment platform) :
    (Api.getMachineOr404 machineId >>= fun machine => Api.assertAccess user machineId >>= fun _ =>
      Api.getScriptOr404 platform name >>= rest machine).Along (recorded (handle platform autoApprove))
        (Aside others) (Ends autoApprove submission good) [] (s, []) := by
  have failed : ∀ (e : Failure) (all : List Op) (final : Deployment platform × Calls platform),
      Fresh final.2 → Ends autoApprove submission good (.error e) all final :=
    fun e all final fresh => ⟨.inl fresh, nofun⟩
  apply along_seq _ (along_recorded fresh_quiet (uses_getMachineOr404 trivial) ⟨rfl, rfl⟩) failed
  intro machine all final fresh
  apply along_seq _ (along_recorded fresh_quiet (uses_assertAccess trivial) fresh) failed
  intro _ all final fresh
  apply along_seq _ (along_getScriptOr404 fresh) failed
  intro script all final looked
  have posts : Posts submission script final.2 :=
    ⟨looked.1, fun post member => absurd member (looked.2 ▸ List.not_mem_nil)⟩
  apply Along.mono ((along_recorded posts_for (uses machine script) posts).and
    (earns machine script all final))
  intro result all final held
  exact ⟨.inr ⟨script, held.1⟩, held.2⟩

/-! ## What the handlers return -/

-- The rules are used from here on, and unfolding programs would only slow the elaborator down.
attribute [local irreducible] Along

section
variable {past : List Op} {s : Deployment platform × Calls platform}

theorem yields_withAgent {A : Type} {machine : Machine} {body : Task A} {good : A → Prop}
    (earns : ∀ past s, body.Along (recorded (handle platform autoApprove)) (Aside others)
      (Yields good (Launched autoApprove)) past s) :
    (withAgent machine body).Along (recorded (handle platform autoApprove)) (Aside others)
      (Yields good (Launched autoApprove)) past s := by
  refine yields_after fun _ all final => yields_bind good ?_ ?_
  · refine yields_tryCatch (earns all final) ?_
    exact fun e all final => yields_after fun _ all final => yields_throw
  · intro result all final held
    exact yields_then_pure lasting_launched held

theorem handle_submitJob (body : JobRequest) (s : Deployment platform) :
    handle platform autoApprove (.send (.submitJob body)) s =
      (.ok (respond (.submitJob body) ((platform.host.run (submitJob platform.host body) s.world).1.map .job)),
        s.left (platform.host.run (submitJob platform.host body) s.world).2) := by
  simp only [handle, answer, run_bind]
  rcases ran : platform.host.run (submitJob platform.host body) s.world with ⟨e | found, after⟩
  · simp only [ran, follow_error, Except.map]
  · simp only [ran, follow_ok, run_pure, Except.map]

theorem post_cases {body : JobRequest} (inLogs : InLogs platform.host body.jobUuid)
    (s : Deployment platform) :
    (∃ launch, launches autoApprove (body, s) = [launch] ∧ Carries platform.host s.world body launch) ∨
      launches autoApprove (body, s) = [] ∧
        ∃ response, (handle platform autoApprove (.send (.submitJob body)) s).1 = .ok response ∧
          ∀ found, response.body ≠ .job found := by
  have ends := @submitJob_ends platform.host s.world body inLogs
  rw [launches, handle_submitJob]
  generalize platform.host.run (submitJob platform.host body) s.world = served at ends ⊢
  obtain ⟨returned, after⟩ := served
  cases ends with
  | @launched _ _ launch more carries =>
    refine .inl ⟨launch, ?_, carries⟩
    change after.launched.drop s.launched.length = [launch]
    rw [more]
    exact List.drop_left
  | @refused e _ kept =>
    refine .inr ⟨?_, respond (.submitJob body) (.error e), rfl, ?_⟩
    · change after.launched.drop s.launched.length = []
      rw [kept]
      exact List.drop_length
    · cases e <;> exact nofun

theorem yields_submitJob {submission : Submission} (script : Script)
    (inLogs : InLogs platform.host submission.jobUuid) :
    (AgentClient.submitJob (submission.request script)).Along (recorded (handle platform autoApprove))
      (Aside others) (Yields (fun _ => True) (Launched autoApprove)) past s := by
  apply along_perform (fun _ _ => True) (fun _ _ _ _ _ => trivial) trivial
  intro s' _
  rw [← submission.request_jobUuid script] at inLogs
  rcases @post_cases platform autoApprove _ inLogs s'.1 with
    ⟨launch, launched, _⟩ | ⟨_, response, replied, other⟩
  · have entered : Launched autoApprove (s'.2 ++ [(.send (.submitJob (submission.request script)), s'.1)]) := by
      refine ⟨(submission.request script, s'.1), ?_, ?_⟩
      · rw [posts_append]
        exact List.mem_append_right _ (List.mem_singleton_self _)
      · rw [launched]
        exact nofun
    cases replied : (handle platform autoApprove (.send (.submitJob (submission.request script))) s'.1).1 with
    | error e =>
      simp only [recorded, replied, Resumes]
      exact yields_throw
    | ok response =>
      simp only [recorded, replied, Resumes]
      exact yields_of_holds lasting_launched entered
  · simp only [recorded, replied, Resumes]
    refine yields_after fun _ _ _ => yields_after fun _ _ _ => ?_
    exact yields_throw

end

theorem uses_refusal {submission : Submission} (machine : Machine) (script : Script) (name : String)
    (e : Failure) : (Api.refusal platform machine script name e).Uses (For submission script) := by
  cases e with
  | agentApproval =>
    apply uses_bind ((uses_syncScript quiet_syncs machine script).mono fun _ quiet => .inl quiet)
    exact fun _ => uses_throw
  | _ => trivial

theorem along_json (user : User) (machineId : Nat) (body : Api.SubmitJobIn) {jobUuid : String}
    (inLogs : InLogs platform.host jobUuid) (s : Deployment platform) :
    (Api.submitJob platform user machineId body jobUuid).Along (recorded (handle platform autoApprove))
      (Aside others) (Ends autoApprove (.json user machineId body jobUuid) fun _ => True) [] (s, []) := by
  refine along_resolves ?_ ?_ s
  · intro machine script
    apply uses_bind
    · apply uses_withAgent (.inl trivial) (.inl trivial)
      refine uses_bind (uses_perform (.inl trivial)) fun _ => ?_
      refine uses_bind ((uses_syncScript quiet_syncs machine script).mono fun _ quiet => .inl quiet)
        fun resolved => ?_
      split
      · exact uses_throw
      · exact uses_tryCatch (uses_submitJob (.inr rfl)) (uses_refusal machine script body.scriptName)
    · exact fun answer => uses_perform (.inl trivial)
  · intro machine script past s
    refine yields_bind (fun _ => True) (yields_withAgent fun past s => ?_) ?_
    · refine yields_after fun _ _ _ => yields_after fun resolved _ _ => ?_
      split
      · exact yields_throw
      · refine yields_tryCatch ?_ ?_
        · exact @yields_submitJob platform autoApprove _ _ _ (.json user machineId body jobUuid) script inLogs
        · -- Whatever the client raised, a refusal is answered.
          intro e all final
          cases e with
          | agentApproval => exact yields_after fun _ _ _ => yields_throw
          | _ => exact yields_throw
    · exact fun answer all final launched => yields_of_holds lasting_launched (launched trivial)

theorem along_web (user : User) (machineId : Nat) (name : String) (form : Script → Params)
    {jobUuid : String} (inLogs : InLogs platform.host jobUuid) (s : Deployment platform) :
    (Web.runSubmit platform user machineId name form jobUuid).Along
      (recorded (handle platform autoApprove)) (Aside others)
      (Ends autoApprove (.web user machineId name form jobUuid)
        fun page => Accepted (.ok (.page page))) [] (s, []) := by
  refine along_resolves ?_ ?_ s
  -- the calls are those of synchronising and the post of the job
  · intro machine script
    apply uses_bind
    · apply uses_tryCatch
      · apply uses_withAgent (.inl trivial) (.inl trivial)
        refine uses_bind (uses_perform (.inl trivial)) fun _ => ?_
        refine uses_bind ((uses_syncScript quiet_syncs machine script).mono fun _ quiet => .inl quiet)
          fun resolved => ?_
        split
        · exact uses_pure
        · exact uses_bind (uses_submitJob (.inr rfl)) fun _ => uses_pure
      · intro e
        split <;> trivial
    · intro submitted
      cases submitted with
      | error page => exact uses_pure
      | ok answer => exact uses_bind (uses_perform (.inl trivial)) fun _ => uses_pure
  -- a page is good only behind a launch
  · intro machine script past s
    refine yields_bind (fun submitted => ∀ page, submitted = .error page → Accepted (.ok (.page page)))
      ?_ ?_
    · refine yields_tryCatch (yields_withAgent fun past s => ?_) ?_
      · refine yields_after fun _ _ _ => yields_after fun resolved _ _ => ?_
        split
        · exact yields_pure fun accepted => (accepted _ rfl).elim
        · refine yields_bind (fun _ => True) ?_ ?_
          · exact @yields_submitJob platform autoApprove _ _ _ (.web user machineId name form jobUuid) script
              inLogs
          · exact fun answer all final launched => yields_pure fun _ => launched trivial
      · intro e all final
        split
        · exact yields_pure fun accepted => (accepted _ rfl).elim
        · exact yields_throw
    · intro submitted all final launched
      cases submitted with
      | error page =>
        refine yields_pure fun accepted => launched ?_
        rintro _ ⟨⟩
        exact accepted
      | ok answer => exact yields_of_holds lasting_launched (launched nofun)

/-! ## One request -/

theorem stable_ends {A : Type} (submission : Submission) (good : A → Prop) (result : Except Failure A) :
    Stable (Aside others) (@Ends platform A autoApprove submission good result) :=
  (stable_of fun calls => Fresh calls ∨ ∃ script, Posts submission script calls).and (stable_yields result)

theorem along_handler (submission : Submission) (inLogs : InLogs platform.host submission.jobUuid)
    (s : Deployment platform) :
    (submission.handler platform).Along (recorded (handle platform autoApprove)) (Aside others)
      (Ends autoApprove submission fun answer => Accepted (.ok answer)) [] (s, []) := by
  cases submission with
  | json user machineId body jobUuid =>
    apply along_seq _ (along_json user machineId body inLogs s)
    · exact fun e all final held => ⟨held.1, nofun⟩
    · intro job all final held
      apply along_pure (stable_ends _ _ _)
      exact ⟨held.1, fun _ _ _ => held.2 job rfl trivial⟩
  | web user machineId name form jobUuid =>
    apply along_seq _ (along_web user machineId name form inLogs s)
    · exact fun e all final held => ⟨held.1, nofun⟩
    · intro page all final held
      apply along_pure (stable_ends _ _ _)
      refine ⟨held.1, fun answer returned accepted => held.2 page rfl ?_⟩
      cases returned
      exact accepted

/-- The job posted for a row passes the agent's checks only with that row's md5 approved. -/
theorem approved_of_passes {submission : Submission} {script : Script} {calls : Calls platform}
    {post : JobRequest × Deployment platform} (posts : Posts submission script calls)
    (member : post ∈ ResolvedVersion.posts calls) (undisturbed : Undisturbed submission calls)
    (passes : Passes platform.host post.2.world post.1) :
    (describe (post.2.world.resynced platform.host).memory.store post.1.scriptName).approvedMd5 =
      some script.md5 := by
  have request := posts.2 post member
  cases submission with
  | json user machineId body jobUuid => exact passes.1 script.md5 (by rw [request]; rfl)
  | web user machineId name form jobUuid => rw [undisturbed post member passes, posts.1]; rfl

/-- Over the JSON API always, over the web as long as no other version has been approved by the
time the job is posted: the agent launches the version that was synchronised, and a request is
not refused only if it has launched it. -/
theorem submitted_version_runs (machine : Machine) (submission : Submission)
    (inLogs : InLogs platform.host submission.jobUuid) {s final : Deployment platform}
    {result : Except Failure Answer} {all : List Op} {calls : Calls platform}
    (runs : Interleaved (recorded (handle platform autoApprove))
      (Aside fun _ => Meanwhile platform autoApprove machine) (submission.handler platform) [] (s, [])
      result all (final, calls))
    (undisturbed : Undisturbed submission calls) :
    RunsResolved autoApprove calls ∧ (Accepted result → Launched autoApprove calls) := by
  obtain ⟨posted, yields⟩ := interleaved_along runs (along_handler submission inLogs s)
  constructor
  · intro post member launch launched
    rcases posted with fresh | ⟨script, posts⟩
    · rw [fresh.2] at member
      cases member
    have inLogs : InLogs platform.host post.1.jobUuid := by
      rwa [posts.2 post member, submission.request_jobUuid]
    rcases @post_cases platform autoApprove _ inLogs post.2 with ⟨only, one, carries⟩ | ⟨none, _⟩
    · rw [one] at launched
      obtain rfl := List.mem_singleton.mp launched
      exact ⟨script, posts.1, carries.intact _ (approved_of_passes posts member undisturbed carries.passes)⟩
    · rw [none] at launched
      cases launched
  · intro accepted
    cases result with
    | error e => exact accepted.elim
    | ok answer => exact yields answer rfl accepted

/-! ## A newer version gets in between -/

section
open Installation Agent.Installation

def registered : Deployment station :=
  let fresh := installed station
  { fresh with tables := { fresh.tables with
      machines := Dict.empty.set 1 workstation, bookmarks := [(2, 1)] } }

def autoDeploy : Sharing.Party → List String := fun _ => ["deploy"]

def published : Deployment station :=
  step station autoDeploy workstation registered (.edit (.create "deploy" scriptOne none 1))

def jobUuid : String := "5b8f0c1e-6a4d-4b7e-9c58-2d1f0e9a7b63"

def webSubmission : Submission := .web ⟨2, .user⟩ 1 "deploy" (fun _ => Dict.empty) jobUuid

/-- An administrator publishes the second version, and another request synchronises it. -/
def newerVersion : List Event :=
  [.edit (.update "deploy" scriptTwo none 1), .load 1 "deploy", .sync 1]

def actsBefore (count : Nat) (events : List Event) (past : List Op)
    (s : Deployment station × Calls station) : Deployment station × Calls station :=
  (if past.length = count then Runs.run (step station autoDeploy workstation) s.1 events else s.1, s.2)

theorem acts_meanwhile (events : List Event) (past : List Op) (s : Deployment station × Calls station) :
    Relation.ReflTransGen (Aside (fun _ => Meanwhile station autoDeploy workstation) past) s
      (Runs.run (step station autoDeploy workstation) s.1 events, s.2) := by
  induction events generalizing s with
  | nil => exact .refl
  | cons event rest ih =>
    have first : Aside (fun _ => Meanwhile station autoDeploy workstation) past s
        (step station autoDeploy workstation s.1 event, s.2) := ⟨.event event, rfl⟩
    exact .head first (ih _)

@[irreducible] def submitted (count : Nat) (events : List Event) :
    Except Failure Answer × List Op × Deployment station × Calls station :=
  (webSubmission.handler station).scheduled (recorded (handle station autoDeploy))
    (actsBefore count events) [] (published, [])

theorem submitted_runs (count : Nat) (events : List Event) :
    Interleaved (recorded (handle station autoDeploy))
      (Aside fun _ => Meanwhile station autoDeploy workstation) (webSubmission.handler station) []
      (published, []) (submitted count events).1 (submitted count events).2.1
      ((submitted count events).2.2.1, (submitted count events).2.2.2) := by
  have moves : ∀ past s, Relation.ReflTransGen
      (Aside (fun _ => Meanwhile station autoDeploy workstation) past) s (actsBefore count events past s) := by
    intro past s
    unfold actsBefore
    split
    · exact acts_meanwhile events past s
    · exact .refl
  unfold submitted
  exact interleaved_scheduled moves _ _ _

theorem jobUuid_inLogs : InLogs station.host jobUuid := by
  intro path located
  have known : station.host.logPath jobUuid = some (.log (jobUuid ++ ".log")) := by decide +kernel
  exact ⟨_, Option.some.inj (located.symm.trans known)⟩

/-- The others finish before the request begins. -/
theorem submitted_version_runs_web :
    RunsResolved autoDeploy (submitted 0 newerVersion).2.2.2 ∧
      (Accepted (submitted 0 newerVersion).1 → Launched autoDeploy (submitted 0 newerVersion).2.2.2) :=
  submitted_version_runs workstation webSubmission jobUuid_inLogs (submitted_runs 0 newerVersion) (by
    have approved : (posts (submitted 0 newerVersion).2.2.2).all (fun post =>
        (describe (post.2.world.resynced station.host).memory.store post.1.scriptName).approvedMd5 =
          (resolved (submitted 0 newerVersion).2.2.2).map (·.md5)) = true := by decide +kernel
    intro post member _
    exact of_decide_eq_true (List.all_eq_true.mp approved post member))

/-- Between synchronising and posting, the second version is approved, and runs. -/
theorem newer_version_runs :
    ∃ (result : Except Failure Answer) (all : List Op) (final : Deployment station)
      (calls : Calls station),
      Interleaved (recorded (handle station autoDeploy))
        (Aside fun _ => Meanwhile station autoDeploy workstation) (webSubmission.handler station) []
        (published, []) result all (final, calls) ∧ Accepted result ∧ ¬ RunsResolved autoDeploy calls := by
  obtain ⟨answered, ran, read⟩ :
      (submitted 8 newerVersion).1 = .ok (.page (.redirect s!"/jobs/{jobUuid}" "Job started: deploy")) ∧
      ((posts (submitted 8 newerVersion).2.2.2).flatMap (launches autoDeploy)).map (·.content) =
        [some scriptTwo] ∧
      (resolved (submitted 8 newerVersion).2.2.2).map (·.md5) = some md5One := by decide +kernel
  refine ⟨_, _, _, _, submitted_runs 8 newerVersion, ?_, ?_⟩
  · rw [answered]
    trivial
  · intro runs
    obtain ⟨launch, launched, content⟩ := List.mem_map.mp (ran ▸ List.mem_singleton_self (some scriptTwo))
    obtain ⟨post, posted, launched⟩ := List.mem_flatMap.mp launched
    obtain ⟨script, resolved, hash⟩ := runs post posted launch launched
    rw [resolved] at read
    have md5 : script.md5 = md5One := Option.some.inj read
    rw [content, md5] at hash
    exact absurd hash (by decide)

end

end ResolvedVersion
end Csl.Server
