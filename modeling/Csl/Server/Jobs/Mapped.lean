import Csl.Library.Replies
import Csl.Server.Jobs.Lost

/-! What the JSON submission answers to what the agent answers.

The agent may answer anything, or not at all, and its state may change between two requests.
Only the exceptions of the client's own classes are translated, and only around the submission itself.
-/

set_option autoImplicit false

namespace Csl.Server.Mapped
open Csl.Shared Csl.Agent Proc

/-- The answers of the endpoint once it has asked the agent: 202, or an HTTPException of 409, 422 or 502. -/
inductive Documented : Except Failure Job → Prop where
  | accepted (job : Job) : Documented (.ok job)
  | conflict (code : ErrorCode) (approvalError agentState message : String) :
      Documented (.error (.http 409 (some code) (.approval approvalError agentState message)))
  | invalid (name : String) (problem : ParamProblem) :
      Documented (.error (.http 422 (some .validationError) (.validation name problem)))
  | unreachable (message : String) : Documented (.error (.http 502 (some .agentUnreachable) (.text message)))

def Success (status : Nat) : Prop := 200 ≤ status ∧ status < 300

instance (status : Nat) : Decidable (Success status) := inferInstanceAs (Decidable (_ ∧ _))

/-- The answers to the three requests that the handler knows what to do with. -/
inductive Understood : Request → Except Failure Response → Prop where
  | state {name : String} {status : Nat} (found : ScriptDescriptor) :
      Success status → Understood (.getScriptState name) (.ok ⟨status, .descriptor found⟩)
  | staged {name content md5 : String} {metaYaml : Option String} {status : Nat} (script : String)
      (state : ApprovalState) :
      Success status → Understood (.stageScript name content md5 metaYaml) (.ok ⟨status, .staged script state⟩)
  | accepted {request : JobRequest} {status : Nat} (answer : JobStatusResponse) :
      Success status → Understood (.submitJob request) (.ok ⟨status, .job answer⟩)
  | conflict {request : JobRequest} (approvalError : String) (state : ApprovalState) (detail : String) :
      Understood (.submitJob request) (.ok ⟨409, .detail (.approvalError approvalError state detail)⟩)
  | invalid {request : JobRequest} (name : String) (problem : ParamProblem) :
      Understood (.submitJob request) (.ok ⟨422, .detail (.validationError name problem)⟩)

def ClearReply : (op : Op) → Except Failure (Reply op) → Prop
  | .send request, answer => Understood request answer
  | _, _ => True

/-- The database answers, a tunnel can be closed, and a request without a response is a transport error. -/
structure Environment {S : Type} (handler : Handler Op Reply Failure S) : Prop where
  queries : ∀ statement s, ∃ reply, (handler (.query statement) s).1 = .ok reply
  closes : ∀ s, (handler .closeTunnel s).1 = .ok ()
  sends : ∀ request s e, (handler (.send request) s).1 = .error e → ∃ error, e = .transport error

def Unhandled (e : Failure) : Prop :=
  (∃ status, e = .httpStatus status) ∨ (∃ error, e = .transport error) ∨ e = .undecodable

def Quiet : Op → Prop
  | .send _ => False
  | _ => True

def Asks (calls : List Op) : Prop := ∃ request, Op.send request ∈ calls

variable {S : Type} {handler : Handler Op Reply Failure S}

/-! ## The client's calls -/

def Returns {A : Type} (result : Except Failure A) (_ : List Op) (_ : S) : Prop := ∃ a, result = .ok a

theorem judged_send (environment : Environment handler) {A : Type} {request : Request}
    {next : Response → Task A} {good : Except Failure A → List Op → S → Prop} {past : List Op} {s : S}
    (understood : ∀ response after, Understood request (.ok response) →
      (next response).Judged handler ClearReply good Unhandled (past ++ [.send request]) after)
    (other : ∀ response after, ¬ Understood request (.ok response) →
      ∃ e, (next response).run handler after = (.error e, after) ∧ Unhandled e) :
    (send request >>= next).Judged handler ClearReply good Unhandled past s := by
  rcases answered : handler (.send request) s with ⟨reply, after⟩
  cases reply with
  | error e =>
    obtain ⟨error, rfl⟩ := environment.sends request s e (congrArg Prod.fst answered)
    refine .inr ⟨?_, .transport error, after, ?_, .inr (.inl ⟨error, rfl⟩)⟩
    · rw [answered]
      exact nofun
    · rw [answered]
      rfl
  | ok response =>
    by_cases clear : Understood request (.ok response)
    · refine .inl ⟨?_, ?_⟩
      · rw [answered]
        exact clear
      · rw [answered]
        exact understood response after clear
    · obtain ⟨e, raised, unhandled⟩ := other response after clear
      refine .inr ⟨?_, e, after, ?_, unhandled⟩
      · rw [answered]
        exact clear
      · rw [answered]
        exact raised

theorem judged_query (environment : Environment handler) (statement : Query) {past : List Op} {s : S} :
    (call (.query statement)).Judged handler ClearReply Returns Unhandled past s := by
  apply judged_perform
  · exact fun _ => environment.queries statement s
  · exact fun unclear => absurd trivial unclear

theorem judged_returns {A B : Type} {task : Task A} {next : A → Task B}
    {good : Except Failure B → List Op → S → Prop} {past : List Op} {s : S}
    (first : task.Judged handler ClearReply Returns Unhandled past s)
    (rest : ∀ a past after, (next a).Judged handler ClearReply good Unhandled past after) :
    (task >>= next).Judged handler ClearReply good Unhandled past s := by
  apply judged_bind
  apply first.mono
  rintro _ past after ⟨a, rfl⟩
  exact rest a past after

theorem raiseForStatus_success {A : Type} {response : Response} (success : Success response.status)
    (next : Unit → Task A) : (raiseForStatus response >>= next) = next () := by
  unfold Success at success
  rw [raiseForStatus, if_pos success, Proc.pure_bind]

theorem raises_unhandled {A : Type} {response : Response} {decoded : Task A} (s : S)
    (wrong : Success response.status → decoded = throw .undecodable) :
    ∃ e, (raiseForStatus response >>= fun _ => decoded).run handler s = (.error e, s) ∧ Unhandled e := by
  by_cases success : Success response.status
  · rw [raiseForStatus_success success, wrong success]
    exact ⟨.undecodable, rfl, .inr (.inr rfl)⟩
  · unfold Success at success
    rw [raiseForStatus, if_neg success, throw_bind]
    exact ⟨.httpStatus response.status, rfl, .inl ⟨_, rfl⟩⟩

theorem judged_getScriptState (environment : Environment handler) (name : String) {past : List Op} {s : S} :
    (AgentClient.getScriptState name).Judged handler ClearReply Returns Unhandled past s := by
  apply judged_send environment
  · intro response after clear
    cases clear with
    | state found success =>
      rw [raiseForStatus_success success]
      exact judged_pure ⟨found, rfl⟩
  · intro response after unclear
    apply raises_unhandled after
    intro success
    obtain ⟨status, body⟩ := response
    cases body with
    | descriptor found => exact absurd (.state found success) unclear
    | _ => rfl

theorem judged_stageScript (environment : Environment handler) (name content md5 : String)
    (metaYaml : Option String) {past : List Op} {s : S} :
    (AgentClient.stageScript name content md5 metaYaml).Judged handler ClearReply Returns Unhandled past s := by
  apply judged_send environment
  · intro response after clear
    cases clear with
    | staged script state success =>
      rw [raiseForStatus_success success]
      exact judged_pure ⟨state, rfl⟩
  · intro response after unclear
    apply raises_unhandled after
    intro success
    obtain ⟨status, body⟩ := response
    cases body with
    | staged script state => exact absurd (.staged script state success) unclear
    | _ => rfl

theorem judged_syncScript (environment : Environment handler) (machine : Machine) (script : Script)
    {past : List Op} {s : S} :
    (syncScript machine script).Judged handler ClearReply Returns Unhandled past s := by
  apply judged_returns (judged_getScriptState environment _)
  intro found past s
  have saved : ∀ resolved past s, (upsertState machine.id script.id resolved found >>= fun _ =>
      (pure resolved : Task TargetState)).Judged handler ClearReply Returns Unhandled past s := by
    intro resolved past s
    apply judged_returns (judged_query environment _)
    exact fun _ past s => judged_pure ⟨resolved, rfl⟩
  by_cases needed : NeedsStaging script found
  · rw [if_pos needed]
    apply judged_returns (judged_stageScript environment _ _ _ _)
    exact fun staged past s => saved (.agent staged) past s
  · rw [if_neg needed, Proc.pure_bind]
    exact saved _ past s

/-! ## The submission -/

/-- How the client's call ends if the agent is understood: with its answer, or with a refusal. -/
def Refused (result : Except Failure JobStatusResponse) (_ : List Op) (_ : S) : Prop :=
  (∃ answer, result = .ok answer) ∨
    (∃ agentState approvalError detail, result = .error (.agentApproval agentState approvalError detail)) ∨
    ∃ name problem, result = .error (.agentValidation name problem)

theorem submitJob_rest {response : Response}
    (noConflict : ∀ approvalError state detail, response ≠ ⟨409, .detail (.approvalError approvalError state detail)⟩)
    (noInvalid : ∀ name problem, response ≠ ⟨422, .detail (.validationError name problem)⟩) :
    AgentClient.raiseRefusal response = pure () ∨
      ¬ Success response.status ∧ AgentClient.raiseRefusal response = throw .undecodable := by
  obtain ⟨status, body⟩ := response
  unfold AgentClient.raiseRefusal
  by_cases conflict : status = 409
  · subst conflict
    have failure : ¬ Success 409 := fun success => absurd success.2 (by decide)
    rw [if_pos rfl]
    cases body with
    | unreadable => exact .inr ⟨failure, rfl⟩
    | detail detail =>
      cases detail with
      | approvalError approvalError state detail => exact absurd rfl (noConflict approvalError state detail)
      | _ => exact .inl rfl
    | _ => exact .inl rfl
  · rw [if_neg conflict]
    by_cases invalid : status = 422
    · subst invalid
      have failure : ¬ Success 422 := fun success => absurd success.2 (by decide)
      rw [if_pos rfl]
      cases body with
      | unreadable => exact .inr ⟨failure, rfl⟩
      | detail detail =>
        cases detail with
        | validationError name problem => exact absurd rfl (noInvalid name problem)
        | _ => exact .inl rfl
      | _ => exact .inl rfl
    · rw [if_neg invalid]
      exact .inl rfl

theorem judged_submitJob (environment : Environment handler) (request : JobRequest) {past : List Op} {s : S} :
    (AgentClient.submitJob request).Judged handler ClearReply Refused Unhandled past s := by
  apply judged_send environment
  · intro response after clear
    cases clear with
    | @accepted _ status answer success =>
      have below : status < 300 := success.2
      have noConflict : ¬ status = 409 := by omega
      have noInvalid : ¬ status = 422 := by omega
      have other : AgentClient.raiseRefusal ⟨status, .job answer⟩ = pure () := by
        rw [AgentClient.raiseRefusal, if_neg noConflict, if_neg noInvalid]
      rw [other, Proc.pure_bind, raiseForStatus_success success]
      exact judged_pure (.inl ⟨answer, rfl⟩)
    | conflict approvalError state detail => exact judged_throw (.inr (.inl ⟨_, _, _, rfl⟩))
    | invalid name problem => exact judged_throw (.inr (.inr ⟨_, _, rfl⟩))
  · intro response after unclear
    have noConflict : ∀ approvalError state detail,
        response ≠ ⟨409, .detail (.approvalError approvalError state detail)⟩ := by
      rintro _ _ _ rfl
      exact unclear (.conflict _ _ _)
    have noInvalid : ∀ name problem, response ≠ ⟨422, .detail (.validationError name problem)⟩ := by
      rintro _ _ rfl
      exact unclear (.invalid _ _)
    rcases submitJob_rest noConflict noInvalid with other | ⟨_, unreadable⟩
    · rw [other, Proc.pure_bind]
      apply raises_unhandled after
      intro success
      obtain ⟨status, body⟩ := response
      cases body with
      | job answer => exact absurd (.accepted answer success) unclear
      | _ => rfl
    · rw [unreadable, throw_bind]
      exact ⟨.undecodable, rfl, .inr (.inr rfl)⟩

/-! ## The handler -/

variable {platform : Platform}

/-- The submission between the synchronisation and the row: an answer, or a documented refusal. -/
def Settled (result : Except Failure JobStatusResponse) (_ : List Op) (_ : S) : Prop :=
  ∀ e, result = .error e → Documented (.error e)

theorem approvalErrorResponse_documented (agentState : TargetState) (name : String) :
    Documented (.error (Api.approvalErrorResponse platform agentState name)) := by
  unfold Api.approvalErrorResponse
  dsimp only
  split <;> exact .conflict _ _ _ _

/-- The exceptions that nobody handles pass the except clauses of submit_job. -/
theorem refusal_unhandled {machine : Machine} {script : Script} {name : String} {e : Failure}
    (unhandled : Unhandled e) : Api.refusal platform machine script name e = throw e := by
  rcases unhandled with ⟨status, rfl⟩ | ⟨error, rfl⟩ | rfl <;> rfl

theorem judged_refusal (environment : Environment handler) (machine : Machine) (script : Script) (name : String)
    {past : List Op} {s : S} {result : Except Failure JobStatusResponse} (refused : Refused result past s) :
    Judged.Rescued handler ClearReply Settled Unhandled (Api.refusal platform machine script name) result past s := by
  rcases refused with ⟨answer, rfl⟩ | ⟨agentState, approvalError, detail, rfl⟩ | ⟨invalid, problem, rfl⟩
  · intro e raised
    cases raised
  · apply judged_returns (judged_syncScript environment machine script)
    intro resolved past s
    apply judged_throw
    intro e raised
    cases raised
    exact approvalErrorResponse_documented resolved name
  · change Settled _ past s
    intro e raised
    cases raised
    exact .invalid _ _

theorem judged_attempt (environment : Environment handler) (machine : Machine) (script : Script)
    (request : JobRequest) (name : String) {past : List Op} {s : S} :
    (syncScript machine script >>= fun resolved =>
      if resolved ≠ .agent .approved then throw (Api.approvalErrorResponse platform resolved name)
      else MonadExcept.tryCatch (AgentClient.submitJob request) (Api.refusal platform machine script name) :
        Task JobStatusResponse).Judged handler ClearReply Settled Unhandled past s := by
  apply judged_returns (judged_syncScript environment machine script)
  intro resolved past s
  by_cases approved : resolved = .agent .approved
  · rw [if_neg (not_not.mpr approved)]
    apply judged_tryCatch
    · apply (judged_submitJob environment request).mono
      exact fun result past s refused => judged_refusal environment machine script name refused
    · intro e after unhandled
      rw [refusal_unhandled unhandled]
      exact ⟨e, after, rfl, unhandled⟩
  · rw [if_pos approved]
    apply judged_throw
    intro e raised
    cases raised
    exact approvalErrorResponse_documented resolved name

/-- Once the agent was asked something, only documented refusals are left. -/
def Ends {A : Type} (result : Except Failure A) (past : List Op) (_ : S) : Prop :=
  Asks past → ∀ e, result = .error e → Documented (.error e)

def Unasked (past : List Op) : Prop := ∀ op ∈ past, Quiet op

theorem Unasked.not_asks {past : List Op} (unasked : Unasked past) : ¬ Asks past := by
  intro ⟨request, asked⟩
  exact (unasked _ asked).elim

theorem unasked_ends {A : Type} {result : Except Failure A} {past : List Op} {s : S} (unasked : Unasked past) :
    Ends result past s := fun asks => absurd asks unasked.not_asks

theorem clear_quiet (op : Op) (s : S) (quiet : Quiet op) : ClearReply op (handler op s).1 := by
  cases op with
  | send request => exact quiet.elim
  | _ => trivial

theorem judged_before {A B : Type} {task : Task A} {next : A → Task B} {past : List Op} {s : S}
    {good : Except Failure B → List Op → S → Prop} (uses : task.Uses Quiet) (unasked : Unasked past)
    (vacuous : ∀ e past s, Unasked past → good (.error e) past s)
    (rest : ∀ a past after, Unasked past → (next a).Judged handler ClearReply good Unhandled past after) :
    (task >>= next).Judged handler ClearReply good Unhandled past s := by
  apply judged_bind
  apply (judged_uses uses clear_quiet s unasked).mono
  intro result past after still
  cases result with
  | ok a => exact rest a past after still
  | error e => exact vacuous e past after still

theorem asks_append_quiet {past : List Op} {op : Op} (quiet : Quiet op) (asks : Asks (past ++ [op])) : Asks past := by
  obtain ⟨request, asked⟩ := asks
  rcases List.mem_append.mp asked with earlier | now
  · exact ⟨request, earlier⟩
  · cases List.mem_singleton.mp now
    exact quiet.elim

theorem judged_closing (environment : Environment handler) {A : Type} (next : Task A) {past : List Op} {s : S}
    {good : Except Failure A → List Op → S → Prop}
    (rest : ∀ after, next.Judged handler ClearReply good Unhandled (past ++ [.closeTunnel]) after) :
    (closeTunnel >>= fun _ => next).Judged handler ClearReply good Unhandled past s := by
  apply judged_bind
  apply judged_perform
  · intro _
    rw [environment.closes s]
    exact rest _
  · exact fun unclear => absurd trivial unclear

theorem judged_withAgent (environment : Environment handler) {A : Type} {machine : Machine} {body : Task A}
    {past : List Op} {s : S} (unasked : Unasked past)
    (inside : ∀ past s, Unasked past → body.Judged handler ClearReply Ends Unhandled past s) :
    (withAgent machine body).Judged handler ClearReply Ends Unhandled past s := by
  have opens : (openTunnel machine).Uses Quiet := @uses_perform _ _ _ Quiet (.openTunnel machine) trivial
  apply judged_before opens unasked fun _ _ _ => unasked_ends
  intro _ past s unasked
  apply judged_bind
  apply judged_tryCatch
  · apply (inside past s unasked).mono
    intro result past s ends
    cases result with
    | ok a =>
      apply judged_closing environment
      intro after _ e raised
      cases raised
    | error e =>
      apply judged_closing environment
      intro after asks e' raised
      exact ends (asks_append_quiet (show Quiet .closeTunnel from trivial) asks) e' raised
  · intro e after unhandled
    refine ⟨e, (handler .closeTunnel after).2, ?_, unhandled⟩
    have closed : closeTunnel.run handler after = (.ok (), (handler .closeTunnel after).2) := by
      rw [← environment.closes after]
      exact run_perform handler _ _
    rw [run_bind, closed]
    rfl

def Answers (result : Except Failure Job) (past : List Op) (_ : S) : Prop := Asks past → Documented result

theorem unasked_answers {result : Except Failure Job} {past : List Op} {s : S} (unasked : Unasked past) :
    Answers result past s := fun asks => absurd asks unasked.not_asks

theorem unhandled_undocumented {e : Failure} (unhandled : Unhandled e) : ¬ Documented (.error e) := by
  rcases unhandled with ⟨status, rfl⟩ | ⟨error, rfl⟩ | rfl <;> exact nofun

theorem judged_handler (environment : Environment handler) (user : User) (machineId : Nat)
    (body : Api.SubmitJobIn) (jobUuid : String) (s : S) :
    (Api.submitJob platform user machineId body jobUuid).Judged handler ClearReply Answers Unhandled [] s := by
  have start : Unasked [] := nofun
  apply judged_before (uses_getMachineOr404 trivial) start fun _ _ _ => unasked_answers
  intro machine past s unasked
  apply judged_before (uses_assertAccess trivial) unasked fun _ _ _ => unasked_answers
  intro _ past s unasked
  apply judged_before (uses_getScriptOr404 trivial) unasked fun _ _ _ => unasked_answers
  intro script past s unasked
  apply judged_bind
  have settled : (withAgent machine (ensureAgentRunning >>= fun _ => syncScript machine script >>= fun resolved =>
      if resolved ≠ .agent .approved then throw (Api.approvalErrorResponse platform resolved body.scriptName)
      else MonadExcept.tryCatch (AgentClient.submitJob (Api.jobRequest script body jobUuid))
        (Api.refusal platform machine script body.scriptName))).Judged handler ClearReply Ends Unhandled past s := by
    apply judged_withAgent environment unasked
    intro past s unasked
    have wakes : ensureAgentRunning.Uses Quiet := @uses_perform _ _ _ Quiet .ensureAgentRunning trivial
    apply judged_before wakes unasked fun _ _ _ => unasked_ends
    intro _ past s _
    apply (judged_attempt environment machine script _ body.scriptName).mono
    exact fun result past s settled _ => settled
  apply settled.mono
  intro result past s ends
  cases result with
  | error e => exact fun asks => ends asks e rfl
  | ok answer =>
    apply (judged_query environment _).mono
    rintro _ past s ⟨job, rfl⟩ _
    exact .accepted job

section
open Installation Agent.Installation LostJobs

theorem environment_agents {agents : Agents} (closes : ∀ calls, agents.answer calls .closeTunnel = .ok ())
    (sends : ∀ calls request e, agents.answer calls (.send request) = .error e → ∃ error, e = .transport error) :
    Environment (S := Station station) agents.handle := by
  constructor
  · exact fun statement s => ⟨_, rfl⟩
  · exact fun s => closes s.calls
  · intro request s e raised
    apply sends s.calls request e
    cases request <;> exact raised

/-- Someone else has staged the script after the state was asked for, and the owner has rejected it. -/
def rejecting : Agents where
  answer
    | _, .openTunnel _ | _, .closeTunnel | _, .ensureAgentRunning => .ok ()
    | _, .send (.getScriptState name) => .ok ⟨200, .descriptor ⟨name, .absent, none, none⟩⟩
    | _, .send (.stageScript name ..) => .ok ⟨409, .detail (.text
        s!"'{name}' is rejected; run 'csl-agent approvals clear {name}' first")⟩
    | _, _ => .error (.transport .connectError)
  launches _ _ := false

def submission : Task Job := Api.submitJob station ⟨2, .user⟩ 1 ⟨"deploy", Dict.empty⟩ ResolvedVersion.jobUuid

def before : Station station := ⟨ResolvedVersion.published.tables, [], [], "12:00"⟩

end

end Csl.Server.Mapped
