import Csl.Server.Jobs.Verdicts

/-! The handlers that write one job's row heed what they were told.

Each polls or kills the job only once it has come across its row, and writes an end only when that
end was the last it was told. What makes a handler raise, and how the tunnel is closed, does not
matter.
-/

set_option autoImplicit false

namespace Csl.Server
open Csl.Shared Csl.Agent Proc

namespace FinalStatus
variable {jobUuid : String} {errand : Errand} {known : Knowledge}

abbrev Heeds {A : Type} (jobUuid : String) (errand : Errand) (ends : Knowledge → Except Failure A → Prop)
    (task : Task A) (known : Knowledge) : Prop :=
  Proc.Heeds (discipline jobUuid errand) ends task known

abbrev Indifferent (jobUuid : String) (errand : Errand) : Op → Prop := (discipline jobUuid errand).Indifferent

theorem noticed_ne (known : Knowledge) : known.noticed ≠ .unaware := by
  cases known <;> nofun

theorem heeds_next {A : Type} {op : Op} {next : Reply op → Task A} {ends : Knowledge → Except Failure A → Prop}
    (indifferent : Indifferent jobUuid errand op) (raises : ∀ e, ends known (.error e))
    (goesOn : ∀ reply, Heeds jobUuid errand ends (next reply) known) :
    Heeds jobUuid errand ends (call op >>= next) known :=
  heeds_after (uses_perform indifferent) raises goesOn

theorem heeds_withAgent {A : Type} {machine : Machine} {body : Task A} {ends : Knowledge → Except Failure A → Prop}
    (raises : ∀ e, ends known (.error e)) (fails : ∀ known result e, ends known result → ends known (.error e))
    (heeds : Heeds jobUuid errand ends body known) : Heeds jobUuid errand ends (withAgent machine body) known := by
  have closes : Indifferent jobUuid errand .closeTunnel := fun _ => ⟨trivial, fun _ => rfl⟩
  refine heeds_next (fun _ => ⟨trivial, fun _ => rfl⟩) raises fun _ => ?_
  apply heeds_bind ends
  · apply heeds_tryCatch ends heeds fun _ _ fit => fit
    exact fun after e fit => heeds_next closes (fun other => fails _ _ other fit) fun _ => heeds_throw fit
  · exact fun _ _ fit => fit
  · exact fun after a fit => heeds_next closes (fun e => fails _ _ e fit) fun _ => heeds_pure fit

theorem heeds_decoded {ends : Knowledge → Except Failure JobStatusResponse → Prop} {response : Response}
    (told : ∀ answer, tells (.ok response) = some answer.status → ends known (.ok answer))
    (silent : ∀ e, tells (.ok response) = none → ends known (.error e)) :
    Heeds jobUuid errand ends (do
      raiseForStatus response
      match response.body with
      | .job answer => return answer
      | _ => throw .undecodable) known := by
  obtain ⟨status, body⟩ := response
  by_cases success : 200 ≤ status ∧ status < 300
  · simp only [raiseForStatus, if_pos success, Proc.pure_bind]
    cases body with
    | job answer => exact heeds_pure (told answer (if_pos success))
    | _ => exact heeds_throw (silent _ rfl)
  · simp only [raiseForStatus, if_neg success, Proc.throw_bind]
    apply heeds_throw (silent _ _)
    cases body <;> first | rfl | exact if_neg success

/-- After a poll the answer's status is known; the reconciler knows of a failure without one. -/
def Polled (errand : Errand) (known : Knowledge) : Except Failure JobStatusResponse → Prop
  | .ok answer => known = .told answer.status ∧ answer.status ≠ .pending
  | .error _ => known ≠ .unaware ∧ (errand = .reconcile → known = .told .failed)

theorem heeds_getJobStatus (may : (errand = .refresh ∨ errand = .reconcile) ∧ known ≠ .unaware) :
    Heeds jobUuid errand (Polled errand) (AgentClient.getJobStatus jobUuid) known := by
  -- What is known after the reply, whatever is made of it.
  have unanswered {reply : Except Failure Response} (silent : tells reply = none) (e : Failure) :
      Polled errand (learn jobUuid errand known (.send (.getJobStatus jobUuid)) reply) (.error e) := by
    have learnt : learn jobUuid errand known (.send (.getJobStatus jobUuid)) reply =
        if errand = .reconcile then .told .failed else .aware := by
      simp only [learn, if_true, silent]
    rw [learnt]
    constructor
    · split <;> nofun
    · exact fun reconciles => if_pos reconciles
  apply heeds_bind fun after reply => after = learn jobUuid errand known (.send (.getJobStatus jobUuid)) reply ∧
    tells reply ≠ some .pending
  · exact heeds_perform (fun _ => may) fun reply answered => ⟨rfl, answered rfl⟩
  · rintro _ e ⟨rfl, -⟩
    exact unanswered rfl e
  · rintro _ response ⟨rfl, notPending⟩
    refine heeds_decoded (fun answer told => ?_) fun e silent => unanswered silent e
    rw [told] at notPending
    refine ⟨?_, fun same => notPending (congrArg some same)⟩
    simp only [learn, if_true, told]

theorem heeds_killJob (may : errand = .kill ∧ known ≠ .unaware) :
    Heeds jobUuid errand (Returns fun after _ => after = .told .killed) (AgentClient.killJob jobUuid) known := by
  apply heeds_bind fun after reply => after = learn jobUuid errand known (.send (.killJob jobUuid)) reply
  · exact heeds_perform (fun _ => may) fun reply _ => rfl
  · exact fun _ _ _ => trivial
  · rintro _ response rfl
    rw [raiseForStatus]
    split
    next success => exact heeds_pure (if_pos ⟨rfl, success⟩)
    next => exact heeds_throw trivial

/-! ## GET and the kills -/

def Read (known : Knowledge) (row : Job) : Prop := known ≠ .unaware ∧ row.status ≠ .pending

theorem heeds_getJobOr404 : Heeds jobUuid errand (Returns Read) (Api.getJobOr404 jobUuid) .unaware := by
  apply heeds_bind fun after found => after = learn jobUuid errand .unaware (.query (.findJob jobUuid)) found ∧
    credible jobUuid (.query (.findJob jobUuid)) found
  · exact heeds_perform trivial fun found answered => ⟨rfl, answered⟩
  · exact fun _ _ _ => trivial
  · rintro _ found ⟨rfl, answered⟩
    cases found with
    | none => exact heeds_throw trivial
    | some row =>
      refine heeds_pure ⟨?_, answered rfl row rfl⟩
      simp only [learn, if_true]
      exact noticed_ne _

theorem mem_changed {A : Type} [DecidableEq A] {read value written : A} (member : written ∈ changed read value) :
    written = value ∧ value ≠ read := by
  rw [changed] at member
  split at member
  · cases member
  next differs =>
    cases member
    exact ⟨rfl, differs⟩

theorem heeds_getJob : Heeds jobUuid .refresh (fun _ _ => True) (Api.getJob jobUuid) .unaware := by
  apply heeds_then Read heeds_getJobOr404
  rintro known row ⟨aware, notPending⟩
  split
  next active =>
    refine heeds_next (fun _ => ⟨trivial, fun _ => rfl⟩) (fun _ => trivial) fun found => ?_
    cases found with
    | none => exact heeds_pure trivial
    | some machine =>
      apply heeds_caught _ fun _ _ => heeds_pure trivial
      apply heeds_then fun after answer => Polled .refresh after (.ok answer)
      · apply heeds_withAgent (fun _ => trivial) fun _ _ _ _ => trivial
        apply (heeds_getJobStatus ⟨.inl rfl, aware⟩).mono
        intro after result polled
        cases result with
        | ok answer => exact polled
        | error e => trivial
      · rintro _ answer ⟨rfl, answered⟩
        apply heeds_seq
        · refine heeds_perform (fun _ => ⟨nofun, answer.status, rfl, ?_⟩) fun _ _ => trivial
          intro written member
          obtain ⟨rfl, differs⟩ := mem_changed member
          refine ⟨rfl, ?_⟩
          -- the row was under way and the answer is another status, so the answer is an end
          revert active notPending answered differs
          cases row.status <;> cases answer.status <;> decide
        · intro _ _
          apply heeds_map
          exact heeds_perform trivial fun _ _ => trivial
  next => exact heeds_pure trivial

theorem heeds_killOf (row : Job) (now : Timestamp) :
    Heeds jobUuid .kill (fun _ _ => True) (updateJob jobUuid (Api.killOf row now)) (.told .killed) := by
  refine heeds_perform (fun _ => ⟨nofun, .killed, rfl, ?_⟩) fun _ _ => trivial
  intro written member
  exact ⟨(mem_changed member).1, rfl⟩

theorem heeds_killed (machine : Machine) (aware : known ≠ .unaware) :
    Heeds jobUuid .kill (Returns fun after _ => after = .told .killed)
      (withAgent machine (AgentClient.killJob jobUuid)) known :=
  heeds_withAgent (fun _ => trivial) (fun _ _ _ _ => trivial) (heeds_killJob ⟨rfl, aware⟩)

theorem heeds_apiKill : Heeds jobUuid .kill (fun _ _ => True) (Api.killJob jobUuid) .unaware := by
  apply heeds_then Read heeds_getJobOr404
  rintro known row ⟨aware, -⟩
  split
  · exact heeds_throw trivial
  · refine heeds_next (fun _ => ⟨trivial, fun _ => rfl⟩) (fun _ => trivial) fun found => ?_
    cases found with
    | none => exact heeds_throw trivial
    | some machine =>
      apply heeds_then (fun after _ => after = Knowledge.told .killed) (heeds_killed machine aware)
      rintro _ _ rfl
      exact heeds_next (fun _ => ⟨trivial, fun _ => rfl⟩) (fun _ => trivial) fun now => heeds_killOf row now

theorem heeds_killJobWeb : Heeds jobUuid .kill (fun _ _ => True) (Web.killJobWeb jobUuid) .unaware := by
  apply heeds_then Read heeds_getJobOr404
  rintro known row ⟨aware, -⟩
  refine heeds_next (fun _ => ⟨trivial, fun _ => rfl⟩) (fun _ => trivial) fun found => ?_
  cases found with
  | none => exact heeds_pure trivial
  | some machine =>
    -- The kill was not refused, or its exception is answered.
    apply heeds_then fun after refused => refused = none → after = Knowledge.told .killed
    · apply heeds_tryCatch (Returns fun after refused => refused = none → after = Knowledge.told .killed)
      · apply heeds_returns (fun after _ => after = Knowledge.told .killed) (heeds_killed machine aware)
        rintro _ _ rfl
        exact heeds_pure fun _ => rfl
      · exact fun _ _ fit => fit
      · intro after e _
        split
        · exact heeds_pure nofun
        · exact heeds_throw trivial
    · intro after refused told
      cases refused with
      | some e => exact heeds_pure trivial
      | none =>
        rw [told rfl]
        refine heeds_next (fun _ => ⟨trivial, fun _ => rfl⟩) (fun _ => trivial) fun now => ?_
        exact heeds_map (heeds_killOf row now)

/-! ## The reconciler -/

def Aware (listed : Prop) (known : Knowledge) : Prop := listed → known ≠ .unaware

theorem heeds_settle {update : Job → JobUpdate} {status : JobStatus}
    (writes : ∀ row, ∀ written ∈ (update row).status, written = status ∧ isActive status = false) :
    Heeds jobUuid .reconcile (fun after result => after = .told status ∧ ∀ e, result ≠ .error e)
      (JobReconciler.settle jobUuid update) (.told status) := by
  apply heeds_bind fun after found => after = Knowledge.told status ∧ ∀ e, found ≠ .error e
  · refine heeds_perform trivial fun found answered => ?_
    cases found with
    | error e => exact answered.elim
    | ok row =>
      refine ⟨?_, nofun⟩
      cases row with
      | none => rfl
      | some row => exact if_pos rfl
  · exact fun _ e raised => absurd rfl (raised.2 e)
  · rintro _ found ⟨rfl, -⟩
    cases found with
    | none => exact heeds_pure ⟨rfl, nofun⟩
    | some row =>
      refine heeds_perform (fun _ => ⟨nofun, status, rfl, writes row⟩) fun reply answered => ⟨rfl, ?_⟩
      cases reply with
      | error e => exact answered.elim
      | ok reply => exact nofun

theorem heeds_reconcileJob {job : Job} (aware : Aware (job.jobUuid = jobUuid) known) :
    Heeds jobUuid .reconcile (fun after _ => known ≠ .unaware → after ≠ .unaware) (JobReconciler.reconcileJob job) known := by
  by_cases own : job.jobUuid = jobUuid
  · subst own
    apply heeds_tryCatch fun after result => after ≠ Knowledge.unaware ∧ ∀ e, result = .error e → after = .told .failed
    · apply heeds_bind (Polled .reconcile) (heeds_getJobStatus ⟨.inr rfl, aware rfl⟩)
      · exact fun known e polled => ⟨polled.1, fun _ _ => polled.2 rfl⟩
      · rintro _ answer ⟨rfl, -⟩
        split
        · exact heeds_pure ⟨nofun, nofun⟩
        next ended =>
          have writes : ∀ row : Job, ∀ written ∈ (Api.refreshOf row answer).status,
              written = answer.status ∧ isActive answer.status = false :=
            fun row written member => ⟨(mem_changed member).1, by simpa using ended⟩
          apply (heeds_settle writes).mono
          rintro _ result ⟨rfl, returned⟩
          exact ⟨nofun, fun e raised => absurd raised (returned e)⟩
    · exact fun _ _ ended _ => ended.1
    -- whatever went wrong, the reconciler takes the job for failed
    · intro after e raised
      rw [raised.2 e rfl]
      split
      · exact heeds_pure fun _ => nofun
      · apply (heeds_settle fun row written member => ⟨(mem_changed member).1, rfl⟩).mono
        rintro _ result ⟨rfl, -⟩ _
        exact nofun
  -- polls and rows of other jobs teach nothing of this one
  · have settles (update : Job → JobUpdate) :
        (JobReconciler.settle job.jobUuid update).Uses (Indifferent jobUuid .reconcile) := by
      refine uses_bind (uses_perform fun known => ⟨trivial, fun reply => ?_⟩) fun found => ?_
      · rcases reply with e | _ | row
        · rfl
        · rfl
        · exact if_neg own
      · cases found with
        | none => exact uses_pure
        | some row => exact uses_perform fun known => ⟨fun same => absurd same own, fun _ => rfl⟩
    refine heeds_indifferent (uses_tryCatch ?_ ?_) fun _ => id
    · apply uses_bind (uses_getJobStatus fun known => ⟨fun same => absurd same own, fun _ => if_neg own⟩)
      intro answer
      split
      · exact uses_pure
      · exact settles _
    · intro e
      split
      · exact uses_pure
      · exact settles _

section
variable {listed : Prop} {jobs : List Job} (member : ∀ job ∈ jobs, job.jobUuid = jobUuid → listed)
include member

theorem heeds_reconcileJobs (aware : Aware listed known) :
    Heeds jobUuid .reconcile (fun after _ => Aware listed after) (JobReconciler.reconcileJobs jobs) known := by
  induction jobs generalizing known with
  | nil => exact heeds_pure aware
  | cons job jobs ih =>
    apply heeds_bind fun after _ => Aware listed after
    · apply (heeds_reconcileJob fun own => aware (member job List.mem_cons_self own)).mono
      exact fun after _ keeps isListed => keeps (aware isListed)
    · exact fun _ _ still => still
    · exact fun after _ still => ih (fun other later => member other (.tail job later)) still

theorem heeds_reconcileMachines (aware : Aware listed known) (machines : List (Nat × Machine)) :
    Heeds jobUuid .reconcile (fun _ _ => True) (JobReconciler.reconcileMachines jobs machines) known := by
  induction machines generalizing known with
  | nil => exact heeds_pure trivial
  | cons entry machines ih =>
    apply heeds_bind fun after _ => Aware listed after
    · apply heeds_tryCatch fun after _ => Aware listed after
      · apply heeds_withAgent (fun _ => aware) fun _ _ _ still => still
        apply heeds_reconcileJobs _ aware
        exact fun job filtered => member job (List.mem_of_mem_filter filtered)
      · exact fun _ _ still => still
      · exact fun _ _ still => heeds_pure still
    · exact fun _ _ _ => trivial
    · exact fun after _ still => ih still

end

theorem uses_readMachines (machineIds : List Nat) :
    (JobReconciler.readMachines machineIds).Uses (Indifferent jobUuid .reconcile) := by
  induction machineIds with
  | nil => exact uses_pure
  | cons machineId machineIds ih =>
    refine uses_bind (uses_perform fun _ => ⟨trivial, fun _ => rfl⟩) fun found => ?_
    exact uses_bind ih fun _ => uses_pure

theorem heeds_reconcileOnce (setOrder : JobReconciler.SetOrder) :
    Heeds jobUuid .reconcile (fun _ _ => True) (JobReconciler.reconcileOnce setOrder) .unaware := by
  apply heeds_then fun after jobs => Aware (∃ job ∈ jobs, job.jobUuid = jobUuid) after
  · refine heeds_perform trivial fun reply _ => ?_
    cases reply with
    | error e => trivial
    | ok jobs =>
      intro listed
      change (if ∃ job ∈ jobs, job.jobUuid = jobUuid then _ else _) ≠ _
      rw [if_pos listed]
      nofun
  · intro known jobs aware
    split
    · exact heeds_pure trivial
    · refine heeds_after (uses_readMachines _) (fun _ => trivial) fun machines => ?_
      exact heeds_reconcileMachines (fun job isRow own => ⟨job, isRow, own⟩) aware machines

/-! ## The submissions -/

theorem heeds_submitJob {request : JobRequest} (own : request.jobUuid = jobUuid) :
    Heeds jobUuid .submit (Returns fun after answer => after = .told answer.status) (AgentClient.submitJob request)
      .unaware := by
  apply heeds_bind fun after reply => after = learn jobUuid .submit .unaware (.send (.submitJob request)) reply
  · exact heeds_perform (fun _ => ⟨rfl, rfl⟩) fun _ _ => rfl
  · exact fun _ _ _ => trivial
  · rintro _ response rfl
    refine heeds_after (uses_raiseRefusal response) (fun _ => trivial) fun _ => ?_
    refine heeds_decoded (fun answer told => ?_) fun _ _ => trivial
    change learn jobUuid .submit .unaware (.send (.submitJob request)) (.ok response) = .told answer.status
    simp only [learn, if_pos own, told]

theorem syncs_indifferent : Syncs (Indifferent jobUuid .submit) :=
  ⟨fun _ _ => ⟨trivial, fun _ => rfl⟩, fun _ _ _ _ _ => ⟨trivial, fun _ => rfl⟩,
    fun _ _ _ _ _ _ => ⟨trivial, fun _ => rfl⟩⟩

theorem heeds_refusal {platform : Platform} {machine : Machine} {script : Script} {name : String}
    {good : Knowledge → JobStatusResponse → Prop} (e : Failure) :
    Heeds jobUuid .submit (Returns good) (Api.refusal platform machine script name e) known := by
  cases e with
  | agentApproval =>
    refine heeds_after (uses_syncScript syncs_indifferent machine script) (fun _ => trivial) fun _ => ?_
    exact heeds_throw trivial
  | _ => exact heeds_throw trivial

theorem heeds_insertJob (fields : JobFields) :
    Heeds jobUuid .submit (fun _ _ => True) (insertJob fields) (.told fields.status) :=
  heeds_perform (fun _ => ⟨rfl, rfl⟩) fun _ _ => trivial

section
variable {platform : Platform} {A B : Type}

theorem heeds_checked {user : User} {machineId : Nat} {name : String} {rest : Machine → Script → Task A}
    (goesOn : ∀ machine script, Heeds jobUuid .submit (fun _ _ => True) (rest machine script) .unaware) :
    Heeds jobUuid .submit (fun _ _ => True) (Api.getMachineOr404 machineId >>= fun machine =>
      Api.assertAccess user machineId >>= fun _ => Api.getScriptOr404 platform name >>= rest machine) .unaware := by
  refine heeds_after (uses_getMachineOr404 fun _ => ⟨trivial, fun _ => rfl⟩) (fun _ => trivial) fun machine => ?_
  refine heeds_after (uses_assertAccess fun _ => ⟨trivial, fun _ => rfl⟩) (fun _ => trivial) fun _ => ?_
  have reads : Indifferent jobUuid .submit (.query (.findScript name)) := fun _ => ⟨trivial, fun _ => rfl⟩
  exact heeds_after (uses_getScriptOr404 reads) (fun _ => trivial) fun script => goesOn machine script

theorem heeds_synchronised {machine : Machine} {script : Script} {good : Knowledge → A → Prop}
    {rest : TargetState → Task A}
    (goesOn : ∀ resolved, Heeds jobUuid .submit (Returns good) (rest resolved) .unaware) :
    Heeds jobUuid .submit (Returns good) (withAgent machine do
      ensureAgentRunning
      rest (← syncScript machine script)) .unaware := by
  apply heeds_withAgent (fun _ => trivial) fun _ _ _ _ => trivial
  refine heeds_next (fun _ => ⟨trivial, fun _ => rfl⟩) (fun _ => trivial) fun _ => ?_
  exact heeds_after (uses_syncScript syncs_indifferent machine script) (fun _ => trivial) goesOn

end

theorem heeds_json (platform : Platform) (user : User) (machineId : Nat) (body : Api.SubmitJobIn) :
    Heeds jobUuid .submit (fun _ _ => True) (Api.submitJob platform user machineId body jobUuid) .unaware := by
  apply heeds_checked
  intro machine script
  apply heeds_then fun after answer => after = .told answer.status
  · apply heeds_synchronised
    intro resolved
    split
    · exact heeds_throw trivial
    · apply heeds_tryCatch (Returns fun after answer => after = .told answer.status) (heeds_submitJob rfl)
      · exact fun _ _ told => told
      · exact fun _ e _ => heeds_refusal e
  · rintro _ answer rfl
    exact heeds_insertJob _

theorem heeds_web (platform : Platform) (user : User) (machineId : Nat) (name : String) (form : Script → Params) :
    Heeds jobUuid .submit (fun _ _ => True) (Web.runSubmit platform user machineId name form jobUuid) .unaware := by
  apply heeds_checked
  intro machine script
  -- What the handler of the page's exceptions returns is a page.
  apply heeds_then fun after submitted => ∀ answer, submitted = .ok answer → after = .told answer.status
  · apply heeds_tryCatch (Returns fun after submitted => ∀ answer, submitted = .ok answer → after = .told answer.status)
    · apply heeds_synchronised
      intro resolved
      split
      · exact heeds_pure nofun
      · apply heeds_returns (fun after answer => after = .told answer.status) (heeds_submitJob rfl)
        rintro _ answer rfl
        refine heeds_pure ?_
        rintro _ ⟨⟩
        rfl
    · exact fun _ _ told => told
    · intro after e _
      split
      · exact heeds_pure nofun
      · exact heeds_throw trivial
  · intro after submitted told
    cases submitted with
    | error page => exact heeds_pure trivial
    | ok answer =>
      rw [told answer rfl]
      exact heeds_seq (heeds_insertJob _) fun _ _ => heeds_pure trivial

/-! ## All of them -/

theorem heeds_task (platform : Platform) (submission : Submission) (visits : Nat → Visit) (number : Nat) :
    Heeds submission.jobUuid (FinalStatus.errand visits number) (fun _ _ => True) (task platform submission visits number)
      .unaware := by
  cases number with
  | zero =>
    apply heeds_map
    cases submission with
    | json user machineId body => exact heeds_map (heeds_json platform user machineId body)
    | web user machineId name form => exact heeds_map (heeds_web platform user machineId name form)
  | succ number =>
    rw [task, FinalStatus.errand]
    cases visits number with
    | get => exact heeds_map heeds_getJob
    | reconcile setOrder => exact heeds_reconcileOnce setOrder
    | kill => exact heeds_apiKill
    | killWeb => exact heeds_map heeds_killJobWeb

end FinalStatus

end Csl.Server
