import Csl.Server.Jobs.Heeding

/-! The ends of a job that have been heard of.

One submission makes the job; polls, passes of the reconciler and kills of it go on at the same time,
each cut at its awaits, while processes end, the agent stops and comes back, and requests get lost.
An end has been heard of once it is in the row or some handler in progress was told it and may write
it. All that is heard of should be one end, and the agent's.
-/

set_option autoImplicit false

namespace Csl.Server
open Csl.Shared Csl.Agent Runs

namespace FinalStatus

inductive Change (platform : Platform) where
  | agent (event : ProcessEvent)
  | weather (weather : Weather)
  | clock (now : Timestamp)
  | row (job : Job)
  | others (tables : Tables platform)

variable (platform : Platform) (procfs : Bool) (submission : Submission) (visits : Nat → Visit)

def starts (jobUuid : String) : ProcessEvent → Bool
  | .start _ key _ => key = jobUuid
  | _ => false

/-- Nobody else starts the job or writes its row. -/
def outside (jobUuid : String) : Change platform → Station platform → Station platform
  | .agent event, s => if starts jobUuid event then s else { s with agent := s.agent.step platform.host procfs event }
  | .weather weather, s => { s with weather }
  | .clock now, s => { s with now }
  | .row job, s =>
      if job.jobUuid = jobUuid then s
      else { s with tables := { s.tables with jobs := s.tables.jobs.set job.jobUuid job } }
  | .others tables, s => { s with tables := { tables with jobs := s.tables.jobs } }

abbrev Scene := Proc.Pool Op Reply Failure Unit (Station platform)

abbrev handler : Nat → Handler Op Reply Failure (Station platform) :=
  fun _ => handle platform procfs submission.jobUuid

abbrev step (scene : Scene platform) (turn : Proc.Turn (Change platform)) : Scene platform :=
  scene.step (task platform submission visits) (handler platform procfs submission)
    (outside platform procfs submission.jobUuid) turn

/-- The agent has never run, and the job has no row. -/
def start (os : Processes.Table Program) (agentNow : Timestamp) (tables : Tables platform) (weather : Weather)
    (now : Timestamp) : Scene platform :=
  .empty ⟨tables, System.fresh os agentNow, weather, now⟩

namespace Scene
variable {platform} (scene : Scene platform)

def row : Option Job := scene.shared.tables.jobs.get? submission.jobUuid

def record : Option ProcessRecord := scene.shared.agent.jobs.get? submission.jobUuid

abbrev disciplines : Nat → Proc.Discipline Op Reply Failure Knowledge :=
  fun number => discipline submission.jobUuid (errand visits number)

abbrev knows (number : Nat) : Knowledge :=
  Proc.Pool.knows (disciplines submission visits) .unaware (handler platform procfs submission) scene number

abbrev Knowing (number : Nat) (known : Knowledge) : Prop :=
  Proc.Pool.Knowing (disciplines submission visits) .unaware (handler platform procfs submission) scene number known

/-- An end that is in the row, or that a handler in progress was told. -/
def Heard (status : JobStatus) : Prop :=
  isActive status = false ∧
    ((∃ row, scene.row submission = some row ∧ row.status = status) ∨
      ∃ number, scene.Knowing procfs submission visits number (.told status))

/-! ## When the ends agree -/

/-- The agent answers a kill with success only if it finds the job running. -/
def KillsRunning (platform : Platform) (procfs : Bool) (jobUuid : String) (s : Station platform) : Prop :=
  ∀ response, (handle platform procfs jobUuid (.send (.killJob jobUuid)) s).1 = .ok response → Success response →
    ∃ answer, s.agent.getStatus platform.host procfs jobUuid = some answer ∧ answer.status = .running

/-- The job counts as failed where the agent does not answer the reconciler: its record, if there is
one, says so, and no other end has been heard of. -/
def FailedAnyway : Prop :=
  (∀ r, (handler platform procfs submission 0 (.send (.getJobStatus submission.jobUuid)) scene.shared).2.agent.jobs.get?
      submission.jobUuid = some r → r.status = .failed) ∧
    ∀ status, scene.Heard procfs submission visits status → status = .failed

def Sensible (number : Nat) : Op → Prop
  | .send (.killJob key) => key = submission.jobUuid → KillsRunning platform procfs submission.jobUuid scene.shared
  | .send (.getJobStatus key) => key = submission.jobUuid → errand visits number = .reconcile →
      tells (handler platform procfs submission number (.send (.getJobStatus key)) scene.shared).1 = none →
        scene.FailedAnyway procfs submission visits
  | _ => True

/-- Every call finds what it should, and the agent comes back with the job only if no end of it has
been heard of. -/
def Proper : Proc.Turn (Change platform) → Prop
  | .serve number => ∀ activity ∈ scene.activities number,
      Proc.Pool.Next (scene.Sensible procfs submission visits number) activity.program
  | .outside (.agent .boot) => System.Renews platform.host procfs submission.jobUuid scene.shared.agent .boot →
      ∀ status, ¬ scene.Heard procfs submission visits status
  | _ => True

end Scene

/-! ## The agent's answers -/

section
open Proc
variable {platform procfs} {jobUuid : String} {agent : System}

theorem submitJob_answers {host : Host} {body : JobRequest} {w : World} {answer : JobStatusResponse}
    (answered : (host.run (Agent.submitJob host body) w).1 = .ok answer) :
    answer.status ≠ .pending ∧
      (body.persistent = true → answer.status = .running ∧ host.logPath body.jobUuid ≠ none) := by
  have keeps : (Agent.submitJob host body).Keeps (fun _ _ => True) (fun _ => True) fun answer =>
      answer.status ≠ .pending ∧
        (body.persistent = true → answer.status = .running ∧ host.logPath body.jobUuid ≠ none) := by
    apply keeps_bind (keeps_anything _)
    intro _ _
    by_cases persistent : body.persistent = true
    · rw [if_pos persistent]
      -- a persistent job is answered for once its log could be opened
      apply keeps_tryCatch _ fun e => keeps_throw
      apply keeps_bind (keeps_anything _)
      intro ready _
      have opens : (openLog host body.jobUuid).Keeps (fun _ _ => True) (fun _ => True) fun _ =>
          host.logPath body.jobUuid ≠ none := by
        apply keeps_bind (keeps_anything _)
        intro _ _
        cases host.logPath body.jobUuid with
        | none => exact keeps_throw
        | some path => exact (keeps_anything _).mono (fun _ => id) fun _ _ => nofun
      apply keeps_bind opens
      · intro _ located
        apply keeps_bind (keeps_anything _)
        intro _ _
        apply keeps_bind (keeps_anything _)
        intro startedAt _
        exact keeps_pure ⟨nofun, fun _ => ⟨rfl, located⟩⟩
    · rw [if_neg persistent]
      -- a one-off job has ended by the time it is answered for
      apply keeps_bind (keeps_anything _)
      intro startedAt _
      apply keeps_bind (keeps_anything _)
      intro result _
      apply keeps_bind (keeps_anything _)
      intro _ _
      apply keeps_bind (keeps_anything _)
      intro endedAt _
      refine keeps_pure ⟨?_, fun persists => absurd persists persistent⟩
      dsimp only
      split <;> nofun
  exact keeps.returns (fun _ _ => trivial) answered

structure Answered (jobUuid : String) (agent : System) (true : System → JobStatus → Prop) (served : Served) : Prop where
  lingers : System.Lingers jobUuid agent served.2
  sound : served.2.Sound
  tells : ∀ status, tells (served.1.mapError .transport) = some status → true served.2 status

def Records (jobUuid : String) (agent : System) (status : JobStatus) : Prop :=
  ∃ r, agent.jobs.get? jobUuid = some r ∧ r.status = status

theorem tells_job {status : Nat} {answer : JobStatusResponse} {told : JobStatus}
    (tells : FinalStatus.tells (.ok ⟨status, .job answer⟩) = some told) : told = answer.status := by
  rw [FinalStatus.tells] at tells
  split at tells
  · exact (Option.some.inj tells).symm
  · cases tells

theorem getJobStatus_answered (sound : agent.Sound) (idle : agent.Idle) :
    Answered jobUuid agent (Records jobUuid) (getJobStatus platform procfs jobUuid agent) := by
  have stepped : agent.step platform.host procfs (.getStatus jobUuid) = agent.pollJob platform.host procfs jobUuid :=
    if_pos idle
  constructor
  · change System.Lingers jobUuid agent (agent.step platform.host procfs (.getStatus jobUuid))
    exact System.lingers_step sound id
  · change (agent.step platform.host procfs (.getStatus jobUuid)).Sound
    exact System.sound_step sound _
  · intro status told
    rw [getJobStatus, System.getStatus] at told
    rw [getJobStatus, stepped]
    cases found : (agent.pollJob platform.host procfs jobUuid).jobs.get? jobUuid with
    | none =>
      rw [found] at told
      cases told
    | some r =>
      rw [found] at told
      exact ⟨r, found, (tells_job told).symm⟩

theorem getStatus_running {answer : JobStatusResponse}
    (found : agent.getStatus platform.host procfs jobUuid = some answer) (running : answer.status = .running) :
    ∃ r, (agent.pollJob platform.host procfs jobUuid).jobs.get? jobUuid = some r ∧ r.status = .running := by
  obtain ⟨r, there, rfl⟩ := Option.map_eq_some_iff.mp found
  exact ⟨r, there, running⟩

theorem passive_filter (events : List ProcessEvent) :
    ∀ event ∈ events.filter (System.Passive ·), System.Passive event :=
  fun _ member => of_decide_eq_true (List.mem_filter.mp member).2

theorem killJob_answered (platform : Platform) (procfs : Bool) (weather : Weather) (sound : agent.Sound) (idle : agent.Idle) :
    System.Lingers jobUuid agent (killJob platform procfs weather jobUuid agent).2 ∧
      (killJob platform procfs weather jobUuid agent).2.Sound ∧
      ∀ response answer, (killJob platform procfs weather jobUuid agent).1 = .ok response → Success response →
        agent.getStatus platform.host procfs jobUuid = some answer → answer.status = .running →
          Records jobUuid (killJob platform procfs weather jobUuid agent).2 .killed := by
  have begun : (agent.step platform.host procfs (.kill jobUuid)).Sound := System.sound_step sound _
  have goesOn : System.Lingers jobUuid _ (afterKill platform procfs weather jobUuid agent) ∧ _ :=
    System.lingers_passive begun (passive_filter weather.meanwhile)
  have after : (killJob platform procfs weather jobUuid agent).2 = afterKill platform procfs weather jobUuid agent := by
    unfold killJob
    dsimp only
    split
    · rfl
    · split
      · rfl
      · split <;> rfl
  rw [after]
  refine ⟨(System.lingers_step sound id).trans goesOn.1, goesOn.2, ?_⟩
  intro response answer answered success found running
  obtain ⟨r, there, running⟩ := getStatus_running found running
  unfold killJob at answered
  dsimp only at answered
  split at answered
  · cases answered
  next finished =>
    split at answered
    next =>
      cases answered
      exact absurd success.2 (show ¬ 404 < 300 by decide)
    next r' present =>
      split at answered
      next =>
        cases answered
        exact absurd success.2 (show ¬ 500 < 300 by decide)
      next ended =>
        refine ⟨r', present, ?_⟩
        exact System.killed_of_ended ⟨sound, idle⟩ (passive_filter weather.meanwhile) there running
          (not_not.mp finished) present ended

theorem running_ne_pending : JobStatus.running ≠ .pending := by decide

theorem submitJob_answered (platform : Platform) (procfs : Bool) (weather : Weather) {body : JobRequest} (own : body.jobUuid = jobUuid)
    (sound : agent.Sound) (idle : agent.Idle) (unheard : System.Unheard jobUuid agent) :
    (submitJob platform procfs weather body agent).2.Sound ∧
      (∀ r, (submitJob platform procfs weather body agent).2.jobs.get? jobUuid = some r → r.status ≠ .pending) ∧
      ∀ status, tells ((submitJob platform procfs weather body agent).1.mapError .transport) = some status →
        status ≠ .pending ∧
          ∀ r, (submitJob platform procfs weather body agent).2.jobs.get? jobUuid = some r → r.status = status := by
  have noRecord : ∀ {P : ProcessRecord → Prop} r, agent.jobs.get? jobUuid = some r → P r := by
    intro P r found
    cases unheard.1.symm.trans found
  unfold submitJob
  dsimp only
  cases checked : (platform.host.run (Agent.submitJob platform.host body) weather.world).1 with
  | error e =>
    -- a refusal tells no status and leaves no record
    refine ⟨sound, noRecord, ?_⟩
    intro status told
    cases e <;> cases told
  | ok answer =>
    obtain ⟨notPending, persists⟩ := submitJob_answers checked
    dsimp only
    split
    next persistent =>
      have started : System.Started platform.host agent body.scriptName body.jobUuid weather.pid
          (agent.step platform.host procfs (.start body.scriptName body.jobUuid weather.pid)) := by
        rw [System.step, if_pos idle]
        exact System.started agent _ _ _
      -- a record of the job is the one that this start has made
      have records : ∀ r, (agent.step platform.host procfs
          (.start body.scriptName body.jobUuid weather.pid)).jobs.get? jobUuid = some r → r.status = .running := by
        intro r found
        rcases started.records with same | ⟨path, pid, jobs⟩
        · rw [same] at found
          cases unheard.1.symm.trans found
        · rw [jobs, own, Dict.get?_set_self] at found
          cases found
          rfl
      have began : (agent.step platform.host procfs
          (.start body.scriptName body.jobUuid weather.pid)).Sound := System.sound_step sound _
      have runs : ∀ r, (agent.step platform.host procfs
          (.start body.scriptName body.jobUuid weather.pid)).jobs.get? jobUuid = some r → r.status ≠ .pending := by
        intro r found
        rw [records r found]
        exact running_ne_pending
      split
      · refine ⟨began, runs, ?_⟩
        intro status told
        obtain rfl := tells_job told
        rw [(persists persistent).1]
        exact ⟨running_ne_pending, records⟩
      · refine ⟨began, runs, ?_⟩
        intro status told
        cases told
    next =>
      refine ⟨sound, noRecord, ?_⟩
      intro status told
      obtain rfl := tells_job told
      exact ⟨notPending, noRecord⟩

theorem delivered (serve : System → Served) (s : Station platform) :
    (∃ e, deliver platform serve s = (.error e, s)) ∨
      s.agent.Idle ∧ ∃ result, deliver platform serve s = (result, { s with agent := (serve s.agent).2 }) ∧
        ((∃ e, result = .error e) ∨ result = (serve s.agent).1.mapError .transport) := by
  unfold deliver
  split
  next reached =>
    refine .inr ⟨reached.2, _, rfl, ?_⟩
    split
    · exact .inr rfl
    · exact .inl ⟨_, rfl⟩
  next => exact .inl ⟨_, rfl⟩

end

/-! ## What holds in every scene -/

/-- All that is heard of is one end, and the one that the agent's record has, if there is a record. -/
structure Agreed (heard records : JobStatus → Prop) : Prop where
  one : ∀ first second, heard first → heard second → first = second
  kept : ∀ status recorded, heard status → records recorded → recorded = status

/-- Where a handler stands that knows this: before its row is there only the submission knows more
than nothing, and before the post nothing is tracked. -/
def Footing (jobUuid : String) {platform : Platform} (errand : Errand) (known : Knowledge) (s : Station platform) : Prop :=
  match errand, known with
  | .submit, .unaware => s.tables.jobs.get? jobUuid = none ∧ System.Unheard jobUuid s.agent
  | .submit, .told status => s.tables.jobs.get? jobUuid = none ∧ status ≠ .pending
  | .submit, .aware => True
  | _, .unaware => True
  | _, _ => s.tables.jobs.get? jobUuid ≠ none

def UnderWay (platform : Platform) (procfs : Bool) (jobUuid : String) (s : Station platform) : Prop :=
  (∃ answer, s.agent.getStatus platform.host procfs jobUuid = some answer ∧ answer.status = .running) ∧
    ∀ row, s.tables.jobs.get? jobUuid = some row → isActive row.status = true

abbrev Calls (platform : Platform) := Proc.Log Op (Station platform)

def Reached (platform : Platform) (procfs : Bool) (jobUuid : String) (calls : Calls platform) : Prop :=
  ∃ entry ∈ calls, entry.1 = .send (.killJob jobUuid) ∧ UnderWay platform procfs jobUuid entry.2

def Writes (jobUuid : String) : Op → Prop
  | .query (.updateJob key _) => key = jobUuid
  | .query (.insertJob fields) => fields.jobUuid = jobUuid
  | _ => False

/-- The job's row is written only once a kill has reached the job under way. -/
def WritesReached (platform : Platform) (procfs : Bool) (jobUuid : String) (calls : Calls platform) : Prop :=
  ∀ earlier op s later, calls = earlier ++ (op, s) :: later → Writes jobUuid op →
    Reached platform procfs jobUuid earlier

section
open Proc Pool
variable {platform : Platform} {procfs : Bool} {submission : Submission} {visits : Nat → Visit} {scene : Scene platform}
  {jobUuid : String}

structure Holds (procfs : Bool) (submission : Submission) (visits : Nat → Visit) (scene : Scene platform) : Prop where
  sound : scene.shared.agent.Sound
  keyed : JobReconciler.Keyed scene.shared.tables
  row : ∀ row, scene.row submission = some row → row.status ≠ .pending
  record : ∀ r, scene.record submission = some r → r.status ≠ .pending
  heed : AllHeed (Scene.disciplines submission visits) .unaware (handler platform procfs submission) scene
  footing : ∀ number, Footing submission.jobUuid (errand visits number) (scene.knows procfs submission visits number)
    scene.shared
  agreed : Agreed (scene.Heard procfs submission visits) (Records submission.jobUuid scene.shared.agent)
  told : ∀ number activity, scene.activities number = some activity → errand visits number = .kill →
    ∀ status, scene.knows procfs submission visits number = .told status →
      Reached platform procfs submission.jobUuid activity.log
  writes : ∀ number activity, scene.activities number = some activity → errand visits number = .kill →
    WritesReached platform procfs submission.jobUuid activity.log

theorem errand_submit {number : Nat} (submits : errand visits number = .submit) : number = 0 := by
  cases number with
  | zero => rfl
  | succ number =>
    rw [errand] at submits
    cases visit : visits number <;> rw [visit] at submits <;> cases submits

theorem Agreed.of_all {heard records : JobStatus → Prop} {status : JobStatus} (all : ∀ other, heard other → other = status)
    (recorded : ∀ other, records other → other = status) : Agreed heard records where
  one first second heardFirst heardSecond := (all first heardFirst).trans (all second heardSecond).symm
  kept other record heardOther records := (recorded record records).trans (all other heardOther).symm

theorem ended_ne_running {status : JobStatus} (ended : isActive status = false) : status ≠ .running := by
  rintro rfl
  cases ended

/-- The record stays or ends, and nothing new is heard of. -/
theorem Agreed.lingers {heard fewer : JobStatus → Prop} {agent after : System}
    (agreed : Agreed heard (Records jobUuid agent)) (ended : ∀ status, heard status → isActive status = false)
    (lingers : System.Lingers jobUuid agent after) (narrows : ∀ status, fewer status → heard status) :
    Agreed fewer (Records jobUuid after) where
  one first second heardFirst heardSecond := agreed.one _ _ (narrows _ heardFirst) (narrows _ heardSecond)
  kept := by
    rintro status _ hears ⟨r', found, rfl⟩
    obtain ⟨r, before, _⟩ := lingers.record r' found
    have same : r.status = status := agreed.kept _ _ (narrows _ hears) ⟨r, before, rfl⟩
    have finished : r.status ≠ .running := same ▸ ended_ne_running (ended _ (narrows _ hears))
    exact (lingers.status before finished found).trans same

theorem Footing.kept {errand : Errand} {known : Knowledge} {s after : Station platform} (footing : Footing jobUuid errand known s)
    (row : after.tables.jobs.get? jobUuid = none ↔ s.tables.jobs.get? jobUuid = none)
    (unheard : System.Unheard jobUuid s.agent → System.Unheard jobUuid after.agent) :
    Footing jobUuid errand known after := by
  cases errand <;> cases known
  case submit.unaware => exact ⟨row.mpr footing.1, unheard footing.2⟩
  case submit.told => exact ⟨row.mpr footing.1, footing.2⟩
  all_goals first | trivial | exact fun none => footing (row.mp none)

theorem Footing.reader {errand : Errand} {known : Knowledge} {s after : Station platform} (reads : errand ≠ .submit)
    (footing : Footing jobUuid errand known s)
    (row : after.tables.jobs.get? jobUuid = none → s.tables.jobs.get? jobUuid = none) :
    Footing jobUuid errand known after := by
  cases errand <;> cases known
  case submit.unaware | submit.aware | submit.told => exact absurd rfl reads
  all_goals first | trivial | exact fun none => footing (row none)

theorem Footing.present {errand : Errand} {known : Knowledge} {s : Station platform} (footing : Footing jobUuid errand known s)
    (reads : errand ≠ .submit) (aware : known ≠ .unaware) : s.tables.jobs.get? jobUuid ≠ none := by
  cases errand <;> cases known
  case submit.unaware | submit.aware | submit.told => exact absurd rfl reads
  all_goals first | exact absurd rfl aware | exact footing

theorem heard_ended {status : JobStatus} (heard : scene.Heard procfs submission visits status) :
    isActive status = false := heard.1

/-! ## A call is answered -/

section
variable {number : Nat} {op : Op} {k : Except Failure (Reply op) → Proc Op Reply Failure Unit} {log : Calls platform}

abbrev after (procfs : Bool) (submission : Submission) (scene : Scene platform) (number : Nat) (op : Op)
    (k : Except Failure (Reply op) → Proc Op Reply Failure Unit) (log : Calls platform) : Scene platform :=
  answered (handler platform procfs submission) scene number op k log

abbrev learns (procfs : Bool) (submission : Submission) (visits : Nat → Visit) (scene : Scene platform) (number : Nat)
    (op : Op) : Knowledge :=
  learn submission.jobUuid (errand visits number) (scene.knows procfs submission visits number) op
    (handle platform procfs submission.jobUuid op scene.shared).1

theorem heard_answered (called : scene.activities number = some ⟨.call op k, log⟩) {status : JobStatus}
    (heard : (after procfs submission scene number op k log).Heard procfs submission visits status) :
    scene.Heard procfs submission visits status ∨
      isActive status = false ∧
        ((∃ row, (after procfs submission scene number op k log).row submission = some row ∧ row.status = status) ∨
          learns procfs submission visits scene number op = .told status) := by
  obtain ⟨ended, inRow | ⟨other, knowing⟩⟩ := heard
  · exact .inr ⟨ended, .inl inRow⟩
  · rcases knowing_answered called knowing with ⟨learnt, _⟩ | before
    · exact .inr ⟨ended, .inr learnt.symm⟩
    · exact .inl ⟨ended, .inr ⟨other, before⟩⟩

theorem heard_told (called : scene.activities number = some ⟨.call op k, log⟩) {status : JobStatus}
    (told : scene.knows procfs submission visits number = .told status) (ended : isActive status = false) :
    scene.Heard procfs submission visits status :=
  ⟨ended, .inr ⟨number, told ▸ knowing_called called⟩⟩

theorem allowed_called (holds : Holds procfs submission visits scene)
    (called : scene.activities number = some ⟨.call op k, log⟩) :
    allowed submission.jobUuid (errand visits number) (scene.knows procfs submission visits number) op := by
  have heeds := (holds.heed number _ called).1
  rwa [Scene.knows, knows, called]

/-- A kill that is answered with success has reached the job under way. -/
theorem underWay (holds : Holds procfs submission visits scene)
    (running : Scene.KillsRunning platform procfs submission.jobUuid scene.shared) {response : Response}
    (answered : (handle platform procfs submission.jobUuid (.send (.killJob submission.jobUuid)) scene.shared).1 =
      .ok response) (success : Success response) :
    UnderWay platform procfs submission.jobUuid scene.shared ∧
      ∀ status, ¬ scene.Heard procfs submission visits status := by
  obtain ⟨answer, found, runs⟩ := running response answered success
  have nothing : ∀ status, ¬ scene.Heard procfs submission visits status := by
    intro status heard
    obtain ⟨r, there, stillRuns⟩ := getStatus_running found runs
    have polled : System.Lingers submission.jobUuid scene.shared.agent
        (scene.shared.agent.pollJob platform.host procfs submission.jobUuid) := (holds.sound.polled _).lingers
    have same := (holds.agreed.lingers (fun _ => heard_ended) polled fun _ => id).kept _ _ heard ⟨r, there, rfl⟩
    exact ended_ne_running (heard_ended heard) (same ▸ stillRuns)
  refine ⟨⟨⟨answer, found, runs⟩, ?_⟩, nothing⟩
  intro row inTable
  by_contra ended
  exact nothing row.status ⟨by simpa using ended, .inl ⟨row, inTable, rfl⟩⟩

end

/-! ## What the agent answers -/

structure Untouched (jobUuid : String) (s after : Station platform) : Prop where
  tables : after.tables = s.tables
  lingers : System.Lingers jobUuid s.agent after.agent
  sound : after.agent.Sound

theorem Untouched.refl {s : Station platform} (sound : s.agent.Sound) : Untouched jobUuid s s :=
  ⟨rfl, .refl jobUuid s.agent, sound⟩

theorem mapError_ok {A E F : Type} {result : Except E A} {f : E → F} {a : A} (mapped : result.mapError f = .ok a) :
    result = .ok a := by
  cases result with
  | error e => cases mapped
  | ok b =>
    cases mapped
    rfl

theorem handle_about {request : Request} (about : jobOf request = some jobUuid) (s : Station platform) :
    handle platform procfs jobUuid (.send request) s = deliver platform (endpoint platform procfs s.weather request) s :=
  if_pos about

theorem polled (procfs : Bool) {s : Station platform} (sound : s.agent.Sound) :
    let handled := handle platform procfs jobUuid (.send (.getJobStatus jobUuid)) s
    Untouched jobUuid s handled.2 ∧
      ∀ status, tells handled.1 = some status → Records jobUuid handled.2.agent status := by
  intro handled
  have about : handled = deliver platform (getJobStatus platform procfs jobUuid) s := handle_about rfl s
  rw [about]
  rcases delivered (getJobStatus platform procfs jobUuid) s with ⟨e, lost⟩ | ⟨idle, result, served, returned⟩
  · rw [lost]
    exact ⟨.refl sound, nofun⟩
  · have answered : Answered jobUuid s.agent (Records jobUuid) (getJobStatus platform procfs jobUuid s.agent) :=
      getJobStatus_answered sound idle
    rw [served]
    refine ⟨⟨rfl, answered.lingers, answered.sound⟩, ?_⟩
    intro status told
    rcases returned with ⟨e, rfl⟩ | rfl
    · cases told
    · exact answered.tells status told

theorem killed (procfs : Bool) {s : Station platform} (sound : s.agent.Sound) :
    let handled := handle platform procfs jobUuid (.send (.killJob jobUuid)) s
    Untouched jobUuid s handled.2 ∧
      ∀ response answer, handled.1 = .ok response → Success response →
        s.agent.getStatus platform.host procfs jobUuid = some answer → answer.status = .running →
          Records jobUuid handled.2.agent .killed := by
  intro handled
  have about : handled = deliver platform (killJob platform procfs s.weather jobUuid) s := handle_about rfl s
  rw [about]
  rcases delivered (killJob platform procfs s.weather jobUuid) s with ⟨e, lost⟩ | ⟨idle, result, served, returned⟩
  · rw [lost]
    refine ⟨.refl sound, ?_⟩
    intro response answer answered
    cases answered
  · obtain ⟨lingers, stays, kills⟩ := killJob_answered platform procfs s.weather sound idle
    rw [served]
    refine ⟨⟨rfl, lingers, stays⟩, ?_⟩
    intro response answer answered
    rcases returned with ⟨e, rfl⟩ | rfl
    · cases answered
    · exact kills response answer (mapError_ok answered)

theorem posted (procfs : Bool) {s : Station platform} (sound : s.agent.Sound) (unheard : System.Unheard jobUuid s.agent)
    {body : JobRequest} (own : body.jobUuid = jobUuid) :
    let handled := handle platform procfs jobUuid (.send (.submitJob body)) s
    handled.2.tables = s.tables ∧ handled.2.agent.Sound ∧
      (∀ r, handled.2.agent.jobs.get? jobUuid = some r → r.status ≠ .pending) ∧
      ∀ status, tells handled.1 = some status →
        status ≠ .pending ∧ ∀ recorded, Records jobUuid handled.2.agent recorded → recorded = status := by
  intro handled
  have job : jobOf (.submitJob body) = some jobUuid := congrArg some own
  have about : handled = deliver platform (submitJob platform procfs s.weather body) s := handle_about job s
  rw [about]
  rcases delivered (submitJob platform procfs s.weather body) s with ⟨e, lost⟩ | ⟨idle, result, served, returned⟩
  · rw [lost]
    refine ⟨rfl, sound, ?_, nofun⟩
    intro r found
    cases unheard.1.symm.trans found
  · obtain ⟨stays, notPending, truthful⟩ := submitJob_answered platform procfs s.weather own sound idle unheard
    rw [served]
    refine ⟨rfl, stays, notPending, ?_⟩
    intro status told
    rcases returned with ⟨e, rfl⟩ | rfl
    · cases told
    · obtain ⟨known, records⟩ := truthful status told
      refine ⟨known, ?_⟩
      rintro _ ⟨r, found, rfl⟩
      exact records r found

theorem answers (holds : Holds procfs submission visits scene) (number : Nat) (op : Op) :
    (Scene.disciplines submission visits number).credible op (handler platform procfs submission number op scene.shared).1 := by
  change credible submission.jobUuid op (handle platform procfs submission.jobUuid op scene.shared).1
  cases op with
  | query statement =>
    cases statement with
    | findJob key =>
      rintro rfl row found
      exact holds.row row found
    | _ => trivial
  | send request =>
    cases request with
    | getJobStatus key =>
      rintro rfl told
      obtain ⟨untouched, tells⟩ := polled procfs holds.sound
      obtain ⟨r', found, pending⟩ := tells _ told
      obtain ⟨r, before, same | ⟨_, notPending⟩⟩ := untouched.lingers.record r' found
      · exact holds.record r before (same.symm.trans pending)
      · exact notPending pending
    | _ => trivial
  | _ => trivial

end

end FinalStatus

end Csl.Server
