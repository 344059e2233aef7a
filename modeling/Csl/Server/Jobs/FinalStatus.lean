import Csl.Server.Jobs.Agreement

/-! A job's end in the database is final, and the agent's.

What each call leaves is taken one by one: reading and writing the row, asking the agent, and
everything else. Then every step keeps the agreement, and so does every run.
-/

set_option autoImplicit false

namespace Csl.Server
open Csl.Shared Csl.Agent Runs Proc Pool

namespace FinalStatus
variable {platform : Platform} {procfs : Bool} {submission : Submission} {visits : Nat → Visit} {scene : Scene platform}
  {jobUuid : String}

/-! ## What a call leaves -/

theorem noticed_told {known : Knowledge} {status : JobStatus} (told : known.noticed = .told status) :
    known = .told status := by
  cases known with
  | told => exact told
  | unaware | aware => cases told

/-- A kill is told of an end by the agent's answer to its kill only. -/
theorem told_by_kill {known : Knowledge} {status : JobStatus} {s : Station platform} (op : Op)
    (may : allowed jobUuid .kill known op)
    (told : learn jobUuid .kill known op (handle platform procfs jobUuid op s).1 = .told status) :
    known = .told status ∨ op = .send (.killJob jobUuid) ∧ ∃ response,
      (handle platform procfs jobUuid (.send (.killJob jobUuid)) s).1 = .ok response ∧ Success response := by
  cases op with
  | query statement =>
    cases statement with
    | findJob key =>
      change learn jobUuid .kill known (.query (.findJob key)) (.ok (s.tables.jobs.get? key)) = _ at told
      cases found : s.tables.jobs.get? key with
      | none =>
        rw [found] at told
        exact .inl told
      | some row =>
        rw [found] at told
        simp only [learn] at told
        split at told
        · exact .inl (noticed_told told)
        · exact .inl told
    | activeJobs =>
      change (if _ then known.noticed else known) = _ at told
      split at told
      · exact .inl (noticed_told told)
      · exact .inl told
    | insertJob fields =>
      -- a row that is inserted makes the job known of, and no end
      change (if fields.jobUuid = jobUuid then Knowledge.aware else known) = _ at told
      split at told
      · cases told
      · exact .inl told
    | _ => exact .inl told
  | send request =>
    cases request with
    | getJobStatus key =>
      by_cases own : key = jobUuid
      · -- a kill polls no job of its own
        rcases (may own).1 with impossible | impossible <;> cases impossible
      · simp only [learn, if_neg own] at told
        exact .inl told
    | killJob key =>
      cases answered : (handle platform procfs jobUuid (.send (.killJob key)) s).1 with
      | error e =>
        rw [answered] at told
        exact .inl told
      | ok response =>
        rw [answered] at told
        simp only [learn] at told
        split at told
        next both =>
          obtain ⟨rfl, success⟩ := both
          exact .inr ⟨rfl, response, answered, success⟩
        next => exact .inl told
    | submitJob body =>
      by_cases own : body.jobUuid = jobUuid
      · cases (may own).1
      · simp only [learn, if_neg own] at told
        exact .inl told
    | _ => exact .inl told
  | _ => exact .inl told

theorem Reached.append {calls : Calls platform} (reached : Reached platform procfs jobUuid calls) (more : Calls platform) :
    Reached platform procfs jobUuid (calls ++ more) := by
  obtain ⟨entry, member, kill⟩ := reached
  exact ⟨entry, List.mem_append_left more member, kill⟩

theorem writesReached_append {calls : Calls platform} {op : Op} {s : Station platform}
    (before : WritesReached platform procfs jobUuid calls)
    (now : Writes jobUuid op → Reached platform procfs jobUuid calls) :
    WritesReached platform procfs jobUuid (calls ++ [(op, s)]) := by
  intro earlier other s' later split writes
  rcases List.eq_nil_or_concat later with rfl | ⟨rest, last, rfl⟩
  · obtain ⟨rfl, last⟩ := List.append_inj' split rfl
    cases last
    exact now writes
  · rw [List.concat_eq_append, ← List.cons_append, ← List.append_assoc] at split
    obtain ⟨rfl, _⟩ := List.append_inj' split rfl
    exact before earlier other s' rest rfl writes

section
variable {number : Nat} {op : Op} {k : Except Failure (Reply op) → Proc Op Reply Failure Unit} {log : Calls platform}

/-- A kill writes an end it was told, and had reached the job when it was told. -/
theorem reached_of_writes (holds : Holds procfs submission visits scene)
    (called : scene.activities number = some ⟨.call op k, log⟩) (kills : errand visits number = .kill)
    (writes : Writes submission.jobUuid op) : Reached platform procfs submission.jobUuid log := by
  have may := allowed_called holds called
  rw [kills] at may
  cases op with
  | query statement =>
    cases statement with
    | insertJob fields => cases (may writes).1
    | updateJob key update =>
      obtain ⟨status, known, _⟩ := (may writes).2
      exact holds.told number _ called kills status known
    | _ => cases writes
  | _ => cases writes

theorem holds_answered (holds : Holds procfs submission visits scene)
    (called : scene.activities number = some ⟨.call op k, log⟩)
    (sensible : scene.Sensible procfs submission visits number op) {s : Station platform}
    (left : s = (handle platform procfs submission.jobUuid op scene.shared).2)
    (sound : s.agent.Sound) (keyed : JobReconciler.Keyed s.tables)
    (row : ∀ row, s.tables.jobs.get? submission.jobUuid = some row → row.status ≠ .pending)
    (record : ∀ r, s.agent.jobs.get? submission.jobUuid = some r → r.status ≠ .pending)
    (footing : Footing submission.jobUuid (errand visits number) (learns procfs submission visits scene number op) s)
    (others : ∀ other, other ≠ number →
      Footing submission.jobUuid (errand visits other) (scene.knows procfs submission visits other) s)
    (agreed : Agreed ((after procfs submission scene number op k log).Heard procfs submission visits)
      (Records submission.jobUuid s.agent)) :
    Holds procfs submission visits (after procfs submission scene number op k log) := by
  have may := allowed_called holds called
  subst left
  constructor
  · exact sound
  · exact keyed
  · exact row
  · exact record
  · rw [after, ← step_served (task platform submission visits) (outside platform procfs submission.jobUuid) called]
    exact heed_step (heeds_task platform submission visits) (answers holds) holds.heed
  · -- only the handler that called has learnt something
    intro other
    rw [Scene.knows, knows_answered called]
    by_cases same : other = number
    · rw [if_pos same, same]
      exact footing
    · rw [if_neg same]
      exact others other same
  · exact agreed
  · intro other activity found kills status told
    rw [Scene.knows, knows_answered called] at told
    rw [after, answered, activities_put] at found
    split_ifs at found told with same
    · cases found
      subst same
      change learn submission.jobUuid (errand visits other) (scene.knows procfs submission visits other) op _ = _ at told
      rw [kills] at may told
      rcases told_by_kill op may told with before | ⟨rfl, response, answered, success⟩
      · exact (holds.told other _ called kills status before).append _
      · refine ⟨_, List.mem_append_right _ (List.mem_singleton_self _), rfl, ?_⟩
        exact (underWay holds (sensible rfl) answered success).1
    · exact holds.told other activity found kills status told
  · intro other activity found kills
    rw [after, answered, activities_put] at found
    split_ifs at found with same
    · cases found
      subst same
      exact writesReached_append (holds.writes other _ called kills) (reached_of_writes holds called kills)
    · exact holds.writes other activity found kills

theorem Footing.noticed {errand : Errand} {known : Knowledge} {s : Station platform} (footing : Footing jobUuid errand known s)
    (present : s.tables.jobs.get? jobUuid ≠ none) : Footing jobUuid errand known.noticed s := by
  cases errand <;> cases known
  all_goals first | exact footing | exact present | trivial

theorem Footing.of_present {errand : Errand} {s : Station platform} (reads : errand ≠ .submit)
    (present : s.tables.jobs.get? jobUuid ≠ none) (known : Knowledge) : Footing jobUuid errand known s := by
  cases errand <;> cases known
  case submit.unaware | submit.aware | submit.told => exact absurd rfl reads
  all_goals first | exact present | trivial

theorem keyed_set {tables : Tables platform} (keyed : JobReconciler.Keyed tables) {key : String} {job : Job}
    (own : job.jobUuid = key) : JobReconciler.Keyed { tables with jobs := tables.jobs.set key job } := by
  intro other found lookup
  rcases System.get?_set_cases lookup with ⟨rfl, rfl⟩ | ⟨_, before⟩
  · exact own
  · exact keyed other found before

theorem keyed_updateJob {tables : Tables platform} (keyed : JobReconciler.Keyed tables) (key : String) (update : JobUpdate) :
    JobReconciler.Keyed (tables.updateJob key update) := by
  unfold Database.updateJob
  split
  · exact keyed
  next job found => exact keyed_set keyed (keyed key job found)

theorem get?_updateJob_of_ne (tables : Tables platform) {key : String} (other : key ≠ jobUuid) (update : JobUpdate) :
    (tables.updateJob key update).jobs.get? jobUuid = tables.jobs.get? jobUuid := by
  unfold Database.updateJob
  split
  · rfl
  · exact Dict.get?_set_of_ne _ (Ne.symm other) _

theorem heard_before (called : scene.activities number = some ⟨.call op k, log⟩)
    (row : (after procfs submission scene number op k log).row submission = scene.row submission)
    (told : ∀ status, isActive status = false → learns procfs submission visits scene number op = .told status →
      scene.Heard procfs submission visits status) :
    ∀ status, (after procfs submission scene number op k log).Heard procfs submission visits status →
      scene.Heard procfs submission visits status := by
  intro status heard
  rcases heard_answered called heard with before | ⟨ended, inRow | learnt⟩
  · exact before
  · rw [row] at inRow
    exact ⟨ended, .inl inRow⟩
  · exact told status ended learnt

theorem holds_quiet (holds : Holds procfs submission visits scene)
    (called : scene.activities number = some ⟨.call op k, log⟩)
    (sensible : scene.Sensible procfs submission visits number op) {s : Station platform}
    (left : s = (handle platform procfs submission.jobUuid op scene.shared).2)
    (keyed : JobReconciler.Keyed s.tables) (agent : s.agent = scene.shared.agent)
    (row : s.tables.jobs.get? submission.jobUuid = scene.shared.tables.jobs.get? submission.jobUuid)
    (known : learns procfs submission visits scene number op = scene.knows procfs submission visits number ∨
      learns procfs submission visits scene number op = (scene.knows procfs submission visits number).noticed ∧
        scene.shared.tables.jobs.get? submission.jobUuid ≠ none) :
    Holds procfs submission visits (after procfs submission scene number op k log) := by
  have same : s.tables.jobs.get? submission.jobUuid = none ↔
      scene.shared.tables.jobs.get? submission.jobUuid = none := by rw [row]
  have unheard : System.Unheard submission.jobUuid scene.shared.agent → System.Unheard submission.jobUuid s.agent := by
    rw [agent]
    exact id
  apply holds_answered holds called sensible left
  · rw [agent]
    exact holds.sound
  · exact keyed
  · rw [row]
    exact holds.row
  · rw [agent]
    exact holds.record
  · rcases known with learnt | ⟨learnt, present⟩
    · rw [learnt]
      exact (holds.footing number).kept same unheard
    · rw [learnt]
      exact ((holds.footing number).noticed present).kept same unheard
  · exact fun other _ => (holds.footing other).kept same unheard
  · subst left
    rw [agent]
    apply holds.agreed.lingers (fun _ => heard_ended) (.refl _ _)
    apply heard_before called row
    intro status ended told
    rcases known with learnt | ⟨learnt, _⟩
    · exact heard_told called (learnt.symm.trans told) ended
    · exact heard_told called (noticed_told (learnt.symm.trans told)) ended

theorem holds_updateJob (holds : Holds procfs submission visits scene) {update : JobUpdate}
    {k : Except Failure Unit → Proc Op Reply Failure Unit}
    (called : scene.activities number = some ⟨.call (.query (.updateJob submission.jobUuid update)) k, log⟩) :
    Holds procfs submission visits
      (after procfs submission scene number (.query (.updateJob submission.jobUuid update)) k log) := by
  obtain ⟨reads, status, told, writes⟩ := allowed_called holds called rfl
  have present := (holds.footing number).present reads (by rw [told]; nofun)
  obtain ⟨row, found⟩ := Option.ne_none_iff_exists'.mp present
  have updated : scene.shared.tables.updateJob submission.jobUuid update =
      { scene.shared.tables with jobs := scene.shared.tables.jobs.set submission.jobUuid (update.apply row) } := by
    rw [Database.updateJob, found]
  -- a poll that finds nothing new writes no status
  have written : (update.apply row).status = row.status ∨ (update.apply row).status = status ∧ isActive status = false := by
    rw [JobUpdate.apply]
    cases new : update.status with
    | none => exact .inl rfl
    | some value =>
      obtain ⟨rfl, ended⟩ := writes value new
      exact .inr ⟨rfl, ended⟩
  have lookup : (scene.shared.tables.updateJob submission.jobUuid update).jobs.get? submission.jobUuid =
      some (update.apply row) := by rw [updated, Dict.get?_set_self]
  have same : (scene.shared.tables.updateJob submission.jobUuid update).jobs.get? submission.jobUuid = none ↔
      scene.shared.tables.jobs.get? submission.jobUuid = none := by rw [lookup, found]; simp
  apply holds_answered holds called trivial rfl
  · exact holds.sound
  · exact keyed_updateJob holds.keyed _ _
  · intro other there
    cases lookup.symm.trans there
    rcases written with before | ⟨now, ended⟩
    · rw [before]
      exact holds.row row found
    · rw [now]
      rintro rfl
      cases ended
  · exact holds.record
  · exact (holds.footing number).kept same id
  · exact fun other _ => (holds.footing other).kept same id
  · apply holds.agreed.lingers (fun _ => heard_ended) (.refl _ _)
    intro other heard
    rcases heard_answered called heard with before | ⟨ended, ⟨_, inRow, rfl⟩ | learnt⟩
    · exact before
    · cases lookup.symm.trans inRow
      rcases written with before | ⟨now, _⟩
      · rw [before] at ended ⊢
        exact ⟨ended, .inl ⟨row, found, rfl⟩⟩
      · rw [now] at ended ⊢
        exact heard_told called told ended
    · exact heard_told called learnt ended

theorem holds_insertJob (holds : Holds procfs submission visits scene) {fields : JobFields}
    (own : fields.jobUuid = submission.jobUuid) {k : Except Failure Job → Proc Op Reply Failure Unit}
    (called : scene.activities number = some ⟨.call (.query (.insertJob fields)) k, log⟩) :
    Holds procfs submission visits (after procfs submission scene number (.query (.insertJob fields)) k log) := by
  obtain ⟨submits, told⟩ := allowed_called holds called own
  have footing := holds.footing number
  rw [submits, told] at footing
  have learnt : learns procfs submission visits scene number (.query (.insertJob fields)) = .aware := if_pos own
  have lookup : (scene.shared.tables.insertJob fields).2.jobs.get? submission.jobUuid =
      some (scene.shared.tables.insertJob fields).1 := by
    rw [← own]
    exact Dict.get?_set_self _ _ _
  apply holds_answered holds called trivial rfl
  · exact holds.sound
  · exact keyed_set holds.keyed rfl
  · intro row there
    cases lookup.symm.trans there
    exact footing.2
  · exact holds.record
  · rw [submits, learnt]
    trivial
  · -- the other handlers read: there is one submission of the job
    intro other apart
    apply (holds.footing other).reader
    · intro also
      exact apart ((errand_submit also).trans (errand_submit submits).symm)
    · intro none
      cases lookup.symm.trans none
  · apply holds.agreed.lingers (fun _ => heard_ended) (.refl _ _)
    intro other heard
    rcases heard_answered called heard with before | ⟨ended, ⟨_, inRow, rfl⟩ | impossible⟩
    · exact before
    · cases lookup.symm.trans inRow
      exact heard_told called told ended
    · cases learnt.symm.trans impossible

/-! ## The agent is asked -/

theorem records_once {agent : System} {first second : JobStatus} (one : Records jobUuid agent first)
    (other : Records jobUuid agent second) : first = second := by
  obtain ⟨r, found, rfl⟩ := one
  obtain ⟨r', there, rfl⟩ := other
  cases found.symm.trans there
  rfl

theorem Untouched.record {s after : Station platform} (untouched : Untouched jobUuid s after)
    (before : ∀ r, s.agent.jobs.get? jobUuid = some r → r.status ≠ .pending) :
    ∀ r, after.agent.jobs.get? jobUuid = some r → r.status ≠ .pending := by
  intro r' found
  obtain ⟨r, there, same | ⟨_, notPending⟩⟩ := untouched.lingers.record r' found
  · rw [same]
    exact before r there
  · exact notPending

theorem holds_asked (holds : Holds procfs submission visits scene)
    (called : scene.activities number = some ⟨.call op k, log⟩)
    (sensible : scene.Sensible procfs submission visits number op)
    (untouched : Untouched submission.jobUuid scene.shared (handle platform procfs submission.jobUuid op scene.shared).2)
    (reads : errand visits number ≠ .submit)
    (aware : scene.knows procfs submission visits number ≠ .unaware)
    (agreed : Agreed ((after procfs submission scene number op k log).Heard procfs submission visits)
      (Records submission.jobUuid (handle platform procfs submission.jobUuid op scene.shared).2.agent)) :
    Holds procfs submission visits (after procfs submission scene number op k log) := by
  have same : (handle platform procfs submission.jobUuid op scene.shared).2.tables.jobs.get? submission.jobUuid = none ↔
      scene.shared.tables.jobs.get? submission.jobUuid = none := by rw [untouched.tables]
  apply holds_answered holds called sensible rfl
  · exact untouched.sound
  · rw [untouched.tables]
    exact holds.keyed
  · rw [untouched.tables]
    exact holds.row
  · exact untouched.record holds.record
  · apply Footing.of_present reads
    rw [untouched.tables]
    exact (holds.footing number).present reads aware
  · exact fun other _ => (holds.footing other).kept same untouched.lingers.unheard
  · exact agreed

/-- Where a handler is told the end that the record has, all is one end. -/
theorem agreed_told
    (called : scene.activities number = some ⟨.call op k, log⟩)
    (untouched : Untouched submission.jobUuid scene.shared (handle platform procfs submission.jobUuid op scene.shared).2)
    {status : JobStatus} (told : learns procfs submission visits scene number op = .told status)
    (all : ∀ other, scene.Heard procfs submission visits other → other = status)
    (records : ∀ recorded, Records submission.jobUuid
      (handle platform procfs submission.jobUuid op scene.shared).2.agent recorded → recorded = status) :
    Agreed ((after procfs submission scene number op k log).Heard procfs submission visits)
      (Records submission.jobUuid (handle platform procfs submission.jobUuid op scene.shared).2.agent) := by
  apply Agreed.of_all _ records
  intro other heard
  rcases heard_answered called heard with before | ⟨ended, inRow | learnt⟩
  · exact all other before
  · have row : (after procfs submission scene number op k log).row submission = scene.row submission :=
      congrArg (fun tables => tables.jobs.get? submission.jobUuid) untouched.tables
    rw [row] at inRow
    exact all other ⟨ended, .inl inRow⟩
  · cases told.symm.trans learnt
    rfl

/-- Where a handler is told no end, the record may have ended. -/
theorem agreed_untold (holds : Holds procfs submission visits scene)
    (called : scene.activities number = some ⟨.call op k, log⟩)
    (untouched : Untouched submission.jobUuid scene.shared (handle platform procfs submission.jobUuid op scene.shared).2)
    (told : ∀ status, isActive status = false → learns procfs submission visits scene number op = .told status →
      scene.Heard procfs submission visits status) :
    Agreed ((after procfs submission scene number op k log).Heard procfs submission visits)
      (Records submission.jobUuid (handle platform procfs submission.jobUuid op scene.shared).2.agent) := by
  apply holds.agreed.lingers (fun _ => heard_ended) untouched.lingers
  apply heard_before called _ told
  exact congrArg (fun tables => tables.jobs.get? submission.jobUuid) untouched.tables

theorem holds_getJobStatus (holds : Holds procfs submission visits scene)
    {k : Except Failure Response → Proc Op Reply Failure Unit}
    (called : scene.activities number = some ⟨.call (.send (.getJobStatus submission.jobUuid)) k, log⟩)
    (sensible : scene.Sensible procfs submission visits number (.send (.getJobStatus submission.jobUuid))) :
    Holds procfs submission visits
      (after procfs submission scene number (.send (.getJobStatus submission.jobUuid)) k log) := by
  obtain ⟨errands, aware⟩ := allowed_called holds called rfl
  have reads : errand visits number ≠ .submit := by
    rcases errands with same | same <;> rw [same] <;> decide
  obtain ⟨untouched, truthful⟩ := polled procfs holds.sound
  apply holds_asked holds called sensible untouched reads aware
  cases answer : tells (handle platform procfs submission.jobUuid (.send (.getJobStatus submission.jobUuid)) scene.shared).1 with
  | some status =>
    have learnt : learns procfs submission visits scene number (.send (.getJobStatus submission.jobUuid)) = .told status := by
      simp [learn, answer]
    have records := truthful status answer
    by_cases ended : isActive status = false
    · -- what was heard of before agrees with the record, and so does what the agent tells now
      apply agreed_told called untouched learnt
      · intro other heard
        exact ((holds.agreed.lingers (fun _ => heard_ended) untouched.lingers fun _ => id).kept _ _ heard records).symm
      · exact fun recorded there => records_once there records
    · apply agreed_untold holds called untouched
      intro other finished told
      cases learnt.symm.trans told
      exact absurd finished ended
  | none =>
    by_cases reconciles : errand visits number = .reconcile
    · -- The reconciler has no answer and takes the job for failed.
      obtain ⟨failed, all⟩ := sensible rfl reconciles answer
      have learnt : learns procfs submission visits scene number (.send (.getJobStatus submission.jobUuid)) =
          .told .failed := by
        simp [learn, answer, reconciles]
      apply agreed_told called untouched learnt all
      rintro _ ⟨r, found, rfl⟩
      exact failed r found
    · have learnt : learns procfs submission visits scene number (.send (.getJobStatus submission.jobUuid)) = .aware := by
        simp [learn, answer, reconciles]
      apply agreed_untold holds called untouched
      intro other _ told
      cases learnt.symm.trans told

theorem holds_killJob (holds : Holds procfs submission visits scene)
    {k : Except Failure Response → Proc Op Reply Failure Unit}
    (called : scene.activities number = some ⟨.call (.send (.killJob submission.jobUuid)) k, log⟩)
    (sensible : scene.Sensible procfs submission visits number (.send (.killJob submission.jobUuid))) :
    Holds procfs submission visits (after procfs submission scene number (.send (.killJob submission.jobUuid)) k log) := by
  obtain ⟨kills, aware⟩ := allowed_called holds called rfl
  have reads : errand visits number ≠ .submit := by
    rw [kills]
    nofun
  obtain ⟨untouched, killed⟩ := killed procfs holds.sound
  apply holds_asked holds called sensible untouched reads aware
  have unchanged (same : learns procfs submission visits scene number (.send (.killJob submission.jobUuid)) =
      scene.knows procfs submission visits number) := agreed_untold holds called untouched fun status ended told =>
    heard_told called (same.symm.trans told) ended
  cases answer : (handle platform procfs submission.jobUuid (.send (.killJob submission.jobUuid)) scene.shared).1 with
  | error e =>
    apply unchanged
    rw [learns, answer]
    rfl
  | ok response =>
    by_cases success : Success response
    · -- the job is under way, so no end of it was heard of
      obtain ⟨⟨⟨found, there, running⟩, _⟩, nothing⟩ := underWay holds (sensible rfl) answer success
      have learnt : learns procfs submission visits scene number (.send (.killJob submission.jobUuid)) = .told .killed := by
        rw [learns, answer]
        exact if_pos ⟨rfl, success⟩
      apply agreed_told called untouched learnt
      · exact fun other heard => absurd heard (nothing other)
      · exact fun recorded there' => records_once there' (killed response found answer success there running)
    · apply unchanged
      rw [learns, answer]
      exact if_neg fun both => success both.2

/-- Nothing is heard of before the submission has come across a row: nobody else has. -/
theorem nothing_heard (holds : Holds procfs submission visits scene) (submits : errand visits number = .submit)
    (unaware : scene.knows procfs submission visits number = .unaware)
    (noRow : scene.shared.tables.jobs.get? submission.jobUuid = none) (status : JobStatus) :
    ¬ scene.Heard procfs submission visits status := by
  rintro ⟨_, ⟨row, inRow, _⟩ | ⟨other, knowing⟩⟩
  · cases noRow.symm.trans inRow
  · have told := knowing.knows
    by_cases also : errand visits other = .submit
    · rw [(errand_submit also).trans (errand_submit submits).symm] at told
      cases unaware.symm.trans told
    · refine (holds.footing other).present also ?_ noRow
      rw [Scene.knows, told]
      intro same
      cases same

theorem holds_submitJob (holds : Holds procfs submission visits scene) {body : JobRequest}
    (own : body.jobUuid = submission.jobUuid) {k : Except Failure Response → Proc Op Reply Failure Unit}
    (called : scene.activities number = some ⟨.call (.send (.submitJob body)) k, log⟩) :
    Holds procfs submission visits (after procfs submission scene number (.send (.submitJob body)) k log) := by
  obtain ⟨submits, unaware⟩ := allowed_called holds called own
  have footing := holds.footing number
  rw [submits, unaware] at footing
  obtain ⟨noRow, unheard⟩ := footing
  -- before the post nobody but the submission knows of the job
  have nothing : ∀ status, ¬ scene.Heard procfs submission visits status := nothing_heard holds submits unaware noRow
  obtain ⟨tables, sound, notPending, truthful⟩ := posted procfs holds.sound unheard own
  have aware : tells (handle platform procfs submission.jobUuid (.send (.submitJob body)) scene.shared).1 = none →
      learns procfs submission visits scene number (.send (.submitJob body)) = .aware := by
    intro answer
    simp [learn, own, answer]
  have told : ∀ status, tells (handle platform procfs submission.jobUuid (.send (.submitJob body)) scene.shared).1 =
      some status → learns procfs submission visits scene number (.send (.submitJob body)) = .told status := by
    intro status answer
    simp [learn, own, answer]
  have row : (after procfs submission scene number (.send (.submitJob body)) k log).row submission = scene.row submission :=
    congrArg (fun tables => tables.jobs.get? submission.jobUuid) tables
  have heard : ∀ status, (after procfs submission scene number (.send (.submitJob body)) k log).Heard procfs submission
      visits status → learns procfs submission visits scene number (.send (.submitJob body)) = .told status := by
    intro status heard
    rcases heard_answered called heard with before | ⟨ended, inRow | told⟩
    · exact absurd before (nothing status)
    · rw [row] at inRow
      exact absurd ⟨ended, .inl inRow⟩ (nothing status)
    · exact told
  apply holds_answered holds called trivial rfl sound
  · rw [tables]
    exact holds.keyed
  · rw [tables]
    exact holds.row
  · exact notPending
  · rw [submits]
    cases answer : tells (handle platform procfs submission.jobUuid (.send (.submitJob body)) scene.shared).1 with
    | none =>
      rw [aware answer]
      trivial
    | some status =>
      rw [told status answer]
      exact ⟨by rw [tables]; exact noRow, (truthful status answer).1⟩
  -- the other handlers only read: the job is submitted once
  · intro other apart
    apply (holds.footing other).reader
    · intro also
      exact apart ((errand_submit also).trans (errand_submit submits).symm)
    · rw [tables]
      exact id
  · -- what the agent answers is the first that is heard of the job
    cases answer : tells (handle platform procfs submission.jobUuid (.send (.submitJob body)) scene.shared).1 with
    | none =>
      constructor
      · intro first _ heardFirst
        cases (aware answer).symm.trans (heard first heardFirst)
      · intro status _ heardStatus
        cases (aware answer).symm.trans (heard status heardStatus)
    | some status =>
      apply Agreed.of_all _ (truthful status answer).2
      intro other heardOther
      cases (told status answer).symm.trans (heard other heardOther)
      rfl

/-! ## Every step -/

theorem elsewhere {request : Request} (other : jobOf request ≠ some jobUuid) (s : Station platform) :
    handle platform procfs jobUuid (.send request) s = (s.weather.elsewhere request, s) :=
  if_neg other

theorem holds_query (holds : Holds procfs submission visits scene) {statement : Query}
    {k : Except Failure statement.Reply → Proc Op Reply Failure Unit}
    (called : scene.activities number = some ⟨.call (.query statement) k, log⟩) :
    Holds procfs submission visits (after procfs submission scene number (.query statement) k log) := by
  cases statement with
  | findJob key =>
    apply holds_quiet holds called trivial rfl holds.keyed rfl rfl
    change learn _ _ _ (.query (.findJob key)) (.ok (scene.shared.tables.jobs.get? key)) = _ ∨
      learn _ _ _ (.query (.findJob key)) (.ok (scene.shared.tables.jobs.get? key)) = _ ∧ _
    cases found : scene.shared.tables.jobs.get? key with
    | none => exact .inl rfl
    | some row =>
      by_cases own : key = submission.jobUuid
      · subst own
        exact .inr ⟨if_pos rfl, by rw [found]; nofun⟩
      · exact .inl (if_neg own)
  | activeJobs =>
    apply holds_quiet holds called trivial rfl holds.keyed rfl rfl
    by_cases listed : ∃ job ∈ scene.shared.tables.jobRows.filter (isActive ·.status), job.jobUuid = submission.jobUuid
    · refine .inr ⟨if_pos listed, ?_⟩
      obtain ⟨job, member, own⟩ := listed
      obtain ⟨⟨key, row⟩, entry, rfl⟩ := List.mem_map.mp (List.mem_of_mem_filter member)
      have found := Dict.get?_of_mem entry
      have filed : key = submission.jobUuid := (holds.keyed key row found).symm.trans own
      rw [← filed, found]
      nofun
    · exact .inl (if_neg listed)
  | insertJob fields =>
    by_cases own : fields.jobUuid = submission.jobUuid
    · exact holds_insertJob holds own called
    · apply holds_quiet holds called trivial rfl (keyed_set holds.keyed rfl) rfl
      · exact Dict.get?_set_of_ne _ (Ne.symm own) _
      · exact .inl (if_neg own)
  | updateJob key update =>
    by_cases own : key = submission.jobUuid
    · subst own
      exact holds_updateJob holds called
    · apply holds_quiet holds called trivial rfl (keyed_updateJob holds.keyed key update) rfl _ (.inl rfl)
      exact get?_updateJob_of_ne scene.shared.tables own update
  | _ => exact holds_quiet holds called trivial rfl holds.keyed rfl rfl (.inl rfl)

theorem holds_send (holds : Holds procfs submission visits scene) {request : Request}
    {k : Except Failure Response → Proc Op Reply Failure Unit}
    (called : scene.activities number = some ⟨.call (.send request) k, log⟩)
    (sensible : scene.Sensible procfs submission visits number (.send request)) :
    Holds procfs submission visits (after procfs submission scene number (.send request) k log) := by
  have quiet (other : jobOf request ≠ some submission.jobUuid)
      (learnt : learns procfs submission visits scene number (.send request) =
        scene.knows procfs submission visits number) :
      Holds procfs submission visits (after procfs submission scene number (.send request) k log) :=
    holds_quiet holds called sensible (s := scene.shared) (by rw [elsewhere other]) holds.keyed rfl rfl (.inl learnt)
  cases request with
  | getJobStatus key =>
    by_cases own : key = submission.jobUuid
    · subst own
      exact holds_getJobStatus holds called sensible
    · exact quiet (fun same => own (Option.some.inj same)) (if_neg own)
  | killJob key =>
    by_cases own : key = submission.jobUuid
    · subst own
      exact holds_killJob holds called sensible
    · apply quiet fun same => own (Option.some.inj same)
      rw [learns]
      cases (handle platform procfs submission.jobUuid (.send (.killJob key)) scene.shared).1 with
      | error e => rfl
      | ok response => exact if_neg fun both => own both.1
  | submitJob body =>
    by_cases own : body.jobUuid = submission.jobUuid
    · exact holds_submitJob holds own called
    · exact quiet (fun same => own (Option.some.inj same)) (if_neg own)
  | _ => exact quiet nofun rfl

theorem holds_served (holds : Holds procfs submission visits scene)
    (called : scene.activities number = some ⟨.call op k, log⟩)
    (sensible : scene.Sensible procfs submission visits number op) :
    Holds procfs submission visits (after procfs submission scene number op k log) := by
  cases op with
  | query statement => exact holds_query holds called
  | send request => exact holds_send holds called sensible
  | _ => exact holds_quiet holds called trivial rfl holds.keyed rfl rfl (.inl rfl)

end

theorem holds_started (holds : Holds procfs submission visits scene) {number : Nat} (free : scene.activities number = none) :
    Holds procfs submission visits (scene.put number ⟨task platform submission visits number, []⟩) := by
  let started : Scene platform := scene.put number ⟨task platform submission visits number, []⟩
  have knows (other : Nat) : started.knows procfs submission visits other = scene.knows procfs submission visits other :=
    knows_started free other
  have found {other : Nat} {activity : Activity Op Reply Failure Unit (Station platform)}
      (there : started.activities other = some activity) :
      activity = ⟨task platform submission visits number, []⟩ ∧ other = number ∨
        scene.activities other = some activity := by
    rw [activities_put] at there
    split_ifs at there with same
    · exact .inl ⟨(Option.some.inj there).symm, same⟩
    · exact .inr there
  constructor
  · exact holds.sound
  · exact holds.keyed
  · exact holds.row
  · exact holds.record
  · intro other activity there
    rcases found there with ⟨rfl, rfl⟩ | before
    · exact heeds_task platform submission visits other
    · exact holds.heed other activity before
  · intro other
    rw [knows]
    exact holds.footing other
  · apply holds.agreed.lingers (fun _ => heard_ended) (.refl _ _)
    rintro status ⟨ended, inRow | ⟨other, knowing⟩⟩
    · exact ⟨ended, .inl inRow⟩
    · rcases knowing_started knowing with impossible | before
      · cases impossible
      · exact ⟨ended, .inr ⟨other, before⟩⟩
  · intro other activity there kills status told
    rw [knows] at told
    rcases found there with ⟨rfl, rfl⟩ | before
    · rw [Scene.knows, Pool.knows, free] at told
      cases told
    · exact holds.told other activity before kills status told
  · intro other activity there kills
    rcases found there with ⟨rfl, rfl⟩ | before
    · intro earlier op s later split
      simp at split
    · exact holds.writes other activity before kills

theorem holds_aside (holds : Holds procfs submission visits scene) {s : Station platform} (sound : s.agent.Sound)
    (keyed : JobReconciler.Keyed s.tables)
    (row : s.tables.jobs.get? submission.jobUuid = scene.shared.tables.jobs.get? submission.jobUuid)
    (record : ∀ r, s.agent.jobs.get? submission.jobUuid = some r → r.status ≠ .pending)
    (unheard : System.Unheard submission.jobUuid scene.shared.agent → System.Unheard submission.jobUuid s.agent)
    (kept : ∀ status recorded, scene.Heard procfs submission visits status → Records submission.jobUuid s.agent recorded →
      recorded = status) : Holds procfs submission visits { scene with shared := s } where
  sound := sound
  keyed := keyed
  row := by
    intro job inTable
    rw [Scene.row, row] at inTable
    exact holds.row job inTable
  record := record
  heed := holds.heed
  footing := fun number => (holds.footing number).kept (by rw [row]) unheard
  agreed := by
    have before : ∀ status, Scene.Heard procfs submission visits { scene with shared := s } status →
        scene.Heard procfs submission visits status := by
      rintro status ⟨ended, ⟨job, inTable, same⟩ | knowing⟩
      · rw [Scene.row, row] at inTable
        exact ⟨ended, .inl ⟨job, inTable, same⟩⟩
      · exact ⟨ended, .inr knowing⟩
    constructor
    · exact fun first second heardFirst heardSecond =>
        holds.agreed.one _ _ (before _ heardFirst) (before _ heardSecond)
    · exact fun status recorded heard => kept status recorded (before status heard)
  told := holds.told
  writes := holds.writes

theorem holds_agent (holds : Holds procfs submission visits scene) (event : ProcessEvent)
    (notStarted : starts submission.jobUuid event = false)
    (proper : scene.Proper procfs submission visits (.outside (.agent event))) :
    Holds procfs submission visits { scene with shared :=
      { scene.shared with agent := scene.shared.agent.step platform.host procfs event } } := by
  have sound : (scene.shared.agent.step platform.host procfs event).Sound := System.sound_step holds.sound event
  by_cases renews : System.Renews platform.host procfs submission.jobUuid scene.shared.agent event
  · cases event with
    | start name key pid =>
      have own : key = submission.jobUuid := renews
      exact absurd own (of_decide_eq_false notStarted)
    | boot =>
      -- The agent comes back with the job, and nobody has heard of an end.
      have restored : scene.shared.agent.step platform.host procfs .boot =
          scene.shared.agent.restoreState platform.host procfs := by
        rw [System.step, if_neg]
        rw [renews.1]
        intro same
        cases same
      refine holds_aside (s := { scene.shared with agent := scene.shared.agent.step platform.host procfs .boot }) holds
        sound holds.keyed rfl ?_ ?_ ?_
      · intro r found
        change (scene.shared.agent.step platform.host procfs .boot).jobs.get? submission.jobUuid = some r at found
        rw [restored, System.get?_restoreState] at found
        obtain ⟨entry, _, alive⟩ := Option.bind_eq_some_iff.mp found
        split at alive
        · cases alive
          exact running_ne_pending
        · cases alive
      · rintro ⟨_, noEntry⟩
        refine absurd ?_ renews.2
        rw [System.get?_restoreState, noEntry]
        rfl
      · exact fun status _ heard => absurd heard (proper renews status)
    | _ => exact renews.elim
  · have lingers : System.Lingers submission.jobUuid scene.shared.agent
        (scene.shared.agent.step platform.host procfs event) := System.lingers_step holds.sound renews
    have untouched : Untouched submission.jobUuid scene.shared
        { scene.shared with agent := scene.shared.agent.step platform.host procfs event } := ⟨rfl, lingers, sound⟩
    exact holds_aside (s := { scene.shared with agent := scene.shared.agent.step platform.host procfs event }) holds
      sound holds.keyed rfl (untouched.record holds.record) lingers.unheard
      (holds.agreed.lingers (fun _ => heard_ended) lingers fun _ => id).kept

theorem holds_outside (holds : Holds procfs submission visits scene) (change : Change platform)
    (proper : scene.Proper procfs submission visits (.outside change)) :
    Holds procfs submission visits { scene with shared := outside platform procfs submission.jobUuid change scene.shared } := by
  cases change with
  | agent event =>
    rw [outside]
    split
    · exact holds
    next notStarted => exact holds_agent holds event (by simpa using notStarted) proper
  | weather weather =>
    exact holds_aside holds holds.sound holds.keyed rfl holds.record id holds.agreed.kept
  | clock now =>
    exact holds_aside holds holds.sound holds.keyed rfl holds.record id holds.agreed.kept
  | row job =>
    rw [outside]
    split
    · exact holds
    next other =>
      exact holds_aside (s := { scene.shared with tables :=
          { scene.shared.tables with jobs := scene.shared.tables.jobs.set job.jobUuid job } }) holds holds.sound
        (keyed_set holds.keyed rfl) (Dict.get?_set_of_ne _ (Ne.symm other) _) holds.record id holds.agreed.kept
  | others tables =>
    have keyed : JobReconciler.Keyed { tables with jobs := scene.shared.tables.jobs } := holds.keyed
    exact holds_aside (s := { scene.shared with tables := { tables with jobs := scene.shared.tables.jobs } }) holds
      holds.sound keyed rfl holds.record id holds.agreed.kept

theorem holds_step (holds : Holds procfs submission visits scene) {turn : Turn (Change platform)}
    (proper : scene.Proper procfs submission visits turn) :
    Holds procfs submission visits (step platform procfs submission visits scene turn) := by
  have moved := step_moved (task platform submission visits) (handler platform procfs submission)
    (outside platform procfs submission.jobUuid) scene turn
  unfold step
  generalize scene.step (task platform submission visits) (handler platform procfs submission)
    (outside platform procfs submission.jobUuid) turn = next at moved ⊢
  cases moved with
  | idle => exact holds
  | started free => exact holds_started holds free
  | served called => exact holds_served holds called (proper _ called)
  | outside => exact holds_outside holds _ proper

/-! ## The row -/

theorem tables_deliver (serve : System → Served) (s : Station platform) : (deliver platform serve s).2.tables = s.tables := by
  unfold deliver
  split <;> rfl

/-- A call leaves the row alone, or it writes it. -/
theorem row_handle (procfs : Bool) (jobUuid : String) (op : Op) (s : Station platform) :
    (handle platform procfs jobUuid op s).2.tables.jobs.get? jobUuid = s.tables.jobs.get? jobUuid ∨
      (∃ update, op = .query (.updateJob jobUuid update)) ∨
      ∃ fields, fields.jobUuid = jobUuid ∧ op = .query (.insertJob fields) := by
  cases op with
  | query statement =>
    cases statement with
    | insertJob fields =>
      by_cases own : fields.jobUuid = jobUuid
      · exact .inr (.inr ⟨fields, own, rfl⟩)
      · exact .inl (Dict.get?_set_of_ne _ (Ne.symm own) _)
    | updateJob key update =>
      by_cases own : key = jobUuid
      · subst own
        exact .inr (.inl ⟨update, rfl⟩)
      · exact .inl (get?_updateJob_of_ne s.tables own update)
    | _ => exact .inl rfl
  | send request =>
    left
    by_cases about : jobOf request = some jobUuid
    · rw [handle_about about, tables_deliver]
    · rw [elsewhere about]
  | _ => exact .inl rfl

theorem row_outside (change : Change platform) (s : Station platform) :
    (outside platform procfs jobUuid change s).tables.jobs.get? jobUuid = s.tables.jobs.get? jobUuid := by
  cases change with
  | agent event =>
    rw [outside]
    split <;> rfl
  | row job =>
    rw [outside]
    split
    · rfl
    next other => exact Dict.get?_set_of_ne _ (Ne.symm other) _
  | _ => rfl

def Listed (submission : Submission) (scene : Scene platform) (status : JobStatus) : Prop :=
  ∃ row, scene.row submission = some row ∧ row.status = status

/-- The row that shows an end shows it after every call. -/
theorem listed_answered (holds : Holds procfs submission visits scene) {number : Nat} {op : Op}
    {k : Except Failure (Reply op) → Proc Op Reply Failure Unit} {log : Calls platform}
    (called : scene.activities number = some ⟨.call op k, log⟩) {status : JobStatus} (ended : isActive status = false)
    (listed : Listed submission scene status) :
    Listed submission (after procfs submission scene number op k log) status := by
  obtain ⟨row, found, same⟩ := listed
  rcases row_handle procfs submission.jobUuid op scene.shared with kept | ⟨update, rfl⟩ | ⟨fields, own, rfl⟩
  · exact ⟨row, kept.trans found, same⟩
  · obtain ⟨_, told, knows, writes⟩ := allowed_called holds called rfl
    refine ⟨update.apply row, ?_, ?_⟩
    · change (scene.shared.tables.updateJob submission.jobUuid update).jobs.get? submission.jobUuid = _
      change scene.shared.tables.jobs.get? submission.jobUuid = some row at found
      rw [Database.updateJob, found]
      exact Dict.get?_set_self _ _ _
    · rw [JobUpdate.apply]
      cases new : update.status with
      | none => exact same
      | some value =>
        -- What is written was heard of, as the row's end was.
        obtain ⟨rfl, finished⟩ := writes value new
        exact holds.agreed.one _ _ (heard_told called knows finished) ⟨ended, .inl ⟨row, found, same⟩⟩
  · -- the submission inserts where there is no row
    obtain ⟨submits, told⟩ := allowed_called holds called own
    have footing := holds.footing number
    rw [submits, told] at footing
    cases footing.1.symm.trans found

theorem listed_step (holds : Holds procfs submission visits scene) (turn : Turn (Change platform)) {status : JobStatus}
    (ended : isActive status = false) (listed : Listed submission scene status) :
    Listed submission (step platform procfs submission visits scene turn) status := by
  have moved := step_moved (task platform submission visits) (handler platform procfs submission)
    (outside platform procfs submission.jobUuid) scene turn
  unfold step
  generalize scene.step (task platform submission visits) (handler platform procfs submission)
    (outside platform procfs submission.jobUuid) turn = next at moved ⊢
  cases moved with
  | idle => exact listed
  | started => exact listed
  | served called => exact listed_answered holds called ended listed
  | outside =>
    obtain ⟨row, found, same⟩ := listed
    exact ⟨row, (row_outside _ _).trans found, same⟩

/-! ## Every run -/

theorem holds_start (os : Processes.Table Program) (agentNow : Timestamp) {tables : Tables platform} (weather : Weather)
    (now : Timestamp) (keyed : JobReconciler.Keyed tables) (unlisted : tables.jobs.get? submission.jobUuid = none) :
    Holds procfs submission visits (start platform os agentNow tables weather now) where
  sound := System.sound_fresh os agentNow
  keyed := keyed
  row := by
    intro row found
    cases unlisted.symm.trans found
  record := fun _ found => absurd found System.not_in_empty
  heed := nofun
  footing := by
    intro number
    cases submits : errand visits number with
    | submit => exact ⟨unlisted, Dict.get?_empty _, Dict.get?_empty _⟩
    | _ => trivial
  agreed := by
    have nothing : ∀ status, ¬ (start platform os agentNow tables weather now).Heard procfs submission visits status := by
      rintro status ⟨_, ⟨row, found, _⟩ | ⟨number, op, k, log, none, _⟩⟩
      · cases unlisted.symm.trans found
      · cases none
    exact ⟨fun first _ heard => absurd heard (nothing first), fun status _ heard => absurd heard (nothing status)⟩
  told := nofun
  writes := nofun

theorem holds_run {turns : List (Turn (Change platform))} (holds : Holds procfs submission visits scene)
    (proper : Meets (step platform procfs submission visits) (Scene.Proper procfs submission visits) scene turns) :
    Holds procfs submission visits (run (step platform procfs submission visits) scene turns) :=
  invariant_run (Holds procfs submission visits) (fun _ _ held meets => holds_step held meets) holds proper

theorem listed_run {turns : List (Turn (Change platform))} (holds : Holds procfs submission visits scene)
    (proper : Meets (step platform procfs submission visits) (Scene.Proper procfs submission visits) scene turns)
    {status : JobStatus} (ended : isActive status = false) (listed : Listed submission scene status) :
    Listed submission (run (step platform procfs submission visits) scene turns) status := by
  have both : Holds procfs submission visits (run (step platform procfs submission visits) scene turns) ∧
      Listed submission (run (step platform procfs submission visits) scene turns) status := by
    apply invariant_run (fun scene => Holds procfs submission visits scene ∧ Listed submission scene status) _
      ⟨holds, listed⟩ proper
    intro scene turn held proper
    exact ⟨holds_step held.1 proper, listed_step held.1 turn ended held.2⟩
  exact both.2

/-- In every run whose steps are all proper, however a submission, polls, reconciler passes and kills
of its job interleave: an end in the row is the end that the agent's record has, if there is one, and
stays in the row for good; and a kill writes the row only after it has reached the job under way. -/
theorem ends_are_final (platform : Platform) (procfs : Bool) (submission : Submission) (visits : Nat → Visit)
    (os : Processes.Table Program) (agentNow : Timestamp) (tables : Tables platform) (weather : Weather) (now : Timestamp)
    (keyed : JobReconciler.Keyed tables) (unlisted : tables.jobs.get? submission.jobUuid = none)
    (turns : List (Turn (Change platform)))
    (proper : Meets (step platform procfs submission visits) (Scene.Proper procfs submission visits)
      (start platform os agentNow tables weather now) turns) :
    ∀ first rest, turns = first ++ rest →
      let reached := run (step platform procfs submission visits) (start platform os agentNow tables weather now) first
      (∀ status, isActive status = false → Listed submission reached status →
        (∀ r, reached.record submission = some r → r.status = status) ∧
          Listed submission (run (step platform procfs submission visits) reached rest) status) ∧
      ∀ number activity, reached.activities number = some activity → errand visits number = .kill →
        WritesReached platform procfs submission.jobUuid activity.log := by
  intro first rest split reached
  subst split
  obtain ⟨before, later⟩ := meets_append.mp proper
  have holds : Holds procfs submission visits reached := holds_run (holds_start os agentNow weather now keyed unlisted) before
  refine ⟨?_, holds.writes⟩
  intro status ended listed
  refine ⟨?_, listed_run holds later ended listed⟩
  intro r found
  exact holds.agreed.kept status r.status ⟨ended, .inl listed⟩ ⟨r, found, rfl⟩

/-! ## A kill of a job that has finished -/

def Sent (submission : Submission) (scene : Scene platform) (number : Nat) : Prop :=
  ∃ activity ∈ scene.activities number, ∃ s, (Op.send (.killJob submission.jobUuid), s) ∈ activity.log

theorem not_sent {number : Nat} (free : scene.activities number = none) : ¬ Sent submission scene number := by
  rintro ⟨activity, found, _⟩
  cases free.symm.trans found

/-- What the handler has called since then was served with an end in the row. -/
def EndedSince (submission : Submission) (number : Nat) (before scene : Scene platform) : Prop :=
  ∀ activity ∈ scene.activities number, ∀ entry ∈ activity.log,
    (∃ earlier ∈ before.activities number, entry ∈ earlier.log) ∨
      ∃ row, entry.2.tables.jobs.get? submission.jobUuid = some row ∧ isActive row.status = false

theorem endedSince_step {before : Scene platform} {number : Nat} (since : EndedSince submission number before scene)
    (turn : Turn (Change platform)) {status : JobStatus} (ended : isActive status = false)
    (listed : Listed submission scene status) :
    EndedSince submission number before (step platform procfs submission visits scene turn) := by
  have moved := step_moved (task platform submission visits) (handler platform procfs submission)
    (outside platform procfs submission.jobUuid) scene turn
  unfold step
  generalize scene.step (task platform submission visits) (handler platform procfs submission)
    (outside platform procfs submission.jobUuid) turn = next at moved ⊢
  intro activity found entry member
  cases moved with
  | idle => exact since activity found entry member
  | outside => exact since activity found entry member
  | started =>
    rw [activities_put] at found
    split_ifs at found with same
    · cases found
      cases member
    · exact since activity found entry member
  | served called =>
    rw [activities_put] at found
    split_ifs at found with same
    · cases found
      subst same
      rcases List.mem_append.mp member with earlier | last
      · exact since _ called entry earlier
      · obtain ⟨row, inRow, rfl⟩ := listed
        rw [List.mem_singleton.mp last]
        exact .inr ⟨row, inRow, ended⟩
    · exact since activity found entry member

theorem endedSince_run {turns : List (Turn (Change platform))} (holds : Holds procfs submission visits scene)
    (proper : Meets (step platform procfs submission visits) (Scene.Proper procfs submission visits) scene turns)
    {status : JobStatus} (ended : isActive status = false) (listed : Listed submission scene status) (number : Nat) :
    EndedSince submission number scene (run (step platform procfs submission visits) scene turns) := by
  have all := invariant_run
    (fun reached => (Holds procfs submission visits reached ∧ Listed submission reached status) ∧
      EndedSince submission number scene reached)
    (fun reached turn held meets => ⟨⟨holds_step held.1.1 meets, listed_step held.1.1 turn ended held.1.2⟩,
      endedSince_step held.2 turn ended held.1.2⟩)
    ⟨⟨holds, listed⟩, fun activity found entry member => .inl ⟨activity, found, member⟩⟩ proper
  exact all.2

/-- A kill that reached the job did so before its end was in the row. -/
theorem not_reached {before : Scene platform} {number : Nat} (since : EndedSince submission number before scene)
    (unsent : ¬ Sent submission before number) {activity : Activity Op Reply Failure Unit (Station platform)}
    (found : scene.activities number = some activity) :
    ¬ Reached platform procfs submission.jobUuid activity.log := by
  rintro ⟨⟨op, s⟩, member, rfl, _, active⟩
  rcases since activity found _ member with ⟨earlier, there, logged⟩ | ⟨row, inRow, ended⟩
  · exact unsent ⟨earlier, there, s, logged⟩
  · cases ended.symm.trans (active row inRow)

theorem row_unwritten (holds : Holds procfs submission visits scene) {number : Nat} (kills : errand visits number = .kill)
    (never : ∀ activity ∈ scene.activities number, ¬ Reached platform procfs submission.jobUuid activity.log) :
    (step platform procfs submission visits scene (.serve number)).row submission = scene.row submission := by
  have moved := step_moved (task platform submission visits) (handler platform procfs submission)
    (outside platform procfs submission.jobUuid) scene (.serve number)
  unfold step
  generalize scene.step (task platform submission visits) (handler platform procfs submission)
    (outside platform procfs submission.jobUuid) (.serve number) = next at moved ⊢
  cases moved with
  | idle => rfl
  | @served _ op _ log called =>
    have unwritten : ¬ Writes submission.jobUuid op :=
      fun writes => never _ called (reached_of_writes holds called kills writes)
    rcases row_handle procfs submission.jobUuid op scene.shared with kept | ⟨update, rfl⟩ | ⟨fields, own, rfl⟩
    · exact kept
    · exact absurd rfl unwritten
    · exact absurd own unwritten

/-- In every run whose steps are all proper: an end in the row stays in it, and at every later moment
it is the end that the agent's record has, if there is one; and a kill whose request had not been made
by then leaves the whole row as it is, in each of its turns. -/
theorem terminal_status_is_final (platform : Platform) (procfs : Bool) (submission : Submission) (visits : Nat → Visit)
    (os : Processes.Table Program) (agentNow : Timestamp) (tables : Tables platform) (weather : Weather) (now : Timestamp)
    (keyed : JobReconciler.Keyed tables) (unlisted : tables.jobs.get? submission.jobUuid = none)
    (turns : List (Turn (Change platform)))
    (proper : Meets (step platform procfs submission visits) (Scene.Proper procfs submission visits)
      (start platform os agentNow tables weather now) turns) :
    ∀ first rest, turns = first ++ rest →
      let reached := run (step platform procfs submission visits) (start platform os agentNow tables weather now) first
      ∀ row, reached.row submission = some row → isActive row.status = false →
        (∀ next others, rest = next ++ others →
          let later := run (step platform procfs submission visits) reached next
          (∃ kept, later.row submission = some kept ∧ kept.status = row.status) ∧
            ∀ r, later.record submission = some r → r.status = row.status) ∧
        ∀ number, errand visits number = .kill → ¬ Sent submission reached number →
          ∀ next others, rest = next ++ .serve number :: others →
            let later := run (step platform procfs submission visits) reached next
            (step platform procfs submission visits later (.serve number)).row submission = later.row submission := by
  intro first rest split reached row inRow ended
  subst split
  obtain ⟨before, later⟩ := meets_append.mp proper
  have holds : Holds procfs submission visits reached := holds_run (holds_start os agentNow weather now keyed unlisted) before
  have listed : Listed submission reached row.status := ⟨row, inRow, rfl⟩
  constructor
  · rintro next others rfl
    have upTo := (meets_append.mp later).1
    have still := listed_run holds upTo ended listed
    refine ⟨still, ?_⟩
    intro r found
    exact (holds_run holds upTo).agreed.kept row.status r.status ⟨ended, .inl still⟩ ⟨r, found, rfl⟩
  · rintro number kills unsent next others rfl
    have upTo := (meets_append.mp later).1
    apply row_unwritten (holds_run holds upTo) kills
    intro activity found
    exact not_reached (endedSince_run holds upTo ended listed number) unsent found

/-! ## A backup that is killed -/

/-- A step whose propriety shows in the state before it: the agent answers a poll, a kill finds the job
running or gets lost, and no restart brings the job back. -/
def plain (procfs : Bool) (submission : Submission) (scene : Scene platform) : Turn (Change platform) → Bool
  | .serve number =>
    match scene.activities number with
    | some ⟨.call (.send (.killJob _)) _, _⟩ =>
      (scene.shared.agent.getStatus platform.host procfs submission.jobUuid).any (·.status = .running) ||
        !scene.shared.weather.reaches
    | some ⟨.call (.send (.getJobStatus key)) _, _⟩ =>
      (tells (handle platform procfs submission.jobUuid (.send (.getJobStatus key)) scene.shared).1).isSome
    | _ => true
  | .outside (.agent .boot) =>
    ((scene.shared.agent.restoreState platform.host procfs).jobs.get? submission.jobUuid).isNone
  | _ => true

theorem lost_killJob {s : Station platform} (lost : s.weather.reaches = false) :
    (handle platform procfs jobUuid (.send (.killJob jobUuid)) s).1 = .error (.transport s.weather.trouble) := by
  rw [handle_about rfl, deliver, if_neg]
  simp [lost]

theorem proper_of_plain {turn : Turn (Change platform)} (isPlain : plain procfs submission scene turn = true) :
    scene.Proper procfs submission visits turn := by
  cases turn with
  | start number => trivial
  | outside change =>
    cases change with
    | agent event =>
      cases event with
      | boot =>
        rintro ⟨_, back⟩
        exact absurd (Option.isNone_iff_eq_none.mp isPlain) back
      | _ => trivial
    | _ => trivial
  | serve number =>
    rintro ⟨program, log⟩ found
    have found : scene.activities number = some ⟨program, log⟩ := found
    cases program with
    | done a => trivial
    | raised e => trivial
    | call op k =>
      cases op with
      | send request =>
        cases request with
        | killJob key =>
          simp only [plain, found] at isPlain
          rintro _ response answered _
          rcases Bool.or_eq_true_iff.mp isPlain with runs | lost
          · obtain ⟨answer, there, running⟩ := (Option.any_eq_true _ _).mp runs
            exact ⟨answer, there, of_decide_eq_true running⟩
          · cases (lost_killJob (Bool.not_eq_true' _ ▸ lost)).symm.trans answered
        | getJobStatus key =>
          simp only [plain, found] at isPlain
          rintro _ _ silent
          rw [silent] at isPlain
          cases isPlain
        | _ => trivial
      | _ => trivial

section
open Installation Agent.Installation

def deploy : Script :=
  { id := 1, name := "deploy", content := scriptOne, metaYaml := none, md5 := station.host.md5 scriptOne,
    persistent := true, updatedAt := "0", updatedBy := 1 }

def tables : Tables station :=
  { machines := Dict.empty.set 1 workstation, bookmarks := [], scripts := Library.empty.put deploy rfl,
    targetStates := Dict.empty, jobs := Dict.empty }

def approving : World :=
  (run (Csl.Server.step station ResolvedVersion.autoDeploy workstation) ResolvedVersion.published
    [.load 1 "deploy", .sync 1]).world

/-- Everything goes well; in a kill the process ends on SIGTERM. -/
def fair : Weather where
  connects := .ok ()
  closes := .ok ()
  wakes := .ok ()
  reaches := true
  returns := true
  trouble := .readTimeout
  world := approving
  pid := some 7
  meanwhile := [.killProceeds, .exit 0 15, .killProceeds]
  elsewhere _ := .ok ⟨200, .descriptor ⟨"deploy", .approved, some deploy.md5, none⟩⟩
  stream := ⟨[], none⟩

def backup : Submission := .json ⟨1, .admin⟩ 1 ⟨"deploy", Dict.empty⟩ "job"

def callers : Nat → Visit
  | 0 => .kill
  | 1 => .reconcile JobReconciler.byId
  | _ => .get

abbrev morning : Scene station := start station .empty "1" tables fair "2"

def whole (number calls : Nat) : List (Turn (Change station)) := .start number :: List.replicate calls (.serve number)

def submitted : List (Turn (Change station)) := .outside (.agent .boot) :: whole 0 10

abbrev ran (turns : List (Turn (Change station))) : Scene station := run (step station true backup callers) morning turns

def statuses (turns : List (Turn (Change station))) : Option JobStatus × Option JobStatus :=
  (((ran turns).row backup).map (·.status), ((ran turns).record backup).map (·.status))

/-- A pass of the reconciler begins before the kill and ends after it. -/
theorem ends_are_final_killed :
    Listed backup (ran (submitted ++ .start 2 :: whole 1 7)) .killed ∧
      Listed backup (run (step station true backup callers) (ran (submitted ++ .start 2 :: whole 1 7))
        (List.replicate 8 (.serve 2))) .killed := by
  have proper : Meets (step station true backup callers) (fun scene turn => plain true backup scene turn = true) morning
      ((submitted ++ .start 2 :: whole 1 7) ++ List.replicate 8 (.serve 2)) := by decide +kernel
  have killed : ((ran (submitted ++ .start 2 :: whole 1 7)).row backup).map (·.status) = some .killed := by
    decide +kernel
  obtain ⟨row, found, same⟩ := Option.map_eq_some_iff.mp killed
  have listed : Listed backup (ran (submitted ++ .start 2 :: whole 1 7)) .killed := ⟨row, found, same⟩
  refine ⟨listed, ?_⟩
  have unlisted : tables.jobs.get? backup.jobUuid = none := Dict.get?_empty _
  have keyed : JobReconciler.Keyed tables := fun jobUuid job found => absurd found (by rw [tables, Dict.get?_empty]; nofun)
  exact ((ends_are_final station true backup callers .empty "1" tables fair "2" keyed unlisted _
    (meets_mono (fun _ _ => proper_of_plain) proper) _ _ rfl).1 .killed rfl listed).2

def completed : List (Turn (Change station)) := submitted ++ .outside (.agent (.exit 0 0)) :: whole 3 7

def lost : List (Turn (Change station)) := .outside (.weather { fair with reaches := false }) :: whole 1 7

theorem terminal_status_is_final_refused :
    (∃ row, (run (step station true backup callers) (ran completed) lost).row backup = some row ∧ row.status = .completed) ∧
      ∀ next others, lost = next ++ .serve 1 :: others →
        let later := run (step station true backup callers) (ran completed) next
        (step station true backup callers later (.serve 1)).row backup = later.row backup := by
  have proper : Meets (step station true backup callers) (fun scene turn => plain true backup scene turn = true) morning
      (completed ++ lost) := by decide +kernel
  have polled : ((ran completed).row backup).map (·.status) = some .completed := by decide +kernel
  have free : ((ran completed).activities 1).isNone = true := by decide +kernel
  have unsent : ¬ Sent backup (ran completed) 1 := not_sent (Option.isNone_iff_eq_none.mp free)
  obtain ⟨row, found, same⟩ := Option.map_eq_some_iff.mp polled
  have unlisted : tables.jobs.get? backup.jobUuid = none := Dict.get?_empty _
  have keyed : JobReconciler.Keyed tables := fun jobUuid job found => absurd found (by rw [tables, Dict.get?_empty]; nofun)
  obtain ⟨final, unwritten⟩ := terminal_status_is_final station true backup callers .empty "1" tables fair "2" keyed
    unlisted _ (meets_mono (fun _ _ => proper_of_plain) proper) completed lost rfl row found (by rw [same]; rfl)
  obtain ⟨⟨kept, inRow, still⟩, _⟩ := final lost [] (List.append_nil lost).symm
  exact ⟨⟨kept, inRow, still.trans same⟩, unwritten 1 rfl unsent⟩

/-- The agent answers the kill of a job that has completed with success too, and the row is killed. -/
theorem late_kill_overwrites :
    statuses (submitted ++ .outside (.agent (.exit 0 0)) :: whole 3 7) = (some .completed, some .completed) ∧
      statuses (submitted ++ .outside (.agent (.exit 0 0)) :: whole 3 7 ++ whole 1 7) = (some .killed, some .completed) := by
  decide +kernel

end

end FinalStatus

end Csl.Server
