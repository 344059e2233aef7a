import Csl.Library.Alone
import Csl.Library.Calls
import Csl.Library.Contracts
import Csl.Library.Sorting
import Csl.Server.Installation
import Csl.Server.ScriptSync.Calls
import Csl.Server.Web.Machines

/-! Who sees and controls the jobs of a machine.

The history page asks for the jobs of the user's machines. The other routes for jobs ask for no
bookmark. What a route gives away is measured against the same tables without the hidden jobs.
-/

set_option autoImplicit false

namespace Csl.Server
open Csl.Shared Csl.Agent Proc

namespace JobAccess

/-- The routes that list jobs and that show, follow and kill one. -/
inductive Route where
  | listJobs (query : Api.JobListQuery)
  | getJob (jobUuid : String)
  | streamJobLogs (jobUuid : String)
  | killJob (jobUuid : String)
  | jobsList (query : Web.JobListQuery)
  | jobDetail (jobUuid : String)
  | jobLogStream (jobUuid : String)
  | killJobWeb (jobUuid : String)

inductive Answer where
  | jobs (rows : List Job)
  | job (row : Job)
  | events (stream : List Api.StreamEvent)
  | noContent
  | jobsPage (page : Web.JobsPage)
  | jobPage (page : Web.JobPage)
  | badge (fragment : Web.KillBadge)
  deriving DecidableEq

def Route.handler (user : User) : Route → Task Answer
  | listJobs query => do return .jobs (← Api.listJobs query)
  | getJob jobUuid => do return .job (← Api.getJob jobUuid)
  | streamJobLogs jobUuid => do return .events (← Api.streamJobLogs jobUuid)
  | killJob jobUuid => do
    Api.killJob jobUuid
    return .noContent
  | jobsList query => do return .jobsPage (← Web.jobsList user query)
  | jobDetail jobUuid => do return .jobPage (← Web.jobDetail user jobUuid)
  | jobLogStream jobUuid => do return .events (← Web.jobLogStream jobUuid)
  | killJobWeb jobUuid => do return .badge (← Web.killJobWeb jobUuid)

/-- The clock, the tunnels and the agents, which may answer by all the calls that reached them.
An HTTPException is raised by handlers only. -/
structure Outside where
  answer : List Op → (op : Op) → Except Failure (Reply op)
  foreign : ∀ calls op status code detail, answer calls op ≠ .error (.http status code detail)

structure Station (platform : Platform) where
  tables : Tables platform
  calls : List Op
  now : Timestamp

variable {platform : Platform}

def Outside.handle (outside : Outside) : Handler Op Reply Failure (Station platform)
  | .query statement, s =>
      let ran := statement.run s.now s.tables
      (.ok ran.1, { s with tables := ran.2 })
  | op, s => (outside.answer s.calls op, { s with calls := s.calls ++ [op] })

def Route.serve (outside : Outside) (user : User) (route : Route) (s : Station platform) :
    Except Failure Answer × Station platform :=
  (route.handler user).run outside.handle s

/-- A job on a machine that the user, no administrator, has not bookmarked. -/
def Hidden (tables : Tables platform) (user : User) (job : Job) : Prop :=
  user.role ≠ .admin ∧ (user.id, job.machineId) ∉ tables.bookmarks

instance (tables : Tables platform) (user : User) (job : Job) : Decidable (Hidden tables user job) :=
  inferInstanceAs (Decidable (_ ∧ _))

def visible (tables : Tables platform) (user : User) : Tables platform :=
  { tables with jobs := tables.jobs.filterMap fun _ job => if Hidden tables user job then none else some job }

def Station.shown (s : Station platform) (user : User) : Station platform :=
  { s with tables := visible s.tables user }

/-- The user is answered, and the agents are called, as if there were no hidden jobs, and these
stay as they were. -/
def Unseen (outside : Outside) (user : User) (s : Station platform) (route : Route) : Prop :=
  let ends := route.serve outside user s
  let without := route.serve outside user (s.shown user)
  ends.1 = without.1 ∧ ends.2.calls = without.2.calls ∧
    ∀ jobUuid job, s.tables.jobs.get? jobUuid = some job → Hidden s.tables user job →
      ends.2.tables.jobs.get? jobUuid = some job

/-- The filter that list_jobs selects by, unless it names a script that has no row. -/
def listFilter (tables : Tables platform) (query : Api.JobListQuery) : Option JobFilter :=
  let filter : JobFilter := { machineId := query.machineId, status := query.status }
  match query.scriptName with
  | none => some filter
  | some name => (tables.scripts.find name).map fun script => { filter with scriptId := some script.id }

/-- No hidden job is asked for: none is named, and those the JSON list selects come after as many
others as the list may have. -/
def Guarded (tables : Tables platform) (user : User) : Route → Prop
  | .jobsList _ => True
  | .listJobs query => ∀ filter, listFilter tables query = some filter →
      ∀ i job, (tables.selected filter)[i]? = some job → Hidden tables user job → query.limit ≤ i
  | .getJob jobUuid | .streamJobLogs jobUuid | .killJob jobUuid | .jobDetail jobUuid | .jobLogStream jobUuid
  | .killJobWeb jobUuid => ∀ job, tables.jobs.get? jobUuid = some job → ¬ Hidden tables user job

/-! ## Statements and calls -/

variable {outside : Outside}

theorem run_query (statement : Query) (s : Station platform) :
    (call (.query statement)).run outside.handle s =
      (.ok (statement.run s.now s.tables).1, { s with tables := (statement.run s.now s.tables).2 }) :=
  Proc.run_perform _ _ _

theorem get?_visible (tables : Tables platform) (user : User) (jobUuid : String) :
    (visible tables user).jobs.get? jobUuid =
      (tables.jobs.get? jobUuid).bind fun job => if Hidden tables user job then none else some job :=
  Dict.get?_filterMap _ _ _

theorem jobRows_visible (tables : Tables platform) (user : User) :
    (visible tables user).jobRows = tables.jobRows.filter fun job => ¬ Hidden tables user job := by
  rw [Database.jobRows, Database.jobRows, visible, Dict.filterMap]
  dsimp only
  rw [List.map_filterMap, List.filter_map, ← List.filterMap_eq_filter, List.map_filterMap]
  congr 1
  funext entry
  by_cases hidden : Hidden tables user entry.2
  · simp [hidden]
  · simp [hidden]

/-! ## Routes that name a job -/

def Route.jobUuid? : Route → Option String
  | listJobs _ | jobsList _ => none
  | getJob jobUuid | streamJobLogs jobUuid | killJob jobUuid | jobDetail jobUuid | jobLogStream jobUuid
  | killJobWeb jobUuid => some jobUuid

def Naming (jobUuid : String) : Op → Prop
  | .query (.findMachine _) | .query (.findScriptById _) => True
  | .query (.findJob other) | .query (.updateJob other _) => other = jobUuid
  | .query _ => False
  | _ => True

section
variable {jobUuid : String}

theorem uses_getJobOr404 : (Api.getJobOr404 jobUuid).Uses (Naming jobUuid) := by
  refine uses_bind (uses_perform rfl) fun found => ?_
  cases found <;> trivial

theorem uses_streamed (machine : Machine) : (streamed machine jobUuid).Uses (Naming jobUuid) := by
  apply uses_tryCatch
  · refine uses_bind (uses_perform trivial) fun _ => uses_bind (uses_perform trivial) fun stream => ?_
    apply uses_tryCatch
    · exact uses_bind (uses_perform trivial) fun _ => uses_pure
    · exact fun e => uses_pure
  · exact fun e => uses_pure

theorem uses_getJob : (Api.getJob jobUuid).Uses (Naming jobUuid) := by
  refine uses_bind uses_getJobOr404 fun job => ?_
  by_cases active : isActive job.status = true
  · rw [if_pos active]
    refine uses_bind (uses_perform trivial) fun found => ?_
    cases found with
    | none => exact uses_pure
    | some machine =>
      apply uses_tryCatch
      · refine uses_bind (uses_withAgent trivial trivial (uses_getJobStatus trivial)) fun answer => ?_
        exact uses_bind (uses_perform rfl) fun _ => uses_bind (uses_perform rfl) fun row => uses_pure
      · exact fun e => uses_pure
  · rw [if_neg active]
    exact uses_pure

theorem uses_streamJobLogs : (Api.streamJobLogs jobUuid).Uses (Naming jobUuid) := by
  refine uses_bind uses_getJobOr404 fun job => uses_bind (uses_perform trivial) fun found => ?_
  cases found with
  | none => exact uses_throw
  | some machine => exact uses_bind (uses_streamed machine) fun stream => uses_pure

theorem uses_killJobRoute : (Api.killJob jobUuid).Uses (Naming jobUuid) := by
  refine uses_bind uses_getJobOr404 fun job => ?_
  by_cases oneOff : job.persistent = false
  · rw [if_pos oneOff]
    exact uses_throw
  · rw [if_neg oneOff]
    refine uses_bind (uses_perform trivial) fun found => ?_
    cases found with
    | none => exact uses_throw
    | some machine =>
      refine uses_bind (uses_withAgent trivial trivial (uses_killJob trivial)) fun _ => ?_
      exact uses_bind (uses_perform trivial) fun now => uses_perform rfl

theorem uses_jobDetail (user : User) : (Web.jobDetail user jobUuid).Uses (Naming jobUuid) := by
  refine uses_bind uses_getJobOr404 fun job => uses_bind (uses_perform trivial) fun machine => ?_
  cases job.scriptId with
  | none => exact uses_pure
  | some scriptId => exact uses_bind (uses_perform trivial) fun script => uses_pure

theorem uses_jobLogStream : (Web.jobLogStream jobUuid).Uses (Naming jobUuid) := by
  refine uses_bind uses_getJobOr404 fun job => uses_bind (uses_perform trivial) fun found => ?_
  cases found with
  | none => exact uses_pure
  | some machine => exact uses_bind (uses_streamed machine) fun stream => uses_pure

theorem uses_killJobWeb : (Web.killJobWeb jobUuid).Uses (Naming jobUuid) := by
  refine uses_bind uses_getJobOr404 fun job => uses_bind (uses_perform trivial) fun found => ?_
  cases found with
  | none => exact uses_pure
  | some machine =>
    refine uses_bind (uses_tryCatch ?_ ?_) fun refused => ?_
    · exact uses_bind (uses_withAgent trivial trivial (uses_killJob trivial)) fun _ => uses_pure
    · intro e
      split
      · exact uses_pure
      · exact uses_throw
    · cases refused with
      | some e => exact uses_pure
      | none => exact uses_bind (uses_perform trivial) fun now => uses_bind (uses_perform rfl) fun _ => uses_pure

end

theorem uses_named {user : User} {route : Route} {jobUuid : String} (named : route.jobUuid? = some jobUuid) :
    (route.handler user).Uses (Naming jobUuid) := by
  have answered {A : Type} {task : Task A} {answer : A → Answer} (uses : task.Uses (Naming jobUuid)) :
      (do return answer (← task) : Task Answer).Uses (Naming jobUuid) := uses_bind uses fun a => uses_pure
  cases route with
  | listJobs => cases named
  | jobsList => cases named
  | getJob =>
    cases named
    exact answered uses_getJob
  | streamJobLogs =>
    cases named
    exact answered uses_streamJobLogs
  | killJob =>
    cases named
    exact answered uses_killJobRoute
  | jobDetail =>
    cases named
    exact answered (uses_jobDetail user)
  | jobLogStream =>
    cases named
    exact answered uses_jobLogStream
  | killJobWeb =>
    cases named
    exact answered uses_killJobWeb

structure Agree (jobUuid : String) (s t : Station platform) : Prop where
  tables : t.tables = { s.tables with jobs := t.tables.jobs }
  row : t.tables.jobs.get? jobUuid = s.tables.jobs.get? jobUuid
  calls : t.calls = s.calls
  now : t.now = s.now

theorem get?_updateJob (tables : Tables platform) (jobUuid other : String) (update : JobUpdate) :
    (tables.updateJob jobUuid update).jobs.get? other =
      if other = jobUuid then (tables.jobs.get? jobUuid).map update.apply else tables.jobs.get? other := by
  unfold Database.updateJob
  cases found : tables.jobs.get? jobUuid with
  | none =>
    by_cases same : other = jobUuid
    · rw [if_pos same, same]
      exact found
    · rw [if_neg same]
  | some job =>
    dsimp only
    rw [Dict.get?_set]
    rfl

theorem updateJob_frame (tables : Tables platform) (jobUuid : String) (update : JobUpdate) :
    tables.updateJob jobUuid update = { tables with jobs := (tables.updateJob jobUuid update).jobs } := by
  unfold Database.updateJob
  cases tables.jobs.get? jobUuid <;> rfl

theorem alike_naming {jobUuid : String} {op : Op} (naming : Naming jobUuid op) :
    Alike (S := Station platform) outside.handle (Agree jobUuid) op := by
  intro s t agree
  cases op with
  | query statement =>
    cases statement with
    | findMachine machineId =>
      have same : t.tables.machines = s.tables.machines := by rw [agree.tables]
      exact ⟨by simp only [Outside.handle, Query.run, same], agree⟩
    | findScriptById scriptId =>
      have same : t.tables.scriptRows = s.tables.scriptRows := by
        rw [agree.tables]
        rfl
      exact ⟨by simp only [Outside.handle, Query.run, same], agree⟩
    | findJob other =>
      cases (naming : other = jobUuid)
      exact ⟨by simp only [Outside.handle, Query.run, agree.row], agree⟩
    | updateJob other update =>
      cases (naming : other = jobUuid)
      refine ⟨rfl, ?_, ?_, agree.calls, agree.now⟩
      · have written := updateJob_frame s.tables jobUuid update
        have alsoWritten := updateJob_frame t.tables jobUuid update
        simp only [Outside.handle, Query.run]
        rw [alsoWritten, written, agree.tables]
      · simp only [Outside.handle, Query.run, get?_updateJob, if_pos, agree.row]
    | _ => exact absurd naming id
  | _ =>
    refine ⟨?_, agree.tables, agree.row, ?_, agree.now⟩
    · simp only [Outside.handle, agree.calls]
    · simp only [Outside.handle, agree.calls]

theorem keeps_others {jobUuid other : String} {row : Option Job} (apart : other ≠ jobUuid) {op : Op}
    (naming : Naming jobUuid op) {s : Station platform} (before : s.tables.jobs.get? other = row) :
    (outside.handle op s).2.tables.jobs.get? other = row := by
  cases op with
  | query statement =>
    cases statement with
    | updateJob named update =>
      cases (naming : named = jobUuid)
      rw [← before]
      exact (get?_updateJob s.tables jobUuid other update).trans (if_neg apart)
    | insertJob | saveTargetState => exact absurd naming id
    | _ => exact before
  | _ => exact before

theorem agree_shown {user : User} {jobUuid : String} {s : Station platform}
    (shown : ∀ job, s.tables.jobs.get? jobUuid = some job → ¬ Hidden s.tables user job) :
    Agree jobUuid s (s.shown user) := by
  refine ⟨rfl, ?_, rfl, rfl⟩
  rw [Station.shown, get?_visible]
  cases found : s.tables.jobs.get? jobUuid with
  | none => rfl
  | some job => exact if_neg (shown job found)

theorem unseen_named {user : User} {s : Station platform} {route : Route} {jobUuid : String}
    (named : route.jobUuid? = some jobUuid)
    (shown : ∀ job, s.tables.jobs.get? jobUuid = some job → ¬ Hidden s.tables user job) :
    Unseen outside user s route := by
  have uses : (route.handler user).Uses (Naming jobUuid) := uses_named named
  obtain ⟨answers, agree⟩ := (uses.mono fun op => alike_naming).alike (agree_shown shown)
  refine ⟨answers, agree.calls.symm, ?_⟩
  intro other job found hidden
  have apart : other ≠ jobUuid := by
    rintro rfl
    exact shown job found hidden
  let stays : Station platform → Prop := fun after => after.tables.jobs.get? other = some job
  have keeps : (route.handler user).Keeps (fun _ _ => True) (Naming jobUuid) fun _ => True := uses.keeps
  have kept : stays ((route.handler user).run outside.handle s).2 :=
    keeps.run (fun _ _ _ => trivial) (fun op after naming => keeps_others apart naming) found
  exact kept

/-! ## The row that is found gives the job away -/

def jobNotFound : Failure := .http 404 none (.text "Job not found")

theorem run_getJobOr404 (jobUuid : String) (s : Station platform) :
    (Api.getJobOr404 jobUuid).run outside.handle s =
      match s.tables.jobs.get? jobUuid with
      | none => (.error jobNotFound, s)
      | some job => (.ok job, s) := by
  rw [Api.getJobOr404, Proc.run_bind, findJob, run_query, Proc.follow_ok]
  dsimp only [Query.run]
  cases s.tables.jobs.get? jobUuid <;> rfl

theorem missing_named {user : User} {s : Station platform} {route : Route} {jobUuid : String}
    (named : route.jobUuid? = some jobUuid) (missing : s.tables.jobs.get? jobUuid = none) :
    (route.serve outside user s).1 = .error jobNotFound := by
  have looks {A : Type} (next : Job → Task A) :
      (Api.getJobOr404 jobUuid >>= next).run outside.handle s = (.error jobNotFound, s) := by
    rw [Proc.run_bind, run_getJobOr404, missing, Proc.follow_error]
  unfold Route.serve
  cases route with
  | listJobs => cases named
  | jobsList => cases named
  | _ =>
    cases named
    rw [Route.handler, Proc.run_bind]
    erw [looks]
    rfl

def Foreign {A : Type} (result : Except Failure A) (_ : Station platform) : Prop :=
  ∀ status code detail, result ≠ .error (.http status code detail)

def Found {A : Type} (result : Except Failure A) (_ : Station platform) : Prop := result ≠ .error jobNotFound

abbrev Ends {A : Type} (outside : Outside) (ends : Except Failure A → Station platform → Prop) (task : Task A)
    (s : Station platform) : Prop :=
  task.Leads outside.handle (fun _ _ => True) ends s

theorem Foreign.found {A : Type} {result : Except Failure A} {s : Station platform} (foreign : Foreign result s) :
    Found result s := foreign _ _ _

theorem foreign_bind {A B : Type} {task : Task A} {next : A → Task B} {s : Station platform}
    (first : Ends outside Foreign task s) (rest : ∀ a (s : Station platform), Ends outside Foreign (next a) s) :
    Ends outside Foreign (task >>= next) s := by
  apply leads_bind
  apply first.mono
  intro result after foreign
  cases result with
  | ok a => exact rest a after
  | error e => exact fun status code detail same => foreign status code detail (by cases same; rfl)

theorem ends_call (op : Op) {ends : Except Failure (Reply op) → Station platform → Prop} {s : Station platform}
    (ended : ends (outside.handle op s).1 (outside.handle op s).2) : Ends outside ends (call op) s :=
  leads_perform trivial ended

theorem foreign_pure {A : Type} (a : A) (s : Station platform) : Ends outside Foreign (pure a) s :=
  leads_pure fun _ _ _ => nofun

theorem foreign_openTunnel (machine : Machine) (s : Station platform) : Ends outside Foreign (openTunnel machine) s :=
  ends_call (.openTunnel machine) (outside.foreign s.calls (.openTunnel machine))

theorem foreign_closeTunnel (s : Station platform) : Ends outside Foreign closeTunnel s :=
  ends_call .closeTunnel (outside.foreign s.calls .closeTunnel)

theorem foreign_utcNow (s : Station platform) : Ends outside Foreign utcNow s :=
  ends_call .utcNow (outside.foreign s.calls .utcNow)

theorem foreign_updateJob {jobUuid : String} {update : JobUpdate} (s : Station platform) :
    Ends outside Foreign (updateJob jobUuid update) s :=
  ends_call (.query (.updateJob jobUuid update)) fun _ _ _ => nofun

theorem foreign_killJob (jobUuid : String) (s : Station platform) :
    Ends outside Foreign (AgentClient.killJob jobUuid) s := by
  apply foreign_bind
  · exact ends_call (.send (.killJob jobUuid)) (outside.foreign s.calls (.send (.killJob jobUuid)))
  · intro response after
    unfold raiseForStatus
    split
    · exact foreign_pure _ _
    · exact leads_throw nofun

theorem foreign_withAgent {A : Type} {machine : Machine} {body : Task A}
    (foreign : ∀ s : Station platform, Ends outside Foreign body s) (s : Station platform) :
    Ends outside Foreign (withAgent machine body) s := by
  apply foreign_bind (foreign_openTunnel machine s)
  intro _ opened
  apply foreign_bind
  · apply leads_tryCatch
    apply (foreign opened).mono
    intro result after foreign
    cases result with
    | ok a => exact nofun
    | error e => exact foreign_bind (foreign_closeTunnel after) fun _ closed => leads_throw foreign
  · intro result after
    exact foreign_bind (foreign_closeTunnel after) fun _ closed => foreign_pure _ _

section
variable {jobUuid : String} {job : Job} {s : Station platform}

theorem found_after {A : Type} {next : Job → Task A} (row : s.tables.jobs.get? jobUuid = some job)
    (found : Ends outside Found (next job) s) : Found ((Api.getJobOr404 jobUuid >>= next).run outside.handle s).1 s := by
  rw [Proc.run_bind, run_getJobOr404, row, Proc.follow_ok]
  exact found.run

theorem found_machine {A : Type} {next : Option Machine → Task A} {machineId : Nat}
    (found : ∀ machine, Ends outside Found (next machine) s) : Ends outside Found (findMachine machineId >>= next) s :=
  leads_bind (ends_call (.query (.findMachine machineId)) (found _))

theorem found_returned {A : Type} (a : A) : Ends outside Found (pure a) s := leads_pure nofun

theorem found_rescued {A : Type} {body : Task A} {rescue : Failure → A} :
    Ends outside Found (MonadExcept.tryCatch body fun e => return rescue e) s := by
  apply leads_tryCatch
  apply leads_always
  intro result after
  cases result with
  | ok a => exact nofun
  | error e => exact (nofun : Found (Except.ok (rescue e)) after)

theorem found_getJob (row : s.tables.jobs.get? jobUuid = some job) :
    Found ((Api.getJob jobUuid).run outside.handle s).1 s := by
  apply found_after row
  by_cases active : isActive job.status = true
  · rw [if_pos active]
    apply found_machine
    intro machine
    cases machine with
    | none => exact found_returned _
    | some machine => exact found_rescued
  · rw [if_neg active]
    exact found_returned _

theorem found_streamed {A : Type} {machine : Machine} {next : LogStream → A} :
    Ends outside Found (do return next (← streamed machine jobUuid)) s := by
  apply leads_bind
  apply leads_tryCatch
  apply leads_always
  intro result after
  cases result with
  | ok stream => exact (nofun : Found (Except.ok (next stream)) after)
  | error e => exact (nofun : Found (Except.ok (next ⟨[], some e⟩)) after)

theorem found_streamJobLogs (row : s.tables.jobs.get? jobUuid = some job) :
    Found ((Api.streamJobLogs jobUuid).run outside.handle s).1 s := by
  apply found_after row
  apply found_machine
  intro machine
  cases machine with
  | none => exact leads_throw (by simp [Found, Api.machineNotFound, jobNotFound])
  | some machine => exact found_streamed

theorem found_killJob (row : s.tables.jobs.get? jobUuid = some job) :
    Found ((Api.killJob jobUuid).run outside.handle s).1 s := by
  apply found_after row
  by_cases oneOff : job.persistent = false
  · rw [if_pos oneOff]
    exact leads_throw (by simp [Found, jobNotFound])
  · rw [if_neg oneOff]
    apply found_machine
    intro machine
    cases machine with
    | none => exact leads_throw (by simp [Found, Api.machineNotFound, jobNotFound])
    | some machine =>
      apply (foreign_bind (foreign_withAgent (foreign_killJob jobUuid) s) ?_).mono
      · exact fun result after => Foreign.found
      · exact fun _ after => foreign_bind (foreign_utcNow after) fun now => foreign_updateJob

theorem found_jobDetail {user : User} (row : s.tables.jobs.get? jobUuid = some job) :
    Found ((Web.jobDetail user jobUuid).run outside.handle s).1 s := by
  apply found_after row
  apply found_machine
  intro machine
  cases job.scriptId with
  | none => exact found_returned _
  | some scriptId =>
    apply leads_bind
    apply ends_call (.query (.findScriptById scriptId))
    exact @found_returned platform outside s Web.JobPage _

theorem found_jobLogStream (row : s.tables.jobs.get? jobUuid = some job) :
    Found ((Web.jobLogStream jobUuid).run outside.handle s).1 s := by
  apply found_after row
  apply found_machine
  intro machine
  cases machine with
  | none => exact found_returned _
  | some machine => exact found_streamed

theorem found_killJobWeb (row : s.tables.jobs.get? jobUuid = some job) :
    Found ((Web.killJobWeb jobUuid).run outside.handle s).1 s := by
  apply found_after row
  apply found_machine
  intro machine
  cases machine with
  | none => exact found_returned _
  | some machine =>
    apply (foreign_bind ?_ ?_).mono
    · exact fun result after => Foreign.found
    · apply leads_tryCatch
      apply (foreign_bind (foreign_withAgent (foreign_killJob jobUuid) s) fun _ => foreign_pure _).mono
      intro result after foreign
      cases result with
      | ok refused => exact foreign
      | error e =>
        by_cases refused : e.isAgentClientError = true
        · simp only [Leads.Rescued, if_pos refused]
          exact foreign_pure _ _
        · simp only [Leads.Rescued, if_neg refused]
          exact leads_throw foreign
    · intro refused after
      cases refused with
      | some e => exact foreign_pure _ _
      | none =>
        apply foreign_bind (foreign_utcNow after)
        exact fun now later => foreign_bind (foreign_updateJob later) fun _ => foreign_pure _

end

theorem found_named {user : User} {s : Station platform} {route : Route} {jobUuid : String} {job : Job}
    (named : route.jobUuid? = some jobUuid) (row : s.tables.jobs.get? jobUuid = some job) :
    (route.serve outside user s).1 ≠ .error jobNotFound := by
  have answered {A : Type} {task : Task A} {answer : A → Answer} (found : Found (task.run outside.handle s).1 s) :
      ((do return answer (← task) : Task Answer).run outside.handle s).1 ≠ .error jobNotFound := by
    rw [Proc.run_bind]
    generalize task.run outside.handle s = ends at found
    obtain ⟨result, after⟩ := ends
    cases result with
    | ok a => exact nofun
    | error e => exact fun same => found (by cases same; rfl)
  cases route with
  | listJobs => cases named
  | jobsList => cases named
  | getJob =>
    cases named
    exact answered (found_getJob row)
  | streamJobLogs =>
    cases named
    exact answered (found_streamJobLogs row)
  | killJob =>
    cases named
    exact answered (found_killJob row)
  | jobDetail =>
    cases named
    exact answered (found_jobDetail row)
  | jobLogStream =>
    cases named
    exact answered (found_jobLogStream row)
  | killJobWeb =>
    cases named
    exact answered (found_killJobWeb row)

theorem unseen_named_iff {user : User} {s : Station platform} {route : Route} {jobUuid : String}
    (named : route.jobUuid? = some jobUuid) :
    Unseen outside user s route ↔ ∀ job, s.tables.jobs.get? jobUuid = some job → ¬ Hidden s.tables user job := by
  constructor
  · intro unseen job row hidden
    have missing : (s.shown user).tables.jobs.get? jobUuid = none := by
      rw [Station.shown, get?_visible, row]
      exact if_pos hidden
    exact found_named named row (unseen.1.trans (missing_named named missing))
  · exact unseen_named named

/-! ## The lists -/

instance : IsTrans Job Job.Before where
  trans first second third := by
    rintro (newer | ⟨same, below⟩) (laterNewer | ⟨laterSame, laterBelow⟩)
    · exact .inl (lt_trans laterNewer newer)
    · exact .inl (laterSame ▸ newer)
    · exact .inl (same ▸ laterNewer)
    · exact .inr ⟨same.trans laterSame, below.trans laterBelow⟩

instance : Std.Total Job.Before where
  total first second := by
    rcases lt_trichotomy first.startedAt second.startedAt with older | same | newer
    · exact .inr (.inl older)
    · exact (Nat.le_total first.id second.id).imp (fun below => .inr ⟨same, below⟩) fun below => .inr ⟨same.symm, below⟩
    · exact .inl (.inl newer)

theorem selected_visible (tables : Tables platform) (user : User) (filter : JobFilter) :
    (visible tables user).selected filter = (tables.selected filter).filter fun job => ¬ Hidden tables user job := by
  have selects : (visible tables user).selects filter = tables.selects filter := rfl
  rw [Database.selected, Database.selected, newestFirst, newestFirst, List.filter_insertionSort, selects,
    jobRows_visible, List.filter_comm]

theorem run_listJobs (query : Api.JobListQuery) (s : Station platform) :
    (Api.listJobs query).run outside.handle s =
      (.ok (match listFilter s.tables query with
        | none => []
        | some filter => (s.tables.selected filter).take query.limit), s) := by
  unfold Api.listJobs listFilter
  cases query.scriptName with
  | none => exact run_query _ s
  | some name =>
    dsimp only
    rw [Proc.run_bind, findScript, run_query, Proc.follow_ok]
    dsimp only [Query.run]
    cases s.tables.scripts.find name with
    | none => rfl
    | some script => exact run_query _ s

theorem unseen_listJobs {user : User} {s : Station platform} (query : Api.JobListQuery) :
    Unseen outside user s (.listJobs query) ↔ Guarded s.tables user (.listJobs query) := by
  have serves (t : Station platform) : (Route.listJobs query).serve outside user t =
      (.ok (.jobs (match listFilter t.tables query with
        | none => []
        | some filter => (t.tables.selected filter).take query.limit)), t) := by
    rw [Route.serve, Route.handler, Proc.run_bind, run_listJobs]
    rfl
  have sameFilter : listFilter (visible s.tables user) query = listFilter s.tables query := rfl
  unfold Unseen Guarded
  dsimp only
  rw [serves, serves]
  dsimp only [Station.shown]
  rw [sameFilter]
  constructor
  · rintro ⟨same, -⟩ filter selects i job found hidden
    rw [selects] at same
    have rows := Answer.jobs.inj (Except.ok.inj same)
    dsimp only at rows
    rw [selected_visible] at rows
    apply List.take_filter_eq.mp rows.symm i job found
    exact decide_eq_false (not_not.mpr hidden)
  · intro guarded
    refine ⟨?_, rfl, fun jobUuid job found hidden => found⟩
    cases selects : listFilter s.tables query with
    | none => rfl
    | some filter =>
      dsimp only
      rw [selected_visible]
      congr 2
      apply Eq.symm
      apply List.take_filter_eq.mpr
      intro i job found dropped
      exact guarded filter selects i job found (not_not.mp (of_decide_eq_false dropped))

theorem selected_accessible {tables : Tables platform} {user : User} {machines : List Machine} {filter : JobFilter}
    (accessible : filter.machineIds = some (machines.map (·.id)))
    (own : ∀ machine ∈ machines, user.role ≠ .admin → (user.id, machine.id) ∈ tables.bookmarks) :
    (visible tables user).selected filter = tables.selected filter := by
  rw [selected_visible, List.filter_eq_self]
  intro job member
  apply decide_eq_true
  rintro ⟨notAdmin, unmarked⟩
  have kept : job ∈ tables.jobRows.filter (tables.selects filter) := (List.mem_insertionSort _).mp member
  have selects := (List.mem_filter.mp kept).2
  simp only [Database.selects, accessible, Option.all_some, Bool.and_eq_true, decide_eq_true_eq] at selects
  obtain ⟨machine, isOwn, same⟩ := List.mem_map.mp selects.1.1.1.1
  exact unmarked (same ▸ own machine isOwn notAdmin)

def accessible (tables : Tables platform) (user : User) : List Machine :=
  if user.role = .admin then (Query.run "" tables .listMachines).1
  else (Query.run "" tables (.bookmarkedMachines user.id)).1

theorem own_accessible {tables : Tables platform} {user : User} :
    ∀ machine ∈ accessible tables user, user.role ≠ .admin → (user.id, machine.id) ∈ tables.bookmarks := by
  intro machine member notAdmin
  rw [accessible, if_neg notAdmin] at member
  exact of_decide_eq_true (List.mem_filter.mp ((List.mem_insertionSort _).mp member)).2

theorem run_accessibleMachines (user : User) (s : Station platform) :
    (Web.accessibleMachines user).run outside.handle s = (.ok (accessible s.tables user), s) := by
  unfold Web.accessibleMachines accessible
  by_cases admin : user.role = .admin
  · rw [if_pos admin, if_pos admin]
    exact run_query _ s
  · rw [if_neg admin, if_neg admin]
    exact run_query _ s

theorem unseen_jobsList {user : User} {s : Station platform} (query : Web.JobListQuery) :
    Unseen outside user s (.jobsList query) := by
  have sameRows (filter : JobFilter) (own : filter.machineIds = some ((accessible s.tables user).map (·.id))) :
      (visible s.tables user).selected filter = s.tables.selected filter :=
    selected_accessible own own_accessible
  have sameMachines : accessible (visible s.tables user) user = accessible s.tables user := rfl
  have sameScripts : (visible s.tables user).scriptRows = s.tables.scriptRows := rfl
  have sameJoins : (visible s.tables user).joined = s.tables.joined := rfl
  have serves : (Route.jobsList query).serve outside user (s.shown user) =
      (((Route.jobsList query).serve outside user s).1, s.shown user) ∧
      ((Route.jobsList query).serve outside user s).2 = s := by
    have scripts (t : Station platform) : listScripts.run outside.handle t =
        (.ok (t.tables.scriptRows.insertionSort (·.name ≤ ·.name)), t) := run_query _ t
    have counts (filter : JobFilter) (t : Station platform) : (countJobs filter).run outside.handle t =
        (.ok (t.tables.selected filter).length, t) := run_query _ t
    have rows (filter : JobFilter) (offset limit : Nat) (t : Station platform) :
        (selectJoinedJobs filter offset limit).run outside.handle t =
          (.ok ((((t.tables.selected filter).drop offset).take limit).map t.tables.joined), t) := run_query _ t
    simp only [Route.serve, Route.handler, Web.jobsList, Proc.run_bind, run_accessibleMachines, Proc.follow_ok,
      scripts, counts, rows, Proc.run_pure, Station.shown, sameMachines, sameScripts, sameJoins]
    refine ⟨?_, trivial⟩
    rw [sameRows _ rfl]
  refine ⟨by rw [serves.1], by rw [serves.1, serves.2]; rfl, ?_⟩
  intro jobUuid job found hidden
  rw [serves.2]
  exact found

/-- What is hidden from a user stays unseen exactly where no hidden job is asked for. -/
theorem hidden_jobs_unseen (platform : Platform) (outside : Outside) (user : User) (s : Station platform)
    (route : Route) : Unseen outside user s route ↔ Guarded s.tables user route := by
  cases route with
  | listJobs query => exact unseen_listJobs query
  | jobsList query => exact iff_of_true (unseen_jobsList query) trivial
  | getJob | streamJobLogs | killJob | jobDetail | jobLogStream | killJobWeb => exact unseen_named_iff rfl

/-! ## A user without bookmarks -/

def stranger : User := ⟨2, .user⟩

def watched : Job :=
  { id := 1, jobUuid := "watched", machineId := workstation.id, scriptId := none, userId := 1, params := Dict.empty,
    status := .running, persistent := true, startedAt := "", endedAt := none, exitCode := none }

def shared : Station station where
  tables :=
    { machines := Dict.ofList [(workstation.id, workstation)], bookmarks := [(watched.userId, workstation.id)],
      scripts := Library.empty, targetStates := Dict.empty, jobs := Dict.ofList [(watched.jobUuid, watched)] }
  calls := []
  now := ""

def obliging : Outside where
  answer _
    | .query _ => .error .undecodable
    | .utcNow => .ok "12:00"
    | .openTunnel _ | .closeTunnel | .ensureAgentRunning => .ok ()
    | .send _ => .ok ⟨200, .other⟩
    | .streamLogs _ => .ok ⟨[], none⟩
  foreign calls op status code detail := by cases op <;> nofun

/-- The stranger kills the job: the agent is told to, and the row says so. -/
theorem stranger_kills :
    Hidden shared.tables stranger watched ∧
      ((Route.killJob watched.jobUuid).serve obliging stranger shared).1 = .ok .noContent ∧
      ((Route.killJob watched.jobUuid).serve obliging stranger shared).2.calls =
        [.openTunnel workstation, .send (.killJob watched.jobUuid), .closeTunnel, .utcNow] ∧
      ((Route.killJob watched.jobUuid).serve obliging stranger shared).2.tables.jobs.get? watched.jobUuid =
        some { watched with status := .killed, endedAt := some "12:00" } ∧
      ¬ Unseen obliging stranger shared (.killJob watched.jobUuid) := by
  have killed : ((Route.killJob watched.jobUuid).serve obliging stranger shared).2.tables.jobs.get? watched.jobUuid =
      some { watched with status := .killed, endedAt := some "12:00" } := by decide +kernel
  have row : shared.tables.jobs.get? watched.jobUuid = some watched := by decide +kernel
  have hidden : Hidden shared.tables stranger watched := by decide
  refine ⟨hidden, by decide +kernel, rfl, killed, ?_⟩
  intro unseen
  have stays := unseen.2.2 watched.jobUuid watched row hidden
  rw [killed] at stays
  cases congrArg (fun job : Job => job.status) (Option.some.inj stays)

end JobAccess

end Csl.Server
