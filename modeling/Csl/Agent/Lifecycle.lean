import Csl.Agent.Middleware
import Csl.Agent.ProcessManager.Records

/-! The agent stops itself when nothing has asked for it and no job runs.

A tick is a wake-up of `run_loop`. A call of kill blocks the agent, its requests and its ticks.
-/

set_option autoImplicit false

namespace Csl.Agent.Lifecycle
open Csl.Shared Processes Runs

/-- What an endpoint does with the process manager. A start that passes its checks is launched with
the PID that the kernel gives, or Popen raises. -/
def calls (launch : Option (Option Nat)) : Request → Option ProcessEvent
  | .healthz => some .runningCount
  | .getJobStatus jobUuid => some (.getStatus jobUuid)
  | .killJob jobUuid => some (.kill jobUuid)
  | .submitJob body =>
    if body.persistent then launch.map fun pid => .start body.scriptName body.jobUuid pid else none
  | .getScriptState _ | .stageScript .. | .streamJobLogs .. => none

/-- What goes on without a request: processes come and go, a kill goes on, and a stream asks whether
its job is done. -/
def Background : ProcessEvent → Prop
  | .clock _ | .spawn .. | .exit .. | .reap _ | .killProceeds | .killTimesOut | .getStatus _ => True
  | .start .. | .listJobs | .runningCount | .kill _ | .stop | .startCut .. | .boot => False

instance : DecidablePred Background
  | .clock _ | .spawn .. | .exit .. | .reap _ | .killProceeds | .killTimesOut | .getStatus _ => isTrue trivial
  | .start .. | .listJobs | .runningCount | .kill _ | .stop | .startCut .. | .boot => isFalse id

/-- The agent with its monotonic clock. `looping` tells that `run_loop` has not returned, `sigterms`
how often it has triggered the shutdown. -/
structure Daemon where
  app : Application
  clock : Nat
  looping : Bool
  sigterms : Nat

inductive Event where
  | advance (seconds : Nat)
  | request (authorization : Option String) (request : Request) (launch : Option (Option Nat))
  | process (event : ProcessEvent)
  | tick

variable (host : Host) (procfs : Bool) (others : Endpoints)

/-- `others` is what the endpoints answer and do with approvals and files. -/
def endpoints (launch : Option (Option Nat)) : Endpoints := fun request app =>
  let (answer, world, _) := others request app
  (answer, world, match calls launch request.request with
    | none => app.jobs
    | some event => app.jobs.step host procfs event)

namespace Daemon
variable (s : Daemon)

def withJobs (jobs : System) : Daemon := { s with app := { s.app with jobs } }

/-- `run_loop` from one sleep to the next. -/
def check : Daemon :=
  let running := s.app.jobs.runningCount host procfs
  let polled := s.withJobs (s.app.jobs.pollAll host procfs)
  if s.app.tracker.shutdownDue s.clock running then
    { polled with looping := false, sigterms := s.sigterms + 1 }
  else polled

def step : Event → Daemon
  | .advance seconds => { s with clock := s.clock + seconds }
  | .request authorization request launch =>
    if s.app.jobs.Idle then
      let served := middlewareStack (endpoints host procfs others launch) ⟨authorization, request, s.clock⟩ s.app
      { s with app := served.after }
    else s
  | .process event =>
    if Background event then s.withJobs (s.app.jobs.step host procfs event) else s
  | .tick => if s.looping ∧ s.app.jobs.Idle then s.check host procfs else s

end Daemon

/-- `_lifespan`, on whatever an earlier agent left. -/
def lifespan (apiToken : Option String) (timeout clock : Nat) (world : World) (before : System) : Daemon where
  app := ⟨apiToken, ⟨timeout, clock⟩, world, before.booted host procfs⟩
  clock := clock
  looping := true
  sigterms := 0

def authorises (apiToken authorization : Option String) : Bool :=
  apiToken.getD "" = "" ||
    match compareDigest (provided (authorization.getD "")) (apiToken.getD "") with
    | .ok same => same
    | .error _ => false

def heard (s : Daemon) (since : Nat) : Event → Nat
  | .request authorization _ _ =>
    if s.app.jobs.Idle ∧ authorises s.app.apiToken authorization then s.clock else since
  | .advance _ | .process _ | .tick => since

def lastAuthorised (since : Nat) : Daemon → List Event → Nat
  | _, [] => since
  | s, event :: rest => lastAuthorised (heard s since event) (s.step host procfs others event) rest

/-- No process of a tracked job is alive, and nobody has asked for longer than the timeout. -/
structure TrulyIdle (timeout since : Nat) (s : Daemon) : Prop where
  jobs : ∀ entry ∈ s.app.jobs.jobs.entries, s.app.jobs.jobAlive entry.1 entry.2 = false
  silent : since + timeout < s.clock

def Stops (s : Daemon) : Prop := (s.step host procfs others .tick).sigterms ≠ s.sigterms

abbrev reached (start : Daemon) (events : List Event) : Daemon :=
  run (Daemon.step host procfs others) start events

def MayStop (start : Daemon) (events : List Event) : Prop :=
  (reached host procfs others start events).app.jobs.Idle ∧
    TrulyIdle start.app.tracker.timeout (lastAuthorised host procfs others start.clock start events)
      (reached host procfs others start events)

/-- No kill gives up, and no record that was reattached watches a PID that has become another
process's. -/
def Spares (s : Daemon) : Event → Prop
  | .process .killTimesOut => ¬ host.isWindows
  | .tick => s.app.jobs.Recognised host procfs
  | _ => True

instance (timeout since : Nat) (s : Daemon) : Decidable (TrulyIdle timeout since s) :=
  decidable_of_iff ((∀ entry ∈ s.app.jobs.jobs.entries, s.app.jobs.jobAlive entry.1 entry.2 = false) ∧
    since + timeout < s.clock) ⟨fun both => ⟨both.1, both.2⟩, fun idle => ⟨idle.jobs, idle.silent⟩⟩

instance (s : Daemon) : Decidable (Stops host procfs others s) := inferInstanceAs (Decidable (_ ≠ _))

instance (start : Daemon) (events : List Event) : Decidable (MayStop host procfs others start events) :=
  inferInstanceAs (Decidable (_ ∧ _))

instance (s : Daemon) : (event : Event) → Decidable (Spares host procfs s event)
  | .process .killTimesOut => inferInstanceAs (Decidable (¬ host.isWindows))
  | .tick => inferInstanceAs (Decidable (s.app.jobs.Recognised host procfs))
  | .advance _ | .request .. | .process (.clock _) | .process (.spawn ..) | .process (.exit ..)
  | .process (.reap _) | .process (.start ..) | .process (.getStatus _) | .process .listJobs
  | .process .runningCount | .process (.kill _) | .process .killProceeds | .process .stop
  | .process (.startCut ..) | .process .boot => isTrue trivial

section
variable {host procfs others} {s : Daemon} {timeout since : Nat}

/-! ## One step -/

theorem stack_authorised {endpoints : Endpoints} {request : HttpRequest} {app : Application}
    (lets : authorises app.apiToken request.authorization = true) :
    middlewareStack endpoints request app = activityMiddleware (router endpoints) request app := by
  simp only [middlewareStack, userMiddleware, List.foldr_cons, List.foldr_nil, authMiddleware]
  by_cases empty : app.apiToken.getD "" = ""
  · rw [if_pos empty]
  · rw [if_neg empty]
    simp only [authorises, empty, decide_false, Bool.false_or] at lets
    split at lets
    next same digests =>
      subst lets
      rw [digests]
    · cases lets

theorem stack_refused {endpoints : Endpoints} {request : HttpRequest} {app : Application}
    (refuses : authorises app.apiToken request.authorization = false) :
    (middlewareStack endpoints request app).after = app := by
  simp only [middlewareStack, userMiddleware, List.foldr_cons, List.foldr_nil, authMiddleware]
  by_cases empty : app.apiToken.getD "" = ""
  · simp [authorises, empty] at refuses
  · rw [if_neg empty]
    simp only [authorises, empty, decide_false, Bool.false_or] at refuses
    split at refuses
    next same digests =>
      subst refuses
      rw [digests]
    next e digests => rw [digests]

structure Serving (timeout since : Nat) (s : Daemon) : Prop where
  sound : s.app.jobs.Sound
  resolved : s.app.jobs.Resolved
  timeout : s.app.tracker.timeout = timeout
  activity : s.app.tracker.lastActivity = since

theorem Serving.called (serving : Serving timeout since s) {event : ProcessEvent}
    (within : System.InLifetime event) (waits : System.Waits host event) :
    Serving timeout since (s.withJobs (s.app.jobs.step host procfs event)) where
  sound := System.sound_step serving.sound event
  resolved := System.resolved_step serving.sound serving.resolved within waits
  timeout := serving.timeout
  activity := serving.activity

theorem calls_within {launch : Option (Option Nat)} {request : Request} {event : ProcessEvent}
    (called : calls launch request = some event) : System.InLifetime event ∧ System.Waits host event := by
  cases request with
  | healthz | getJobStatus | killJob =>
    cases called
    exact ⟨trivial, trivial⟩
  | submitJob body =>
    simp only [calls] at called
    split_ifs at called
    obtain ⟨pid, _, rfl⟩ := Option.map_eq_some_iff.mp called
    exact ⟨trivial, trivial⟩
  | getScriptState | stageScript | streamJobLogs => cases called

theorem serving_step (serving : Serving timeout since s) {event : Event} (spares : Spares host procfs s event) :
    Serving timeout (heard s since event) (s.step host procfs others event) := by
  cases event with
  | advance seconds => exact ⟨serving.sound, serving.resolved, serving.timeout, serving.activity⟩
  | request authorization request launch =>
    by_cases idle : s.app.jobs.Idle
    · rw [Daemon.step, if_pos idle]
      by_cases lets : authorises s.app.apiToken authorization = true
      -- an authorised request sets the idle clock back before its endpoint is entered
      · simp only [heard, if_pos (And.intro idle lets)]
        rw [stack_authorised (by exact lets)]
        cases called : calls launch request with
        | none =>
          simp only [activityMiddleware, router, endpoints, called]
          exact ⟨serving.sound, serving.resolved, serving.timeout, rfl⟩
        | some event =>
          obtain ⟨within, waits⟩ : System.InLifetime event ∧ System.Waits host event := calls_within called
          have after : Serving timeout _ (s.withJobs (s.app.jobs.step host procfs event)) := serving.called within waits
          simp only [activityMiddleware, router, endpoints, called]
          exact ⟨after.sound, after.resolved, serving.timeout, rfl⟩
      · have refuses : authorises s.app.apiToken authorization = false := by simpa using lets
        -- any other request is turned away
        simp only [heard, if_neg fun both : s.app.jobs.Idle ∧ _ => lets both.2]
        rw [stack_refused (by exact refuses)]
        exact ⟨serving.sound, serving.resolved, serving.timeout, serving.activity⟩
    · rw [Daemon.step, if_neg idle]
      simp only [heard, if_neg fun both : s.app.jobs.Idle ∧ _ => idle both.1]
      exact serving
  | process event =>
    rw [Daemon.step]
    split
    next background =>
      apply serving.called
      · cases event <;> trivial
      · cases event <;> exact spares
    next => exact serving
  | tick =>
    rw [Daemon.step]
    split
    next awake =>
      have polled : Serving timeout since (s.withJobs (s.app.jobs.step host procfs .runningCount)) :=
        serving.called trivial trivial
      rw [System.step, if_pos awake.2] at polled
      unfold Daemon.check
      dsimp only
      split
      · exact ⟨polled.sound, polled.resolved, polled.timeout, polled.activity⟩
      · exact polled
    next => exact serving

theorem runningCount_eq_zero (serving : Serving timeout since s) (idle : s.app.jobs.Idle)
    (recognised : s.app.jobs.Recognised host procfs) :
    s.app.jobs.runningCount host procfs = 0 ↔
      ∀ entry ∈ s.app.jobs.jobs.entries, s.app.jobs.jobAlive entry.1 entry.2 = false := by
  rw [System.runningCount_eq ⟨serving.sound, idle⟩ recognised serving.resolved, List.length_eq_zero_iff,
    List.filter_eq_nil_iff]
  simp only [Bool.not_eq_true]

/-- A tick triggers the shutdown exactly when the agent is idle. -/
theorem stops_iff (serving : Serving timeout since s) (recognised : s.app.jobs.Recognised host procfs) :
    Stops host procfs others s ↔ s.looping = true ∧ s.app.jobs.Idle ∧ TrulyIdle timeout since s := by
  unfold Stops
  rw [Daemon.step]
  by_cases awake : s.looping = true ∧ s.app.jobs.Idle
  · rw [if_pos awake]
    have due : s.app.tracker.shutdownDue s.clock (s.app.jobs.runningCount host procfs) = true ↔
        TrulyIdle timeout since s := by
      simp only [IdleTracker.shutdownDue, Bool.and_eq_true, decide_eq_true_eq, IdleTracker.idleSeconds,
        serving.timeout, serving.activity, runningCount_eq_zero serving awake.2 recognised]
      constructor
      · rintro ⟨jobs, silent⟩
        exact ⟨jobs, by omega⟩
      · rintro ⟨jobs, silent⟩
        exact ⟨jobs, by omega⟩
    unfold Daemon.check
    dsimp only
    split
    next triggers => exact iff_of_true (Nat.succ_ne_self _) ⟨awake.1, awake.2, due.mp triggers⟩
    next waits =>
      apply iff_of_false
      · exact fun differs => differs rfl
      · exact fun all => waits (due.mpr all.2.2)
  · rw [if_neg awake]
    apply iff_of_false
    · exact fun differs => differs rfl
    · exact fun all => awake ⟨all.1, all.2.1⟩

/-- The loop ends when it triggers the shutdown, and only then. -/
theorem looping_step {event : Event} (loops : s.looping = true) :
    (s.step host procfs others event).looping = false ↔ event = .tick ∧ Stops host procfs others s := by
  -- only a tick ends the loop
  have goesOn : ∀ {after : Daemon}, after.looping = true → event ≠ .tick →
      (after.looping = false ↔ event = .tick ∧ Stops host procfs others s) := by
    intro after still other
    rw [still]
    exact iff_of_false nofun fun both => other both.1
  cases event with
  | advance seconds => exact goesOn loops nofun
  | request authorization request launch =>
    rw [Daemon.step]
    split
    · exact goesOn loops nofun
    · exact goesOn loops nofun
  | process event =>
    rw [Daemon.step]
    split
    · exact goesOn loops nofun
    · exact goesOn loops nofun
  | tick =>
    unfold Stops
    rw [Daemon.step]
    split
    next awake =>
      unfold Daemon.check
      dsimp only
      split
      next => exact iff_of_true rfl ⟨rfl, Nat.succ_ne_self _⟩
      next =>
        apply iff_of_false
        · intro ended
          cases loops.symm.trans ended
        · exact fun both => both.2 rfl
    next =>
      apply iff_of_false
      · intro ended
        cases loops.symm.trans ended
      · exact fun both => both.2 rfl

/-! ## Every run -/

theorem serving_run (serving : Serving timeout since s) {events : List Event}
    (spares : Meets (Daemon.step host procfs others) (Spares host procfs) s events) :
    Serving timeout (lastAuthorised host procfs others since s events)
      (run (Daemon.step host procfs others) s events) := by
  induction events generalizing s since with
  | nil => exact serving
  | cons event rest ih => exact ih (serving_step serving spares.1) spares.2

theorem looping_run (loops : s.looping = true) (events : List Event)
    (quiet : ∀ earlier later, events = earlier ++ .tick :: later →
      ¬ Stops host procfs others (run (Daemon.step host procfs others) s earlier)) :
    (run (Daemon.step host procfs others) s events).looping = true := by
  induction events using List.reverseRecOn with
  | nil => exact loops
  | append_singleton first event ih =>
    have before : (run (Daemon.step host procfs others) s first).looping = true := by
      apply ih
      intro earlier later split
      apply quiet earlier (later ++ [event])
      rw [split, List.append_assoc, List.cons_append]
    rw [run_snoc]
    by_contra ended
    obtain ⟨rfl, stops⟩ := (looping_step before).mp (by simpa using ended)
    exact quiet first [] rfl stops

theorem serving_lifespan (apiToken : Option String) (clock : Nat) (world : World) (before : System) :
    Serving timeout clock (lifespan host procfs apiToken timeout clock world before) where
  sound := (System.sound_down rfl rfl).restored rfl
  resolved := by
    intro key r found ended
    change (System.restoreState host procfs before.stopped).jobs.get? key = some r at found
    rw [System.get?_restoreState] at found
    obtain ⟨entry, _, alive⟩ := Option.bind_eq_some_iff.mp found
    split at alive
    · cases alive
      exact absurd rfl ended
    · cases alive
  timeout := rfl
  activity := rfl

end

def plain : Endpoints := fun _ app => (.ok ⟨200, none⟩, app.world, app.jobs)

def deploy (jobUuid : String) : Request := .submitJob
  { jobUuid, scriptName := "deploy", params := Dict.empty, persistent := true, expectedMd5 := none }

def lastJob : List Event :=
  [.request (some "Bearer secret") (deploy "job") (some (some 7)), .advance 301, .tick,
    .process (.exit 0 0), .request none .healthz none]

abbrev young : Daemon :=
  lifespan linux true (some "secret") 300 0 World.fresh (System.fresh .empty "1")

def windows : Host := { linux with isWindows := true }

/-- taskkill does not end the job, and the kill gives up after ten seconds. -/
def survived : List Event :=
  [.request none (deploy "job") (some (some 7)), .request none (.killJob "job") none, .process .killProceeds,
    .process .killTimesOut, .advance 301]

/-- What an agent leaves that has not noticed that its job ended, and whose job's PID is given away. -/
def givenAway : System := (System.fresh .empty "1").run linux true
  [.boot, .start "deploy" "job" (some 7), .exit 0 0, .getStatus "job", .stop, .spawn 7 true]

abbrev desktop : Daemon := lifespan windows true none 300 0 World.fresh (System.fresh .empty "1")

abbrev restarted : Daemon := lifespan linux true none 300 0 World.fresh givenAway

end Csl.Agent.Lifecycle
