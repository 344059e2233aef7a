import Csl.Agent.Approvals.Mutations
import Csl.Agent.Endpoints
import Csl.Agent.ProcessManager.Lifetime

/-! The middlewares around the agent's endpoints: the bearer token and the idle clock. -/

set_option autoImplicit false

namespace Csl.Agent
open Csl.Shared ApprovalsManager Runs

/-- Times are those of the monotonic clock. -/
structure IdleTracker where
  timeout : Nat
  lastActivity : Nat
  deriving DecidableEq, Repr

namespace IdleTracker

def recordActivity (tracker : IdleTracker) (now : Nat) : IdleTracker := { tracker with lastActivity := now }

def idleSeconds (tracker : IdleTracker) (now : Nat) : Nat := now - tracker.lastActivity

def shutdownDue (tracker : IdleTracker) (now runningPersistent : Nat) : Bool :=
  runningPersistent = 0 && tracker.timeout < tracker.idleSeconds now

end IdleTracker

/-- `app.state`, with the configured token, and what the endpoints act on. -/
structure Application where
  apiToken : Option String
  tracker : IdleTracker
  world : World
  jobs : System

structure HttpRequest where
  authorization : Option String
  request : Request
  /-- When the request arrives. -/
  now : Nat

structure HttpAnswer where
  status : Nat
  detail : Option String
  deriving DecidableEq, Repr

inductive Uncaught where
  | typeError (message : String)
  | endpoint (e : Err)
  deriving DecidableEq, Repr

structure Served where
  answer : Except Uncaught HttpAnswer
  after : Application
  entered : List Request

abbrev Service := HttpRequest → Application → Served

abbrev Endpoints := HttpRequest → Application → Except Uncaught HttpAnswer × World × System

def router (endpoints : Endpoints) : Service := fun request app =>
  let (answer, world, jobs) := endpoints request app
  ⟨answer, { app with world, jobs }, [request.request]⟩

def isAscii (text : String) : Bool := text.toList.all fun c => c.toNat < 128

/-- `secrets.compare_digest` of two str. -/
def compareDigest (a b : String) : Except Uncaught Bool :=
  if isAscii a && isAscii b then .ok (a = b)
  else .error (.typeError "comparing strings with non-ASCII characters is not supported")

def bearer : String := "Bearer "

/-- `header[7:] if header.startswith("Bearer ") else ""`. -/
def provided (header : String) : String :=
  if bearer.toList.isPrefixOf header.toList then String.ofList (header.toList.drop 7) else ""

def unauthorized : HttpAnswer := ⟨401, some "unauthorized"⟩

def activityMiddleware (next : Service) : Service := fun request app =>
  next request { app with tracker := app.tracker.recordActivity request.now }

def authMiddleware (next : Service) : Service := fun request app =>
  -- An empty token counts as none.
  let expected := app.apiToken.getD ""
  if expected = "" then next request app
  else
    match compareDigest (provided (request.authorization.getD "")) expected with
    | .error e => ⟨.error e, app, []⟩
    | .ok false => ⟨.ok unauthorized, app, []⟩
    | .ok true => next request app

/-- `add_middleware` puts a middleware before those added so far. -/
def userMiddleware : List (Service → Service) :=
  let added := activityMiddleware :: []
  authMiddleware :: added

/-- The first middleware of the list is the outermost. -/
def middlewareStack (endpoints : Endpoints) : Service :=
  userMiddleware.foldr (fun middleware next => middleware next) (router endpoints)

def HttpAnswer.ofUncaught : Uncaught → HttpAnswer := fun _ => ⟨500, none⟩

/-- What is raised is answered by the server's own error middleware. -/
def Served.response (served : Served) : HttpAnswer :=
  match served.answer with
  | .ok answer => answer
  | .error e => .ofUncaught e

namespace Middleware
variable {endpoints : Endpoints} {request : HttpRequest} {app : Application} {token : String}

def authorized (token : String) : Option String := some (bearer ++ token)

theorem provided_bearer (rest : List Char) :
    provided (String.ofList (bearer.toList ++ rest)) = String.ofList rest := by
  have begins : bearer.toList.isPrefixOf (bearer.toList ++ rest) := by
    rw [List.isPrefixOf_iff_prefix]
    exact List.prefix_append _ _
  have length : bearer.toList.length = 7 := rfl
  rw [provided, String.toList_ofList, if_pos begins, ← length, List.drop_left]

theorem provided_eq_token (given : token ≠ "") :
    provided (request.authorization.getD "") = token ↔ request.authorization = authorized token := by
  constructor
  · intro same
    cases found : request.authorization with
    | none =>
      rw [found] at same
      exact absurd same.symm given
    | some header =>
      rw [found, Option.getD_some] at same
      by_cases begins : bearer.toList.isPrefixOf header.toList
      · obtain ⟨rest, split⟩ := List.isPrefixOf_iff_prefix.mp begins
        have whole : header = String.ofList (bearer.toList ++ rest) := by
          rw [split, String.ofList_toList]
        rw [whole, provided_bearer] at same
        rw [whole, authorized, ← same, String.ofList_append, String.ofList_toList]
      · rw [provided, if_neg begins] at same
        exact absurd same.symm given
  · intro same
    have whole : bearer ++ token = String.ofList (bearer.toList ++ token.toList) := by
      rw [String.ofList_append, String.ofList_toList, String.ofList_toList]
    rw [same, authorized, Option.getD_some, whole, provided_bearer, String.ofList_toList]

/-- What the station's token decides: the holder's request enters its endpoint, any other is
answered 401 and changes nothing. -/
def OnlyTokenPasses (endpoints : Endpoints) (token : String) (request : HttpRequest)
    (app : Application) : Prop :=
  let served := middlewareStack endpoints request app
  (served.entered = [request.request] ↔ request.authorization = authorized token) ∧
    (request.authorization ≠ authorized token → served.response = unauthorized ∧ served.after = app)

def Comparable (token : String) (request : HttpRequest) : Prop :=
  isAscii (provided (request.authorization.getD "")) = true ∧ isAscii token = true

instance : Decidable (Comparable token request) := inferInstanceAs (Decidable (_ ∧ _))

theorem stack_compared (configured : app.apiToken = some token) (given : token ≠ "")
    (comparable : Comparable token request) :
    middlewareStack endpoints request app =
      if request.authorization = authorized token then activityMiddleware (router endpoints) request app
      else ⟨.ok unauthorized, app, []⟩ := by
  have digests : compareDigest (provided (request.authorization.getD "")) token =
      .ok (decide (request.authorization = authorized token)) := by
    rw [compareDigest, comparable.1, comparable.2]
    simp only [Bool.and_self, if_true, provided_eq_token given]
  simp only [middlewareStack, userMiddleware, List.foldr_cons, List.foldr_nil, authMiddleware,
    configured, Option.getD_some, if_neg given, digests]
  by_cases holder : request.authorization = authorized token
  · rw [if_pos holder, decide_eq_true holder]
  · rw [if_neg holder, decide_eq_false holder]

theorem stack_incomparable (endpoints : Endpoints) (configured : app.apiToken = some token) (given : token ≠ "")
    (incomparable : ¬ Comparable token request) :
    ∃ message, middlewareStack endpoints request app = ⟨.error (.typeError message), app, []⟩ := by
  have differs : (isAscii (provided (request.authorization.getD "")) && isAscii token) ≠ true := by
    rw [Ne, Bool.and_eq_true]
    exact incomparable
  refine ⟨"comparing strings with non-ASCII characters is not supported", ?_⟩
  simp only [middlewareStack, userMiddleware, List.foldr_cons, List.foldr_nil, authMiddleware,
    configured, Option.getD_some, if_neg given, compareDigest, if_neg differs]

/-- For every endpoint and header: the token decides who passes exactly when the token and what
the header provides are ASCII. -/
theorem only_token_passes (endpoints : Endpoints) (request : HttpRequest) (app : Application)
    (token : String) (configured : app.apiToken = some token) (given : token ≠ "") :
    OnlyTokenPasses endpoints token request app ↔ Comparable token request := by
  by_cases comparable : Comparable token request
  · refine iff_of_true ?_ comparable
    rw [OnlyTokenPasses, stack_compared configured given comparable]
    by_cases holder : request.authorization = authorized token
    · simp [holder, activityMiddleware, router]
    · simp [holder, Served.response]
  · refine iff_of_false ?_ comparable
    obtain ⟨message, raised⟩ := stack_incomparable endpoints configured given comparable
    rw [OnlyTokenPasses, raised]
    rintro ⟨enters, refused⟩
    by_cases holder : request.authorization = authorized token
    · exact absurd (enters.mpr holder) (by simp)
    · have answered : HttpAnswer.ofUncaught (.typeError message) = unauthorized := (refused holder).1
      cases answered

def started (token : String) : Application :=
  ⟨some token, ⟨300, 0⟩, World.fresh, .fresh .empty ""⟩

def healthz (authorization : Option String) : HttpRequest := ⟨authorization, .healthz, 1⟩

def idleEndpoints : Endpoints := fun _ app => (.ok ⟨200, none⟩, app.world, app.jobs)

theorem only_token_passes_healthz :
    OnlyTokenPasses idleEndpoints "secret" (healthz (authorized "secret")) (started "secret") :=
  (only_token_passes _ _ _ _ rfl (by decide)).mpr (by decide)

/-- A header that provides `é` makes the comparison raise, and the request is answered 500. -/
theorem foreign_character_is_not_refused :
    ¬ OnlyTokenPasses idleEndpoints "secret" (healthz (some "Bearer é")) (started "secret") ∧
      (middlewareStack idleEndpoints (healthz (some "Bearer é")) (started "secret")).response.status =
        500 := by
  constructor
  · intro passes
    have refused := (passes.2 (by decide)).1
    revert refused
    decide +kernel
  · decide +kernel

/-! ## What other requests leave behind -/

def serve (endpoints : Endpoints) (app : Application) (request : HttpRequest) : Application :=
  (middlewareStack endpoints request app).after

theorem serve_configured (configured : app.apiToken = some token) (given : token ≠ "") :
    (serve endpoints app request).apiToken = some token := by
  rw [serve]
  by_cases comparable : Comparable token request
  · rw [stack_compared configured given comparable]
    split_ifs <;> exact configured
  · obtain ⟨message, raised⟩ := stack_incomparable endpoints configured given comparable
    rw [raised]
    exact configured

theorem serve_other (configured : app.apiToken = some token) (given : token ≠ "")
    (other : request.authorization ≠ authorized token) : serve endpoints app request = app := by
  rw [serve]
  by_cases comparable : Comparable token request
  · rw [stack_compared configured given comparable, if_neg other]
  · obtain ⟨message, raised⟩ := stack_incomparable endpoints configured given comparable
    rw [raised]

/-- A run of requests leaves what the token holder's requests alone would leave: the others
neither keep the agent alive nor change what it holds. -/
theorem run_serve_holder (configured : app.apiToken = some token) (given : token ≠ "")
    (requests : List HttpRequest) :
    run (serve endpoints) app requests =
      run (serve endpoints) app (requests.filter (·.authorization = authorized token)) := by
  induction requests generalizing app with
  | nil => rfl
  | cons request rest ih =>
    rw [run_cons]
    by_cases holder : request.authorization = authorized token
    · rw [List.filter_cons_of_pos (by simpa using holder), run_cons]
      exact ih (serve_configured configured given)
    · rw [List.filter_cons_of_neg (by simpa using holder), serve_other configured given holder]
      exact ih configured

end Middleware

end Csl.Agent
