import Csl.Library.Redirects
import Csl.Library.Tables
import Csl.Server.Auth.Installation
import Csl.Server.Session.Alone
import Csl.Server.Session.Scripts
import Mathlib.Order.Hom.Basic

/-! Where a browser comes that follows the redirects of the web interface.

The login page takes a visitor with a cookie for one who is signed in. The other pages look at
the token in the cookie and at the account it names.
-/

set_option autoImplicit false

namespace Csl.Server.Session.LoginRedirects
open Csl.Shared Csl.Agent Transactions
open Redirects (Step)

inductive Route where
  | login
  | dashboard
  /-- Another page that depends on web_current_user. -/
  | guarded (path : String)
  /-- A page that depends on web_require_admin. -/
  | administration (path : String)
  | scriptEdit (name : String)
  deriving DecidableEq

/-- What is shown in the end: the login form, a page for a user, or an error. -/
inductive Shown where
  | loginForm
  | page (user : Account)
  | error (raised : Raised)
  deriving DecidableEq

variable (runtime : Runtime)

/-- Redirects to the dashboard if already authenticated, which an empty cookie is not. -/
def loginPage (access : Option String) : Step String Shown :=
  match access with
  | none | some "" => .page .loginForm
  | some _ => .redirect "/"

def adminScriptEditForm (name : String) (access : Option String) : Work (Step String Shown) := do
  let user ← webRequireAdmin runtime access
  tryCatch (do
      let _ ← getScriptOrRaise name
      return .page (.page user))
    fun e =>
      match e with
      | .registry _ => return .redirect "/admin/scripts"
      | e => throw e

def get (access : Option String) : Route → Work (Step String Shown)
  | .login => return loginPage access
  | .dashboard | .guarded _ => do
    let user ← webCurrentUser runtime access
    return .page (.page user)
  | .administration _ => do
    let user ← webRequireAdmin runtime access
    return .page (.page user)
  | .scriptEdit name => adminScriptEditForm runtime name access

/-- An HTTPException of status 302 carries the location in its headers. -/
def answered : Except Raised (Step String Shown) → Step String Shown
  | .ok response => response
  | .error (.http 302 none location) => .redirect location
  | .error e => .page (.error e)

def routeOf : String → Route
  | "/" => .dashboard
  | "/login" => .login
  | "/admin/scripts" => .administration "/admin/scripts"
  | path => .guarded path

def located : Step String Shown → Step Route Shown
  | .redirect location => .redirect (routeOf location)
  | .page shown => .page shown

/-- The tables while redirects are followed. The ids of users are their primary key. -/
structure Site where
  rows : Rows
  distinct : (rows.users.map fun user => user.id).Nodup

/-- What a browser gets with a request of this number. It keeps its cookie, and time passes. -/
def respond (site : Site) (clock : Nat →o Nat) (access : Option String) (number : Nat) (route : Route) :
    Step Route Shown :=
  located (answered ((get runtime access route).run (handle number) (opened site.rows (clock number))).1)

/-- Redirects end from this page, at the login form for a visitor who is not signed in. -/
def Ends (site : Site) (clock : Nat →o Nat) (access : Option String) (start : Route) : Prop :=
  ∃ last shown, Redirects.Leads (respond runtime site clock access) 0 start last shown ∧
    ((¬∃ user, SignedIn runtime (clock last) site.rows access user) → shown = .loginForm)

/-- How many redirects a user who is signed in follows from a page. -/
def hops (site : Site) (user : Account) : Route → Nat
  | .login => 1
  | .dashboard | .guarded _ | .administration _ => 0
  | .scriptEdit name => if user.role = .admin ∧ ¬site.rows.scripts.any (·.name = name) then 1 else 0

/-! ## What the dependencies answer -/

variable {runtime} {site : Site} {access : Option String} {connection now : Nat}

theorem signedIn_unique {user other : Account} (signed : SignedIn runtime now site.rows access user)
    (also : SignedIn runtime now site.rows access other) : user = other := by
  have same : some user.id = some other.id := signed.token.symm.trans also.token
  exact List.inj_on_of_nodup_map site.distinct signed.member also.member (Option.some.inj same)

theorem signedIn_earlier {before : Nat} {user : Account} (signed : SignedIn runtime now site.rows access user)
    (early : before ≤ now) : SignedIn runtime before site.rows access user := by
  refine ⟨?_, signed.member, signed.enabled⟩
  obtain ⟨token, present, decoded⟩ := Option.bind_eq_some_iff.mp signed.token
  rw [present, Option.bind_some]
  unfold decodeAccessToken at decoded ⊢
  cases claims : runtime.accessClaims token with
  | none => simp [claims] at decoded
  | some found =>
    simp only [claims, Option.ite_none_left_eq_some] at decoded ⊢
    exact ⟨by omega, decoded.2⟩

theorem run_findUser (userId : Nat) :
    (run (.findUser userId)).run (handle connection) (opened site.rows now) =
      (.ok (site.rows.users.find? (·.id = userId)), opened site.rows now) := by
  let users : Table fun user : Account => user.id := ⟨site.rows.users, site.distinct⟩
  have found : site.rows.users.filter (·.id = userId) = (site.rows.users.find? (·.id = userId)).toList :=
    users.filter_id_eq userId
  have answer : Rows.unique site.rows.users (·.id = userId) = .ok (site.rows.users.find? (·.id = userId)) := by
    rw [Rows.unique, found]
    cases site.rows.users.find? (·.id = userId) <;> rfl
  rw [Session.run, call, Proc.run_perform, ← answer]
  rfl

def named (runtime : Runtime) (site : Site) (now : Nat) (access : Option String) : Option Account :=
  (access.bind (decodeAccessToken runtime now)).bind fun userId => site.rows.users.find? (·.id = userId)

theorem run_webCurrentUser :
    (webCurrentUser runtime access).run (handle connection) (opened site.rows now) =
      (match named runtime site now access with
        | some user => if user.disabled then .error loginRequired else .ok user
        | none => .error loginRequired, opened site.rows now) := by
  cases access with
  | none => rfl
  | some token =>
    have clock : utcNow.run (handle connection) (opened site.rows now) = (.ok now, opened site.rows now) := rfl
    simp only [webCurrentUser, named, Proc.run_bind, clock, Proc.follow_ok, Option.bind_some]
    cases decodeAccessToken runtime now token with
    | none => rfl
    | some userId =>
      simp only [Proc.run_bind, Option.bind_some]
      rw [run_findUser]
      cases site.rows.users.find? (·.id = userId) with
      | none => rfl
      | some user =>
        dsimp only
        by_cases disabled : user.disabled = true <;> simp [disabled]

theorem signedIn_iff_named {user : Account} : SignedIn runtime now site.rows access user ↔
    named runtime site now access = some user ∧ user.disabled = false := by
  constructor
  · intro signed
    refine ⟨?_, signed.enabled⟩
    let users : Table fun user : Account => user.id := ⟨site.rows.users, site.distinct⟩
    have only : users.rows.filter (·.id = user.id) = (users.find? user.id).toList := users.filter_id_eq user.id
    have member : user ∈ users.rows.filter (·.id = user.id) := List.mem_filter.mpr ⟨signed.member, by simp⟩
    rw [only, Option.mem_toList] at member
    rw [named, signed.token, Option.bind_some]
    exact member
  · rintro ⟨found, enabled⟩
    obtain ⟨userId, token, found⟩ := Option.bind_eq_some_iff.mp found
    have same : user.id = userId := by simpa using List.find?_some found
    exact ⟨token.trans (congrArg some same.symm), List.mem_of_find?_eq_some found, enabled⟩

theorem run_webCurrentUser_signedIn {user : Account} (signed : SignedIn runtime now site.rows access user) :
    (webCurrentUser runtime access).run (handle connection) (opened site.rows now) =
      (.ok user, opened site.rows now) := by
  obtain ⟨found, enabled⟩ := signedIn_iff_named.mp signed
  simp [run_webCurrentUser, found, enabled]

theorem run_webCurrentUser_refused (refused : ¬∃ user, SignedIn runtime now site.rows access user) :
    (webCurrentUser runtime access).run (handle connection) (opened site.rows now) =
      (.error loginRequired, opened site.rows now) := by
  rw [run_webCurrentUser]
  cases found : named runtime site now access with
  | none => rfl
  | some user =>
    have disabled : user.disabled = true := by
      by_contra enabled
      exact refused ⟨user, signedIn_iff_named.mpr ⟨found, by simpa using enabled⟩⟩
    simp [disabled]

/-! ## What a browser gets -/

variable {clock : Nat →o Nat} {number : Nat}

/-- Nobody who is not signed in is shown a page that is not the login page. -/
theorem respond_refused {route : Route} (notLogin : route ≠ .login)
    (refused : ¬∃ user, SignedIn runtime (clock number) site.rows access user) :
    respond runtime site clock access number route = .redirect .login := by
  have away : (get runtime access route).run (handle number) (opened site.rows (clock number)) =
      (.error loginRequired, opened site.rows (clock number)) := by
    cases route with
    | login => exact absurd rfl notLogin
    | dashboard | guarded => simp only [get, Proc.run_bind, run_webCurrentUser_refused refused, Proc.follow_error]
    | administration | scriptEdit =>
      simp only [get, adminScriptEditForm, webRequireAdmin, Proc.run_bind, run_webCurrentUser_refused refused,
        Proc.follow_error]
  rw [respond, away]
  rfl

theorem respond_login_empty (empty : access = none ∨ access = some "") :
    respond runtime site clock access number .login = .page .loginForm := by
  rcases empty with rfl | rfl <;> rfl

theorem respond_login {token : String} (nonempty : token ≠ "") :
    respond runtime site clock (some token) number .login = .redirect .dashboard := by
  have page : loginPage (some token) = .redirect "/" := by
    unfold loginPage
    split
    · contradiction
    · rename_i same
      exact absurd (Option.some.inj same) nonempty
    · rfl
  rw [respond, get, page]
  rfl

theorem run_webRequireAdmin {user : Account} (signed : SignedIn runtime now site.rows access user) :
    (webRequireAdmin runtime access).run (handle connection) (opened site.rows now) =
      (if user.role = .admin then .ok user else .error (.http 403 none "Admin access required"),
        opened site.rows now) := by
  simp only [webRequireAdmin, Proc.run_bind, run_webCurrentUser_signedIn signed, Proc.follow_ok]
  by_cases admin : user.role = .admin <;> simp [admin]

theorem run_getScriptOrRaise (name : String) :
    (getScriptOrRaise name).run (handle connection) (opened site.rows now) =
      (match site.rows.scripts.filter (·.name = name) with
        | [] => .error (.registry (.notFound name))
        | [script] => .ok script
        | _ => .error .multipleResults, opened site.rows now) := by
  have found : (run (.findScript name)).run (handle connection) (opened site.rows now) =
      (Rows.unique site.rows.scripts (·.name = name), opened site.rows now) := by
    rw [Session.run, call, Proc.run_perform]
    rfl
  simp only [getScriptOrRaise, Proc.run_bind]
  rw [found, Rows.unique]
  generalize site.rows.scripts.filter (·.name = name) = named
  rcases named with _ | ⟨script, _ | _⟩ <;> rfl

/-- A signed-in user is shown something, or is sent on once. -/
theorem respond_signedIn {route : Route} (notLogin : route ≠ .login) {user : Account}
    (signed : SignedIn runtime (clock number) site.rows access user) :
    (hops site user route = 0 ∧ ∃ shown, respond runtime site clock access number route = .page shown) ∨
      (hops site user route = 1 ∧
        respond runtime site clock access number route = .redirect (.administration "/admin/scripts")) := by
  cases route with
  | login => exact absurd rfl notLogin
  | dashboard | guarded =>
    refine .inl ⟨rfl, .page user, ?_⟩
    simp only [respond, get, Proc.run_bind, run_webCurrentUser_signedIn signed, Proc.follow_ok]
    rfl
  | administration path =>
    refine .inl ⟨rfl, ?_⟩
    simp only [respond, get, Proc.run_bind, run_webRequireAdmin signed]
    by_cases admin : user.role = .admin
    · exact ⟨.page user, by rw [if_pos admin]; rfl⟩
    · exact ⟨.error _, by rw [if_neg admin]; rfl⟩
  | scriptEdit name =>
    simp only [respond, get, adminScriptEditForm, Proc.run_bind, run_webRequireAdmin signed]
    by_cases admin : user.role = .admin
    · simp only [if_pos admin, Proc.follow_ok, Proc.run_tryCatch, Proc.run_bind, run_getScriptOrRaise]
      -- Only a script that is not there is an error of the registry.
      cases found : site.rows.scripts.filter (·.name = name) with
      | nil =>
        have missing : ¬site.rows.scripts.any (·.name = name) := by
          rw [List.any_eq_true]
          rintro ⟨script, member, same⟩
          exact List.filter_eq_nil_iff.mp found script member same
        exact .inr ⟨if_pos ⟨admin, missing⟩, rfl⟩
      | cons script rest =>
        have kept : script ∈ site.rows.scripts.filter (·.name = name) := by
          rw [found]
          exact List.mem_cons_self
        obtain ⟨member, same⟩ := List.mem_filter.mp kept
        have present : site.rows.scripts.any (·.name = name) := List.any_eq_true.mpr ⟨script, member, same⟩
        refine .inl ⟨if_neg fun both => both.2 present, ?_⟩
        cases rest with
        | nil => exact ⟨.page user, rfl⟩
        | cons other rest => exact ⟨.error .multipleResults, rfl⟩
    · exact .inl ⟨by simp [hops, admin], .error (.http 403 none "Admin access required"), by rw [if_neg admin]; rfl⟩

theorem respond_page {route : Route} (notLogin : route ≠ .login) {user : Account}
    (signed : SignedIn runtime (clock number) site.rows access user) (stays : hops site user route = 0) :
    ∃ shown, respond runtime site clock access number route = .page shown := by
  rcases respond_signedIn notLogin signed with ⟨_, page⟩ | ⟨sent, _⟩
  · exact page
  · omega

/-! ## Where redirects end -/

def Lost (runtime : Runtime) (site : Site) (clock : Nat →o Nat) (access : Option String) (number : Nat) : Prop :=
  ∀ later ≥ number, ¬∃ user, SignedIn runtime (clock later) site.rows access user

theorem lost_of_refused (refused : ¬∃ user, SignedIn runtime (clock number) site.rows access user) :
    Lost runtime site clock access number :=
  fun _ late ⟨user, signed⟩ => refused ⟨user, signedIn_earlier signed (clock.monotone late)⟩

/-- A cookie that does not authenticate is sent from the login page to the dashboard and back. -/
theorem not_ends_of_lost {token : String} (nonempty : token ≠ "") {start : Route}
    (lost : Lost runtime site clock (some token) number) {last : Nat} {shown : Shown} :
    ¬Redirects.Leads (respond runtime site clock (some token)) number start last shown := by
  apply Redirects.not_leads fun number _ => Lost runtime site clock (some token) number
  · intro number route lost
    have later : Lost runtime site clock (some token) (number + 1) := fun later late => lost later (by omega)
    by_cases login : route = .login
    · rw [login]
      exact ⟨.dashboard, respond_login nonempty, later⟩
    · exact ⟨.login, respond_refused login (lost number (Nat.le_refl _)), later⟩
  · exact lost

theorem leads_login (empty : access = none ∨ access = some "") {route : Route}
    (refused : ¬∃ user, SignedIn runtime (clock number) site.rows access user) :
    ∃ last, Redirects.Leads (respond runtime site clock access) number route last .loginForm := by
  by_cases login : route = .login
  · rw [login]
    exact ⟨number, .page (respond_login_empty empty)⟩
  · exact ⟨number + 1, .redirect (respond_refused login refused) (.page (respond_login_empty empty))⟩

theorem ends_of_shown {last : Nat} {shown : Shown} {start : Route} {user : Account}
    (leads : Redirects.Leads (respond runtime site clock access) 0 start last shown)
    (signed : SignedIn runtime (clock last) site.rows access user) : Ends runtime site clock access start :=
  ⟨last, shown, leads, fun refused => absurd ⟨user, signed⟩ refused⟩

theorem ends_of_signedIn {user : Account} {start : Route} (nonempty : access ≠ some "")
    (signed : SignedIn runtime (clock (hops site user start)) site.rows access user) :
    Ends runtime site clock access start := by
  by_cases login : start = .login
  · subst login
    obtain ⟨token, rfl, _⟩ := Option.bind_eq_some_iff.mp signed.token
    obtain ⟨shown, page⟩ := respond_page (show Route.dashboard ≠ .login by decide) signed rfl
    exact ends_of_shown (.redirect (respond_login fun same => nonempty (congrArg some same)) (.page page)) signed
  · rcases respond_signedIn login (signedIn_earlier signed (clock.monotone (Nat.zero_le _))) with
      ⟨stays, shown, page⟩ | ⟨sent, redirected⟩
    · rw [stays] at signed
      exact ends_of_shown (.page page) signed
    · rw [sent] at signed
      obtain ⟨shown, page⟩ :=
        respond_page (show Route.administration "/admin/scripts" ≠ .login by decide) signed rfl
      exact ends_of_shown (.redirect redirected (.page page)) signed

theorem ends_of_empty (empty : access = none ∨ access = some "") (start : Route) :
    Ends runtime site clock access start := by
  by_cases login : start = .login
  · rw [login]
    exact ⟨0, .loginForm, .page (respond_login_empty empty), fun _ => rfl⟩
  by_cases signed : ∃ user, SignedIn runtime (clock 0) site.rows access user
  · obtain ⟨user, signed⟩ := signed
    rcases respond_signedIn login signed with ⟨_, shown, page⟩ | ⟨_, redirected⟩
    · exact ends_of_shown (.page page) signed
    · by_cases again : ∃ user, SignedIn runtime (clock 1) site.rows access user
      · obtain ⟨user, signed⟩ := again
        obtain ⟨shown, page⟩ :=
          respond_page (show Route.administration "/admin/scripts" ≠ .login by decide) signed rfl
        exact ends_of_shown (.redirect redirected (.page page)) signed
      · obtain ⟨last, leads⟩ := leads_login empty again
        exact ⟨last, .loginForm, .redirect redirected leads, fun _ => rfl⟩
  · obtain ⟨last, leads⟩ := leads_login empty signed
    exact ⟨last, .loginForm, leads, fun _ => rfl⟩

/-- Redirects end exactly for a cookie that is absent or empty, and for one that authenticates
when the page is asked for that they lead its user to. -/
theorem ends_iff (runtime : Runtime) (site : Site) (clock : Nat →o Nat) (access : Option String) (start : Route) :
    Ends runtime site clock access start ↔ access = none ∨ access = some "" ∨
      ∃ user, SignedIn runtime (clock (hops site user start)) site.rows access user := by
  constructor
  · rintro ⟨last, shown, leads, _⟩
    by_contra neither
    obtain ⟨present, nonempty, refused⟩ : access ≠ none ∧ access ≠ some "" ∧
        ¬∃ user, SignedIn runtime (clock (hops site user start)) site.rows access user := by simpa using neither
    obtain ⟨token, rfl⟩ := Option.ne_none_iff_exists'.mp present
    have proper : token ≠ "" := fun same => nonempty (congrArg some same)
    by_cases login : start = .login
    · subst login
      exact not_ends_of_lost proper (lost_of_refused refused) (leads.next (respond_login proper))
    by_cases signed : ∃ user, SignedIn runtime (clock 0) site.rows (some token) user
    · obtain ⟨user, signed⟩ := signed
      rcases respond_signedIn login signed with ⟨stays, _⟩ | ⟨sent, redirected⟩
      · exact refused ⟨user, by rwa [stays]⟩
      · -- The token expires before the page is asked for that the user is sent on to.
        have expired : ¬∃ user, SignedIn runtime (clock 1) site.rows (some token) user := by
          rintro ⟨other, still⟩
          obtain rfl := signedIn_unique signed (signedIn_earlier still (clock.monotone (Nat.zero_le 1)))
          exact refused ⟨user, by rwa [sent]⟩
        exact not_ends_of_lost proper (lost_of_refused expired) (leads.next redirected)
    · exact not_ends_of_lost proper (lost_of_refused signed) leads
  · intro holds
    by_cases empty : access = none ∨ access = some ""
    · exact ends_of_empty empty start
    · obtain ⟨_, nonempty⟩ := not_or.mp empty
      rcases holds with absent | blank | ⟨user, signed⟩
      · exact absurd (.inl absent) empty
      · exact absurd blank nonempty
      · exact ends_of_signedIn nonempty signed

/-! ## An expired token -/

def expiring : Runtime := .reading station [("token", 1)] []

def oneUser : Site := ⟨{ Rows.empty with users := [⟨⟨1, .user⟩, "ada", "", false⟩] }, by decide⟩

def late : Nat →o Nat := ⟨fun number => 2000 + number, fun _ _ early => Nat.add_le_add_left early 2000⟩

/-- A browser that kept the cookie goes from the dashboard to the login page and back. -/
theorem expired_cookie_redirects_forever :
    ¬Ends expiring oneUser late (some "token") .dashboard := by
  rintro ⟨last, shown, leads, _⟩
  refine not_ends_of_lost (by decide) (lost_of_refused ?_) leads
  rintro ⟨user, signed⟩
  have read : decodeAccessToken expiring 2000 "token" = none := by decide
  cases read.symm.trans signed.token

end Csl.Server.Session.LoginRedirects
