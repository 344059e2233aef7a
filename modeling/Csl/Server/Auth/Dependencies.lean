import Csl.Server.Session

/-! Who a request comes from: tokens, and the dependencies of the routes. -/

set_option autoImplicit false

namespace Csl.Server.Session
open Csl.Shared Csl.Agent Proc

structure RefreshTokenData where
  userId : Nat
  jti : String
  deriving DecidableEq, Repr

/-- The functions of libraries that the routes call. The claims of a token are those of a well
signed token of the right type, with the time it expires at. -/
structure Runtime extends Platform where
  accessClaims : String → Option (Nat × Nat)
  refreshClaims : String → Option (RefreshTokenData × Nat)
  hashJti : String → String
  /-- None when bcrypt raises `ValueError`, as it does above 72 bytes. -/
  verifyPassword : (password passwordHash : String) → Option Bool
  timestamp : Nat → Timestamp

/-- What a route answers. A token is answered as what it was made from. -/
inductive Answer where
  | tokens (userId : Nat) (role : Role) (jti : String)
  | signedIn (location : String) (userId : Nat) (role : Role) (jti : String)
  | noContent
  | redirect (location message category : String)
  | page (status : Nat) (error : String)
  | machine (row : Machine)
  | script (row : Script)
  | job (row : Job)
  deriving DecidableEq

variable (runtime : Runtime)

def decodeAccessToken (now : Nat) (token : String) : Option Nat :=
  match runtime.accessClaims token with
  | none => none
  | some (userId, exp) => if exp < now then none else some userId

def decodeRefreshToken (now : Nat) (token : String) : Option RefreshTokenData :=
  match runtime.refreshClaims token with
  | none => none
  | some (data, exp) => if exp < now then none else some data

def authenticated (found : Option Account) (password : String) : Work (Option Account) :=
  match found with
  | none => return none
  | some user =>
    if user.disabled then return none
    else
      match runtime.verifyPassword password user.passwordHash with
      | none => throw .value
      | some right => return if right then some user else none

def loginRequired : Raised := .http 302 none "/login"

def webCurrentUser (access : Option String) : Work Account := do
  match access with
  | none => throw loginRequired
  | some token =>
    let now ← utcNow
    match decodeAccessToken runtime now token with
    | none => throw loginRequired
    | some userId =>
      match ← run (.findUser userId) with
      | none => throw loginRequired
      | some user => if user.disabled then throw loginRequired else return user

def webRequireAdmin (access : Option String) : Work Account := do
  let user ← webCurrentUser runtime access
  if user.role ≠ .admin then throw (.http 403 none "Admin access required") else return user

def credentialsException : Raised :=
  .http 401 (some "auth.token_invalid") "Could not validate credentials"

/-- `credentials` is the bearer token of the request, which HTTPBearer asks for. -/
def currentUser (credentials : Option String) : Work Account := do
  match credentials with
  | none => throw (.http 403 none "Not authenticated")
  | some token =>
    let now ← utcNow
    match decodeAccessToken runtime now token with
    | none => throw credentialsException
    | some userId =>
      match ← run (.findUser userId) with
      | none => throw credentialsException
      | some user => if user.disabled then throw credentialsException else return user

def requireAdmin (credentials : Option String) : Work Account := do
  let user ← currentUser runtime credentials
  if user.role ≠ .admin then throw (.http 403 (some "auth.forbidden") "Admin access required")
  else return user

/-! ## What the dependencies do -/

def Reads : Op → Prop
  | .query statement => statement.writes = false
  | .utcNow => True
  | .commit | .close => False

theorem uses_read {statement : Statement} (reads : statement.writes = false) :
    (run statement).Uses Reads := uses_perform reads

/-- The enabled user that a token names, with the errors of one kind of route. -/
def identified (missing invalid : Raised) (token : Option String) : Work Account := do
  match token with
  | none => throw missing
  | some token =>
    let now ← utcNow
    match decodeAccessToken runtime now token with
    | none => throw invalid
    | some userId =>
      match ← run (.findUser userId) with
      | none => throw invalid
      | some user => if user.disabled then throw invalid else return user

section
variable {runtime} {token : Option String}

theorem webCurrentUser_eq : webCurrentUser runtime token = identified runtime loginRequired loginRequired token := by
  cases token <;> rfl

theorem currentUser_eq : currentUser runtime token =
    identified runtime (.http 403 none "Not authenticated") credentialsException token := by
  cases token <;> rfl

theorem uses_identified {missing invalid : Raised} : (identified runtime missing invalid token).Uses Reads := by
  cases token with
  | none => exact uses_throw
  | some token =>
    apply uses_bind (uses_perform trivial)
    intro now
    split
    · exact uses_throw
    apply uses_bind (uses_read rfl)
    intro user
    split
    · exact uses_throw
    · split
      · exact uses_throw
      · exact uses_pure

theorem uses_webCurrentUser : (webCurrentUser runtime token).Uses Reads := by
  rw [webCurrentUser_eq]
  exact uses_identified

theorem uses_webRequireAdmin : (webRequireAdmin runtime token).Uses Reads := by
  apply uses_bind uses_webCurrentUser
  intro user
  split
  · exact uses_throw
  · exact uses_pure

theorem uses_currentUser : (currentUser runtime token).Uses Reads := by
  rw [currentUser_eq]
  exact uses_identified

theorem uses_requireAdmin : (requireAdmin runtime token).Uses Reads := by
  apply uses_bind uses_currentUser
  intro user
  split
  · exact uses_throw
  · exact uses_pure

end

end Csl.Server.Session
