import Csl.Server.Api.Auth

/-! The login and logout pages. -/

set_option autoImplicit false

namespace Csl.Server.Session.Web
open Csl.Shared Csl.Agent

variable (runtime : Runtime)

def loginSubmit (username password jti : String) : Work Answer := do
  let user ← run (.findUserByName username)
  match ← authenticated runtime user password with
  | none => return .page 401 "Invalid username or password."
  | some user => do
    Api.storeRefreshToken runtime user.id jti
    commit
    return .signedIn "/" user.id user.role jti

def loggedOut : Answer := .redirect "/login" "You have been logged out." "info"

def logout (refreshToken : Option String) : Work Answer := do
  match refreshToken with
  | none => return loggedOut
  | some token => do
    let now ← utcNow
    match decodeRefreshToken runtime now token with
    | none => return loggedOut
    | some data => do
      Api.revokeJti runtime data.jti
      commit
      return loggedOut

end Csl.Server.Session.Web
