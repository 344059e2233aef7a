import Csl.Server.Auth.Dependencies

/-! Signing in and out: the tokens of the JSON API. -/

set_option autoImplicit false

namespace Csl.Server.Session.Api
open Csl.Shared Csl.Agent

structure LoginRequest where
  username : String
  password : String

variable (runtime : Runtime)

/-- Fourteen days. -/
def refreshSeconds : Nat := 14 * 24 * 60 * 60

def storeRefreshToken (userId : Nat) (jti : String) : Work Unit := do
  let now ← utcNow
  run (.insertRefreshToken userId (runtime.hashJti jti) (now + refreshSeconds))

def revokeJti (jti : String) : Work Unit := do
  match ← run (.findRefreshToken (runtime.hashJti jti)) with
  | none => pure ()
  | some row =>
    -- The flush writes no row that was selected as revoked.
    if row.revoked then pure () else run (.revokeRefreshToken row.id)

def tokenRevoked : Raised := .http 401 (some "auth.token_revoked") "Token revoked"

def tokenExpired : Raised := .http 401 (some "auth.token_expired") "Token expired"

def tokenInvalid (detail : String) : Raised := .http 401 (some "auth.token_invalid") detail

/-- Nothing keeps the row, so the session forgets it. -/
def validateRefreshJti (jti : String) : Work Unit := do
  match ← run (.findRefreshToken (runtime.hashJti jti)) with
  | none => throw tokenRevoked
  | some row =>
    if row.revoked then throw tokenRevoked
    else do
      let now ← utcNow
      if row.expiresAt < now then throw tokenExpired else return ()

def idText (user : Option Account) : String :=
  match user with
  | none => ""
  | some user => toString user.id

/-- `jti` is the uuid4 of the refresh token that is issued. -/
def login (body : LoginRequest) (jti : String) : Work Answer := do
  let user ← run (.findUserByName body.username)
  match ← authenticated runtime user body.password with
  | none => do
    recordAudit "auth.login" "user" (idText user) "failure" (user.map (·.id))
      [("username", body.username)] true
    throw (.http 401 (some "auth.invalid_credentials") "Incorrect username or password")
  | some user => do
    storeRefreshToken runtime user.id jti
    recordAudit "auth.login" "user" (toString user.id) "success" (some user.id)
      [("username", user.username)] false
    commit
    return .tokens user.id user.role jti

/-- The cookie is rotated: the presented token is revoked, a new one issued. -/
def refresh (refreshToken : Option String) (newJti : String) : Work Answer := do
  match refreshToken with
  | none => throw (tokenInvalid "No refresh token")
  | some token => do
    let now ← utcNow
    match decodeRefreshToken runtime now token with
    | none => throw (tokenInvalid "Invalid refresh token")
    | some data => do
      validateRefreshJti runtime data.jti
      match ← run (.findUser data.userId) with
      | none => throw (tokenInvalid "User not found")
      | some user =>
        if user.disabled then throw (tokenInvalid "User not found")
        else do
          revokeJti runtime data.jti
          storeRefreshToken runtime user.id newJti
          commit
          return .tokens user.id user.role newJti

def logout (refreshToken : Option String) : Work Answer := do
  let audited (userId : Option Nat) : Work Answer := do
    recordAudit "auth.logout" "user" ((userId.map toString).getD "") "success" userId [] true
    return .noContent
  match refreshToken with
  | none => audited none
  | some token => do
    let now ← utcNow
    match decodeRefreshToken runtime now token with
    | none => audited none
    | some data => do
      revokeJti runtime data.jti
      audited (some data.userId)

end Csl.Server.Session.Api
