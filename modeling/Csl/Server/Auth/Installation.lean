import Csl.Server.Auth.Dependencies
import Csl.Server.Installation

/-! A control station whose users' tokens are known. -/

set_option autoImplicit false

namespace Csl.Server.Session
open Csl.Shared

/-- Tokens are read from tables and expire at 1000, no password is the right one, and bcrypt
refuses those above 72 bytes. -/
def Runtime.reading (platform : Platform) (access : List (String × Nat))
    (refresh : List (String × RefreshTokenData)) : Runtime where
  toPlatform := platform
  accessClaims token := (access.lookup token).map fun userId => (userId, 1000)
  refreshClaims token := (refresh.lookup token).map fun data => (data, 1000)
  hashJti jti := jti
  verifyPassword password _ := if password.utf8ByteSize ≤ 72 then some false else none
  timestamp _ := ""

def office : Runtime := .reading station [("ada", 1)] []

end Csl.Server.Session
