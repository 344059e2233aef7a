import Csl.Library.Interference
import Csl.Server.Api.Jobs

/-! The calls that the checks of a submission are made of. -/

set_option autoImplicit false

namespace Csl.Server
open Proc

variable {allowed : Op → Prop} {platform : Platform}

theorem uses_getMachineOr404 {machineId : Nat} (finds : allowed (.query (.findMachine machineId))) :
    (Api.getMachineOr404 machineId).Uses allowed := by
  refine uses_bind (uses_perform finds) fun found => ?_
  split <;> trivial

theorem uses_assertAccess {user : User} {machineId : Nat}
    (finds : allowed (.query (.findBookmark user.id machineId))) :
    (Api.assertAccess user machineId).Uses allowed := by
  unfold Api.assertAccess
  split
  · trivial
  · refine uses_bind (uses_perform finds) fun bookmarked => ?_
    split <;> trivial

theorem uses_getScriptOr404 {name : String} (finds : allowed (.query (.findScript name))) :
    (Api.getScriptOr404 platform name).Uses allowed := by
  refine uses_bind (uses_perform finds) fun found => ?_
  split <;> trivial

end Csl.Server
