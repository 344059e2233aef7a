import Csl.Agent.Approvals.Calls
import Csl.Agent.Main

/-! The calls that the checks before a launch are made of. -/

set_option autoImplicit false

namespace Csl.Agent
open Csl.Shared ApprovalsManager Proc

variable {host : Host} {allowed : Op → Prop}

theorem uses_liftExcept {A : Type} (result : Except Err A) : (liftExcept result).Uses allowed := by
  cases result <;> trivial

theorem uses_validateParams (exist : ∀ path, allowed (.exists? path))
    (read : ∀ path, allowed (.readText path)) (name : String) (params : Params) :
    (validateParams host name params).Uses allowed := by
  refine uses_bind (uses_perform (exist _)) fun present => ?_
  split
  · exact uses_liftExcept _
  · exact uses_bind (uses_perform (read _)) fun _ => uses_liftExcept _

theorem uses_findScript (exist : ∀ path, allowed (.exists? path)) (name : String) :
    (findScript host name).Uses allowed := by
  unfold findScript
  induction extensions host with
  | nil => trivial
  | cons ending rest ih =>
    refine uses_bind (uses_perform (exist _)) fun present => ?_
    split
    · trivial
    · exact ih

theorem uses_verifyScriptIntegrity (read : ∀ path, allowed (.readBytes path)) (name : String)
    (script : Path) (approvedMd5 : Option String) :
    (verifyScriptIntegrity host name script approvedMd5).Uses allowed := by
  cases approvedMd5 with
  | none => trivial
  | some md5 =>
    refine uses_bind (uses_perform (read _)) fun text => ?_
    dsimp only
    split <;> trivial

theorem uses_prepare (looks : Looks allowed) (readBytes : ∀ path, allowed (.readBytes path))
    (verb name : String) (params : Params) : (prepare host verb name params).Uses allowed := by
  refine uses_bind (uses_getState looks name) fun found => ?_
  split
  · trivial
  · refine uses_bind (uses_validateParams looks.exist looks.readText name params) fun _ => ?_
    refine uses_bind (uses_findScript looks.exist name) fun script => ?_
    refine uses_bind (uses_verifyScriptIntegrity readBytes name script _) fun _ => ?_
    exact uses_bind (uses_liftExcept _) fun command => uses_pure

end Csl.Agent
