import Csl.Agent.Approvals
import Csl.Library.Interference

/-! The calls that the parts of the approvals manager are made of. -/

set_option autoImplicit false

namespace Csl.Agent
open Csl.Shared Proc

namespace ApprovalsManager
variable {host : Host} {allowed : Op → Prop}

theorem uses_onlyIf {condition : Prop} [Decidable condition] {action : Action Unit}
    (uses : action.Uses allowed) : (onlyIf condition action).Uses allowed := by
  unfold onlyIf
  split
  · exact uses
  · trivial

structure Looks (allowed : Op → Prop) : Prop where
  getStore : allowed .getStore
  setStore : ∀ store, allowed (.setStore store)
  getSig : allowed .getSig
  setSig : ∀ sig, allowed (.setSig sig)
  stat : allowed .stat
  exist : ∀ path, allowed (.exists? path)
  readText : ∀ path, allowed (.readText path)

theorem uses_getState (looks : Looks allowed) (name : String) :
    (getState host name).Uses allowed := by
  have loads : (load host).Uses allowed := by
    refine uses_bind (uses_perform (looks.exist _)) fun present => ?_
    split
    · trivial
    · exact ⟨looks.readText _, fun reply => by cases reply <;> trivial⟩
  have syncs : (syncFromDisk host).Uses allowed := by
    refine uses_bind (uses_perform looks.stat) fun sig => ?_
    refine uses_bind (uses_perform looks.getSig) fun known => uses_onlyIf ?_
    exact uses_bind loads fun store =>
      uses_bind (uses_perform (looks.setStore store)) fun _ => uses_perform (looks.setSig sig)
  exact uses_bind syncs fun _ => uses_bind (uses_perform looks.getStore) fun _ => uses_pure

theorem uses_writePending {name content : String} {metaYaml : Option String}
    (directory : allowed (.mkdir .pending))
    (script : allowed (.writeText (.pending name) content .exact))
    (scriptMeta : ∀ text, allowed (.writeText (.pending (metaFile name)) text .platform)) :
    (writePending name content metaYaml).Uses allowed := by
  refine uses_bind (uses_perform directory) fun _ => uses_bind (uses_perform script) fun _ => ?_
  cases metaYaml with
  | none => trivial
  | some text => exact uses_perform (scriptMeta text)

theorem uses_promote {name : String} (directory : allowed (.mkdir .scripts))
    (exist : allowed (.exists? (.pending (metaFile name))))
    (script : allowed (.replace (.pending name) (.scripts name)))
    (scriptMeta : allowed (.replace (.pending (metaFile name)) (.scripts (metaFile name)))) :
    (promote name).Uses allowed := by
  refine uses_bind (uses_perform directory) fun _ => uses_bind (uses_perform script) fun _ => ?_
  exact uses_bind (uses_perform exist) fun _ => uses_onlyIf (uses_perform scriptMeta)

end ApprovalsManager

end Csl.Agent
