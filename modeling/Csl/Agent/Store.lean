import Csl.Library.Newlines
import Csl.Shared.Models

/-! The approval records and the text that holds them in approvals.json. -/

set_option autoImplicit false

namespace Csl.Agent
open Csl.Shared

inductive ApprovedVia where
  | cli | auto
  deriving DecidableEq, Repr

structure ScriptRecord where
  state : ApprovalState
  approvedMd5 : Option String := none
  approvedAt : Option Timestamp := none
  approvedVia : Option ApprovedVia := none
  pendingMd5 : Option String := none
  rejectedAt : Option Timestamp := none
  deriving DecidableEq, Repr

structure ApprovalsStore where
  scripts : Dict String ScriptRecord
  deriving DecidableEq

def ApprovalsStore.empty : ApprovalsStore := ⟨Dict.empty⟩

instance : Inhabited ApprovalsStore := ⟨.empty⟩

/-- The state of a name; a name without a record is absent. -/
def ApprovalsStore.stateOf (store : ApprovalsStore) (name : String) : ApprovalState :=
  ((store.scripts.get? name).map (·.state)).getD .absent

theorem ApprovalsStore.stateOf_of_get? {store : ApprovalsStore} {name : String}
    {record : ScriptRecord} (found : store.scripts.get? name = some record) :
    store.stateOf name = record.state := by
  rw [stateOf, found]
  rfl

/-- The JSON serialisation of stores. What the agent relies on is carried as
fields: loading a dump gives the dumped store, and a dump has no bare carriage
return, so newline translation does not change what is loaded. -/
structure StoreCodec where
  dump : ApprovalsStore → String
  load : String → Option ApprovalsStore
  load_dump : ∀ store, load (dump store) = some store
  dump_plain : ∀ store, '\r' ∉ (dump store).toList

end Csl.Agent
