import Csl.Agent.Store
import Csl.Library.Json

/-! The text of approvals.json: `model_dump_json(indent=2, exclude_none=True)` and its reading. -/

set_option autoImplicit false

namespace Csl.Agent
open Csl.Shared

def ApprovedVia.text : ApprovedVia → String
  | .cli => "cli"
  | .auto => "auto"

def field (key : String) (value : Option String) : List (String × Json) :=
  (value.map fun text => (key, Json.string text)).toList

def ScriptRecord.toJson (record : ScriptRecord) : Json :=
  .object (("state", .string record.state.text) ::
    (field "approved_md5" record.approvedMd5 ++ field "approved_at" record.approvedAt ++
      field "approved_via" (record.approvedVia.map ApprovedVia.text) ++
      field "pending_md5" record.pendingMd5 ++ field "rejected_at" record.rejectedAt))

def ApprovalsStore.toJson (store : ApprovalsStore) : Json :=
  .object [("scripts", .object (store.scripts.entries.map fun entry => (entry.1, entry.2.toJson)))]

/-! Reading: unknown fields are ignored, a field of the wrong type makes the whole text unusable. -/

def readState (text : String) : Option ApprovalState :=
  [ApprovalState.absent, .pending, .approved, .updatePending, .rejected].find? (·.text = text)

def readVia (text : String) : Option ApprovedVia :=
  [ApprovedVia.cli, .auto].find? (·.text = text)

/-- An optional field: missing and null are none. -/
def optional (value : Option Json) : Option (Option String) :=
  match value with
  | none | some .null => some none
  | some (.string text) => some (some text)
  | some _ => none

def readField (fields : Dict String Json) (key : String) : Option (Option String) :=
  optional (fields.get? key)

def ScriptRecord.ofJson : Json → Option ScriptRecord
  | .object pairs => do
    let fields := Dict.ofList pairs
    let state ← readState (← ← readField fields "state")
    let approvedMd5 ← readField fields "approved_md5"
    let approvedAt ← readField fields "approved_at"
    let approvedVia ← match ← readField fields "approved_via" with
      | none => some none
      | some text => (readVia text).map some
    let pendingMd5 ← readField fields "pending_md5"
    let rejectedAt ← readField fields "rejected_at"
    return { state, approvedMd5, approvedAt, approvedVia, pendingMd5, rejectedAt }
  | _ => none

def readScripts (pairs : List (String × Json)) : Option (List (String × ScriptRecord)) :=
  pairs.mapM fun pair => (ScriptRecord.ofJson pair.2).map fun record => (pair.1, record)

def ApprovalsStore.ofJson : Json → Option ApprovalsStore
  | .object pairs =>
    match (Dict.ofList pairs).get? "scripts" with
    | none => some .empty
    | some (.object scripts) =>
      (readScripts (Dict.ofList scripts).entries).map fun records => ⟨Dict.ofList records⟩
    | some _ => none
  | _ => none

theorem readState_text (state : ApprovalState) : readState state.text = some state := by
  cases state <;> decide

theorem readVia_text (via : ApprovedVia) : readVia via.text = some via := by
  cases via <;> decide

theorem find_field (key other : String) (value : Option String) :
    Dict.find (field key value) other = if key = other then value.map .string else none := by
  cases value with
  | none => simp [field, Dict.find]
  | some text => simp [field, Dict.find]

theorem keys_field (key : String) (value : Option String) :
    ((field key value).map Prod.fst).Sublist [key] := by
  cases value <;> simp [field]

theorem readField_written {pairs : List (String × Json)} (distinct : (pairs.map Prod.fst).Nodup)
    (key : String) (value : Option String) (found : Dict.find pairs key = value.map .string) :
    readField (Dict.ofList pairs) key = some value := by
  rw [readField, Dict.get?_ofList distinct, found]
  cases value <;> rfl

theorem ScriptRecord.ofJson_toJson (record : ScriptRecord) :
    ScriptRecord.ofJson record.toJson = some record := by
  obtain ⟨state, approvedMd5, approvedAt, approvedVia, pendingMd5, rejectedAt⟩ := record
  have distinct : ((("state", Json.string state.text) ::
      (field "approved_md5" approvedMd5 ++ field "approved_at" approvedAt ++
        field "approved_via" (approvedVia.map ApprovedVia.text) ++
        field "pending_md5" pendingMd5 ++ field "rejected_at" rejectedAt)).map Prod.fst).Nodup := by
    have sublist := ((((keys_field "approved_md5" approvedMd5).append
      (keys_field "approved_at" approvedAt)).append
      (keys_field "approved_via" (approvedVia.map ApprovedVia.text))).append
      (keys_field "pending_md5" pendingMd5)).append (keys_field "rejected_at" rejectedAt)
    have all := (sublist.cons_cons "state").nodup (by decide)
    simpa only [List.map_cons, List.map_append] using all
  have read := readField_written distinct
  simp only [ScriptRecord.ofJson, toJson]
  rw [read "state" (some state.text) (by simp [Dict.find])]
  rw [read "approved_md5" approvedMd5 (by simp [Dict.find, Dict.find_append, find_field])]
  rw [read "approved_at" approvedAt (by simp [Dict.find, Dict.find_append, find_field])]
  rw [read "approved_via" (approvedVia.map ApprovedVia.text)
    (by simp [Dict.find, Dict.find_append, find_field])]
  rw [read "pending_md5" pendingMd5 (by simp [Dict.find, Dict.find_append, find_field])]
  rw [read "rejected_at" rejectedAt (by simp [Dict.find, Dict.find_append, find_field])]
  cases approvedVia <;> simp [readState_text, readVia_text]

theorem readScripts_written (entries : List (String × ScriptRecord)) :
    readScripts (entries.map fun entry => (entry.1, entry.2.toJson)) = some entries := by
  induction entries with
  | nil => rfl
  | cons entry entries ih =>
    rw [readScripts] at ih ⊢
    rw [List.map_cons, List.mapM_cons, ih]
    simp [ScriptRecord.ofJson_toJson]

theorem ApprovalsStore.ofJson_toJson (store : ApprovalsStore) :
    ApprovalsStore.ofJson store.toJson = some store := by
  have distinct : ((store.scripts.entries.map fun entry =>
      (entry.1, entry.2.toJson)).map Prod.fst).Nodup := by
    rw [List.map_map]
    exact store.scripts.distinct
  simp only [ApprovalsStore.ofJson, toJson]
  rw [Dict.get?_ofList (by simp)]
  simp only [Dict.find, if_true, Dict.entries_ofList distinct, readScripts_written,
    Option.map_some, Dict.ofList_entries]

def dumpStore (store : ApprovalsStore) : String :=
  String.ofList (Json.write Json.indented 0 store.toJson)

def loadStore (text : String) : Option ApprovalsStore := do
  ApprovalsStore.ofJson (← Json.read text)

def jsonCodec : StoreCodec where
  dump := dumpStore
  load := loadStore
  load_dump store := by
    simp [dumpStore, loadStore, Json.read_write Json.indented_blank, ApprovalsStore.ofJson_toJson]
  dump_plain store := by
    rw [dumpStore, String.toList_ofList]
    exact Json.indented_plain _

end Csl.Agent
