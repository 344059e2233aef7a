import Csl.Server.Api.Scripts
import Csl.Server.Auth.Installation
import Csl.Server.Session.Rules
import Csl.Server.Web.Admin

/-! That the rows of scripts stay consistent.

An UPDATE writes the columns that differ from those its transaction loaded. A derived column may
stay as another transaction left it, while its source is written.
-/

set_option autoImplicit false

namespace Csl.Server.Session.LibraryRows
open Csl.Shared Csl.Agent Transactions Proc Runs

inductive LibraryRequest where
  | create (body : Api.ScriptIn) (credentials : Option String)
  | update (name : String) (body : Api.ScriptUpdateIn) (credentials : Option String)
  | delete (name : String) (credentials : Option String)
  | webCreate (name content metaYaml : String) (access : Option String)
  | webEdit (name content metaYaml : String) (access : Option String)
  | webDelete (name : String) (access : Option String)
  | seed (builtins : List BuiltinScript)

variable (runtime : Runtime)

def LibraryRequest.work : LibraryRequest → Work Answer
  | .create body credentials => withSession (Api.createScriptEndpoint runtime body credentials)
  | .update name body credentials => withSession (Api.updateScriptEndpoint runtime name body credentials)
  | .delete name credentials => withSession (Api.deleteScriptEndpoint runtime name credentials)
  | .webCreate name content metaYaml access =>
      withSession (Web.adminScriptNewSubmit runtime name content metaYaml access)
  | .webEdit name content metaYaml access =>
      withSession (Web.adminScriptEditSubmit runtime name content metaYaml access)
  | .webDelete name access => withSession (Web.adminScriptDelete runtime name access)
  | .seed builtins => withSession (seedScripts runtime builtins) >>= fun _ => pure .noContent

/-- The derived columns are those of the content and of metadata that parses. -/
structure Consistent (row : Script) : Prop where
  md5 : row.md5 = runtime.host.md5 row.content
  persistent : row.persistent = isPersistent runtime.toPlatform row.metaYaml
  valid : validateMeta runtime.toPlatform row.metaYaml = .ok ()

instance (row : Script) : Decidable (Consistent runtime row) :=
  decidable_of_iff (row.md5 = runtime.host.md5 row.content ∧
      row.persistent = isPersistent runtime.toPlatform row.metaYaml ∧
      validateMeta runtime.toPlatform row.metaYaml = .ok ())
    ⟨fun all => ⟨all.1, all.2.1, all.2.2⟩, fun all => ⟨all.md5, all.persistent, all.valid⟩⟩

structure ConsistentRows (rows : Rows) : Prop where
  each : ∀ row ∈ rows.scripts, Consistent runtime row
  named : (rows.scripts.map (·.name)).Nodup

instance (rows : Rows) : Decidable (ConsistentRows runtime rows) :=
  haveI : Decidable (∀ row ∈ rows.scripts, Consistent runtime row) := List.decidableBAll _ _
  decidable_of_iff ((∀ row ∈ rows.scripts, Consistent runtime row) ∧ (rows.scripts.map (·.name)).Nodup)
    ⟨fun both => ⟨both.1, both.2⟩, fun both => ⟨both.each, both.named⟩⟩

def Derives : Op → Prop
  | .query (.insertScript fields) => Consistent runtime (fields.row 0)
  | .query (.updateScript loaded fields) =>
      Consistent runtime loaded ∧ Consistent runtime (fields.row loaded.id)
  | _ => True

def Sound : (op : Op) → Except Raised (Reply op) → Prop
  | .query (.findScript _), reply => ∀ script, reply = .ok (some script) → Consistent runtime script
  | _, _ => True

def updates : Op → Option (Script × ScriptFields)
  | .query (.updateScript loaded fields) => some (loaded, fields)
  | _ => none

/-- A row whose metadata or content is updated, and the column derived from it is not, still has
this column as it was loaded. -/
def Current (number : Nat) (op : Op) (s : Shared) : Prop :=
  ∀ update ∈ updates op, ∀ row ∈ (s.store.view number).scripts, row.id = update.1.id →
    (update.2.content ≠ update.1.content → update.2.md5 = update.1.md5 → row.md5 = update.1.md5) ∧
      (update.2.metaYaml ≠ update.1.metaYaml → update.2.persistent = update.1.persistent →
        row.persistent = update.1.persistent)

instance (number : Nat) (op : Op) (s : Shared) : Decidable (Current number op s) :=
  inferInstanceAs (Decidable (∀ update ∈ updates op, ∀ row ∈ (s.store.view number).scripts, _ → _))

/-! ## One UPDATE -/

/-- A column and one derived from it, as one transaction loaded and changed them and as another
one left them: after the UPDATE they agree just when the derived column was written or is current. -/
theorem merged_iff {A B : Type} [DecidableEq A] [DecidableEq B] (derive : A → B) {loaded new row : A}
    {loadedB newB rowB : B} (loads : loadedB = derive loaded) (news : newB = derive new)
    (rows : rowB = derive row) :
    (changed loadedB newB).getD rowB = derive ((changed loaded new).getD row) ↔
      (new ≠ loaded → newB = loadedB → rowB = loadedB) := by
  unfold changed
  by_cases same : new = loaded
  · have sameB : newB = loadedB := by rw [news, loads, same]
    simp [same, sameB, rows]
  · by_cases sameB : newB = loadedB
    · simp only [if_neg same, if_pos sameB, Option.getD_none, Option.getD_some]
      rw [← news, sameB]
      exact ⟨fun current _ _ => current, fun current => current same rfl⟩
    · simp only [if_neg same, if_neg sameB, Option.getD_some]
      exact ⟨fun _ _ equal => absurd equal sameB, fun _ => news⟩

variable {runtime}

/-- An UPDATE leaves a row consistent just when the columns it leaves alone are current. -/
theorem consistent_updated_iff {loaded row : Script} {fields : ScriptFields}
    (loads : Consistent runtime loaded) (news : Consistent runtime (fields.row loaded.id))
    (rows : Consistent runtime row) :
    Consistent runtime (Rows.updatedScript loaded fields row) ↔
      (fields.content ≠ loaded.content → fields.md5 = loaded.md5 → row.md5 = loaded.md5) ∧
        (fields.metaYaml ≠ loaded.metaYaml → fields.persistent = loaded.persistent →
          row.persistent = loaded.persistent) := by
  have md5 := merged_iff runtime.host.md5 loads.md5 news.md5 rows.md5
  have persistent := merged_iff (isPersistent runtime.toPlatform) loads.persistent news.persistent rows.persistent
  constructor
  · exact fun consistent => ⟨md5.mp consistent.md5, persistent.mp consistent.persistent⟩
  · rintro ⟨hashed, flagged⟩
    refine ⟨md5.mpr hashed, persistent.mpr flagged, ?_⟩
    change validateMeta runtime.toPlatform ((changed loaded.metaYaml fields.metaYaml).getD row.metaYaml) = _
    unfold changed
    split
    · exact rows.valid
    · exact news.valid

/-! ## Any statement -/

def writesScripts : Statement → Bool
  | .insertScript _ | .updateScript .. | .deleteScript _ => true
  | _ => false

theorem scripts_run {connection : Nat} {rows : Rows} {statement : Statement}
    (other : writesScripts statement = false) :
    (statement.run connection rows).2.scripts = rows.scripts := by
  cases statement with
  | insertScript | updateScript | deleteScript => cases other
  | insertMachine =>
    simp only [Statement.run, Rows.insertMachine]
    split_ifs <;> rfl
  | insertJob =>
    simp only [Statement.run, Rows.insertJob]
    split_ifs <;> rfl
  | insertBookmark | insertTargetState =>
    simp only [Statement.run]
    split_ifs <;> rfl
  | updateUser | revokeRefreshToken | updateTargetState | updateJob =>
    simp only [Statement.run, Rows.present]
    split_ifs <;> rfl
  | _ => rfl

theorem consistent_id {row other : Script} (same : { row with id := other.id } = other)
    (consistent : Consistent runtime row) : Consistent runtime other := by
  rw [← same]
  exact ⟨consistent.md5, consistent.persistent, consistent.valid⟩

theorem consistentRows_run {connection : Nat} {rows : Rows} {statement : Statement}
    (derives : Derives runtime (.query statement))
    (current : ∀ update ∈ updates (.query statement), ∀ row ∈ rows.scripts, row.id = update.1.id →
      (update.2.content ≠ update.1.content → update.2.md5 = update.1.md5 → row.md5 = update.1.md5) ∧
        (update.2.metaYaml ≠ update.1.metaYaml → update.2.persistent = update.1.persistent →
          row.persistent = update.1.persistent))
    (consistent : ConsistentRows runtime rows) : ConsistentRows runtime (statement.run connection rows).2 := by
  cases statement with
  | insertScript fields =>
    simp only [Statement.run, Rows.insertScript]
    split_ifs with taken
    · exact consistent
    constructor
    · intro row member
      rcases List.mem_append.mp member with earlier | last
      · exact consistent.each row earlier
      · cases List.mem_singleton.mp last
        exact consistent_id rfl derives
    -- a name that is taken is refused
    · simp only [List.any_eq_true, decide_eq_true_eq, not_exists, not_and] at taken
      rw [List.map_append, List.nodup_append]
      refine ⟨consistent.named, List.nodup_singleton _, ?_⟩
      intro name member other last same
      obtain ⟨row, found, rfl⟩ := List.mem_map.mp member
      rw [List.map_singleton, List.mem_singleton] at last
      exact taken row found (same.trans last)
  | updateScript loaded fields =>
    simp only [Statement.run, Rows.present]
    split_ifs
    constructor
    · intro row member
      obtain ⟨before, found, rfl⟩ := List.mem_map.mp member
      split_ifs with target
      · exact (consistent_updated_iff derives.1 derives.2 (consistent.each before found)).mpr
          (current _ rfl before found target)
      · exact consistent.each before found
    -- an UPDATE of other columns changes no name
    · have names : ∀ row : Script, (if row.id = loaded.id then Rows.updatedScript loaded fields row else row).name =
          row.name := by
        intro row
        split_ifs <;> rfl
      simp only [List.map_map, Function.comp_def, names]
      exact consistent.named
    · exact consistent
  | deleteScript scriptId =>
    constructor
    · intro row member
      exact consistent.each row (List.mem_filter.mp member).1
    · exact consistent.named.sublist (List.filter_sublist.map _)
  | _ =>
    constructor
    · rw [scripts_run rfl]
      exact consistent.each
    · rw [scripts_run rfl]
      exact consistent.named

/-! ## The requests -/

section

theorem keeps_raiseRegistry {result : Except RegistryError Unit} :
    (raiseRegistry result).Keeps (Sound runtime) (Derives runtime) fun _ => result = .ok () := by
  cases result with
  | error e => exact keeps_throw
  | ok => exact keeps_pure rfl

theorem keeps_createScript (name content : String) (metaYaml : Option String) (userId : Nat) :
    (createScript runtime name content metaYaml userId).Keeps (Sound runtime) (Derives runtime)
      fun fields => Consistent runtime (fields.row 0) := by
  apply keeps_run trivial
  intro existing _
  cases existing with
  | some _ => exact keeps_throw
  | none =>
    apply keeps_bind keeps_raiseRegistry
    intro _ valid
    apply keeps_then trivial
    intro now _
    exact keeps_pure ⟨rfl, rfl, valid⟩

theorem keeps_getScriptOrRaise (name : String) :
    (getScriptOrRaise name).Keeps (Sound runtime) (Derives runtime) (Consistent runtime) := by
  apply keeps_run trivial
  intro found sound
  cases found with
  | none => exact keeps_throw
  | some script => exact keeps_pure (sound script rfl)

theorem keeps_updateScript (name content : String) (metaYaml : Option String) (userId : Nat) :
    (updateScript runtime name content metaYaml userId).Keeps (Sound runtime) (Derives runtime)
      fun update => Consistent runtime update.1 ∧ Consistent runtime (update.2.row update.1.id) := by
  apply keeps_bind (keeps_getScriptOrRaise name)
  intro script consistent
  apply keeps_bind keeps_raiseRegistry
  intro _ valid
  apply keeps_then trivial
  intro now _
  exact keeps_pure ⟨consistent, rfl, rfl, valid⟩

theorem derives_of_reads {op : Op} (reads : Reads op) : Derives runtime op := by
  cases op with
  | commit | close | utcNow => trivial
  | query statement =>
    cases statement with
    | insertScript | updateScript => cases reads
    | _ => trivial

theorem keeps_reads {A : Type} {work : Work A} (uses : work.Uses Reads) :
    work.Keeps (Sound runtime) (Derives runtime) fun _ => True :=
  (uses.mono fun _ => derives_of_reads).keeps

theorem keeps_recordAudit {action targetType targetId result : String} {userId : Option Nat}
    {details : List (String × String)} {commits : Bool} :
    (recordAudit action targetType targetId result userId details commits).Keeps (Sound runtime)
      (Derives runtime) fun _ => True := by
  apply keeps_run trivial
  intro _ _
  split
  · exact keeps_call trivial fun _ _ => trivial
  · exact keeps_pure trivial

theorem keeps_refreshScript (script : Script) :
    (Api.refreshScript script).Keeps (Sound runtime) (Derives runtime) fun _ => True := by
  apply keeps_run trivial
  intro fresh _
  cases fresh with
  | none => exact keeps_throw
  | some _ => exact keeps_pure trivial

theorem keeps_flushUpdate {loaded : Script} {fields : ScriptFields}
    (derives : Derives runtime (.query (.updateScript loaded fields))) :
    (flushUpdate loaded fields).Keeps (Sound runtime) (Derives runtime) fun _ => True := by
  rw [flushUpdate]
  split
  · exact keeps_pure trivial
  · exact keeps_call derives fun _ _ => trivial

theorem keeps_deleteScript (name : String) :
    (deleteScript name).Keeps (Sound runtime) (Derives runtime) fun _ => True := by
  apply keeps_bind (keeps_getScriptOrRaise name)
  intro script _
  apply keeps_run trivial
  intro _ _
  exact keeps_pure trivial

theorem keeps_answerRegistry {status : RegistryError → Nat} {body : Work Answer}
    (keeps : body.Keeps (Sound runtime) (Derives runtime) fun _ => True) :
    (Api.answerRegistry runtime status body).Keeps (Sound runtime) (Derives runtime) fun _ => True := by
  apply keeps_tryCatch keeps
  intro e
  cases e <;> exact keeps_throw

theorem keeps_commit {work : Work Answer}
    (keeps : work.Keeps (Sound runtime) (Derives runtime) fun _ => True) :
    (commit >>= fun _ => work).Keeps (Sound runtime) (Derives runtime) fun _ => True :=
  keeps_then trivial fun _ _ => keeps

theorem keeps_create (body : Api.ScriptIn) (credentials : Option String) :
    (Api.createScriptEndpoint runtime body credentials).Keeps (Sound runtime) (Derives runtime)
      fun _ => True := by
  apply keeps_bind (keeps_reads uses_requireAdmin)
  intro admin _
  apply keeps_answerRegistry
  apply keeps_bind (keeps_createScript _ _ _ _)
  intro fields consistent
  apply keeps_run consistent
  intro script _
  apply keeps_bind keeps_recordAudit
  intro _ _
  apply keeps_commit
  exact keeps_bind (keeps_refreshScript script) fun _ _ => keeps_pure trivial

theorem keeps_update (name : String) (body : Api.ScriptUpdateIn) (credentials : Option String) :
    (Api.updateScriptEndpoint runtime name body credentials).Keeps (Sound runtime) (Derives runtime)
      fun _ => True := by
  apply keeps_bind (keeps_reads uses_requireAdmin)
  intro admin _
  apply keeps_answerRegistry
  apply keeps_bind (keeps_updateScript _ _ _ _)
  intro update derives
  apply keeps_bind (keeps_flushUpdate derives)
  intro _ _
  apply keeps_bind keeps_recordAudit
  intro _ _
  apply keeps_commit
  exact keeps_bind (keeps_refreshScript _) fun _ _ => keeps_pure trivial

theorem keeps_delete (name : String) (credentials : Option String) :
    (Api.deleteScriptEndpoint runtime name credentials).Keeps (Sound runtime) (Derives runtime)
      fun _ => True := by
  apply keeps_bind (keeps_reads uses_requireAdmin)
  intro admin _
  apply keeps_answerRegistry
  apply keeps_bind (keeps_deleteScript name)
  intro script _
  apply keeps_run trivial
  intro _ _
  apply keeps_bind keeps_recordAudit
  intro _ _
  exact keeps_commit (keeps_pure trivial)

theorem keeps_webCreate (name content metaYaml : String) (access : Option String) :
    (Web.adminScriptNewSubmit runtime name content metaYaml access).Keeps (Sound runtime) (Derives runtime)
      fun _ => True := by
  apply keeps_bind (keeps_reads uses_webRequireAdmin)
  intro user _
  apply keeps_tryCatch
  · apply keeps_bind (keeps_createScript _ _ _ _)
    intro fields consistent
    apply keeps_run consistent
    intro _ _
    exact keeps_commit (keeps_pure trivial)
  · intro e
    cases e with
    | registry e => exact keeps_pure trivial
    | _ => exact keeps_throw

theorem keeps_webEdit (name content metaYaml : String) (access : Option String) :
    (Web.adminScriptEditSubmit runtime name content metaYaml access).Keeps (Sound runtime) (Derives runtime)
      fun _ => True := by
  apply keeps_bind (keeps_reads uses_webRequireAdmin)
  intro user _
  apply keeps_tryCatch
  · apply keeps_bind (keeps_updateScript _ _ _ _)
    intro update derives
    apply keeps_bind (keeps_flushUpdate derives)
    intro _ _
    exact keeps_commit (keeps_pure trivial)
  · intro e
    cases e with
    | registry e =>
      apply keeps_run trivial
      intro shown _
      cases shown <;> exact keeps_pure trivial
    | _ => exact keeps_throw

theorem keeps_webDelete (name : String) (access : Option String) :
    (Web.adminScriptDelete runtime name access).Keeps (Sound runtime) (Derives runtime) fun _ => True := by
  apply keeps_bind (keeps_reads uses_webRequireAdmin)
  intro user _
  apply keeps_tryCatch
  · apply keeps_bind (keeps_deleteScript name)
    intro script _
    apply keeps_run trivial
    intro _ _
    exact keeps_commit (keeps_pure trivial)
  · intro e
    cases e with
    | registry e => exact keeps_pure trivial
    | _ => exact keeps_throw

theorem keeps_seedBuiltinScripts (userId : Nat) (builtins : List BuiltinScript) :
    (seedBuiltinScripts runtime userId builtins).Keeps (Sound runtime) (Derives runtime) fun _ => True := by
  induction builtins with
  | nil => exact keeps_pure trivial
  | cons builtin rest ih =>
    apply keeps_run trivial
    intro existing _
    cases existing with
    | some _ => exact keeps_bind ih fun _ _ => keeps_pure trivial
    | none =>
      apply keeps_bind (keeps_createScript _ _ _ _)
      intro fields consistent
      apply keeps_run consistent
      intro _ _
      exact keeps_bind ih fun _ _ => keeps_pure trivial

theorem keeps_seed (builtins : List BuiltinScript) :
    (seedScripts runtime builtins).Keeps (Sound runtime) (Derives runtime) fun _ => True := by
  apply keeps_run trivial
  intro admin _
  cases admin with
  | none => exact keeps_pure trivial
  | some adminId =>
    apply keeps_bind (keeps_seedBuiltinScripts _ _)
    intro _ _
    exact keeps_then trivial fun _ _ => keeps_pure trivial

theorem keeps_work (request : LibraryRequest) :
    (request.work runtime).Keeps (Sound runtime) (Derives runtime) fun _ => True := by
  cases request with
  | create body credentials => exact keeps_withSession trivial (keeps_create body credentials)
  | update name body credentials => exact keeps_withSession trivial (keeps_update name body credentials)
  | delete name credentials => exact keeps_withSession trivial (keeps_delete name credentials)
  | webCreate name content metaYaml access =>
    exact keeps_withSession trivial (keeps_webCreate name content metaYaml access)
  | webEdit name content metaYaml access =>
    exact keeps_withSession trivial (keeps_webEdit name content metaYaml access)
  | webDelete name access => exact keeps_withSession trivial (keeps_webDelete name access)
  | seed builtins =>
    exact keeps_bind (keeps_withSession trivial (keeps_seed builtins)) fun _ _ => keeps_pure trivial

end

/-! ## Every run -/

variable (runtime) in
def Kept (s : Shared) : Prop := Everywhere (ConsistentRows runtime) s.store

theorem sound_handle {number : Nat} {op : Op} {s : Shared} (kept : Kept runtime s) :
    Sound runtime op (handle number op s).1 := by
  cases op with
  | commit | close | utcNow => trivial
  | query statement =>
    cases statement with
    | findScript name =>
      intro script found
      exact (kept.view number).each script (unique_some found).1
    | _ => trivial

theorem kept_handle {number : Nat} {op : Op} {s : Shared} (derives : Derives runtime op)
    (current : Current number op s) (kept : Kept runtime s) : Kept runtime (handle number op s).2 := by
  apply everywhere_handle _ kept
  intro statement same
  subst same
  exact consistentRows_run derives current (kept.view number)

/-- In every run of requests that create, change, delete and seed scripts, where the derived
columns that an UPDATE leaves alone are as they were loaded: every committed row has the md5 of its
content, metadata that parses and its persistent flag, and a name of its own. -/
theorem rows_consistent (runtime : Runtime) (requests : Nat → LibraryRequest) (rows : Rows) (now : Nat)
    (starts : ConsistentRows runtime rows) (turns : List (Turn Nat))
    (current : Meets (serve fun number => (requests number).work runtime) (Pool.Served Current)
      (Pool.empty (opened rows now)) turns) :
    ConsistentRows runtime (Runs.run (serve fun number => (requests number).work runtime)
      (Pool.empty (opened rows now)) turns).shared.store.committed := by
  have initial : Kept runtime (opened rows now) := ⟨starts, by intro _ _ none; cases none⟩
  have ticks : ∀ seconds s, Kept runtime s → Kept runtime (tick seconds s) := fun _ _ kept => kept
  have answers : ∀ number op s, Kept runtime s → Sound runtime op (handle number op s).1 :=
    fun _ _ _ => sound_handle
  have contracts : ∀ number, ((requests number).work runtime).Keeps (Sound runtime) (Derives runtime)
      fun _ => True := fun number => keeps_work (requests number)
  have serves : ∀ number op s, Derives runtime op → Current number op s → Kept runtime s →
      Kept runtime (handle number op s).2 := fun _ _ _ => kept_handle
  have kept := (Pool.shared_run answers contracts serves ticks initial current).2
  exact kept.committed

/-! ## Two editors -/

def flagged : Platform :=
  { station with
    host := { station.host with
      parseMetaYaml := fun text =>
        if text = "persistent: true" ∨ text = "persistent: false" then .ok ⟨[]⟩
        else .error "meta.yaml must be a YAML mapping at the top level" }
    saysPersistent := fun text => text = "persistent: true" }

def editors : Runtime := .reading flagged [("ada", 1)] []

def libraryRows : Rows :=
  { Rows.empty with
    users := [⟨⟨1, .admin⟩, "ada", "", false⟩]
    scripts := [(versionFields editors "serve.sh" "sleep 1" none 1 "").row 1] }

def edit (metaYaml : String) : LibraryRequest :=
  .update "serve.sh" ⟨"sleep 1", some metaYaml⟩ (some "ada")

def edits (number : Nat) : LibraryRequest :=
  if number = 0 then edit "persistent: true" else edit "persistent: false"

def turnsOf (number count : Nat) : List (Turn Nat) := List.replicate count (.serve number)

theorem rows_consistent_after_edits :
    ConsistentRows editors (Runs.run (serve fun number => (edits number).work editors)
      (Pool.empty (opened libraryRows 0))
      (.start 0 :: turnsOf 0 10 ++ .start 1 :: turnsOf 1 10)).shared.store.committed := by
  apply rows_consistent
  · decide +kernel
  · decide +kernel

/-- Both load the row before either writes it. The second editor's metadata says what the loaded
row said, so that the flag is not written. -/
theorem edits_cross :
    ConsistentRows editors libraryRows ∧
      ¬ ConsistentRows editors (Runs.run (serve fun number => (edits number).work editors)
        (Pool.empty (opened libraryRows 0))
        (.start 0 :: .start 1 :: turnsOf 0 3 ++ turnsOf 1 3 ++ turnsOf 0 7 ++ turnsOf 1 7)).shared.store.committed := by
  constructor <;> decide +kernel

end Csl.Server.Session.LibraryRows
