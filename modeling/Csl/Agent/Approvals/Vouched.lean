import Csl.Agent.Approvals.Sharing
import Csl.Agent.Jobs.Submission

/-! What the records of approvals.json may say, whoever wrote them.

An md5 waits only when it was offered under the record's name, and is approved only when it was
granted to it. A manager with an old copy may write back what another one has changed since, but it
makes nothing up: whatever it writes was offered or granted once.
-/

set_option autoImplicit false

namespace Csl.Agent
open Csl.Shared ApprovalsManager Proc

namespace Vouching

abbrev Versions := String → String → Prop

structure Fits (offered granted : Versions) (name : String) (record : ScriptRecord) : Prop where
  pending : ∀ md5, record.pendingMd5 = some md5 → offered name md5
  approved : ∀ md5, record.approvedMd5 = some md5 → granted name md5
  waits : Waiting record.state → ∃ md5, record.pendingMd5 = some md5
  stands : record.state = .approved → ∃ md5, record.approvedMd5 = some md5

def Vouched (offered granted : Versions) (store : ApprovalsStore) : Prop :=
  ∀ name record, store.scripts.get? name = some record → Fits offered granted name record

variable {offered granted offered' granted' : Versions} {store : ApprovalsStore} {host : Host}

theorem vouched_empty : Vouched offered granted .empty := nofun

theorem Fits.mono {name : String} {record : ScriptRecord} (fits : Fits offered granted name record)
    (offers : ∀ name md5, offered name md5 → offered' name md5)
    (grants : ∀ name md5, granted name md5 → granted' name md5) : Fits offered' granted' name record :=
  { fits with
    pending := fun md5 waits => offers name md5 (fits.pending md5 waits)
    approved := fun md5 stands => grants name md5 (fits.approved md5 stands) }

theorem Vouched.mono (vouched : Vouched offered granted store)
    (offers : ∀ name md5, offered name md5 → offered' name md5)
    (grants : ∀ name md5, granted name md5 → granted' name md5) : Vouched offered' granted' store :=
  fun name record found => (vouched name record found).mono offers grants

theorem vouched_set (vouched : Vouched offered granted store) {name : String} {record : ScriptRecord}
    (fits : Fits offered granted name record) : Vouched offered granted ⟨store.scripts.set name record⟩ := by
  intro other found there
  rw [Dict.get?_set] at there
  split at there
  next same =>
    cases there
    exact same ▸ fits
  next => exact vouched other found there

theorem vouched_pop (vouched : Vouched offered granted store) (name : String) :
    Vouched offered granted ⟨store.scripts.pop name⟩ := by
  intro other found there
  rw [Dict.get?_pop] at there
  split at there
  · cases there
  · exact vouched other found there

/-! ## Mutations -/

/-- The md5 that a mutation has wait, or approved at once. -/
def Offers : Mutation → Versions
  | .stage staged _ stagedMd5 _ => fun name md5 => staged = name ∧ stagedMd5 = md5
  | .approve _ | .reject _ | .clear _ => fun _ _ => False

/-- The owner approves the md5 that waits in the manager's copy; an auto-approved name is approved as
it is staged. -/
def Grants (autoApprove : List String) (store : ApprovalsStore) : Mutation → Versions
  | .stage staged _ stagedMd5 _ => fun name md5 => staged = name ∧ stagedMd5 = md5 ∧ name ∈ autoApprove
  | .approve approved => fun name md5 => approved = name ∧
      ∃ record, store.scripts.get? name = some record ∧ Waiting record.state ∧ record.pendingMd5 = some md5
  | .reject _ | .clear _ => fun _ _ => False

/-- After a mutation that grants an md5, approvals.json has it as the approved one. -/
theorem granted_stands (autoApprove : List String) {mutation : Mutation} {w : World} {name md5 : String}
    (effective : mutation.Effective host w) (grants : Grants autoApprove w.memory.store mutation name md5) :
    ∃ record, ((host.run (mutation.action host autoApprove) w).2.disk.loaded host).scripts.get? name = some record ∧
      record.state = .approved ∧ record.approvedMd5 = some md5 := by
  rw [Mutation.run_effective effective]
  simp only [World.saved, Disk.loaded_saved]
  cases mutation with
  | stage staged content stagedMd5 metaYaml =>
    obtain ⟨rfl, rfl, auto⟩ := grants
    refine ⟨_, Dict.get?_set_self _ _ _, ?_⟩
    simp [stagedRecord, auto]
  | approve approved =>
    obtain ⟨rfl, record, found, -, waits⟩ := grants
    have held : w.record approved = some record := found
    refine ⟨_, Dict.get?_set_self _ _ _, rfl, ?_⟩
    rw [held]
    exact waits
  | reject | clear => exact grants.elim

theorem fits_stagedRecord {name md5 : String} {auto : Bool} {record : Option ScriptRecord} {now : Timestamp}
    (before : ∀ r, record = some r → Fits offered granted name r) (offers : offered name md5)
    (grants : auto = true → granted name md5) : Fits offered granted name (stagedRecord auto record md5 now) := by
  unfold stagedRecord
  split
  next auto =>
    refine ⟨nofun, ?_, by simp [Waiting], fun _ => ⟨md5, rfl⟩⟩
    rintro _ ⟨⟩
    exact grants auto
  next =>
    split
    · refine ⟨?_, fun md5 stands => (before _ rfl).approved md5 stands, fun _ => ⟨md5, rfl⟩, nofun⟩
      rintro _ ⟨⟩
      exact offers
    · refine ⟨?_, nofun, fun _ => ⟨md5, rfl⟩, nofun⟩
      rintro _ ⟨⟩
      exact offers

theorem vouched_newStore (autoApprove : List String) {mutation : Mutation} {w : World}
    (vouched : Vouched offered granted w.memory.store) (effective : mutation.Effective host w)
    (offers : ∀ name md5, Offers mutation name md5 → offered name md5)
    (grants : ∀ name md5, Grants autoApprove w.memory.store mutation name md5 → granted name md5) :
    Vouched offered granted (mutation.newStore autoApprove w) := by
  cases mutation with
  | stage name content md5 metaYaml =>
    apply vouched_set vouched
    apply fits_stagedRecord
    · exact fun r found => vouched name r found
    · exact offers name md5 ⟨rfl, rfl⟩
    · exact fun auto => grants name md5 ⟨rfl, rfl, of_decide_eq_true auto⟩
  | approve name =>
    apply vouched_set vouched
    obtain ⟨⟨record, found, waiting⟩, -⟩ := effective
    obtain ⟨md5, waits⟩ := (vouched name record found).waits waiting
    have stands : (w.record name).bind (·.pendingMd5) = some md5 := by
      rw [found]
      exact waits
    refine ⟨nofun, ?_, by simp [Waiting], fun _ => ⟨md5, stands⟩⟩
    rintro _ same
    cases stands.symm.trans same
    exact grants name md5 ⟨rfl, record, found, waiting, waits⟩
  | reject name => exact vouched_set vouched ⟨nofun, nofun, by simp [Waiting], nofun⟩
  | clear name => exact vouched_pop vouched name

/-! ## Calls that write no approvals -/

/-- The manager's copy is as it was or was read from approvals.json, which is the same file. -/
structure Looked (host : Host) (w after : World) : Prop where
  memory : after.memory = w.memory ∨ after.memory = ⟨w.disk.loaded host, w.disk.currentSig host⟩
  approvals : after.disk.read host .approvals = w.disk.read host .approvals
  writes : w.disk.writes ≤ after.disk.writes

namespace Looked
variable {w mid after : World}

theorem refl (w : World) : Looked host w w := ⟨.inl rfl, rfl, le_rfl⟩

theorem loaded (looked : Looked host w after) : after.disk.loaded host = w.disk.loaded host := by
  rw [Disk.loaded, Disk.loaded, looked.approvals]

theorem currentSig (looked : Looked host w after) : after.disk.currentSig host = w.disk.currentSig host := by
  rw [Disk.currentSig, Disk.currentSig, looked.approvals]

theorem trans (first : Looked host w mid) (rest : Looked host mid after) : Looked host w after := by
  refine ⟨?_, rest.approvals.trans first.approvals, first.writes.trans rest.writes⟩
  rcases rest.memory with same | reread
  · rw [same]
    exact first.memory
  · rw [reread, first.loaded, first.currentSig]
    exact .inr rfl

end Looked

theorem looked_resynced (host : Host) (w : World) : Looked host w (w.resynced host) := by
  unfold World.resynced
  split
  · exact .refl w
  · exact ⟨.inr rfl, rfl, le_rfl⟩

theorem looked_written {jobUuid : String} {path : Path} (located : host.logPath jobUuid = some path) (text : String)
    (w : World) : Looked host w { w with disk := w.disk.write host path text } := by
  obtain ⟨notStore, _⟩ := host.logPath_suffix jobUuid
  have apart : ¬ host.canonical .approvals = host.canonical path := by
    intro same
    apply notStore
    rw [located]
    cases path <;> simp_all [Host.canonical]
  refine ⟨.inl rfl, ?_, Nat.le_succ _⟩
  rw [Disk.read_write, if_neg apart]

def Looks {A : Type} (host : Host) (action : Action A) : Prop := ∀ w, Looked host w (host.run action w).2

theorem looks_bind {A B : Type} {action : Action A} {next : A → Action B} (first : Looks host action)
    (rest : ∀ a, Looks host (next a)) : Looks host (action >>= next) := by
  intro w
  have looked := first w
  simp only [run_bind]
  rcases ran : host.run action w with ⟨e | a, mid⟩
  · rw [ran] at looked
    simpa only [ran, follow_error] using looked
  · rw [ran] at looked
    simpa only [ran, follow_ok] using looked.trans (rest a mid)

theorem looks_throw {A : Type} (e : Err) : Looks host (throw e : Action A) := fun w => .refl w

theorem looks_pure {A : Type} (a : A) : Looks host (pure a : Action A) := fun w => .refl w

theorem looks_translated {A : Type} {action : Action A} (looks : Looks host action) (translate : Err → Err) :
    Looks host (MonadExcept.tryCatch action fun e => throw (translate e)) := by
  intro w
  have looked := looks w
  simp only [run_tryCatch]
  rcases ran : host.run action w with ⟨e | a, after⟩
  · rw [ran] at looked
    simpa only [ran, recoverWith_error, run_throw] using looked
  · rw [ran] at looked
    simpa only [ran, recoverWith_ok] using looked

theorem looks_getState (name : String) : Looks host (getState host name) := by
  intro w
  rw [run_getState]
  exact looked_resynced host w

theorem looks_checkExpectedMd5 (body : JobRequest) : Looks host (checkExpectedMd5 host body) := by
  unfold checkExpectedMd5
  split
  · exact looks_pure ()
  · apply looks_bind (looks_getState _)
    intro found
    split
    · exact looks_throw _
    · exact looks_pure ()

theorem looks_start (name : String) (params : Params) (jobUuid : String) :
    Looks host (ProcessManager.start host name params jobUuid) := by
  intro w
  rw [run_start]
  have looked := looked_resynced host w
  split
  · exact looked
  · exact looked
  next path _ located =>
    have opened : Looked host (w.resynced host) ((w.resynced host).logOpened host path) :=
      looked_written located "" _
    exact looked.trans ⟨opened.memory, opened.approvals, opened.writes⟩

theorem looks_runScript (name : String) (params : Params) : Looks host (runScript host name params) := by
  intro w
  rw [run_runScript]
  have looked := looked_resynced host w
  split
  · exact looked
  · exact looked.trans ⟨.inl rfl, rfl, le_rfl⟩

theorem looks_writeLog (jobUuid : String) (result : ScriptResult) : Looks host (writeLog host jobUuid result) := by
  intro w
  unfold writeLog
  cases located : host.logPath jobUuid with
  | none => simpa using Looked.refl w
  | some path => simpa using looked_written located _ w

theorem looks_utcNow : Looks host utcNow := fun w => .refl w

theorem looks_submitJob (body : JobRequest) : Looks host (submitJob host body) := by
  unfold submitJob
  apply looks_bind (looks_checkExpectedMd5 body)
  intro _
  split
  · exact looks_translated (looks_start _ _ _) jobRefusal
  · apply looks_bind looks_utcNow
    intro startedAt
    apply looks_bind (looks_translated (looks_runScript _ _) jobRefusal)
    intro result
    apply looks_bind (looks_writeLog _ _)
    intro _
    apply looks_bind looks_utcNow
    exact fun endedAt => looks_pure _

/-! ## Two managers on one file -/

section
open Sharing
variable {s : Shared} {autoApprove : List String}

def left (s : Shared) (party : Party) (w : World) : Shared := ⟨Function.update s.memory party w.memory, w.disk⟩

structure Acts (s : Shared) (party : Party) (w : World) : Prop where
  memory : w.memory = s.memory party
  disk : w.disk = s.disk

structure AllVouched (host : Host) (offered granted : Versions) (s : Shared) : Prop where
  copies : ∀ party, Vouched offered granted (s.memory party).store
  file : Vouched offered granted (s.disk.loaded host)

theorem AllVouched.mono (vouched : AllVouched host offered granted s)
    (offers : ∀ name md5, offered name md5 → offered' name md5)
    (grants : ∀ name md5, granted name md5 → granted' name md5) : AllVouched host offered' granted' s :=
  ⟨fun party => (vouched.copies party).mono offers grants, vouched.file.mono offers grants⟩

theorem allVouched_fresh (host : Host) : AllVouched host offered granted fresh := ⟨fun _ => vouched_empty, vouched_empty⟩

theorem allVouched_left (vouched : AllVouched host offered granted s) {party : Party} {w : World}
    (copy : Vouched offered granted w.memory.store) (file : Vouched offered granted (w.disk.loaded host)) :
    AllVouched host offered granted (left s party w) := by
  refine ⟨fun other => ?_, file⟩
  by_cases same : other = party
  · subst same
    simpa only [left, Function.update_self] using copy
  · simpa only [left, Function.update_of_ne same] using vouched.copies other

theorem allVouched_looked (vouched : AllVouched host offered granted s) {party : Party} {w after : World}
    (acts : Acts s party w) (looked : Looked host w after) : AllVouched host offered granted (left s party after) := by
  have file : Vouched offered granted (after.disk.loaded host) := by
    rw [looked.loaded, acts.disk]
    exact vouched.file
  apply allVouched_left vouched _ file
  rcases looked.memory with same | reread
  · rw [same, acts.memory]
    exact vouched.copies party
  · rw [reread]
    rwa [looked.loaded] at file

theorem allVouched_mutated (vouched : AllVouched host offered granted s) {party : Party} {w : World}
    (acts : Acts s party w) {mutation : Mutation} (offers : ∀ name md5, Offers mutation name md5 → offered name md5)
    (grants : mutation.Effective host w →
      ∀ name md5, Grants autoApprove (s.memory party).store mutation name md5 → granted name md5) :
    AllVouched host offered granted (left s party (host.run (mutation.action host autoApprove) w).2) := by
  rcases mutation.run_cases autoApprove w with same | effective
  · rw [same]
    exact allVouched_looked vouched acts (.refl w)
  · have copy := vouched.copies party
    rw [← acts.memory] at copy grants
    have stored := vouched_newStore autoApprove copy effective offers (grants effective)
    rw [Mutation.run_effective effective]
    apply allVouched_left vouched stored
    simpa only [World.saved, Disk.loaded_saved] using stored

theorem coherent_looked (coherent : Coherent host s) {party : Party} {w after : World} (acts : Acts s party w)
    (looked : Looked host w after) : Coherent host (left s party after) := by
  have loaded := looked.loaded
  have sig := looked.currentSig
  have writes := looked.writes
  rw [acts.disk] at loaded sig writes
  have memory := looked.memory
  rw [acts.memory, acts.disk] at memory
  apply coherent_update
  · rw [Honest, sig, loaded]
    rcases memory with same | reread
    · rw [same]
      exact ⟨coherent.store party, (coherent.past party).trans writes⟩
    · rw [reread]
      exact ⟨fun _ => rfl, coherent.current.trans writes⟩
  · intro other _
    rw [Honest, sig, loaded]
    exact ⟨coherent.store other, (coherent.past other).trans writes⟩
  · rw [sig]
    exact coherent.current.trans writes

theorem coherent_mutated (coherent : Coherent host s) {party : Party} {w : World} (acts : Acts s party w)
    (mutation : Mutation) : Coherent host (left s party (host.run (mutation.action host autoApprove) w).2) := by
  rcases mutation.run_cases autoApprove w with same | effective
  · rw [same]
    exact coherent_looked coherent acts (.refl w)
  · rw [Mutation.run_effective effective]
    apply coherent_saved coherent party
    rw [← acts.disk]
    exact writes_finished host w.disk autoApprove mutation

/-- Where the copies are coherent, a manager that looks finds what approvals.json has. -/
theorem store_resynced (coherent : Coherent host s) {party : Party} {w : World} (acts : Acts s party w) :
    (w.resynced host).memory.store = s.disk.loaded host := by
  unfold World.resynced
  split
  next same =>
    rw [acts.memory]
    apply coherent.store
    rw [← acts.memory, ← acts.disk, same]
  next => rw [acts.disk]

end

end Vouching

end Csl.Agent
