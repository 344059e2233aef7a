import Csl.Agent.Approvals.Elsewhere
import Csl.Agent.Cli.Approvals
import Csl.Agent.Installation
import Csl.Agent.ScriptRunner.Calls
import Csl.Agent.ScriptRunner.Specs

/-! A job's expected md5 against the owner's commands.

The owner's commands run in processes of their own, each whole, between any two
calls of `submit_job`. The agent looks up the approved md5 once for the expected
md5 and once more for the launch, and hashes the script before it launches it.
-/

set_option autoImplicit false

namespace Csl.Agent
open Csl.Shared ApprovalsManager Proc Installation

namespace ExpectedMd5

inductive OwnerCommand where
  | approve (name : String)
  | reject (name : String)
  | clear (name : String)
  deriving DecidableEq, Repr

def OwnerCommand.action (host : Host) : OwnerCommand → Action Unit
  | .approve name => cmdApprovalsApprove host name
  | .reject name => cmdApprovalsReject host name
  | .clear name => cmdApprovalsClear host name

def OwnerCommand.mutation : OwnerCommand → Mutation
  | .approve name => .approve name
  | .reject name => .reject name
  | .clear name => .clear name

def OwnerCommand.after (host : Host) (command : OwnerCommand) (now : Timestamp) (disk : Disk) : Disk :=
  (host.run (command.action host) ⟨World.fresh.memory, disk, now, []⟩).2.disk

variable (host : Host)

def OwnerRuns (disk after : Disk) : Prop := ∃ command now, after = OwnerCommand.after host command now disk

/-- The agent's states: it starts, restarts, serves stage and state requests, and serves
submissions with the owner's commands in between. -/
inductive Reached (autoApprove : List String) : World → Prop where
  | installed : Reached autoApprove World.fresh
  | restarted {w : World} :
      Reached autoApprove w → Reached autoApprove (host.run (init host) w).2
  | staged {w : World} (name content md5 : String) (metaYaml : Option String) (now : Timestamp) :
      Reached autoApprove w → Reached autoApprove
        (host.run (stage host autoApprove name content md5 metaYaml) (w.atTime now)).2
  | looked {w : World} (name : String) :
      Reached autoApprove w → Reached autoApprove (host.run (getState host name) w).2
  | owner {w : World} {disk : Disk} :
      Reached autoApprove w → OwnerRuns host w.disk disk → Reached autoApprove { w with disk }
  | submitted {w final : World} (body : JobRequest) {result : Except Err JobStatusResponse}
      {all : List Op} :
      Reached autoApprove w →
      Interleaved (handle host) (Elsewhere fun _ => OwnerRuns host) (submitJob host body) [] w result
        all final →
      Reached autoApprove final

def Launches : Op → Prop
  | .popen .. | .runToEnd .. => True
  | _ => False

def NoneLaunched (past : List Op) : Prop := ∀ op ∈ past, ¬ Launches op

/-- The agent has looked at approvals.json for the submission and has not yet completed the
lookup for the launch. -/
def BetweenLookups (name : String) (past : List Op) : Prop :=
  .stat ∈ past ∧ .exists? (.scripts (metaFile name)) ∉ past ∧ NoneLaunched past

def Replaces (name expected : String) (disk after : Disk) : Prop :=
  ((disk.loaded host).scripts.get? name).bind (·.approvedMd5) = some expected ∧
    (after.loaded host).stateOf name = .approved ∧
    ((after.loaded host).scripts.get? name).bind (·.approvedMd5) ≠ some expected

/-- The owner runs a command that neither replaces the expected version between the two
lookups nor changes the md5 of the script between its hashing and the launch. -/
def OwnerSpares (name expected : String) (past : List Op) (disk after : Disk) : Prop :=
  OwnerRuns host disk after ∧
    (BetweenLookups name past → ¬ Replaces host name expected disk after) ∧
    ∀ script, .readBytes script ∈ past → NoneLaunched past →
      (after.text? host script).map host.md5 = (disk.text? host script).map host.md5

/-- A persistent job's log is not the script that was hashed. -/
def LogSpares (body : JobRequest) (expected : String) (past : List Op) : Prop :=
  body.persistent → ∀ script path, .readBytes script ∈ past → host.logPath body.jobUuid = some path →
    host.canonical path ≠ host.canonical script ∨ host.md5 "" = expected

variable {host}

/-! ## Owner commands -/

theorem after_eq (command : OwnerCommand) (now : Timestamp) (disk : Disk) :
    command.after host now disk = (host.run (command.mutation.action host [])
      ((⟨World.fresh.memory, disk, now, []⟩ : World).opened host)).2.disk := by
  cases command with
  | approve name | reject name | clear name =>
    exact congrArg World.disk (run_approvalExit _ _).1

theorem owner_cases {disk after : Disk} (runs : OwnerRuns host disk after) :
    after = disk ∨ ∃ (command : OwnerCommand) (now : Timestamp),
      let opened := (⟨World.fresh.memory, disk, now, []⟩ : World).opened host
      command.mutation.Effective host opened ∧
        after = (command.mutation.finished host [] disk).saved host
          (command.mutation.newStore [] opened) := by
  obtain ⟨command, now, rfl⟩ := runs
  rw [after_eq]
  rcases command.mutation.run_cases [] ((⟨World.fresh.memory, disk, now, []⟩ : World).opened host)
    with same | effective
  · rw [same]
    exact .inl rfl
  · rw [Mutation.run_effective effective]
    exact .inr ⟨command, now, effective, rfl⟩

theorem owner_renews {disk after : Disk} (runs : OwnerRuns host disk after) :
    disk.Renews host after := by
  rcases owner_cases runs with rfl | ⟨command, now, _, rfl⟩
  · exact ⟨le_rfl, .inl rfl⟩
  · exact renews_saved (writes_finished host disk [] command.mutation) _

/-! ## The agent's copy in every state it reaches -/

def Checks (host : Host) : Op → Prop
  | .exists? _ | .readText _ | .readBytes _ | .mkdir _ | .now | .popen .. | .runToEnd .. => True
  | .writeText path .. => host.canonical .approvals ≠ host.canonical path
  | _ => False

theorem cached_checks {op : Op} (checks : Checks host op) {w : World}
    (cached : Cached host w.disk w.memory) :
    Cached host (handle host op w).2.disk (handle host op w).2.memory := by
  cases op with
  | exists? | mkdir | now | popen | runToEnd => exact cached
  | readText path | readBytes path =>
    simp only [handle]
    split <;> exact cached
  | writeText path text newline =>
    have renews : w.disk.Renews host (w.disk.write host path (encode host newline text)) := by
      refine ⟨Nat.le_succ _, .inl ?_⟩
      rw [Disk.read_write, if_neg checks]
    exact cached_renewed cached renews
  | _ => exact absurd checks not_false

inductive LooksUp (host : Host) : {A : Type} → Action A → Prop where
  | checks {A : Type} {p : Action A} : p.Uses (Checks host) → LooksUp host p
  | getState (name : String) : LooksUp host (getState host name)
  | seq {A B : Type} {p : Action B} {next : B → Action A} :
      LooksUp host p → (∀ b, LooksUp host (next b)) → LooksUp host (p >>= next)
  | catching {A : Type} {p : Action A} {recover : Err → Action A} :
      LooksUp host p → (∀ e, LooksUp host (recover e)) → LooksUp host (MonadExcept.tryCatch p recover)

theorem along_looksUp {A : Type} {p : Action A} (shape : LooksUp host p) {past : List Op} {w : World}
    (cached : Cached host w.disk w.memory) :
    p.Along (handle host) (Elsewhere fun _ => OwnerRuns host)
      (fun _ _ final => Cached host final.disk final.memory) past w := by
  have renews : ∀ (past : List Op) (disk after : Disk), OwnerRuns host disk after →
      disk.Renews host after := fun _ _ _ runs => owner_renews runs
  have stable : Stable (Elsewhere fun _ => OwnerRuns host)
      (fun _ w => Cached host w.disk w.memory) := by
    rintro past w _ cached ⟨disk, moved, rfl⟩
    exact cached_renewed cached (owner_renews moved)
  induction shape generalizing past w with
  | checks uses => exact along_uses stable (fun _ _ _ checks => cached_checks checks) uses cached
  | getState name =>
    refine (along_read (fun store => describe store name) (learns_nothing renews) cached trivial).mono ?_
    rintro result all final ⟨_, memory, disk, rfl, cached, _⟩
    exact cached
  | seq _ _ first rest =>
    exact along_seq _ (first cached) (fun _ _ _ cached => cached) (fun b _ _ cached => rest b cached)
  | catching _ _ body recovers =>
    exact along_tryCatch _ (body cached) (fun _ _ _ cached => cached)
      (fun e _ _ cached => recovers e cached)

theorem logPath_apart {jobUuid : String} {path : Path} (located : host.logPath jobUuid = some path) :
    host.canonical .approvals ≠ host.canonical path := by
  intro same
  apply (host.logPath_suffix jobUuid).1
  rw [located]
  cases path <;> simp_all [Host.canonical]

theorem uses_openLog (jobUuid : String) : (openLog host jobUuid).Uses (Checks host) := by
  refine uses_bind (uses_perform trivial) fun _ => ?_
  cases located : host.logPath jobUuid with
  | none => trivial
  | some path => exact uses_perform (logPath_apart located)

theorem uses_writeLog {allowed : Op → Prop} (directory : allowed (.mkdir .logs)) {jobUuid : String}
    (write : ∀ path text newline, host.logPath jobUuid = some path →
      allowed (.writeText path text newline)) (result : ScriptResult) :
    (writeLog host jobUuid result).Uses allowed := by
  refine uses_bind (uses_perform directory) fun _ => ?_
  cases located : host.logPath jobUuid with
  | none => trivial
  | some path => exact uses_perform (write path _ _ located)

theorem looksUp_prepare (verb name : String) (params : Params) :
    LooksUp host (prepare host verb name params) := by
  refine .seq (.getState name) fun found => ?_
  split
  · exact .checks uses_throw
  · refine .checks (uses_bind (uses_validateParams (fun _ => trivial) (fun _ => trivial) _ _) ?_)
    refine fun _ => uses_bind (uses_findScript (fun _ => trivial) _) fun script => ?_
    refine uses_bind (uses_verifyScriptIntegrity (fun _ => trivial) _ _ _) fun _ => ?_
    exact uses_bind (uses_liftExcept _) fun command => uses_pure

theorem looksUp_submitJob (body : JobRequest) : LooksUp host (submitJob host body) := by
  have checked : LooksUp host (checkExpectedMd5 host body) := by
    unfold checkExpectedMd5
    cases body.expectedMd5 with
    | none => exact .checks uses_pure
    | some expected =>
      refine .seq (.getState _) fun found => .checks ?_
      split <;> trivial
  refine .seq checked fun _ => ?_
  split
  · refine .catching (.seq (looksUp_prepare _ _ _) fun ready => .checks ?_)
      fun e => .checks uses_throw
    refine uses_bind (uses_openLog _) fun _ => uses_bind (uses_perform trivial) fun _ => ?_
    exact uses_bind (uses_perform trivial) fun _ => uses_pure
  · refine .seq (.checks (uses_perform trivial)) fun startedAt => ?_
    refine .seq (.catching (.seq (looksUp_prepare _ _ _) fun ready => .checks (uses_perform trivial))
      fun e => .checks uses_throw) fun result => .checks ?_
    exact uses_bind (uses_writeLog trivial (fun _ _ _ located => logPath_apart located) _)
      fun _ => uses_bind (uses_perform trivial) fun _ => uses_pure

theorem cached_reached {autoApprove : List String} {w : World}
    (reached : Reached host autoApprove w) : Cached host w.disk w.memory := by
  induction reached with
  | installed => exact ⟨fun _ => rfl, le_rfl, le_rfl⟩
  | restarted _ cached =>
    rw [run_init]
    exact ⟨fun _ => rfl, cached.current, cached.current⟩
  | staged name content md5 metaYaml now _ cached =>
    rw [run_stage]
    split_ifs
    · exact cached
    · exact cached
    · exact cached_saved _ _
  | looked name _ cached =>
    rw [run_getState]
    unfold World.resynced
    split
    · exact cached
    · exact ⟨fun _ => rfl, cached.current, cached.current⟩
  | owner _ runs cached => exact cached_renewed cached (owner_renews runs)
  | submitted body _ runs cached => exact interleaved_along runs (along_looksUp (looksUp_submitJob body) cached)

/-! ## One submission -/

/-- A store in which a name is approved can only have the expected md5 for it, now and
whatever the owner does that does not replace it. -/
def Expects (name expected : String) (store : ApprovalsStore) : Prop :=
  (store.scripts.get? name).bind (·.approvedMd5) = some expected ∨
    ¬ (Waiting (store.stateOf name) ∨ store.stateOf name = .approved)

theorem expects_approved {name expected : String} {store : ApprovalsStore}
    (expects : Expects name expected store) (approved : store.stateOf name = .approved) :
    (store.scripts.get? name).bind (·.approvedMd5) = some expected := by
  rcases expects with recorded | settled
  · exact recorded
  · exact absurd (.inr approved) settled

theorem expects_congr {name expected : String} {store other : ApprovalsStore}
    (same : other.scripts.get? name = store.scripts.get? name)
    (expects : Expects name expected store) : Expects name expected other := by
  have state : other.stateOf name = store.stateOf name := by simp only [ApprovalsStore.stateOf, same]
  rwa [Expects, same, state]

theorem expects_owner {name expected : String} {disk after : Disk} (runs : OwnerRuns host disk after)
    (spares : ¬ Replaces host name expected disk after)
    (expects : Expects name expected (disk.loaded host)) :
    Expects name expected (after.loaded host) := by
  rcases owner_cases runs with rfl | ⟨command, now, effective, rfl⟩
  · exact expects
  unfold Replaces at spares
  rw [Disk.loaded_saved] at spares ⊢
  by_cases apart : name = command.mutation.name
  · cases command with
    | approve =>
      subst apart
      obtain ⟨⟨record, found, waiting⟩, _⟩ := effective
      have stored : (disk.loaded host).scripts.get? name = some record := found
      have waits : Waiting ((disk.loaded host).stateOf name) := by
        rwa [ApprovalsStore.stateOf_of_get? stored]
      rcases expects with recorded | settled
      · by_contra other
        refine spares ⟨recorded, ?_, fun same => other (.inl same)⟩
        simp [OwnerCommand.mutation, Mutation.newStore, ApprovalsStore.stateOf]
      · exact absurd (.inl waits) settled
    | reject | clear =>
      subst apart
      right
      simp [OwnerCommand.mutation, Mutation.newStore, ApprovalsStore.stateOf, Waiting]
  · refine expects_congr ?_ expects
    cases command with
    | approve other | reject other => exact Dict.get?_set_of_ne _ apart _
    | clear other => exact Dict.get?_pop_of_ne _ apart

variable {name expected : String}

theorem spares_renews (past : List Op) (disk after : Disk)
    (spares : OwnerSpares host name expected past disk after) : disk.Renews host after :=
  owner_renews spares.1

theorem noneLaunched_append {past : List Op} {op : Op} (none : NoneLaunched past)
    (keeps : ¬ Launches op) : NoneLaunched (past ++ [op]) := by
  intro other member
  rcases List.mem_append.mp member with before | last
  · exact none other before
  · rwa [List.mem_singleton.mp last]

theorem between_append {past : List Op} {op : Op} (between : BetweenLookups name past)
    (other : op ≠ .exists? (.scripts (metaFile name))) (keeps : ¬ Launches op) :
    BetweenLookups name (past ++ [op]) := by
  refine ⟨List.mem_append_left _ between.1, ?_, noneLaunched_append between.2.2 keeps⟩
  simpa [between.2.1] using other.symm

theorem between_syncs {past : List Op} {op : Op} (between : BetweenLookups name past)
    (syncs : op.Syncs) : BetweenLookups name (past ++ [op]) := by
  apply between_append between
  · rintro rfl
    exact syncs
  · cases op <;> first | exact not_false | exact syncs.elim

/-- If the lookup for the expected md5 finds it, the contents expect it from then on. -/
theorem first_lookup : Learns host (OwnerSpares host name expected)
    (fun past _ => .exists? (.scripts (metaFile name)) ∉ past ∧ NoneLaunched past)
    (fun past _ => BetweenLookups name past)
    (fun store past disk => BetweenLookups name past ∧
      ((store.scripts.get? name).bind (·.approvedMd5) = some expected →
        Expects name expected (disk.loaded host))) where
  renews := spares_renews
  stableBefore := fun _ _ _ before _ => before
  stablePre := fun _ _ _ between _ => between
  stableHolds := fun _ _ _ _ held moved =>
    ⟨held.1, fun recorded => expects_owner moved.1 (moved.2.1 held.1) (held.2 recorded)⟩
  enters := fun _ _ before =>
    ⟨by simp, by simpa using before.1, noneLaunched_append before.2 not_false⟩
  syncsPre := fun _ _ _ syncs between => between_syncs between syncs
  syncsHolds := fun _ _ _ _ syncs held =>
    ⟨between_syncs held.1 syncs, held.2⟩
  reads := fun _ _ between => ⟨between, fun recorded => .inl recorded⟩

/-- The lookup for the launch finds what the contents expect. -/
theorem second_lookup : Learns host (OwnerSpares host name expected)
    (fun past disk => BetweenLookups name past ∧ Expects name expected (disk.loaded host))
    (fun past disk => BetweenLookups name past ∧ Expects name expected (disk.loaded host))
    (fun store past disk => (BetweenLookups name past ∧ Expects name expected (disk.loaded host)) ∧
      Expects name expected store) where
  renews := spares_renews
  stableBefore := fun _ _ _ held moved =>
    ⟨held.1, expects_owner moved.1 (moved.2.1 held.1) held.2⟩
  stablePre := fun _ _ _ held moved =>
    ⟨held.1, expects_owner moved.1 (moved.2.1 held.1) held.2⟩
  stableHolds := fun _ _ _ _ held moved =>
    ⟨⟨held.1.1, expects_owner moved.1 (moved.2.1 held.1.1) held.1.2⟩, held.2⟩
  enters := fun _ _ held => ⟨between_append held.1 nofun not_false, held.2⟩
  syncsPre := fun _ _ _ syncs held => ⟨between_syncs held.1 syncs, held.2⟩
  syncsHolds := fun _ _ _ _ syncs held =>
    ⟨⟨between_syncs held.1.1 syncs, held.1.2⟩, held.2⟩
  reads := fun _ _ held => ⟨held, held.2⟩

def Hashed (host : Host) (expected : String) (script : Path) (past : List Op) (w : World) : Prop :=
  .readBytes script ∈ past ∧ NoneLaunched past ∧
    (w.disk.text? host script).map host.md5 = some expected

theorem stable_hashed (script : Path) :
    Stable (Elsewhere (OwnerSpares host name expected)) (Hashed host expected script) := by
  rintro past w _ ⟨hashed, none, content⟩ ⟨disk, moved, rfl⟩
  refine ⟨hashed, none, ?_⟩
  rwa [moved.2.2 script hashed none]

theorem stable_launched (moves : List Op → Disk → Disk → Prop) (launched : List Launch) :
    Stable (Elsewhere moves) (fun _ w => w.launched = launched) := by
  rintro past w _ held ⟨disk, _, rfl⟩
  exact held

theorem launched_handle {op : Op} (keeps : ¬ Launches op) (w : World) :
    (handle host op w).2.launched = w.launched := by
  cases op with
  | popen | runToEnd => exact absurd trivial keeps
  | readText path | readBytes path | replace source target | unlink path =>
    simp only [handle]
    split <;> rfl
  | _ => rfl

def Idle (launched : List Launch) (past : List Op) (w : World) : Prop :=
  NoneLaunched past ∧ w.launched = launched

theorem stable_idle (moves : List Op → Disk → Disk → Prop) (launched : List Launch) :
    Stable (Elsewhere moves) (Idle launched) :=
  fun past w next idle moved => ⟨idle.1, stable_launched moves launched past w next idle.2 moved⟩

theorem idle_handle {launched : List Launch} {past : List Op} {op : Op} {w : World}
    (keeps : ¬ Launches op) (idle : Idle launched past w) :
    Idle launched (past ++ [op]) (handle host op w).2 :=
  ⟨noneLaunched_append idle.1 keeps, (launched_handle keeps w).trans idle.2⟩

theorem along_quiet {A : Type} {p : Action A} (moves : List Op → Disk → Disk → Prop)
    (uses : p.Uses (¬ Launches ·)) (launched : List Launch) {past : List Op} {w : World}
    (idle : Idle launched past w) :
    p.Along (handle host) (Elsewhere moves) (fun _ all final => Idle launched all final) past w :=
  along_uses (stable_idle moves launched) (fun _ _ _ keeps idle => idle_handle keeps idle) uses idle

def Prepared (host : Host) (expected : String) (launched : List Launch)
    (result : Except Err (Command × Dict String String)) (all : List Op) (final : World) : Prop :=
  final.launched = launched ∧
    ∀ command env, result = .ok (command, env) → Hashed host expected command.script all final

theorem stable_prepared (launched : List Launch) (result : Except Err (Command × Dict String String)) :
    Stable (Elsewhere (OwnerSpares host name expected)) (Prepared host expected launched result) :=
  fun past w next held moved => ⟨stable_launched _ launched past w next held.1 moved,
    fun command env passed => stable_hashed _ past w next (held.2 command env passed) moved⟩

theorem along_verify (script : Path) (launched : List Launch) {past : List Op} {w : World}
    (idle : Idle launched past w) :
    (verifyScriptIntegrity host name script (some expected)).Along (handle host)
      (Elsewhere (OwnerSpares host name expected))
      (fun result all final => final.launched = launched ∧
        (result = .ok () → Hashed host expected script all final)) past w := by
  have ends (result : Except Err Unit) : Stable (Elsewhere (OwnerSpares host name expected))
      (fun all final => final.launched = launched ∧
        (result = .ok () → Hashed host expected script all final)) :=
    fun past w next held moved => ⟨stable_launched _ launched past w next held.1 moved,
      fun passed => stable_hashed _ past w next (held.2 passed) moved⟩
  refine along_perform _ (stable_idle _ launched) idle ?_
  intro w idle
  have none : NoneLaunched (past ++ [.readBytes script]) := noneLaunched_append idle.1 not_false
  simp only [handle]
  cases found : w.disk.read host script with
  | none =>
    simp only [Resumes]
    exact along_throw (ends _) ⟨idle.2, by simp⟩
  | some file =>
    simp only [Resumes]
    by_cases same : host.md5 file.text = expected
    · rw [if_neg (not_not.mpr same)]
      refine along_pure (ends _) ⟨idle.2, fun _ => ⟨by simp, none, ?_⟩⟩
      simp [Disk.text?, found, same]
    · rw [if_pos same]
      exact along_throw (ends _) ⟨idle.2, by simp⟩

theorem along_prepare (verb : String) (params : Params) {past : List Op} {w : World}
    (cached : Cached host w.disk w.memory) (between : BetweenLookups name past)
    (expects : Expects name expected (w.disk.loaded host)) :
    (prepare host verb name params).Along (handle host) (Elsewhere (OwnerSpares host name expected))
      (Prepared host expected w.launched) past w := by
  have stopped (e : Err) (all : List Op) (final : World) (launched : final.launched = w.launched) :
      Prepared host expected w.launched (.error e) all final := ⟨launched, nofun⟩
  refine along_seq _ (along_read (fun store => describe store name) second_lookup cached
    ⟨between, expects⟩) ?_ ?_
  · rintro e all final ⟨⟨⟩, _⟩
  rintro found all _ ⟨answer, memory, disk, rfl, _, ⟨between, _⟩, expects⟩
  have found : found = describe memory.store name := Except.ok.inj answer
  subst found
  split
  next => exact along_throw (stable_prepared _ _) (stopped _ _ _ rfl)
  next approved =>
    have recorded : (describe memory.store name).approvedMd5 = some expected := by
      rw [describe_approvedMd5]
      exact expects_approved expects (by simpa [describe_state] using approved)
    refine along_seq _ (along_quiet _ (uses_validateParams (fun _ => not_false) (fun _ => not_false)
      name params) _ ⟨between.2.2, rfl⟩) (fun e all final idle => stopped e all final idle.2) ?_
    intro _ all w idle
    refine along_seq _ (along_quiet _ (uses_findScript (fun _ => not_false) name) _ idle)
      (fun e all final idle => stopped e all final idle.2) ?_
    intro script all w idle
    rw [recorded]
    refine along_seq _ (along_verify script _ idle)
      (fun e all final ends => stopped e all final ends.1) ?_
    rintro _ all w ⟨launched, hashed⟩
    cases built : buildCommand host script with
    | error e => exact along_throw (stable_prepared _ _) (stopped _ _ _ launched)
    | ok command =>
      refine along_pure (stable_prepared _ _) ⟨launched, ?_⟩
      rintro _ _ ⟨⟩
      rw [buildCommand_script built]
      exact hashed rfl

/-- Nothing has been launched, or one process with content of the expected md5, provided that
the log spares the script. -/
def Honoured (host : Host) (body : JobRequest) (expected : String) (launched : List Launch)
    (past : List Op) (w : World) : Prop :=
  w.launched = launched ∨ ∃ launch, w.launched = launched ++ [launch] ∧
    (LogSpares host body expected past → launch.content.map host.md5 = some expected)

variable {body : JobRequest}

theorem stable_honoured (moves : List Op → Disk → Disk → Prop) (launched : List Launch) :
    Stable (Elsewhere moves) (Honoured host body expected launched) := by
  rintro past w _ held ⟨disk, _, rfl⟩
  exact held

theorem honoured_append {launched : List Launch} {past : List Op} {w w' : World} (op : Op)
    (honoured : Honoured host body expected launched past w) (same : w'.launched = w.launched) :
    Honoured host body expected launched (past ++ [op]) w' := by
  rcases honoured with none | ⟨launch, one, intact⟩
  · exact .inl (same.trans none)
  · refine .inr ⟨launch, same.trans one, fun spares => intact fun persistent script path hashed => ?_⟩
    exact spares persistent script path (List.mem_append_left _ hashed)

def Opened (host : Host) (body : JobRequest) (expected : String) (script : Path)
    (past : List Op) (w : World) : Prop :=
  .readBytes script ∈ past ∧ NoneLaunched past ∧
    (LogSpares host body expected past → (w.disk.text? host script).map host.md5 = some expected)

theorem stable_opened (script : Path) :
    Stable (Elsewhere (OwnerSpares host name expected)) (Opened host body expected script) := by
  rintro past w _ ⟨hashed, none, content⟩ ⟨disk, moved, rfl⟩
  refine ⟨hashed, none, fun spares => ?_⟩
  rw [moved.2.2 script hashed none]
  exact content spares

theorem opened_write (persistent : body.persistent) {script path : Path} {past : List Op} {w : World}
    (hashed : Hashed host expected script past w) (located : host.logPath body.jobUuid = some path) :
    Opened host body expected script (past ++ [.writeText path "" .exact])
      (handle host (.writeText path "" .exact) w).2 := by
  refine ⟨List.mem_append_left _ hashed.1, noneLaunched_append hashed.2.1 not_false, fun spares => ?_⟩
  have text := @Disk.text?_write host w.disk path script ""
  have apart := spares persistent script path (List.mem_append_left _ hashed.1) located
  change ((w.disk.write host path "").text? host script).map host.md5 = some expected
  rw [text]
  split
  next same =>
    rcases apart with differs | empty
    · exact absurd same.symm differs
    · rw [← empty]
      rfl
  · exact hashed.2.2

theorem along_openLog (persistent : body.persistent) (script : Path) (launched : List Launch)
    {past : List Op} {w : World} (before : w.launched = launched) (hashed : Hashed host expected script past w) :
    (openLog host body.jobUuid).Along (handle host) (Elsewhere (OwnerSpares host name expected))
      (fun result all final => final.launched = launched ∧
        (result = .ok () → Opened host body expected script all final)) past w := by
  have ends (result : Except Err Unit) : Stable (Elsewhere (OwnerSpares host name expected))
      (fun all final => final.launched = launched ∧
        (result = .ok () → Opened host body expected script all final)) :=
    fun past w next held moved => ⟨stable_launched _ launched past w next held.1 moved,
      fun passed => stable_opened _ past w next (held.2 passed) moved⟩
  have checked := (stable_launched (OwnerSpares host name expected) launched).and
    (@stable_hashed host name expected script)
  refine along_perform _ checked ⟨before, hashed⟩ ?_
  rintro w ⟨before, hashed⟩
  simp only [handle, Resumes]
  cases located : host.logPath body.jobUuid with
  | none => exact along_throw (ends _) ⟨before, by simp⟩
  | some path =>
    simp only
    rw [← bind_pure (writeText path "" .exact)]
    refine along_perform _ checked ⟨before, List.mem_append_left _ hashed.1,
      noneLaunched_append hashed.2.1 not_false, hashed.2.2⟩ ?_
    rintro w ⟨before, hashed⟩
    have opened := opened_write persistent hashed located
    simp only [handle, Resumes] at opened ⊢
    exact along_pure (ends _) ⟨before, fun _ => opened⟩

theorem along_start (persistent : body.persistent) (params : Params) {past : List Op} {w : World}
    (cached : Cached host w.disk w.memory) (between : BetweenLookups name past)
    (expects : Expects name expected (w.disk.loaded host)) :
    (ProcessManager.start host name params body.jobUuid).Along (handle host)
      (Elsewhere (OwnerSpares host name expected))
      (fun _ all final => Honoured host body expected w.launched all final) past w := by
  refine along_seq _ (along_prepare "start" params cached between expects)
    (fun e all final ends => .inl ends.1) ?_
  rintro ⟨command, env⟩ all final ⟨launched, hashed⟩
  refine along_seq _ (along_openLog persistent command.script _ launched (hashed command env rfl))
    (fun e all final ends => .inl ends.1) ?_
  rintro _ all final ⟨launched, opened⟩
  refine along_perform _ ((stable_launched _ w.launched).and (stable_opened command.script))
    ⟨launched, opened rfl⟩ ?_
  rintro w' ⟨launched, opened⟩
  simp only [handle, Resumes]
  refine along_perform (Honoured host body expected w.launched) (stable_honoured _ _) ?_ ?_
  · refine .inr ⟨_, congrArg (· ++ [_]) launched, fun spares => ?_⟩
    exact opened.2.2 fun persistent script path hashed =>
      spares persistent script path (List.mem_append_left _ hashed)
  · intro w'' honoured
    simp only [handle, Resumes]
    exact along_pure (stable_honoured _ _) (honoured_append _ honoured rfl)

theorem along_runScript (params : Params) {past : List Op} {w : World}
    (cached : Cached host w.disk w.memory) (between : BetweenLookups name past)
    (expects : Expects name expected (w.disk.loaded host)) :
    (runScript host name params).Along (handle host) (Elsewhere (OwnerSpares host name expected))
      (fun _ all final => Honoured host body expected w.launched all final) past w := by
  refine along_seq _ (along_prepare "run" params cached between expects)
    (fun e all final ends => .inl ends.1) ?_
  rintro ⟨command, env⟩ all final ⟨launched, hashed⟩
  simp only
  rw [← bind_pure (runToEnd name command env)]
  refine along_perform _ ((stable_launched _ w.launched).and (stable_hashed command.script))
    ⟨launched, hashed command env rfl⟩ ?_
  rintro w' ⟨launched, hashed⟩
  simp only [handle, Resumes]
  refine along_pure (stable_honoured _ _) (.inr ⟨_, congrArg (· ++ [_]) launched, ?_⟩)
  exact fun _ => hashed.2.2

structure Expecting (host : Host) (name expected : String) (launched : List Launch)
    (past : List Op) (w : World) : Prop where
  launched : w.launched = launched
  cached : Cached host w.disk w.memory
  between : BetweenLookups name past
  expects : Expects name expected (w.disk.loaded host)

theorem stable_expecting (launched : List Launch) :
    Stable (Elsewhere (OwnerSpares host name expected)) (Expecting host name expected launched) := by
  rintro past w _ held ⟨disk, moved, rfl⟩
  exact ⟨held.launched, cached_renewed held.cached (spares_renews past _ _ moved), held.between,
    expects_owner moved.1 (moved.2.1 held.between) held.expects⟩

/-- The check of the expected md5 passes only if the contents expect it. -/
theorem along_checkExpectedMd5 (wanted : body.expectedMd5 = some expected) {w : World}
    (cached : Cached host w.disk w.memory) :
    (checkExpectedMd5 host body).Along (handle host)
      (Elsewhere (OwnerSpares host body.scriptName expected))
      (fun result all final => final.launched = w.launched ∧
        (result = .ok () → Expecting host body.scriptName expected w.launched all final)) [] w := by
  have ends (result : Except Err Unit) : Stable (Elsewhere (OwnerSpares host body.scriptName expected))
      (fun all final => final.launched = w.launched ∧
        (result = .ok () → Expecting host body.scriptName expected w.launched all final)) :=
    fun past s next held moved => ⟨stable_launched _ _ past s next held.1 moved,
      fun passed => stable_expecting _ past s next (held.2 passed) moved⟩
  unfold checkExpectedMd5
  rw [wanted]
  refine along_seq _ (along_read (fun store => describe store body.scriptName) first_lookup cached
    ⟨by simp, by simp [NoneLaunched]⟩) ?_ ?_
  · rintro e all final ⟨⟨⟩, _⟩
  rintro found all _ ⟨answer, memory, disk, rfl, cached, between, learned⟩
  have found : found = describe memory.store body.scriptName := Except.ok.inj answer
  subst found
  by_cases same : (describe memory.store body.scriptName).approvedMd5 = some expected
  · rw [if_neg (not_not.mpr same)]
    rw [describe_approvedMd5] at same
    exact along_pure (ends _) ⟨rfl, fun _ => ⟨rfl, cached, between, learned same⟩⟩
  · rw [if_pos same]
    exact along_throw (ends _) ⟨rfl, nofun⟩

theorem along_submitJob (wanted : body.expectedMd5 = some expected) {w : World}
    (cached : Cached host w.disk w.memory) :
    (submitJob host body).Along (handle host)
      (Elsewhere (OwnerSpares host body.scriptName expected))
      (fun _ all final => Honoured host body expected w.launched all final) [] w := by
  refine along_seq _ (along_checkExpectedMd5 wanted cached) (fun e all final ends => .inl ends.1) ?_
  rintro _ all w' ⟨launched, passed⟩
  have held := passed rfl
  by_cases persistent : body.persistent
  · rw [if_pos persistent]
    rw [← launched]
    exact along_tryCatch _ (along_start persistent body.params held.cached held.between held.expects)
      (fun _ _ _ => id) fun e _ _ honoured => along_throw (stable_honoured _ _) honoured
  · rw [if_neg persistent]
    refine along_perform _ (stable_expecting w.launched) held ?_
    intro w'' held
    have between : BetweenLookups body.scriptName (all ++ [.now]) :=
      between_append held.between nofun not_false
    simp only [handle, Resumes]
    have runs : (runScript host body.scriptName body.params).Along (handle host)
        (Elsewhere (OwnerSpares host body.scriptName expected))
        (fun _ all final => Honoured host body expected w.launched all final) (all ++ [.now]) w'' := by
      rw [← held.launched]
      exact along_runScript body.params held.cached between held.expects
    refine along_seq (fun _ all final => Honoured host body expected w.launched all final)
      (along_tryCatch _ runs (fun _ _ _ => id)
        fun e _ _ honoured => along_throw (stable_honoured _ _) honoured) (fun _ _ _ => id) ?_
    -- what follows the run launches nothing
    intro result all final honoured
    have quiet : ∀ past op s, ¬ Launches op → Honoured host body expected w.launched past s →
        Honoured host body expected w.launched (past ++ [op]) (handle host op s).2 :=
      fun past op s keeps honoured => honoured_append op honoured (launched_handle keeps s)
    refine along_uses (stable_honoured _ _) quiet (uses_bind ?_ fun _ => ?_) honoured
    · exact uses_writeLog not_false (fun _ _ _ _ => not_false) result
    · exact uses_bind (uses_perform not_false) fun _ => uses_pure

/-- A process launched for a submission runs the md5 it expects, unless the owner replaces that
version between the two lookups or changes the script between its hashing and the launch, or the
log is the script. -/
theorem expected_md5_is_honoured (host : Host) (autoApprove : List String) {w final : World}
    (reached : Reached host autoApprove w) (body : JobRequest) (expected : String)
    (wanted : body.expectedMd5 = some expected) {result : Except Err JobStatusResponse}
    {all : List Op}
    (runs : Interleaved (handle host) (Elsewhere (OwnerSpares host body.scriptName expected))
      (submitJob host body) [] w result all final)
    (spares : LogSpares host body expected all) :
    final.launched = w.launched ∨ ∃ launch, final.launched = w.launched ++ [launch] ∧
      launch.content.map host.md5 = some expected := by
  have honoured := interleaved_along runs (along_submitJob wanted (cached_reached reached))
  rcases honoured with none | ⟨launch, one, intact⟩
  · exact .inl none
  · exact .inr ⟨launch, one, intact spares⟩

/-! ## A replacement between the lookups -/

theorem after_approve {disk : Disk} {record : ScriptRecord} (now : Timestamp)
    (found : (disk.loaded host).scripts.get? name = some record) (waiting : Waiting record.state)
    (present : (disk.text? host (.pending name)).isSome) :
    OwnerCommand.after host (.approve name) now disk =
      (disk.promoted host name).saved host ⟨(disk.loaded host).scripts.set name
        { state := .approved, approvedMd5 := record.pendingMd5, approvedAt := some now,
          approvedVia := some .cli }⟩ := by
  let opened := (⟨World.fresh.memory, disk, now, []⟩ : World).opened host
  have known : opened.record name = some record := found
  have effective : (Mutation.approve name).Effective host opened := ⟨⟨record, known, waiting⟩, present⟩
  rw [after_eq, OwnerCommand.mutation, Mutation.run_effective effective, Mutation.newStore, known]
  rfl

theorem run_stage_effective {w : World} (name content md5 : String)
    (fresh : w.memory.store.stateOf name ≠ .rejected) (new : ¬ AlreadyStaged w.memory.store name md5) :
    (host.run (stage host [] name content md5 none) w).2 =
      ({ w with disk := w.disk.staged host name content none } : World).saved host
        ⟨w.memory.store.scripts.set name (stagedRecord false (w.record name) md5 w.now)⟩ := by
  rw [run_stage, if_neg fresh, if_neg new]
  rfl

structure Plain (disk : Disk) (script pending : Option String) : Prop where
  script : disk.text? linux (.scripts "deploy") = script
  pending : disk.text? linux (.pending "deploy") = pending
  bare : ∀ ending, ending ≠ "" → disk.text? linux (.scripts ("deploy" ++ ending)) = none
  bareMeta : disk.text? linux (.pending (metaFile "deploy")) = none

section
variable {disk : Disk} {script pending : Option String}

theorem plain_empty : Plain .empty none none := ⟨rfl, rfl, fun _ _ => rfl, rfl⟩

theorem plain_saved (plain : Plain disk script pending) (store : ApprovalsStore) :
    Plain (disk.saved linux store) script pending := by
  constructor
  · rw [Disk.text?_saved_scripts, plain.script]
  · rw [Disk.text?_saved_pending, plain.pending]
  · intro ending proper
    rw [Disk.text?_saved_scripts, plain.bare ending proper]
  · rw [Disk.text?_saved_pending, plain.bareMeta]

theorem plain_staged (plain : Plain disk script pending) (content : String) :
    Plain (disk.staged linux "deploy" content none) script (some content) := by
  constructor
  · rw [Disk.text?_staged_scripts, plain.script]
  · rw [Disk.text?_staged, if_pos rfl]
  · intro ending proper
    rw [Disk.text?_staged_scripts, plain.bare ending proper]
  · simp [Disk.text?_staged, plain.bareMeta]

theorem plain_promoted (plain : Plain disk script pending) :
    Plain (disk.promoted linux "deploy") pending none := by
  have apart : ∀ ending, ending ≠ "" → "deploy" ++ ending ≠ "deploy" := by
    intro ending proper same
    exact proper (by simpa using same)
  constructor
  · simp [Disk.text?_promoted, plain.pending]
  · simp [Disk.text?_promoted]
  · intro ending proper
    have named : ¬ linux.SameFile ("deploy" ++ ending) "deploy" := apart ending proper
    simp [Disk.text?_promoted, named, plain.bare ending proper, plain.bareMeta]
  · simp [Disk.text?_promoted]

end

def updateStore : ApprovalsStore :=
  ⟨Dict.empty.set "deploy" { state := .updatePending, approvedMd5 := some md5One,
                             approvedAt := some "1", approvedVia := some .cli,
                             pendingMd5 := some md5Two }⟩

theorem approved_reached :
    ∃ w, Reached linux [] w ∧ w.Synced linux ∧ w.memory.store = approvedStore ∧ w.launched = [] ∧
      Plain w.disk (some scriptOne) none := by
  let first : World := ({ World.fresh.atTime "0" with
    disk := Disk.empty.staged linux "deploy" scriptOne none } : World).saved linux waitingStore
  have staged : Reached linux [] first := by
    have served : Reached linux [] (linux.run (stage linux [] "deploy" scriptOne md5One none)
      (World.fresh.atTime "0")).2 := .staged "deploy" scriptOne md5One none "0" .installed
    rwa [run_stage_effective "deploy" scriptOne md5One (by decide) (by decide)] at served
  have loaded : first.disk.loaded linux = waitingStore := Disk.loaded_saved _
  have plain : Plain first.disk none (some scriptOne) :=
    plain_saved (plain_staged plain_empty scriptOne) _
  have record : (first.disk.loaded linux).scripts.get? "deploy" =
      some { state := .pending, pendingMd5 := some md5One } := by
    rw [loaded]
    rfl
  have after := after_approve "1" record (.inl rfl) (by rw [plain.pending]; rfl)
  have store : (⟨waitingStore.scripts.set "deploy"
      { state := .approved, approvedMd5 := some md5One, approvedAt := some "1",
        approvedVia := some .cli }⟩ : ApprovalsStore) = approvedStore := rfl
  rw [loaded, store] at after
  generalize approved : (first.disk.promoted linux "deploy").saved linux approvedStore = disk at after
  have owned : Reached linux [] { first with disk } :=
    .owner staged ⟨.approve "deploy", "1", after.symm⟩
  have restarted := Reached.restarted owned
  rw [run_init_opened] at restarted
  refine ⟨_, restarted, opened_synced _, ?_, rfl, ?_⟩
  · rw [World.opened, ← approved, Disk.loaded_saved]
  · rw [World.opened, ← approved]
    exact plain_saved (plain_promoted plain) _

theorem update_reached :
    ∃ w, Reached linux [] w ∧ w.Synced linux ∧ w.memory.store = updateStore ∧ w.launched = [] ∧
      Plain w.disk (some scriptOne) (some scriptTwo) := by
  obtain ⟨w, reached, _, store, launched, plain⟩ := approved_reached
  have served := Reached.staged "deploy" scriptTwo md5Two none "2" reached
  have held : (w.atTime "2").memory.store = approvedStore := store
  have record : (w.atTime "2").record "deploy" = approvedStore.scripts.get? "deploy" := by
    rw [World.record, held]
  rw [run_stage_effective "deploy" scriptTwo md5Two (by rw [held]; decide) (by rw [held]; decide),
    record, held] at served
  exact ⟨_, served, World.saved_synced _, rfl, launched, plain_saved (plain_staged plain scriptTwo) _⟩

def once (expectedMd5 : Option String) : JobRequest :=
  ⟨"job-1", "deploy", Dict.empty, false, expectedMd5⟩

theorem synced_of_cached {w : World} (cached : Cached host w.disk w.memory) :
    (w.resynced host).memory.store = w.disk.loaded host := by
  unfold World.resynced
  split
  next same => exact cached.store same.symm
  · rfl

theorem interleaved_once {others : List Op → World → World → Prop} {w between : World} {md5 : String}
    (synced : w.Synced linux)
    (matched : (w.memory.store.scripts.get? "deploy").bind (·.approvedMd5) = some md5)
    (moved : ∀ past, between = w ∨ others past w between) :
    ∃ all, Interleaved (handle linux) others (submitJob linux (once (some md5))) [] w
      (linux.run (submitJob linux (once none)) between).1 all
      (linux.run (submitJob linux (once none)) between).2 := by
  have checked : linux.run (checkExpectedMd5 linux (once (some md5))) w = (.ok (), w) := by
    simp only [checkExpectedMd5, once, Proc.run_bind, run_getState, synced.resynced_eq, Proc.follow_ok,
      describe_approvedMd5, matched, ne_eq, not_true_eq_false, if_false]
    rfl
  obtain ⟨mid, checks⟩ : ∃ mid, Interleaved (handle linux) others
      (checkExpectedMd5 linux (once (some md5))) [] w (.ok ()) mid w := by
    have runs := @interleaved_run _ _ _ _ _ (handle linux) others
      (checkExpectedMd5 linux (once (some md5))) [] w
    simp only [checked] at runs
    exact runs
  obtain ⟨all, rest⟩ := @interleaved_run _ _ _ _ _ (handle linux) others
    (submitJob linux (once none)) mid between
  refine ⟨all, checks.bind ?_⟩
  rcases moved mid with rfl | moved
  · exact rest
  · exact .other moved rest

theorem launched_once {w : World} {content : String} {pending : Option String}
    (cached : Cached linux w.disk w.memory) (approved : (w.disk.loaded linux).stateOf "deploy" = .approved)
    (recorded : ((w.disk.loaded linux).scripts.get? "deploy").bind (·.approvedMd5) =
      some (digest content)) (plain : Plain w.disk (some content) pending) :
    (linux.run (submitJob linux (once none)) w).2.launched = w.launched ++
      [⟨"deploy", ⟨["bash"], .scripts "deploy"⟩, linux.environ, some content⟩] := by
  have disk : (w.resynced linux).disk = w.disk := by
    unfold World.resynced
    split <;> rfl
  have launched : (w.resynced linux).launched = w.launched := by
    unfold World.resynced
    split <;> rfl
  have prepared : w.disk.prepared linux "run" "deploy" Dict.empty
      (describe (w.disk.loaded linux) "deploy") = .ok (⟨["bash"], .scripts "deploy"⟩, linux.environ) := by
    refine prepared_plain "run" ?_ ?_ (foundScript_plain ?_ ?_) plain.script ?_
    · rw [describe_state, approved]
    · exact plain.bare ".meta.yaml" (by decide)
    · exact fun ending _ proper => plain.bare ending proper
    · rw [plain.script]
      rfl
    · rw [describe_approvedMd5, recorded]
      rfl
  have ran : linux.run (runScript linux "deploy" Dict.empty) w =
      (.ok (linux.processResult w.launched.length),
        (w.resynced linux).launch linux "deploy" ⟨["bash"], .scripts "deploy"⟩ linux.environ) := by
    rw [run_runScript, synced_of_cached cached, disk, prepared, launched]
  have logged : linux.logPath "job-1" = some (.log "job-1.log") := by decide
  simp only [submitJob, once, checkExpectedMd5, Proc.run_bind, Proc.run_pure, Proc.follow_ok,
    Bool.false_eq_true, if_false, run_utcNow, Proc.run_tryCatch, ran, Proc.recoverWith_ok,
    writeLog, logged, run_mkdir, run_writeText]
  rw [World.launch, disk, launched]
  have text : (w.disk.read linux (.scripts "deploy")).map (·.text) = some content := plain.script
  rw [text]

theorem expected_md5_is_honoured_once :
    ∃ (w final : World) (result : Except Err JobStatusResponse) (all : List Op) (launch : Launch),
      Interleaved (handle linux) (Elsewhere (OwnerSpares linux "deploy" md5One))
        (submitJob linux (once (some md5One))) [] w result all final ∧
      final.launched = w.launched ++ [launch] ∧ launch.content.map linux.md5 = some md5One := by
  obtain ⟨w, reached, synced, store, _, plain⟩ := approved_reached
  have loaded : w.disk.loaded linux = approvedStore := synced.store.symm.trans store
  have launched := launched_once (cached_reached reached) (by rw [loaded]; decide) (by rw [loaded]; rfl)
    plain
  obtain ⟨all, runs⟩ := @interleaved_once (Elsewhere (OwnerSpares linux "deploy" md5One)) w w md5One
    synced (by rw [store]; rfl) fun _ => .inl rfl
  rcases expected_md5_is_honoured linux [] reached (once (some md5One)) md5One rfl runs nofun
    with none | honoured
  · rw [launched] at none
    simp at none
  · obtain ⟨launch, honoured⟩ := honoured
    exact ⟨w, _, _, all, launch, runs, honoured⟩

/-- The owner approves an update after the check of the expected md5: the update runs. -/
theorem replaced_version_runs :
    ∃ (w final : World) (result : Except Err JobStatusResponse) (all : List Op) (launch : Launch),
      Reached linux [] w ∧
      Interleaved (handle linux) (Elsewhere fun _ => OwnerRuns linux)
        (submitJob linux (once (some md5One))) [] w result all final ∧
      final.launched = w.launched ++ [launch] ∧ launch.content.map linux.md5 ≠ some md5One := by
  obtain ⟨w, reached, synced, store, _, plain⟩ := update_reached
  have loaded : w.disk.loaded linux = updateStore := synced.store.symm.trans store
  have after := @after_approve linux "deploy" w.disk
    { state := .updatePending, approvedMd5 := some md5One, approvedAt := some "1",
      approvedVia := some .cli, pendingMd5 := some md5Two }
    "3" (by rw [loaded]; rfl) (.inr rfl) (by rw [plain.pending]; rfl)
  generalize approved : OwnerCommand.after linux (.approve "deploy") "3" w.disk = disk at after
  have owned : OwnerRuns linux w.disk disk := ⟨.approve "deploy", "3", approved.symm⟩
  have replaced : ((disk.loaded linux).scripts.get? "deploy").bind (·.approvedMd5) = some md5Two := by
    rw [after, Disk.loaded_saved, loaded]
    rfl
  obtain ⟨all, runs⟩ := @interleaved_once (Elsewhere fun _ => OwnerRuns linux) w { w with disk } md5One
    synced (by rw [store]; rfl) fun _ => .inr ⟨disk, owned, rfl⟩
  have cached : Cached linux disk w.memory := cached_renewed (cached_reached reached) (owner_renews owned)
  have promoted : Plain disk (some scriptTwo) none := by
    rw [after]
    exact plain_saved (plain_promoted plain) _
  have current : (disk.loaded linux).stateOf "deploy" = .approved := by
    rw [after, Disk.loaded_saved, loaded]
    rfl
  have launched := @launched_once { w with disk } scriptTwo none cached current replaced promoted
  exact ⟨w, _, _, all, _, reached, runs, launched, by decide⟩

end ExpectedMd5

end Csl.Agent
