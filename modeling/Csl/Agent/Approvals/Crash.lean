import Csl.Agent.Jobs.Launches

/-! Approval operations interrupted by a crash.

A crash stops an operation just before one of its file-system effects; the agent
then restarts from the files. Until the rename that ends a save the restarted
agent has the records of before the operation, so nothing unapproved can run, and
issuing the operation again completes it. Approve is the exception once it has
moved the pending file: what it would move again is gone.
-/

set_option autoImplicit false

namespace Csl.Agent
open Csl.Shared ApprovalsManager Runs Installation

namespace Crash
variable (host : Host)

/-- The states in which a crash can stop agent code. -/
abbrev StopsAt {A : Type} (p : Action A) (w stop : World) : Prop :=
  Proc.StopsAt (handle host) Op.Effect p w stop

def restart (stop : World) : World := (host.run (init host) stop).2

variable {host} {w stop : World}

/-! ## Where each method can stop -/

theorem stopsAt_bind {A B : Type} {p : Action A} {next : A → Action B} :
    StopsAt host (p >>= next) w stop ↔
      StopsAt host p w stop ∨
        ∃ a after, host.run p w = (.ok a, after) ∧ StopsAt host (next a) after stop :=
  Proc.stopsAt_bind

theorem stopsAt_pure {A : Type} {a : A} : ¬ StopsAt host (pure a) w stop := Proc.stopsAt_done

theorem stopsAt_throw {A : Type} {e : Err} : ¬ StopsAt host (throw e : Action A) w stop :=
  Proc.stopsAt_raised

theorem stopsAt_perform {op : Op} : StopsAt host (perform op) w stop ↔ op.Effect ∧ stop = w :=
  Proc.stopsAt_perform

theorem stopsAt_onlyIf {condition : Prop} [Decidable condition] {action : Action Unit} :
    StopsAt host (onlyIf condition action) w stop ↔ condition ∧ StopsAt host action w stop := by
  unfold onlyIf
  split
  next holds => simp [holds]
  next fails => simp [fails, stopsAt_pure]

theorem stopsAt_then {A B : Type} {p : Action A} {next : A → Action B} {a : A} {after : World}
    (ran : host.run p w = (.ok a, after)) :
    StopsAt host (p >>= next) w stop ↔ StopsAt host p w stop ∨ StopsAt host (next a) after stop := by
  rw [stopsAt_bind, ran]
  constructor
  · rintro (first | ⟨a', after', same, rest⟩)
    · exact .inl first
    · cases same
      exact .inr rest
  · rintro (first | rest)
    · exact .inl first
    · exact .inr ⟨a, after, rfl, rest⟩

theorem stopsAt_quiet {B : Type} {op : Op} {next : Reply op → Action B} {reply : Reply op}
    {after : World} (quiet : ¬ op.Effect) (ran : host.run (perform op) w = (.ok reply, after)) :
    StopsAt host (perform op >>= next) w stop ↔ StopsAt host (next reply) after stop := by
  rw [stopsAt_then ran, stopsAt_perform]
  simp [quiet]

theorem stopsAt_effect {B : Type} {op : Op} {next : Reply op → Action B} {reply : Reply op}
    {after : World} (effect : op.Effect) (ran : host.run (perform op) w = (.ok reply, after)) :
    StopsAt host (perform op >>= next) w stop ↔ stop = w ∨ StopsAt host (next reply) after stop := by
  rw [stopsAt_then ran, stopsAt_perform]
  simp [effect]

section
variable {B : Type}

theorem stopsAt_getStore {next : ApprovalsStore → Action B} :
    StopsAt host (getStore >>= next) w stop ↔ StopsAt host (next w.memory.store) w stop :=
  stopsAt_quiet id (run_getStore w)

theorem stopsAt_setStore {store : ApprovalsStore} {next : Unit → Action B} :
    StopsAt host (setStore store >>= next) w stop ↔
      StopsAt host (next ()) { w with memory := { w.memory with store } } stop :=
  stopsAt_quiet id (run_setStore w store)

theorem stopsAt_utcNow {next : Timestamp → Action B} :
    StopsAt host (utcNow >>= next) w stop ↔ StopsAt host (next w.now) w stop :=
  stopsAt_quiet id (run_utcNow w)

theorem stopsAt_pathExists {path : Path} {next : Bool → Action B} :
    StopsAt host (pathExists path >>= next) w stop ↔
      StopsAt host (next (w.disk.read host path).isSome) w stop :=
  stopsAt_quiet id (run_pathExists w path)

theorem stopsAt_mkdir {dir : Dir} {next : Unit → Action B} :
    StopsAt host (mkdir dir >>= next) w stop ↔ stop = w ∨ StopsAt host (next ()) w stop :=
  stopsAt_effect trivial (run_mkdir w dir)

theorem stopsAt_writeText {path : Path} {text : String} {newline : Newline}
    {next : Unit → Action B} :
    StopsAt host (writeText path text newline >>= next) w stop ↔ stop = w ∨
      StopsAt host (next ()) { w with disk := w.disk.write host path (encode host newline text) } stop :=
  stopsAt_effect trivial (run_writeText w path text newline)

theorem stopsAt_replace {source target : Path} {next : Unit → Action B}
    (present : (w.disk.read host source).isSome) :
    StopsAt host (replace source target >>= next) w stop ↔ stop = w ∨
      StopsAt host (next ()) { w with disk := w.disk.rename host source target } stop :=
  stopsAt_effect trivial ((run_replace w source target).trans (if_pos present))

end

theorem stopsAt_writeText_last {path : Path} {text : String} {newline : Newline} :
    StopsAt host (writeText path text newline) w stop ↔ stop = w :=
  stopsAt_perform.trans (and_iff_right trivial)

theorem stopsAt_moveIfPresent {source target : Path}
    (stops : StopsAt host (moveIfPresent source target) w stop) : stop = w := by
  unfold moveIfPresent at stops
  rw [stopsAt_pathExists, stopsAt_onlyIf] at stops
  exact (stopsAt_perform.mp stops.2).2

theorem stopsAt_unlinkIfPresent {path : Path}
    (stops : StopsAt host (unlinkIfPresent path) w stop) : stop = w := by
  unfold unlinkIfPresent at stops
  rw [stopsAt_pathExists, stopsAt_onlyIf] at stops
  exact (stopsAt_perform.mp stops.2).2

/-- The world with the store dumped into the temporary file and not yet renamed. -/
def tmpWritten (host : Host) (w : World) : World :=
  let text := encode host .platform (host.codec.dump w.memory.store)
  { w with disk := w.disk.write host .approvalsTmp text }

theorem stopsAt_save (stops : StopsAt host (save host) w stop) :
    stop = w ∨ stop = tmpWritten host w := by
  unfold save at stops
  rw [stopsAt_mkdir, stopsAt_getStore, stopsAt_writeText, stopsAt_replace (by simp [Disk.read_write])]
    at stops
  rcases stops with rfl | rfl | rfl | rest
  · exact .inl rfl
  · exact .inl rfl
  · exact .inr rfl
  · exact absurd ((stopsAt_quiet id (run_stat _)).mp rest) (stopsAt_perform.not.mpr (fun h => h.1))

theorem stopsAt_promote {name : String} (present : (w.disk.read host (.pending name)).isSome)
    (stops : StopsAt host (promote name) w stop) :
    stop = w ∨ stop = { w with disk := w.disk.rename host (.pending name) (.scripts name) } := by
  unfold promote at stops
  rw [stopsAt_mkdir, stopsAt_replace present] at stops
  rcases stops with rfl | rfl | rest
  · exact .inl rfl
  · exact .inl rfl
  · exact .inr (stopsAt_moveIfPresent rest)

theorem stopsAt_writePending {name content : String} {metaYaml : Option String}
    (stops : StopsAt host (writePending name content metaYaml) w stop) :
    stop = w ∨ stop = { w with disk := w.disk.write host (.pending name) content } := by
  unfold writePending at stops
  rw [stopsAt_mkdir, stopsAt_writeText] at stops
  rcases stops with rfl | rfl | rest
  · exact .inl rfl
  · exact .inl rfl
  · cases metaYaml with
    | none => exact absurd rest stopsAt_pure
    | some text => exact .inr (stopsAt_writeText_last.mp rest)

theorem stopsAt_removeFiles {name : String} (stops : StopsAt host (removeFiles name) w stop) :
    let one := w.disk.unlink host (.scripts name)
    let two := one.unlink host (.scripts (metaFile name))
    stop = w ∨ stop = { w with disk := one } ∨ stop = { w with disk := two } ∨
      stop = { w with disk := two.unlink host (.pending name) } := by
  unfold removeFiles at stops
  rw [stopsAt_then (run_unlinkIfPresent _ _), stopsAt_then (run_unlinkIfPresent _ _),
    stopsAt_then (run_unlinkIfPresent _ _)] at stops
  rcases stops with first | second | third | fourth
  · exact .inl (stopsAt_unlinkIfPresent first)
  · exact .inr (.inl (stopsAt_unlinkIfPresent second))
  · exact .inr (.inr (.inl (stopsAt_unlinkIfPresent third)))
  · exact .inr (.inr (.inr (stopsAt_unlinkIfPresent fourth)))

theorem stopsAt_requireRecord {name : String} {B : Type}
    {next : ApprovalsStore × ScriptRecord → Action B}
    (stops : StopsAt host (requireRecord name >>= next) w stop) :
    ∃ record, w.record name = some record ∧
      StopsAt host (next (w.memory.store, record)) w stop := by
  have quiet : ¬ StopsAt host (requireRecord name) w stop := by
    unfold requireRecord
    rw [stopsAt_getStore]
    split
    · exact stopsAt_throw
    · exact stopsAt_pure
  rw [stopsAt_bind, run_requireRecord] at stops
  rcases stops with first | ⟨_, _, ran, rest⟩
  · exact absurd first quiet
  · split at ran
    · cases ran
    next record found =>
      cases ran
      exact ⟨record, found, rest⟩

theorem stopsAt_requirePending {verb name : String} {state : ApprovalState} {B : Type}
    {next : Unit → Action B}
    (stops : StopsAt host (requirePending verb name state >>= next) w stop) :
    Waiting state ∧ StopsAt host (next ()) w stop := by
  rw [stopsAt_bind, run_requirePending] at stops
  have quiet : ¬ StopsAt host (requirePending verb name state) w stop := by
    unfold requirePending
    split
    · exact stopsAt_pure
    · exact stopsAt_throw
  rcases stops with first | ⟨_, _, ran, rest⟩
  · exact absurd first quiet
  · split at ran
    next waiting =>
      cases ran
      exact ⟨waiting, rest⟩
    · cases ran

/-! ## What a crash leaves -/

def Removes : Mutation → Prop
  | .reject _ | .clear _ => True
  | _ => False

/-- The files as a crash can leave them while a mutation was at work on them. -/
inductive Left (host : Host) (autoApprove : List String) (disk : Disk) : Mutation → Disk → Prop where
  | untouched {mutation : Mutation} : Left host autoApprove disk mutation disk
  | written {name content md5 : String} {metaYaml : Option String} :
      Left host autoApprove disk (.stage name content md5 metaYaml)
        (disk.write host (.pending name) content)
  | staged {name content md5 : String} {metaYaml : Option String} :
      Left host autoApprove disk (.stage name content md5 metaYaml)
        (disk.staged host name content metaYaml)
  | stagedMoved {name content md5 : String} {metaYaml : Option String} : name ∈ autoApprove →
      Left host autoApprove disk (.stage name content md5 metaYaml)
        ((disk.staged host name content metaYaml).rename host (.pending name) (.scripts name))
  | stagedPromoted {name content md5 : String} {metaYaml : Option String} : name ∈ autoApprove →
      Left host autoApprove disk (.stage name content md5 metaYaml)
        ((disk.staged host name content metaYaml).promoted host name)
  | moved {name : String} : Left host autoApprove disk (.approve name)
      (disk.rename host (.pending name) (.scripts name))
  | promoted {name : String} : Left host autoApprove disk (.approve name) (disk.promoted host name)
  | removedOne {mutation : Mutation} : Removes mutation →
      Left host autoApprove disk mutation (disk.unlink host (.scripts mutation.name))
  | removedTwo {mutation : Mutation} : Removes mutation →
      Left host autoApprove disk mutation ((disk.unlink host (.scripts mutation.name)).unlink host
        (.scripts (metaFile mutation.name)))
  | removedThree {mutation : Mutation} : Removes mutation →
      Left host autoApprove disk mutation (((disk.unlink host (.scripts mutation.name)).unlink host
        (.scripts (metaFile mutation.name))).unlink host (.pending mutation.name))
  | removed {mutation : Mutation} : Removes mutation →
      Left host autoApprove disk mutation (disk.removed host mutation.name)

/-- Two disks hold the same texts, approvals.json and its temporary file aside. -/
def SameTexts (host : Host) (first second : Disk) : Prop :=
  ∀ path, path ≠ .approvals → path ≠ .approvalsTmp → first.text? host path = second.text? host path

variable {autoApprove : List String} {mutation : Mutation} {disk left : Disk}

theorem finished_congr {first second : Disk} (same : SameTexts host first second) :
    SameTexts host (Mutation.finished host autoApprove mutation first)
      (Mutation.finished host autoApprove mutation second) := by
  intro path notStore notTmp
  have here := same path notStore notTmp
  have pending : ∀ file, first.text? host (.pending file) = second.text? host (.pending file) :=
    fun file => same _ nofun nofun
  cases mutation with
  | stage name content md5 metaYaml =>
    by_cases auto : name ∈ autoApprove
    · simp [Mutation.finished, auto, Disk.text?_promoted, Disk.text?_staged, here, pending]
    · simp [Mutation.finished, auto, Disk.text?_staged, here]
  | approve name => simp [Mutation.finished, Disk.text?_promoted, here, pending]
  | reject name | clear name => simp [Mutation.finished, Disk.text?_removed, here]

theorem finished_removes (removes : Removes mutation) :
    Mutation.finished host autoApprove mutation disk = disk.removed host mutation.name := by
  cases mutation with
  | stage | approve => cases removes
  | reject name | clear name => rfl

/-- Finishing a mutation from where a crash left it gives what it would have given. For an
approve this needs the pending file, which the first move takes away. -/
theorem finished_left (leaves : Left host autoApprove disk mutation left)
    (pending : ∀ name, mutation = .approve name → (left.text? host (.pending name)).isSome) :
    SameTexts host (Mutation.finished host autoApprove mutation left)
      (Mutation.finished host autoApprove mutation disk) := by
  intro path notStore notTmp
  cases leaves with
  | untouched => rfl
  | @written name content _ metaYaml =>
    by_cases auto : name ∈ autoApprove
    · simp only [Mutation.finished, if_pos auto, Disk.text?_promoted, Disk.text?_staged, Disk.text?_write,
        Host.canonical_pending_eq]
      split_ifs <;> simp_all
    · simp only [Mutation.finished, if_neg auto, Disk.text?_staged, Disk.text?_write]
      split_ifs <;> simp_all
  | @staged name content _ metaYaml =>
    by_cases auto : name ∈ autoApprove
    · simp only [Mutation.finished, if_pos auto, Disk.text?_promoted, Disk.text?_staged,
        Host.canonical_pending_eq]
      split_ifs <;> simp_all [← Option.or_assoc]
    · simp only [Mutation.finished, if_neg auto, Disk.text?_staged]
      split_ifs <;> simp_all [← Option.or_assoc]
  | @stagedMoved name content _ metaYaml auto =>
    simp only [Mutation.finished, if_pos auto, Disk.text?_promoted, Disk.text?_staged, Disk.text?_rename,
        Host.canonical_pending_eq]
    split_ifs <;> simp_all [← Option.or_assoc]
  | @stagedPromoted name content _ metaYaml auto =>
    simp only [Mutation.finished, if_pos auto, Disk.text?_promoted, Disk.text?_staged,
        Host.canonical_pending_eq]
    split_ifs <;> simp_all [← Option.or_assoc]
  | @moved name =>
    -- the pending file has been moved away
    have present := pending name rfl
    simp [Disk.text?_rename] at present
  | @promoted name =>
    have present := pending name rfl
    simp [Disk.text?_promoted] at present
  | removedOne removes | removedTwo removes | removedThree removes | removed removes =>
    rw [finished_removes removes, finished_removes removes]
    simp only [Disk.text?_removed, Disk.text?_unlink]
    split_ifs <;> simp_all

/-- A crash left these files, with the temporary file of a save possibly written beside them. -/
structure Crashed (host : Host) (autoApprove : List String) (w : World) (mutation : Mutation)
    (left : Disk) (stop : World) : Prop where
  effective : Mutation.Effective host w mutation
  files : Left host autoApprove w.disk mutation left
  disk : stop.disk = left ∨ ∃ text, stop.disk = left.write host .approvalsTmp text
  launched : stop.launched = w.launched

theorem crashed_of_save {w' : World} (stops : StopsAt host (save host) w' stop)
    (effective : Mutation.Effective host w mutation) (files : Left host autoApprove w.disk mutation w'.disk)
    (launched : w'.launched = w.launched) :
    ∃ left, Crashed host autoApprove w mutation left stop := by
  rcases stopsAt_save stops with rfl | rfl
  · exact ⟨_, effective, files, .inl rfl, launched⟩
  · exact ⟨_, effective, files, .inr ⟨_, rfl⟩, launched⟩

theorem crashed_stage {name content md5 : String} {metaYaml : Option String}
    (stops : StopsAt host (stage host autoApprove name content md5 metaYaml) w stop) :
    ∃ left, Crashed host autoApprove w (.stage name content md5 metaYaml) left stop := by
  have written : ((w.disk.staged host name content metaYaml).read host (.pending name)).isSome := by
    rw [← Disk.isSome_text?]
    simp [Disk.text?_staged]
  unfold stage at stops
  rw [stopsAt_getStore] at stops
  dsimp only at stops
  -- a stage that is refused or changes nothing has no stopping points
  by_cases rejected : w.memory.store.stateOf name = .rejected
  · rw [if_pos rejected] at stops
    exact absurd stops stopsAt_throw
  rw [if_neg rejected] at stops
  split at stops
  · exact absurd stops stopsAt_pure
  next notApproved =>
  split at stops
  · exact absurd stops stopsAt_pure
  next notPending =>
  have effective : Mutation.Effective host w (.stage name content md5 metaYaml) :=
    ⟨rejected, not_or.mpr ⟨notApproved, notPending⟩⟩
  rw [stopsAt_then (run_writePending _ _ _ _), stopsAt_utcNow] at stops
  -- it stops while the version is written, or behind that
  rcases stops with writing | stops
  · rcases stopsAt_writePending writing with rfl | rfl
    · exact ⟨_, effective, .untouched, .inl rfl, rfl⟩
    · exact ⟨_, effective, .written, .inl rfl, rfl⟩
  by_cases auto : name ∈ autoApprove
  · have promotes : host.run (onlyIf (decide (name ∈ autoApprove) = true) (promote name))
        { w with disk := w.disk.staged host name content metaYaml } =
          (.ok (), { w with disk := (w.disk.staged host name content metaYaml).promoted host name }) := by
      rw [run_onlyIf, if_pos (decide_eq_true auto), run_promote name _ written]
    rw [stopsAt_then promotes, stopsAt_onlyIf, stopsAt_setStore, stopsAt_bind] at stops
    rcases stops with ⟨_, moving⟩ | saving | ⟨_, _, _, rest⟩
    · rcases stopsAt_promote written moving with rfl | rfl
      · exact ⟨_, effective, .staged, .inl rfl, rfl⟩
      · exact ⟨_, effective, .stagedMoved auto, .inl rfl, rfl⟩
    · exact crashed_of_save saving effective (.stagedPromoted auto) rfl
    · exact absurd rest stopsAt_pure
  · have skips : host.run (onlyIf (decide (name ∈ autoApprove) = true) (promote name))
        { w with disk := w.disk.staged host name content metaYaml } =
          (.ok (), { w with disk := w.disk.staged host name content metaYaml }) := by
      rw [run_onlyIf, if_neg (by simpa using auto)]
    rw [stopsAt_then skips, stopsAt_onlyIf, stopsAt_setStore, stopsAt_bind] at stops
    rcases stops with ⟨listed, _⟩ | saving | ⟨_, _, _, rest⟩
    · exact absurd (of_decide_eq_true listed) auto
    · exact crashed_of_save saving effective .staged rfl
    · exact absurd rest stopsAt_pure

theorem crashed_approve {name : String} (stops : StopsAt host (approve host name) w stop) :
    ∃ left, Crashed host autoApprove w (.approve name) left stop := by
  unfold approve at stops
  obtain ⟨record, found, stops⟩ := stopsAt_requireRecord stops
  obtain ⟨waiting, stops⟩ := stopsAt_requirePending stops
  rw [stopsAt_pathExists] at stops
  cases present : (w.disk.read host (.pending name)).isSome with
  | false =>
    rw [present] at stops
    exact absurd stops stopsAt_throw
  | true =>
    have effective : Mutation.Effective host w (.approve name) :=
      ⟨⟨record, found, waiting⟩, (Disk.isSome_text? _).trans present⟩
    simp only [present, Bool.not_true, Bool.false_eq_true, if_false] at stops
    rw [stopsAt_then (run_promote name w present), stopsAt_utcNow, stopsAt_setStore] at stops
    rcases stops with moving | saving
    · rcases stopsAt_promote present moving with rfl | rfl
      · exact ⟨_, effective, .untouched, .inl rfl, rfl⟩
      · exact ⟨_, effective, .moved, .inl rfl, rfl⟩
    · exact crashed_of_save saving effective .promoted rfl

theorem crashed_removing (mutation : Mutation) (removes : Removes mutation) (effective : Mutation.Effective host w mutation)
    (stops : StopsAt host (removeFiles mutation.name) w stop) :
    ∃ left, Crashed host autoApprove w mutation left stop := by
  rcases stopsAt_removeFiles stops with rfl | rfl | rfl | rfl
  · exact ⟨_, effective, .untouched, .inl rfl, rfl⟩
  · exact ⟨_, effective, .removedOne removes, .inl rfl, rfl⟩
  · exact ⟨_, effective, .removedTwo removes, .inl rfl, rfl⟩
  · exact ⟨_, effective, .removedThree removes, .inl rfl, rfl⟩

theorem crashed_reject {name : String} (stops : StopsAt host (reject host name) w stop) :
    ∃ left, Crashed host autoApprove w (.reject name) left stop := by
  unfold reject at stops
  obtain ⟨record, found, stops⟩ := stopsAt_requireRecord stops
  obtain ⟨waiting, stops⟩ := stopsAt_requirePending stops
  have effective : Mutation.Effective host w (.reject name) := ⟨record, found, waiting⟩
  rw [stopsAt_then (run_removeFiles name w), stopsAt_utcNow, stopsAt_setStore] at stops
  rcases stops with removing | saving
  · exact crashed_removing (.reject name) trivial effective removing
  · exact crashed_of_save saving effective (.removed trivial) rfl

theorem crashed_clear {name : String} (stops : StopsAt host (clear host name) w stop) :
    ∃ left, Crashed host autoApprove w (.clear name) left stop := by
  unfold clear at stops
  obtain ⟨record, found, stops⟩ := stopsAt_requireRecord stops
  have effective : Mutation.Effective host w (.clear name) := ⟨record, found⟩
  rw [stopsAt_then (run_removeFiles name w), stopsAt_setStore] at stops
  rcases stops with removing | saving
  · exact crashed_removing (.clear name) trivial effective removing
  · exact crashed_of_save saving effective (.removed trivial) rfl

theorem crashed (stops : StopsAt host (mutation.action host autoApprove) w stop) :
    ∃ left, Crashed host autoApprove w mutation left stop := by
  cases mutation with
  | stage name content md5 metaYaml =>
    rw [Mutation.action, stopsAt_bind] at stops
    rcases stops with staging | ⟨_, _, _, rest⟩
    · exact crashed_stage staging
    · exact absurd rest stopsAt_pure
  | approve name => exact crashed_approve stops
  | reject name => exact crashed_reject stops
  | clear name => exact crashed_clear stops

/-! ## Restarting -/

theorem read_approvals_staged (name content : String) (metaYaml : Option String) :
    (disk.staged host name content metaYaml).read host .approvals = disk.read host .approvals := by
  cases metaYaml <;> simp [Disk.staged, Disk.read_write, Host.canonical]

theorem read_approvals_promoted (name : String) :
    (disk.promoted host name).read host .approvals = disk.read host .approvals := by
  unfold Disk.promoted Disk.movedIfPresent
  split <;> simp [Disk.read_rename, Host.canonical]

theorem left_approvals (leaves : Left host autoApprove disk mutation left) :
    left.read host .approvals = disk.read host .approvals := by
  cases leaves with
  | untouched => rfl
  | written => simp [Disk.read_write, Host.canonical]
  | staged => exact read_approvals_staged _ _ _
  | stagedMoved =>
    simp only [Disk.read_rename]
    simp [Host.canonical, read_approvals_staged]
  | stagedPromoted => rw [read_approvals_promoted, read_approvals_staged]
  | moved => simp [Disk.read_rename, Host.canonical]
  | promoted => exact read_approvals_promoted _
  | removedOne | removedTwo | removedThree => simp [Disk.read_unlink, Host.canonical]
  | removed => simp [Disk.removed, Disk.read_unlink, Host.canonical]

variable {crash : Crashed host autoApprove w mutation left stop}

theorem Crashed.text? (crash : Crashed host autoApprove w mutation left stop) {path : Path}
    (notTmp : path ≠ .approvalsTmp) : stop.disk.text? host path = left.text? host path := by
  rcases crash.disk with same | ⟨text, same⟩
  · rw [same]
  · have apart : ¬ host.canonical path = host.canonical .approvalsTmp := by
      cases path <;> simp_all [Host.canonical]
    rw [same, Disk.text?_write, if_neg apart]

theorem Crashed.restart_memory (crash : Crashed host autoApprove w mutation left stop)
    (synced : w.Synced host) : (restart host stop).memory = w.memory := by
  have kept : stop.disk.read host .approvals = w.disk.read host .approvals := by
    rw [← left_approvals crash.files]
    rcases crash.disk with same | ⟨text, same⟩
    · rw [same]
    · rw [same, Disk.read_write, if_neg (by simp [Host.canonical])]
  have sig : stop.disk.currentSig host = w.disk.currentSig host := by
    unfold Disk.currentSig
    rw [kept]
  have store : stop.disk.loaded host = w.disk.loaded host := by
    unfold Disk.loaded
    rw [kept]
  rw [restart, run_init, sig, store, ← synced.sig, ← synced.store]

theorem restart_synced (stop : World) : (restart host stop).Synced host := by
  rw [restart, run_init]
  exact ⟨rfl, rfl⟩

/-! ## Issuing the operation again -/

/-- Two worlds in the same state: the same records, on disk too, and the same files, the
temporary file of saves aside. -/
structure SameState (host : Host) (first second : World) : Prop where
  store : first.memory.store = second.memory.store
  saved : first.Synced host ∧ second.Synced host
  files : ∀ path, path ≠ .approvalsTmp → first.disk.text? host path = second.disk.text? host path

def Completes (host : Host) (autoApprove : List String) (mutation : Mutation)
    (before again : World) : Prop :=
  (host.run (mutation.action host autoApprove) again).1 =
      (host.run (mutation.action host autoApprove) before).1 ∧
    SameState host (host.run (mutation.action host autoApprove) again).2
      (host.run (mutation.action host autoApprove) before).2

theorem text?_saved_approvals (store : ApprovalsStore) :
    (disk.saved host store).text? host .approvals =
      some (encode host .platform (host.codec.dump store)) := by
  simp [Disk.saved, Disk.text?_rename, Disk.text?_write, Host.canonical]

theorem sameState_saved {first second : World} (same : SameTexts host first.disk second.disk)
    (store : ApprovalsStore) : SameState host (first.saved host store) (second.saved host store) := by
  refine ⟨rfl, ⟨World.saved_synced _, World.saved_synced _⟩, fun path notTmp => ?_⟩
  by_cases atStore : path = .approvals
  · subst atStore
    exact (text?_saved_approvals _).trans (text?_saved_approvals _).symm
  · exact ((Disk.text?_saved_of_ne atStore notTmp).trans (same path atStore notTmp)).trans
      (Disk.text?_saved_of_ne atStore notTmp).symm

/-- From what a crash left, the operation issued again completes, unless it is an approve
whose pending file is gone. -/
theorem completes (before : World) {again : World} (effective : Mutation.Effective host before mutation)
    (leaves : Left host autoApprove before.disk mutation left)
    (memory : again.memory = before.memory) (now : again.now = before.now)
    (same : SameTexts host again.disk left)
    (pending : ∀ name, mutation = .approve name → (left.text? host (.pending name)).isSome) :
    Completes host autoApprove mutation before again := by
  have store : Mutation.newStore autoApprove again mutation = Mutation.newStore autoApprove before mutation := by
    cases mutation <;> simp only [Mutation.newStore, World.record, memory, now]
  have effective' : Mutation.Effective host again mutation := by
    cases mutation with
    | approve name =>
      refine ⟨?_, ?_⟩
      · simpa only [World.record, memory] using effective.1
      · rw [same (.pending name) (by simp) (by simp)]
        exact pending name rfl
    | stage name content md5 metaYaml => simpa only [Mutation.Effective, memory] using effective
    | reject name | clear name => simpa only [Mutation.Effective, World.record, memory] using effective
  have files : SameTexts host (Mutation.finished host autoApprove mutation again.disk)
      (Mutation.finished host autoApprove mutation before.disk) := by
    intro path notStore notTmp
    exact (finished_congr same path notStore notTmp).trans
      (finished_left leaves pending path notStore notTmp)
  rw [Completes, Mutation.run_effective effective, Mutation.run_effective effective', store]
  exact ⟨rfl, sameState_saved files _⟩

/-! ## The guarantee -/

/-- What issuing an operation again does after a crash: it completes, but an approve whose
pending file had been moved away is refused and changes nothing. -/
def Reissued (host : Host) (autoApprove : List String) (before again : World) : Mutation → Prop
  | .approve name =>
    if (again.disk.text? host (.pending name)).isSome then
      Completes host autoApprove (.approve name) before again
    else host.run (approve host name) again = (.error (noPendingFile host name), again)
  | mutation => Completes host autoApprove mutation before again

theorem reissued {again : World} (crash : Crashed host autoApprove w mutation left stop)
    (synced : w.Synced host) (later : Timestamp) (restarted : again = (restart host stop).atTime later) :
    Reissued host autoApprove (w.atTime later) again mutation := by
  have memory : again.memory = w.memory := by
    rw [restarted]
    exact crash.restart_memory synced
  have disk : again.disk = stop.disk := by
    rw [restarted, restart, run_init]
    rfl
  have same : SameTexts host again.disk left := by
    rw [disk]
    exact fun path _ notTmp => crash.text? notTmp
  have now : again.now = (w.atTime later).now := by
    rw [restarted]
    rfl
  have finishes := completes (w.atTime later) crash.effective crash.files memory now same
  cases mutation with
  | approve name =>
    by_cases present : (again.disk.text? host (.pending name)).isSome
    -- the pending file was not moved, and the approve is made up for
    · simp only [Reissued, if_pos present]
      apply finishes
      intro other own
      cases own
      rwa [← same (.pending name) nofun nofun]
    · simp only [Reissued, if_neg present]
      -- the record still waits, and its file is gone: the approve is refused
      obtain ⟨⟨record, found, waiting⟩, _⟩ := crash.effective
      rw [Disk.isSome_text?] at present
      have kept : again.memory.store.scripts.get? name = some record := by
        rw [memory]
        exact found
      rw [run_approve, kept]
      simp only [if_pos waiting, if_neg present]
  | stage | reject | clear => exact finishes nofun

/-- Submissions leave the manager in step with the disk, and its records as they are. -/
theorem run_submissions (autoApprove : List String) (synced : w.Synced host) (submissions : List Launches.Event)
    (submits : ∀ event ∈ submissions, event.2.submits ≠ none) :
    (run (Launches.serve host autoApprove) w submissions).Synced host ∧
      ∀ name, (run (Launches.serve host autoApprove) w submissions).record name = w.record name := by
  induction submissions generalizing w with
  | nil => exact ⟨synced, fun _ => rfl⟩
  | cons event rest ih =>
    have later := fun event member => submits event (List.mem_cons_of_mem _ member)
    obtain ⟨kept, records⟩ := ih (Launches.synced_serve autoApprove synced event) later
    refine ⟨kept, fun name => (records name).trans ?_⟩
    rcases Launches.serve_cases autoApprove synced event with ⟨mutation, call, _⟩ | ends
    · have none := submits event List.mem_cons_self
      rw [call] at none
      exact absurd rfl none
    · exact Launches.record_submitted ends name

/-- Nothing unapproved runs after a crash: what a submission launches on the restarted agent has
an md5 that was granted to its name before the crash. -/
def SafeAfter (host : Host) (autoApprove : List String) (events : List Launches.Event)
    (restarted : World) : Prop :=
  ∀ submissions : List Launches.Event, (∀ event ∈ submissions, event.2.submits ≠ none) →
    ∀ event launch,
      let reached := run (Launches.serve host autoApprove) restarted submissions
      Launches.SparesScript host reached event →
        (Launches.serve host autoApprove reached event).launched = reached.launched ++ [launch] →
          ∃ md5, launch.content.map host.md5 = some md5 ∧
            Launches.Granted host autoApprove launch.script md5 events

theorem safeAfter {events : List Launches.Event} {restarted : World}
    (synced : restarted.Synced host)
    (memory : restarted.memory = (run (Launches.serve host autoApprove) World.fresh events).memory) :
    SafeAfter host autoApprove events restarted := by
  intro submissions submits event launch reached spares launches
  obtain ⟨kept, records⟩ := run_submissions autoApprove synced submissions submits
  obtain ⟨_, approved, intact⟩ := Launches.launch_intact kept spares launches
  have same : ∀ name, reached.record name =
      (run (Launches.serve host autoApprove) World.fresh events).record name := by
    intro name
    rw [records name, World.record, World.record, memory]
  have before : (run (Launches.serve host autoApprove) World.fresh events).memory.store.stateOf
      launch.script = .approved := by
    rw [← approved]
    exact congrArg (fun found : Option ScriptRecord => (found.map (·.state)).getD .absent)
      (same launch.script).symm
  obtain ⟨md5, recorded, granted⟩ := Launches.approved_granted events before
  exact ⟨md5, intact md5 (by rw [same, recorded]), granted⟩

def stagedRun : List Launches.Event := [("1", .mutate (.stage "deploy" scriptOne md5One none))]

def approvalStops : List World :=
  ((Mutation.approve "deploy").action linux []).stops (handle linux) Op.Effect
    ((run (Launches.serve linux []) World.fresh stagedRun).atTime "2")

theorem approvalStops_length : approvalStops.length = 5 := by decide +kernel

theorem stopsAt_approval {stop : World} (member : stop ∈ approvalStops) :
    StopsAt linux ((Mutation.approve "deploy").action linux [])
      ((run (Launches.serve linux []) World.fresh stagedRun).atTime "2") stop :=
  Proc.stopsAt_of_mem_stops member

def afterMove : World := approvalStops.get ⟨2, by rw [approvalStops_length]; decide⟩

end Crash

end Csl.Agent
