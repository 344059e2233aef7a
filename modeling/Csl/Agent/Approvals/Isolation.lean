import Csl.Agent.Approvals.Mutations
import Csl.Agent.Installation
import Csl.Agent.ScriptRunner.Specs

/-! Scripts under different names do not interfere, unless their file names collide.

Every name owns a script file and a metadata file in two directories, and its
script is looked up with the platform's extensions first. Two names are
independent exactly when none of these derived names denotes the same file.
-/

set_option autoImplicit false

namespace Csl.Agent
open Csl.Shared ApprovalsManager Runs Installation

structure Attempt where
  refusal : Option Err
  launched : List (Command × Dict String String)
  deriving DecidableEq

def attempt (host : Host) {A : Type} (submission : Action A) (w : World) : Attempt :=
  let ends := host.run submission w
  ⟨match ends.1 with
    | .error e => some e
    | .ok _ => none,
    (ends.2.launched.drop w.launched.length).map fun launch => (launch.command, launch.env)⟩

def Attempt.of : Except Err (Command × Dict String String) → Attempt
  | .error e => ⟨some e, []⟩
  | .ok ready => ⟨none, [ready]⟩

structure Unaffected (host : Host) (before after : World) (name : String) : Prop where
  record : after.record name = before.record name
  script : after.disk.text? host (.scripts name) = before.disk.text? host (.scripts name)
  scriptMeta : after.disk.text? host (.scripts (metaFile name)) =
    before.disk.text? host (.scripts (metaFile name))
  pending : after.disk.text? host (.pending name) = before.disk.text? host (.pending name)
  pendingMeta : after.disk.text? host (.pending (metaFile name)) =
    before.disk.text? host (.pending (metaFile name))
  runScript : ∀ params, attempt host (runScript host name params) after =
    attempt host (runScript host name params) before
  start : ∀ params jobUuid, attempt host (ProcessManager.start host name params jobUuid) after =
    attempt host (ProcessManager.start host name params jobUuid) before

namespace Isolation

/-- No call on `a` affects `b`, in any state a manager can reach. -/
def Separate (host : Host) (a b : String) : Prop :=
  ∀ autoApprove w, Reached host autoApprove w → ∀ event : Timestamp × Mutation, event.2.name = a →
    Unaffected host w (Mutation.serve host autoApprove w event) b

/-- A file of `a` is a file of `b`, or is found first when the script of `b` is looked up. -/
def Collides (host : Host) (a b : String) : Prop :=
  host.SameFile a b ∨ host.SameFile a (metaFile b) ∨ host.SameFile (metaFile a) b ∨
    ∃ ending ∈ extensions host, ending ≠ "" ∧ host.SameFile a (b ++ ending)

instance (host : Host) (a b : String) : Decidable (Collides host a b) := by
  unfold Collides; infer_instance

variable {host : Host} {a b : String}

/-! ## The file names -/

theorem sameFile_last (same : host.SameFile a b) :
    a.toList.getLast?.map Char.toLower = b.toList.getLast?.map Char.toLower := by
  unfold Host.SameFile Host.foldName at same
  split at same
  · have lists := congrArg String.toList same
    rw [String.toList_ofList, String.toList_ofList] at lists
    rw [← List.getLast?_map, ← List.getLast?_map, lists]
  · rw [same]

theorem not_sameFile_extension_metaFile {ending : String} (member : ending ∈ extensions host)
    (proper : ending ≠ "") : ¬ host.SameFile (b ++ ending) (metaFile a) := by
  intro same
  have last := sameFile_last same
  have ends : (metaFile a).toList.getLast? = some 'l' := by
    simp [metaFile, List.getLast?_append]
  have known : ending = ".ps1" ∨ ending = ".bat" ∨ ending = ".cmd" ∨ ending = ".sh" ∨ ending = ".bash" := by
    unfold extensions at member
    split at member <;> simp at member <;> rcases member with rfl | rfl | rfl | rfl <;> simp_all
  rw [ends] at last
  rcases known with rfl | rfl | rfl | rfl | rfl <;> simp [List.getLast?_append] at last

theorem not_touched (apart : ¬ Collides host a b) :
    (¬ Mutation.Touches host a (.scripts (metaFile b)) ∧
      ¬ Mutation.Touches host a (.pending b) ∧ ¬ Mutation.Touches host a (.pending (metaFile b))) ∧
    ∀ ending ∈ extensions host, ¬ Mutation.Touches host a (.scripts (b ++ ending)) := by
  unfold Collides at apart
  simp only [not_or, not_exists, not_and] at apart
  obtain ⟨names, script, scriptMeta, extension⟩ := apart
  have reversed : ∀ {x y : String}, ¬ host.SameFile x y → ¬ host.SameFile y x :=
    fun differ same => differ same.symm
  refine ⟨⟨?_, ?_, ?_⟩, ?_⟩
  · simp [Mutation.Touches, reversed script, reversed names]
  · simp [Mutation.Touches, reversed names, reversed scriptMeta]
  · simp [Mutation.Touches, reversed script, reversed names]
  · intro ending member
    by_cases proper : ending = ""
    · subst proper
      simp [Mutation.Touches, reversed names, reversed scriptMeta]
    · simp [Mutation.Touches, reversed (extension ending member proper),
        not_sameFile_extension_metaFile member proper]

/-! ## What a submission depends on -/

theorem foundFrom_congr {before after : Disk} (name : String) (endings : List String)
    (same : ∀ ending ∈ endings,
      after.text? host (.scripts (name ++ ending)) = before.text? host (.scripts (name ++ ending))) :
    after.foundFrom host name endings = before.foundFrom host name endings := by
  induction endings with
  | nil => rfl
  | cons ending rest ih =>
    have head := same ending List.mem_cons_self
    have tail := ih fun ending member => same ending (List.mem_cons_of_mem _ member)
    simp only [Disk.foundFrom, ← Disk.isSome_text?, head, tail]

theorem foundFrom_ok {disk : Disk} {name : String} {endings : List String} {script : Path}
    (found : disk.foundFrom host name endings = .ok script) :
    ∃ ending ∈ endings, script = .scripts (name ++ ending) ∧
      (disk.text? host (.scripts (name ++ ending))).isSome := by
  induction endings with
  | nil => cases found
  | cons ending rest ih =>
    unfold Disk.foundFrom at found
    split at found
    next present =>
      cases found
      exact ⟨ending, List.mem_cons_self, rfl, by rwa [Disk.isSome_text?]⟩
    · obtain ⟨other, member, located⟩ := ih found
      exact ⟨other, List.mem_cons_of_mem _ member, located⟩

theorem prepared_congr {before after : Disk} (verb name : String) (params : Params)
    (descriptor : ScriptDescriptor)
    (scripts : ∀ ending ∈ extensions host,
      after.text? host (.scripts (name ++ ending)) = before.text? host (.scripts (name ++ ending)))
    (scriptMeta : after.text? host (.scripts (metaFile name)) =
      before.text? host (.scripts (metaFile name))) :
    after.prepared host verb name params descriptor =
      before.prepared host verb name params descriptor := by
  have found : after.foundScript host name = before.foundScript host name :=
    foundFrom_congr name _ scripts
  have described : after.metadata host name = before.metadata host name := by
    rw [Disk.metadata, Disk.metadata, scriptMeta]
  unfold Disk.prepared
  rw [found, described]
  cases located : before.foundScript host name with
  | error e => rfl
  | ok script =>
    obtain ⟨ending, member, rfl, _⟩ := foundFrom_ok located
    have intact : after.integrity host name (.scripts (name ++ ending)) descriptor.approvedMd5 =
        before.integrity host name (.scripts (name ++ ending)) descriptor.approvedMd5 := by
      unfold Disk.integrity
      rw [scripts ending member]
    simp only [bind, Except.bind, intact]

theorem attempt_runScript {w : World} (synced : w.Synced host) (name : String) (params : Params) :
    attempt host (runScript host name params) w =
      .of (w.disk.prepared host "run" name params (describe w.memory.store name)) := by
  simp only [attempt, run_runScript, synced.resynced_eq]
  cases w.disk.prepared host "run" name params (describe w.memory.store name) with
  | error e => simp [Attempt.of]
  | ok ready => simp [World.launch, Attempt.of]

theorem attempt_start {w : World} (synced : w.Synced host) (name : String) (params : Params)
    (jobUuid : String) :
    attempt host (ProcessManager.start host name params jobUuid) w =
      match w.disk.prepared host "start" name params (describe w.memory.store name),
        host.logPath jobUuid with
      | .ok _, none => ⟨some (.cannotOpenLog jobUuid), []⟩
      | ready, _ => .of ready := by
  simp only [attempt, run_start, synced.resynced_eq]
  cases w.disk.prepared host "start" name params (describe w.memory.store name) with
  | error e => simp [Attempt.of]
  | ok ready => cases host.logPath jobUuid <;> simp [World.launch, World.logOpened, Attempt.of]

/-! ## Independence -/

theorem unaffected_of_not_collides (names : a ≠ b) (apart : ¬ Collides host a b)
    {autoApprove : List String} {w : World} (reached : Reached host autoApprove w)
    (event : Timestamp × Mutation) (own : event.2.name = a) :
    Unaffected host w (Mutation.serve host autoApprove w event) b := by
  obtain ⟨⟨scriptMeta, pending, pendingMeta⟩, scripts⟩ := not_touched apart
  subst own
  have record : (Mutation.serve host autoApprove w event).record b = w.record b :=
    event.2.record_run_of_ne host autoApprove (w.atTime event.1) (Ne.symm names)
  have keeps : ∀ path, ¬ Mutation.Touches host event.2.name path → path ≠ .approvals →
      path ≠ .approvalsTmp →
        (Mutation.serve host autoApprove w event).disk.text? host path = w.disk.text? host path :=
    fun path => event.2.text?_run_of_not_touched (w.atTime event.1)
  have found : ∀ ending ∈ extensions host,
      (Mutation.serve host autoApprove w event).disk.text? host (.scripts (b ++ ending)) =
        w.disk.text? host (.scripts (b ++ ending)) :=
    fun ending member => keeps _ (scripts ending member) nofun nofun
  have described : (Mutation.serve host autoApprove w event).disk.text? host
      (.scripts (metaFile b)) = w.disk.text? host (.scripts (metaFile b)) :=
    keeps _ scriptMeta nofun nofun
  have descriptor : describe (Mutation.serve host autoApprove w event).memory.store b =
      describe w.memory.store b := by
    unfold describe
    rw [show (Mutation.serve host autoApprove w event).memory.store.scripts.get? b =
      w.memory.store.scripts.get? b from record]
  -- the lookups of a submission find what they found before
  have after := (reached.serve event).synced
  refine ⟨record, ?_, described, keeps _ pending nofun nofun, keeps _ pendingMeta nofun nofun,
    fun params => ?_, fun params jobUuid => ?_⟩
  · have plain : "" ∈ extensions host := by
      unfold extensions
      split <;> simp
    simpa using found "" plain
  · rw [attempt_runScript after, attempt_runScript reached.synced, descriptor,
      prepared_congr "run" b params _ found described]
  · rw [attempt_start after, attempt_start reached.synced, descriptor,
      prepared_congr "start" b params _ found described]

/-! ## Interference -/

theorem text?_of_sameFile (disk : Disk) (same : host.SameFile a b) :
    disk.text? host (.pending a) = disk.text? host (.pending b) := by
  unfold Disk.text? Disk.read
  rw [(host.canonical_pending_eq a b).mpr same]

theorem serve_stage_fresh (content md5 : String) (metaYaml : Option String) :
    let w := Mutation.serve host [] World.fresh ("", .stage a content md5 metaYaml)
    w.disk.text? host (.pending a) = some content ∧
      w.disk.text? host (.pending (metaFile a)) = metaYaml.map (encode host .platform) := by
  have absent : (World.fresh.atTime "").record a = none := rfl
  have staged := Mutation.run_stage_absent host [] absent content md5 metaYaml
  have blank : ∀ path, World.fresh.disk.text? host path = none := fun _ => rfl
  simp only [Mutation.serve, staged, World.staged, World.saved, List.not_mem_nil, if_false]
  simp [Disk.text?_staged, blank]

theorem not_separate_of_shared (shared : host.SameFile a b ∨ host.SameFile a (metaFile b) ∨
    host.SameFile (metaFile a) b) : ¬ Separate host a b := by
  intro separate
  have affects := fun metaYaml => separate [] World.fresh ⟨[], rfl⟩ ("", .stage a "" "" metaYaml) rfl
  rcases shared with same | same | same
  · have kept := (affects none).pending
    rw [← text?_of_sameFile _ same, (serve_stage_fresh "" "" none).1] at kept
    cases kept
  · have kept := (affects none).pendingMeta
    rw [← text?_of_sameFile _ same, (serve_stage_fresh "" "" none).1] at kept
    cases kept
  · have kept := (affects (some "")).pending
    rw [← text?_of_sameFile _ same, (serve_stage_fresh "" "" (some "")).2] at kept
    cases kept

theorem serve_autoStage (host : Host) {autoApprove : List String} {w : World} {name : String}
    (content md5 : String)
    (auto : name ∈ autoApprove) (absent : w.record name = none)
    (noPending : ∀ file, w.disk.text? host (.pending file) = none) :
    let after := Mutation.serve host autoApprove w ("", .stage name content md5 none)
    (∀ file, after.disk.text? host (.pending file) = none) ∧
      (∀ file, after.disk.text? host (.scripts file) =
        if host.SameFile file name then some content else w.disk.text? host (.scripts file)) ∧
      ∀ other, after.record other =
        if other = name then some (stagedRecord true (w.record name) md5 "") else w.record other := by
  have absent' : (w.atTime "").record name = none := absent
  have staged := Mutation.run_stage_absent host autoApprove absent' content md5 none
  simp only [Mutation.serve, staged]
  refine ⟨fun file => ?_, fun file => ?_, fun other => ?_⟩
  · simp only [World.staged, World.saved, if_pos auto, Disk.text?_saved_pending,
      Disk.text?_promoted, Disk.text?_staged, Host.canonical_pending_eq]
    split
    · rfl
    next apart =>
      rw [not_or] at apart
      simp [apart, noPending]
  · simp only [World.staged, World.saved, if_pos auto, Disk.text?_saved_scripts,
      Disk.text?_promoted, Disk.text?_staged]
    simp [noPending]
  · rw [World.record_staged]
    simp [auto, World.atTime]
    rfl

theorem buildCommand_error {script : Path} {e : Err} (failed : buildCommand host script = .error e) :
    e = .noInterpreter script := by
  unfold buildCommand at failed
  simp only at failed
  split_ifs at failed
  cases failed
  rfl

theorem foundFrom_present {disk : Disk} {name ending : String} {endings : List String}
    (rest : List String) (member : ending ∈ endings) (present : (disk.text? host (.scripts (name ++ ending))).isSome) :
    ∃ found ∈ endings, disk.foundFrom host name (endings ++ rest) = .ok (.scripts (name ++ found)) := by
  rw [Disk.isSome_text?] at present
  induction endings with
  | nil => cases member
  | cons head endings ih =>
    rw [List.cons_append, Disk.foundFrom]
    by_cases here : (disk.read host (.scripts (name ++ head))).isSome
    · exact ⟨head, List.mem_cons_self, if_pos here⟩
    · rw [if_neg here]
      rcases List.mem_cons.mp member with rfl | later
      · exact absurd present here
      · obtain ⟨found, among, located⟩ := ih later
        exact ⟨found, List.mem_cons_of_mem _ among, located⟩

theorem foundScript_extension (disk : Disk) {name ending : String} (member : ending ∈ extensions host)
    (proper : ending ≠ "") (present : (disk.text? host (.scripts (name ++ ending))).isSome) :
    ∃ found ∈ extensions host, found ≠ "" ∧
      disk.foundScript host name = .ok (.scripts (name ++ found)) := by
  obtain ⟨endings, split, nonempty⟩ := extensions_split host
  unfold Disk.foundScript
  rw [split] at member ⊢
  rcases List.mem_append.mp member with among | last
  · obtain ⟨found, among, located⟩ := foundFrom_present [""] among present
    exact ⟨found, List.mem_append_left _ among, nonempty found among, located⟩
  · exact absurd (List.mem_singleton.mp last) proper

theorem length_append_proper {ending : String} (proper : ending ≠ "") : (b ++ ending).length ≠ b.length := by
  intro same
  rw [String.length_append] at same
  apply proper
  rw [← String.length_eq_zero_iff]
  omega

/-- Launches of different script files differ, whether or not they have an interpreter. -/
theorem attempt_script_ne {script script' : Path} (apart : script' ≠ script)
    (env : Dict String String) :
    Attempt.of ((buildCommand host script').map fun command => (command, env)) ≠
      Attempt.of ((buildCommand host script).map fun command => (command, env)) := by
  intro same
  cases builds : buildCommand host script with
  | error e =>
    cases builds' : buildCommand host script' with
    | error e' =>
      rw [builds, builds', buildCommand_error builds, buildCommand_error builds'] at same
      simp only [Except.map, Attempt.of, Attempt.mk.injEq, Option.some.injEq,
        Err.noInterpreter.injEq] at same
      exact apart same.1
    | ok command' => simp [builds, builds', Except.map, Attempt.of] at same
  | ok command =>
    cases builds' : buildCommand host script' with
    | error e' => simp [builds, builds', Except.map, Attempt.of] at same
    | ok command' =>
      simp only [builds, builds', Except.map, Attempt.of, Attempt.mk.injEq, List.cons.injEq,
        Prod.mk.injEq] at same
      have scripts := congrArg Command.script same.2.1.1
      rw [buildCommand_script builds, buildCommand_script builds'] at scripts
      exact apart scripts

/-- With `b` approved and the same content then approved under a name that is `b` with an
extension, submitting `b` launches the other file. -/
theorem shadowed_attempts {first second : World} {ending : String} {record : ScriptRecord}
    (member : ending ∈ extensions host) (proper : ending ≠ "") (shadows : host.SameFile a (b ++ ending))
    (synced : first.Synced host) (synced' : second.Synced host)
    (approved : record.state = .approved) (md5 : record.approvedMd5 = some (host.md5 ""))
    (found : first.record b = some record) (found' : second.record b = some record)
    (scripts : ∀ file, first.disk.text? host (.scripts file) =
      if host.SameFile file b then some "" else none)
    (scripts' : ∀ file, second.disk.text? host (.scripts file) =
      if host.SameFile file a then some "" else first.disk.text? host (.scripts file)) :
    attempt host (runScript host b Dict.empty) second ≠
      attempt host (runScript host b Dict.empty) first := by
  have distinct : ∀ ending, ending ≠ "" → ¬ host.SameFile (b ++ ending) b :=
    fun ending proper same => length_append_proper proper same.length_eq
  -- in the first world only the plain name has a file
  have only : ∀ file, ¬ host.SameFile file b → first.disk.text? host (.scripts file) = none :=
    fun file apart => (scripts file).trans (if_neg apart)
  have noMeta : first.disk.text? host (.scripts (metaFile b)) = none :=
    only _ (not_metaFile_sameFile b)
  have noMeta' : second.disk.text? host (.scripts (metaFile b)) = none := by
    have apart : ¬ host.SameFile (metaFile b) a :=
      fun same => not_sameFile_extension_metaFile member proper (same.trans shadows).symm
    rw [scripts', if_neg apart, noMeta]
  have own : first.disk.text? host (.scripts b) = some "" := (scripts b).trans (if_pos rfl)
  have located : first.disk.foundScript host b = .ok (.scripts b) :=
    foundScript_plain (fun ending _ proper => only _ (distinct ending proper)) (by rw [own]; rfl)
  -- in the second one the name with the ending is found first
  have shadow : second.disk.text? host (.scripts (b ++ ending)) = some "" :=
    (scripts' _).trans (if_pos shadows.symm)
  obtain ⟨other, _, proper', located'⟩ := foundScript_extension second.disk member proper
    (by rw [shadow]; rfl)
  have text : second.disk.text? host (.scripts (b ++ other)) = some "" := by
    obtain ⟨_, _, same, present⟩ := foundFrom_ok located'
    rw [← same] at present
    by_cases ofA : host.SameFile (b ++ other) a
    · exact (scripts' _).trans (if_pos ofA)
    · rw [scripts', if_neg ofA, only _ (distinct other proper')] at present
      cases present
  have described : ∀ w : World, w.record b = some record →
      (describe w.memory.store b).state = .approved ∧
        (describe w.memory.store b).approvedMd5 = some (host.md5 "") := by
    intro w found
    rw [describe_state, describe_approvedMd5, World.stateOf_of_record found]
    exact ⟨approved, (congrArg (·.bind (·.approvedMd5)) found).trans md5⟩
  have before := prepared_plain "run" (described first found).1 noMeta located own
    (described first found).2
  have after := prepared_plain "run" (described second found').1 noMeta' located' text
    (described second found').2
  rw [attempt_runScript synced', attempt_runScript synced, before, after]
  apply attempt_script_ne
  intro same
  exact length_append_proper proper' (congrArg String.length (Path.scripts.inj same))

theorem not_separate_of_shadowed {ending : String} (member : ending ∈ extensions host) (proper : ending ≠ "")
    (shadows : host.SameFile a (b ++ ending)) : ¬ Separate host a b := by
  intro separate
  have names : a ≠ b := by
    rintro rfl
    exact length_append_proper proper shadows.length_eq.symm
  -- both are auto-approved, staged with the same content, and without metadata
  obtain ⟨noPending, scripts, records⟩ := serve_autoStage host (w := World.fresh) ""
    (host.md5 "") (show b ∈ [a, b] by simp) rfl fun _ => rfl
  have reached : Reached host [a, b]
      (Mutation.serve host [a, b] World.fresh ("", .stage b "" (host.md5 "") none)) :=
    Reached.serve ⟨[], rfl⟩ _
  generalize Mutation.serve host [a, b] World.fresh ("", .stage b "" (host.md5 "") none) = first at *
  obtain ⟨_, scripts', records'⟩ := serve_autoStage host (w := first) ""
    (host.md5 "") (show a ∈ [a, b] by simp) ((records a).trans (if_neg names)) noPending
  have found := (records b).trans (if_pos rfl)
  have found' := ((records' b).trans (if_neg (Ne.symm names))).trans found
  refine shadowed_attempts member proper shadows reached.synced (reached.serve _).synced rfl rfl
    found found' scripts scripts' ?_
  exact (separate [a, b] first reached _ rfl).runScript Dict.empty

theorem not_separate_of_collides (collides : Collides host a b) : ¬ Separate host a b := by
  rcases collides with same | same | same | ⟨ending, member, proper, shadows⟩
  · exact not_separate_of_shared (.inl same)
  · exact not_separate_of_shared (.inr (.inl same))
  · exact not_separate_of_shared (.inr (.inr same))
  · exact not_separate_of_shadowed member proper shadows

/-- Two names are independent exactly when their file names do not collide. -/
theorem separate_iff_not_collides (host : Host) (a b : String) (_ : Accepted a) (_ : Accepted b)
    (names : a ≠ b) : Separate host a b ↔ ¬ Collides host a b := by
  constructor
  · intro separate collides
    exact not_separate_of_collides collides separate
  · intro apart autoApprove w reached event own
    exact unaffected_of_not_collides names apart reached event own

theorem separate_deploy_backup : Separate linux "deploy" "backup" :=
  (separate_iff_not_collides linux "deploy" "backup" (by decide) (by decide) (by decide)).mpr
    (by decide)

/-- A script named like another one with an extension takes its place. -/
theorem deploy_sh_shadows_deploy : Accepted "deploy.sh" ∧ Accepted "deploy" ∧
    "deploy.sh" ≠ "deploy" ∧ ¬ Separate linux "deploy.sh" "deploy" := by
  refine ⟨by decide, by decide, by decide, ?_⟩
  apply not_separate_of_collides
  decide

end Isolation

end Csl.Agent
