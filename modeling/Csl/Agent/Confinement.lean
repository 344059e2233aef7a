import Csl.Agent.Approvals.Mutations
import Csl.Agent.Endpoints
import Csl.Agent.Installation
import Csl.Agent.Paths
import Csl.Agent.ScriptRunner.Calls
import Csl.Agent.ScriptRunner.Specs
import Csl.Library.Calls
import Mathlib.Data.List.TakeWhile

/-! The files the agent opens for writing, creates or replaces.

A script name that passes the endpoint's check is a plain file name. A job uuid is
not checked: its log is in logs/ exactly when the names before its last one lead from
logs/ back to it.
-/

set_option autoImplicit false

namespace Csl.Agent
open Csl.Shared ApprovalsManager Proc Walk Installation

structure Placement (host : Host) where
  paths : CslPaths
  elsewhere : String → Location

namespace Placement
variable {host : Host} (placement : Placement host)

def approvalsTmp : Location :=
  { placement.paths.approvalsPath with
    place := "approvals.tmp".toList :: placement.paths.approvalsPath.place.tail }

def locate : Path → Option Location
  | .scripts file => host.join placement.paths.scriptsDir file
  | .pending file => host.join placement.paths.pendingDir file
  | .log file => host.join placement.paths.logsDir file
  | .approvals => some placement.paths.approvalsPath
  | .approvalsTmp => some placement.approvalsTmp
  | .other location => some (placement.elsewhere location)

/-- `logs_dir / f"\x7bjob_uuid\x7d.log"`. -/
def logLocation (jobUuid : String) : Option Location :=
  host.join placement.paths.logsDir (jobUuid ++ ".log")

def Opens : Prop := ∀ jobUuid path, host.logPath jobUuid = some path →
  placement.locate path = placement.logLocation jobUuid

/-- The names before the last one lead from logs/ back to it. -/
def LeadsBack (jobUuid : String) : Prop :=
  let (anchored, rest) := host.anchor (jobUuid ++ ".log").toList
  ∃ start front last, Host.start placement.paths.logsDir anchored = some start ∧
    rest.splitOnP host.separates = front ++ [last] ∧ last ≠ [] ∧
    host.SameLocation ⟨start.drive, walk start.place front⟩ placement.paths.logsDir

end Placement

/-- The files a call opens for writing, creates or replaces. -/
def Op.opens : Op → List Path
  | .writeText path .. => [path]
  | .replace source target => [source, target]
  | _ => []

/-- A file the agent writes; running.json is the state of its ProcessManager. -/
inductive Written where
  | file (path : Path)
  | running
  | runningTmp
  deriving DecidableEq

def Request.writes (host : Host) (autoApprove : List String) (w : World) (request : Request) :
    List Written :=
  (((request.action host autoApprove).calls (handle host) w).flatMap Op.opens).map .file ++
    if request.savesState then [.runningTmp, .running] else []

/-- A state file of a manager, a file of logs/ for a job, and otherwise a file of scripts/ or
scripts.pending/. -/
def Own {host : Host} (placement : Placement host) (request : Request) : Written → Prop
  | .running | .runningTmp | .file .approvals | .file .approvalsTmp => True
  | .file path =>
    match request with
    | .submitJob _ => host.DirectlyIn placement.paths.logsDir (placement.locate path)
    | _ => host.DirectlyIn placement.paths.scriptsDir (placement.locate path) ∨
        host.DirectlyIn placement.paths.pendingDir (placement.locate path)

def Passes (host : Host) (w : World) (body : JobRequest) : Prop :=
  let found := describe (w.resynced host).memory.store body.scriptName
  (∀ expected, body.expectedMd5 = some expected → found.approvedMd5 = some expected) ∧
    ∃ ready, (w.resynced host).disk.prepared host (if body.persistent then "start" else "run")
      body.scriptName body.params found = .ok ready

namespace Confinement
variable {host : Host} {placement : Placement host}

/-! ## Names and locations -/

theorem log_plain : ∀ c ∈ ".log".toList, host.separates c = false := by
  intro c member
  have known : c = '.' ∨ c = 'l' ∨ c = 'o' ∨ c = 'g' := by simpa using member
  rcases known with rfl | rfl | rfl | rfl <;> simp [Host.separates]

theorem proper_log (name : List Char) : Proper (name ++ ".log".toList) := by
  refine ⟨?_, ?_, ?_⟩ <;> intro same <;> have lengths := congrArg List.length same <;>
    simp at lengths

/-- What is left of a log's path once its drive and root are taken off. -/
def Ends (rest : List Char) : Prop := rest = [] ∨ ∃ front, rest = front ++ ".log".toList

theorem ends_drop {rest : List Char} (ends : Ends rest) :
    Ends ((rest.drop (rest.takeWhile fun c => !host.separates c).length).drop 1) := by
  rcases ends with rfl | ⟨front, rfl⟩
  · exact .inl rfl
  induction front with
  | nil =>
    have whole : (".log".toList.takeWhile fun c => !host.separates c) = ".log".toList := by
      apply List.takeWhile_eq_self_iff.mpr
      intro c member
      simp [log_plain c member]
    left
    rw [List.nil_append, whole]
    rfl
  | cons c front ih =>
    by_cases separator : host.separates c
    · right
      exact ⟨front, by simp [separator]⟩
    · simpa [separator] using ih

theorem ends_share {rest : List Char} (ends : Ends rest) :
    (∃ drive, (host.share rest).1 = .drive drive true) ∧ Ends (host.share rest).2 :=
  ⟨⟨_, rfl⟩, ends_drop (ends_drop ends)⟩

theorem anchor_log (front : List Char) :
    let anchored := host.anchor (front ++ ".log".toList)
    (anchored.2 = [] → ∃ drive, anchored.1 = .drive drive true) ∧ Ends anchored.2 := by
  -- what is left of the path still has its ending
  have kept (rest : List Char) (anchored : Anchor) :
      ((rest ++ ".log".toList = []) → ∃ drive, anchored = .drive drive true) ∧
        Ends (rest ++ ".log".toList) := ⟨by simp, .inr ⟨rest, rfl⟩⟩
  have dot : host.separates '.' = false := by simp [Host.separates]
  intro anchored
  unfold anchored Host.anchor
  split
  · match front with
    | [] => simpa [dot, Host.separates] using kept [] .directory
    | [a] =>
      by_cases separator : host.separates a
      · simpa [dot, separator] using kept [] .root
      · simpa [dot, separator] using kept [a] .directory
    | a :: b :: rest =>
      by_cases both : host.separates a ∧ host.separates b
      -- two separators begin a share, whose name may reach into the ending
      · have shared := @ends_share host (rest ++ ".log".toList) (.inr ⟨rest, rfl⟩)
        simpa [both] using ⟨fun _ => shared.1, shared.2⟩
      by_cases separator : host.separates a
      · have single : host.separates b = false := by simpa [separator] using both
        simpa [single, separator] using kept (b :: rest) .root
      by_cases colon : b = ':'
      · subst colon
        match rest with
        | [] => simpa [separator, dot] using kept [] (.drive [a] false)
        | c :: names =>
          by_cases rooted : host.separates c
          · simpa [separator, rooted] using kept names (.drive [a] true)
          · simpa [separator, rooted] using kept (c :: names) (.drive [a] false)
      · simpa [separator, colon] using kept (a :: b :: rest) .directory
  · match front with
    | [] => simpa [dot] using kept [] .directory
    | a :: rest =>
      by_cases separator : host.separates a
      · simpa [separator] using kept rest .root
      · simpa [separator] using kept (a :: rest) .directory

theorem directlyIn_some {directory : Location} {drive : List Char} {place : Place} :
    host.DirectlyIn directory (some ⟨drive, place⟩) ↔
      ∃ name above, place = name :: above ∧ host.SameLocation ⟨drive, above⟩ directory := by
  constructor
  · rintro ⟨_, name, above, ⟨⟩, same⟩
    exact ⟨name, above, rfl, same⟩
  · rintro ⟨name, above, rfl, same⟩
    exact ⟨drive, name, above, rfl, same⟩

/-- A log is a file of logs/ exactly when its path leads back there. -/
theorem directlyIn_log (jobUuid : String) :
    host.DirectlyIn placement.paths.logsDir (placement.logLocation jobUuid) ↔
      placement.LeadsBack jobUuid := by
  have ends := @anchor_log host jobUuid.toList
  have path : (jobUuid ++ ".log").toList = jobUuid.toList ++ ".log".toList := String.toList_append
  unfold Placement.logLocation Placement.LeadsBack Host.join
  rw [path]
  generalize host.anchor (jobUuid.toList ++ ".log".toList) = anchored at ends
  obtain ⟨anchored, rest⟩ := anchored
  obtain ⟨exhausted, ends⟩ := ends
  dsimp only at exhausted ends ⊢
  cases started : Host.start placement.paths.logsDir anchored with
  | none =>
    constructor
    · rintro ⟨_, _, _, ⟨⟩, _⟩
    · rintro ⟨_, _, _, ⟨⟩, _⟩
  | some start =>
    rw [Option.map_some, directlyIn_some]
    rcases ends with rfl | ⟨front, rfl⟩
    · -- the path is a share, which is no file
      obtain ⟨drive, rfl⟩ := exhausted rfl
      cases started
      constructor
      · rintro ⟨name, above, place, _⟩
        cases place
      · rintro ⟨_, front, last, _, single, nonempty, _⟩
        rw [List.splitOnP_nil] at single
        obtain ⟨rfl, rfl⟩ : front = [] ∧ last = [] := by
          cases front with
          | nil => simpa using single.symm
          | cons first others => simp at single
        exact absurd rfl nonempty
    · obtain ⟨names, last, _, split⟩ := @names_append host.separates _ log_plain front
      rw [split, walk_snoc_proper (proper_log last)]
      constructor
      · rintro ⟨_, _, ⟨⟩, same⟩
        exact ⟨start, names, last ++ ".log".toList, rfl, rfl, (proper_log last).1, same⟩
      · rintro ⟨_, others, final, ⟨⟩, same, _, leads⟩
        obtain ⟨rfl, _⟩ := List.append_inj' same rfl
        exact ⟨_, _, rfl, leads⟩

/-! ## Staging -/

def Staged (name : String) (path : Path) : Prop :=
  path = .pending name ∨ path = .pending (metaFile name) ∨ path = .scripts name ∨
    path = .scripts (metaFile name) ∨ path = .approvals ∨ path = .approvalsTmp

def OpensStaged (name : String) (op : Op) : Prop := ∀ path ∈ op.opens, Staged name path

theorem uses_save (name : String) : (save host).Uses (OpensStaged name) := by
  refine uses_bind (uses_perform nofun) fun _ => uses_bind (uses_perform nofun) fun store => ?_
  refine uses_bind (uses_perform ?_) fun _ => uses_bind (uses_perform ?_) fun _ => ?_
  · simp [OpensStaged, Op.opens, Staged]
  · simp [OpensStaged, Op.opens, Staged]
  · exact uses_bind (uses_perform nofun) fun _ => uses_perform nofun

theorem uses_stage (autoApprove : List String) (name content md5 : String) (metaYaml : Option String) :
    (stage host autoApprove name content md5 metaYaml).Uses (OpensStaged name) := by
  refine uses_bind (uses_perform (by simp [OpensStaged, Op.opens])) fun store => ?_
  dsimp only
  split_ifs
  · trivial
  · trivial
  · trivial
  · refine uses_bind (uses_writePending (by simp [OpensStaged, Op.opens]) ?_ ?_) fun _ => ?_
    · simp [OpensStaged, Op.opens, Staged]
    · simp [OpensStaged, Op.opens, Staged]
    refine uses_bind (uses_perform (by simp [OpensStaged, Op.opens])) fun now => ?_
    refine uses_bind (uses_onlyIf (uses_promote (by simp [OpensStaged, Op.opens]) (by simp [OpensStaged, Op.opens]) ?_ ?_)) fun _ => ?_
    · simp [OpensStaged, Op.opens, Staged]
    · simp [OpensStaged, Op.opens, Staged]
    exact uses_bind (uses_perform (by simp [OpensStaged, Op.opens])) fun _ => uses_bind (uses_save name) fun _ => uses_pure

theorem proper_name {name : String} (passes : EndpointName name) : Proper name.toList := by
  refine ⟨passes.1, ?_, ?_⟩
  · intro dot
    obtain rfl : name = "." := String.toList_injective dot
    exact absurd passes.2.2 (by decide)
  · intro dots
    obtain rfl : name = ".." := String.toList_injective dots
    exact absurd passes.2.2 (by decide)

theorem proper_metaFile (name : String) : Proper (metaFile name).toList := by
  refine ⟨?_, ?_, ?_⟩ <;> intro same <;> have lengths := congrArg List.length same <;>
    simp [metaFile] at lengths

theorem directlyIn_allowed {file : String} (proper : Proper file.toList)
    (allowed : ∀ c ∈ file.toList, allowedCharacter c = true) (directory : Location) :
    host.DirectlyIn directory (host.join directory file) := by
  have harmless : ∀ c, allowedCharacter c = true → c ≠ '/' ∧ c ≠ '\\' ∧ c ≠ ':' := by
    intro c allowed
    refine ⟨?_, ?_, ?_⟩ <;> rintro rfl <;> revert allowed <;> decide
  apply Host.directlyIn_plain directory proper
  · intro c member
    have := harmless c (allowed c member)
    simp [Host.separates, this]
  · intro member
    exact (harmless ':' (allowed ':' member)).2.2 rfl

theorem allowed_metaFile {name : String} (passes : EndpointName name) :
    ∀ c ∈ (metaFile name).toList, allowedCharacter c = true := by
  intro c member
  rw [metaFile, String.toList_append] at member
  rcases List.mem_append.mp member with first | last
  · exact passes.2.1 c first
  · have ending : ".meta.yaml".toList.all allowedCharacter = true := by decide
    exact List.all_eq_true.mp ending c last

/-- What a stage writes is the agent's own. -/
theorem own_staged {name : String} (passes : EndpointName name) (content md5 : String)
    (metaYaml : Option String) {path : Path} (staged : Staged name path) :
    Own placement (.stageScript name content md5 metaYaml) (.file path) := by
  have script := fun directory => @directlyIn_allowed host name (proper_name passes) passes.2.1 directory
  have scriptMeta := fun directory => @directlyIn_allowed host (metaFile name) (proper_metaFile name)
    (allowed_metaFile passes) directory
  rcases staged with rfl | rfl | rfl | rfl | rfl | rfl
  · exact .inr (script _)
  · exact .inr (scriptMeta _)
  · exact .inl (script _)
  · exact .inl (scriptMeta _)
  · trivial
  · trivial

/-! ## Submissions -/

def opened (host : Host) {A : Type} (p : Action A) (w : World) : List Path :=
  (p.calls (handle host) w).flatMap Op.opens

theorem opened_bind {A B : Type} (p : Action A) (next : A → Action B) (w : World) :
    opened host (p >>= next) w = opened host p w ++
      match host.run p w with
      | (.ok a, after) => opened host (next a) after
      | (.error _, _) => [] := by
  rw [opened, calls_bind, List.flatMap_append]
  congr 1
  change List.flatMap Op.opens (callsAfter (handle host) next (host.run p w)) = _
  generalize host.run p w = ends
  rcases ends with ⟨e | a, after⟩ <;> rfl

theorem opened_perform (op : Op) (w : World) : opened host (perform op) w = op.opens := by
  rw [opened, perform, calls_perform]
  simp

def Reads (op : Op) : Prop := op.opens = []

theorem opened_reads {A : Type} {p : Action A} (uses : p.Uses Reads) (w : World) :
    opened host p w = [] := by
  rw [opened, List.flatMap_eq_nil_iff]
  exact fun op made => allowed_of_mem_calls uses made

theorem opened_reads_bind {A B : Type} {p : Action A} (uses : p.Uses Reads) (next : A → Action B)
    (w : World) : opened host (p >>= next) w =
      match host.run p w with
      | (.ok a, after) => opened host (next a) after
      | (.error _, _) => [] := by
  rw [opened_bind, opened_reads uses, List.nil_append]

theorem opened_bind_reads {A B : Type} (p : Action A) {next : A → Action B}
    (uses : ∀ a, (next a).Uses Reads) (w : World) : opened host (p >>= next) w = opened host p w := by
  rw [opened_bind]
  generalize host.run p w = ends
  rcases ends with ⟨e | a, after⟩
  · exact List.append_nil _
  · exact (congrArg _ (opened_reads (uses a) after)).trans (List.append_nil _)

theorem reads_looks : Looks Reads :=
  ⟨rfl, fun _ => rfl, rfl, fun _ => rfl, rfl, fun _ => rfl, fun _ => rfl⟩

theorem opened_openLog (jobUuid : String) (w : World) :
    opened host (openLog host jobUuid) w = (host.logPath jobUuid).toList := by
  have directory : opened host (mkdir .logs) w = [] := opened_perform _ _
  rw [openLog, opened_bind, directory, List.nil_append, run_mkdir]
  cases located : host.logPath jobUuid with
  | none => rfl
  | some path => exact opened_perform _ _

theorem opened_writeLog (jobUuid : String) (result : ScriptResult) (w : World) :
    opened host (writeLog host jobUuid result) w = (host.logPath jobUuid).toList := by
  have directory : opened host (mkdir .logs) w = [] := opened_perform _ _
  rw [writeLog, opened_bind, directory, List.nil_append, run_mkdir]
  cases located : host.logPath jobUuid with
  | none => rfl
  | some path => exact opened_perform _ _

def prepared (host : Host) (verb : String) (body : JobRequest) (w : World) :
    Except Err (Command × Dict String String) :=
  (w.resynced host).disk.prepared host verb body.scriptName body.params
    (describe (w.resynced host).memory.store body.scriptName)

def logIf {A : Type} (checks : Except Err A) (log : Option Path) : List Path :=
  match checks with
  | .ok _ => log.toList
  | .error _ => []

theorem mem_logIf {A : Type} {path : Path} (checks : Except Err A) (log : Option Path) :
    path ∈ logIf checks log ↔ (∃ ready, checks = .ok ready) ∧ log = some path := by
  cases checks <;> simp [logIf]

theorem opened_start (body : JobRequest) (w : World) :
    opened host (ProcessManager.start host body.scriptName body.params body.jobUuid) w =
      logIf (prepared host "start" body w) (host.logPath body.jobUuid) := by
  rw [ProcessManager.start, opened_reads_bind (uses_prepare reads_looks (fun _ => rfl) _ _ _), run_prepare]
  unfold prepared
  cases (w.resynced host).disk.prepared host "start" body.scriptName body.params
      (describe (w.resynced host).memory.store body.scriptName) with
  | error e => rfl
  | ok ready =>
    simp only
    rw [opened_bind_reads, opened_openLog]
    · rfl
    exact fun _ => uses_bind (@uses_perform _ _ _ Reads (.popen ..) rfl) fun _ =>
      uses_bind (@uses_perform _ _ _ Reads .now rfl) fun _ => uses_pure

theorem opened_runScript (body : JobRequest) (w : World) :
    opened host (runScript host body.scriptName body.params) w = [] := by
  apply opened_reads
  refine uses_bind (uses_prepare reads_looks (fun _ => rfl) _ _ _) fun ready => ?_
  exact @uses_perform _ _ _ Reads (.runToEnd ..) rfl

theorem opened_tryCatch {A : Type} (p : Action A) (translate : Err → Err) (w : World) :
    opened host (MonadExcept.tryCatch p fun e => throw (translate e)) w = opened host p w := by
  rw [opened, calls_tryCatch_throw]
  rfl

def Expected (host : Host) (w : World) (body : JobRequest) : Prop :=
  ∀ expected, body.expectedMd5 = some expected →
    (describe (w.resynced host).memory.store body.scriptName).approvedMd5 = some expected

theorem run_checkExpectedMd5 (body : JobRequest) (w : World) :
    (¬ Expected host w body ∧ ∃ e after, host.run (checkExpectedMd5 host body) w = (.error e, after)) ∨
      Expected host w body ∧ ∃ after, host.run (checkExpectedMd5 host body) w = (.ok (), after) ∧
        after.resynced host = w.resynced host := by
  unfold checkExpectedMd5 Expected
  cases body.expectedMd5 with
  | none => exact .inr ⟨nofun, w, rfl, rfl⟩
  | some expected =>
    simp only [Proc.run_bind, run_getState, Proc.follow_ok, Option.some.injEq, forall_eq']
    by_cases same : (describe (w.resynced host).memory.store body.scriptName).approvedMd5 = some expected
    · rw [if_neg (not_not.mpr same)]
      exact .inr ⟨same, _, rfl, w.resynced_resynced host⟩
    · rw [if_pos same]
      exact .inl ⟨same, _, _, rfl⟩

theorem uses_checkExpectedMd5 (body : JobRequest) : (checkExpectedMd5 host body).Uses Reads := by
  unfold checkExpectedMd5
  cases body.expectedMd5 with
  | none => trivial
  | some expected =>
    refine uses_bind (uses_getState reads_looks _) fun found => ?_
    split <;> trivial

theorem opened_submitJob (body : JobRequest) (w : World) (path : Path) :
    path ∈ opened host (submitJob host body) w ↔
      Passes host w body ∧ host.logPath body.jobUuid = some path := by
  rw [submitJob, opened_reads_bind (uses_checkExpectedMd5 body)]
  rcases run_checkExpectedMd5 body w with ⟨differs, e, after, checked⟩ | ⟨same, after, checked, resynced⟩
  · rw [checked]
    constructor
    · exact nofun
    · rintro ⟨passes, _⟩
      exact absurd passes.1 differs
  have checks : ∀ verb, prepared host verb body after = prepared host verb body w := by
    intro verb
    rw [prepared, resynced]
    rfl
  rw [checked]
  simp only
  by_cases persistent : body.persistent
  · rw [if_pos persistent, opened_tryCatch, opened_start, checks, mem_logIf]
    unfold Passes
    rw [if_pos persistent]
    exact ⟨fun held => ⟨⟨same, held.1⟩, held.2⟩, fun held => ⟨held.1.2, held.2⟩⟩
  · have now : utcNow.Uses Reads := @uses_perform _ _ _ Reads .now rfl
    rw [if_neg persistent, opened_reads_bind now, run_utcNow]
    simp only
    rw [opened_bind, opened_tryCatch, opened_runScript, List.nil_append]
    have passes : Passes host w body ↔ ∃ ready, prepared host "run" body w = .ok ready := by
      unfold Passes
      rw [if_neg persistent]
      exact ⟨fun held => held.2, fun ready => ⟨same, ready⟩⟩
    rw [passes, ← mem_logIf, ← checks]
    simp only [Proc.run_tryCatch, run_runScript, prepared]
    cases (after.resynced host).disk.prepared host "run" body.scriptName body.params
        (describe (after.resynced host).memory.store body.scriptName) with
    | error e => exact Iff.rfl
    | ok ready =>
      simp only [Proc.recoverWith_ok]
      rw [opened_bind_reads, opened_writeLog]
      · rfl
      exact fun _ => uses_bind now fun _ => uses_pure

theorem opened_discard {A : Type} (p : Action A) (w : World) :
    opened host (do let _ ← p : Action Unit) w = opened host p w := by
  apply opened_bind_reads
  exact fun _ => uses_pure

theorem mem_writes (autoApprove : List String) (w : World) (request : Request) (target : Written) :
    target ∈ request.writes host autoApprove w ↔
      (∃ path ∈ opened host (request.action host autoApprove) w, target = .file path) ∨
        request.savesState ∧ (target = .runningTmp ∨ target = .running) := by
  unfold Request.writes
  rw [List.mem_append, List.mem_map]
  constructor
  · rintro (⟨path, member, rfl⟩ | member)
    · exact .inl ⟨path, member, rfl⟩
    · split at member
      next saves => exact .inr ⟨saves, by simpa using member⟩
      · cases member
  · rintro (⟨path, member, rfl⟩ | ⟨saves, running⟩)
    · exact .inl ⟨path, member, rfl⟩
    · right
      simpa [saves] using running

/-- What a request other than a submission writes is the agent's own. -/
theorem own_elsewhere (autoApprove : List String) (w : World) {request : Request}
    (other : ∀ body, request ≠ .submitJob body) {path : Path}
    (member : path ∈ opened host (request.action host autoApprove) w) :
    Own placement request (.file path) := by
  cases request with
  | submitJob body => exact absurd rfl (other body)
  | healthz | getJobStatus jobUuid | killJob jobUuid | streamJobLogs jobUuid tail => cases member
  | getScriptState name =>
    rw [Request.action, opened_discard, Agent.getScriptState] at member
    split at member
    · rw [opened_reads (uses_getState reads_looks name)] at member
      cases member
    · cases member
  | stageScript name content md5 metaYaml =>
    rw [Request.action, opened_discard, Agent.stageScript] at member
    split at member
    next passes =>
      rw [opened_tryCatch] at member
      obtain ⟨op, made, opens⟩ := List.mem_flatMap.mp member
      apply own_staged passes
      exact allowed_of_mem_calls (uses_stage autoApprove name content md5 metaYaml) made path opens
    · cases member

theorem own_log (body : JobRequest) {path : Path} (notStore : path ≠ .approvals)
    (notTmp : path ≠ .approvalsTmp) : Own placement (.submitJob body) (.file path) ↔
      host.DirectlyIn placement.paths.logsDir (placement.locate path) := by
  cases path with
  | approvals => exact absurd rfl notStore
  | approvalsTmp => exact absurd rfl notTmp
  | scripts file | pending file | log file | other location => exact Iff.rfl

/-- Everything a request opens for writing, creates or replaces is the agent's own, unless it
is a submission that comes to a log whose path does not lead back to logs/. -/
theorem writes_are_confined (placement : Placement host) (opens : placement.Opens)
    (autoApprove : List String) (w : World) (request : Request) :
    (∀ target ∈ request.writes host autoApprove w, Own placement request target) ↔
      ∀ body, request = .submitJob body → Passes host w body → (host.logPath body.jobUuid).isSome →
        placement.LeadsBack body.jobUuid := by
  have leads : ∀ body path, host.logPath body.jobUuid = some path →
      (Own placement (.submitJob body) (.file path) ↔ placement.LeadsBack body.jobUuid) := by
    intro body path located
    have suffix := host.logPath_suffix body.jobUuid
    rw [located] at suffix
    rw [own_log body (fun same => suffix.1 (congrArg some same)) (fun same => suffix.2 (congrArg some same)),
      opens _ _ located, directlyIn_log]
  constructor
  · rintro confined body rfl passes located
    obtain ⟨path, located⟩ := Option.isSome_iff_exists.mp located
    apply (leads body path located).mp
    apply confined
    rw [mem_writes, Request.action, opened_discard]
    exact .inl ⟨path, (opened_submitJob body w path).mpr ⟨passes, located⟩, rfl⟩
  · intro logs target member
    rcases (mem_writes autoApprove w request target).mp member with ⟨path, written, rfl⟩ | ⟨_, rfl | rfl⟩
    · by_cases submits : ∃ body, request = .submitJob body
      · obtain ⟨body, rfl⟩ := submits
        rw [Request.action, opened_discard, opened_submitJob] at written
        apply (leads body path written.2).mpr
        exact logs body rfl written.1 (by simp [written.2])
      · exact own_elsewhere autoApprove w (fun body same => submits ⟨body, same⟩) written
    · trivial
    · trivial

/-! ## An installation on Linux -/

def home (names : List String) : Location := ⟨[], (names.map String.toList).reverse⟩

def homePlacement : Placement linux where
  paths :=
    { scriptsDir := home ["home", "csl", "scripts"]
      pendingDir := home ["home", "csl", "scripts.pending"]
      logsDir := home ["home", "csl", "logs"]
      approvalsPath := home ["home", "csl", "agent", "approvals.json"]
      statePath := home ["home", "csl", "agent", "running.json"] }
  elsewhere location := ⟨[], walk [] (location.toList.splitOnP (· = '/'))⟩

theorem linux_separates (c : Char) : linux.separates c = decide (c = '/') := by
  simp [Host.separates, linux]

theorem linux_anchor (path : List Char) (relative : path.head? ≠ some '/') :
    linux.anchor path = (.directory, path) := by
  cases path with
  | nil => rfl
  | cons c rest =>
    have plain : c ≠ '/' := fun same => relative (congrArg some same)
    simp [Host.anchor, linux, Host.separates, plain]

theorem join_climbing (rest : List Char) (plain : '/' ∉ rest) :
    linux.join homePlacement.paths.logsDir (String.ofList ("../scripts/".toList ++ rest) ++ ".log") =
      linux.join homePlacement.paths.scriptsDir (String.ofList rest ++ ".log") := by
  have names : ∀ c ∈ rest ++ ".log".toList, linux.separates c = false := by
    intro c member
    rcases List.mem_append.mp member with first | last
    · rw [linux_separates, decide_eq_false_iff_not]
      rintro rfl
      exact plain first
    · exact log_plain c last
  -- the path goes up from logs/ and down into scripts/
  have split : ("../scripts/".toList ++ (rest ++ ".log".toList)).splitOnP linux.separates =
      ["..".toList, "scripts".toList, rest ++ ".log".toList] := by
    have up : ∀ c ∈ "..".toList, linux.separates c = false := by
      intro c member
      have none : "..".toList.any linux.separates = false := by decide
      exact Bool.eq_false_iff.mpr fun separates => List.any_eq_false.mp none c member separates
    have down : ∀ c ∈ "scripts".toList, linux.separates c = false := by
      intro c member
      have none : "scripts".toList.any linux.separates = false := by decide
      exact Bool.eq_false_iff.mpr fun separates => List.any_eq_false.mp none c member separates
    have first := List.splitOnP_append_cons_of_forall_mem up '/' (by decide)
      ("scripts".toList ++ '/' :: (rest ++ ".log".toList))
    rw [List.splitOnP_append_cons_of_forall_mem down '/' (by decide), names_plain names] at first
    exact first
  have head : (rest ++ ".log".toList).head? ≠ some '/' := by
    intro same
    have separator := names '/' (List.mem_of_mem_head? same)
    rw [linux_separates] at separator
    cases separator
  have lists : (String.ofList ("../scripts/".toList ++ rest) ++ ".log").toList =
      "../scripts/".toList ++ (rest ++ ".log".toList) := by simp
  have plainLists : (String.ofList rest ++ ".log").toList = rest ++ ".log".toList := by simp
  unfold Host.join
  rw [lists, plainLists, linux_anchor _ (by simp), linux_anchor _ head]
  simp only [Host.start, Option.map_some, split, names_plain names]
  rw [show ["..".toList, "scripts".toList, rest ++ ".log".toList] =
    ["..".toList, "scripts".toList] ++ [rest ++ ".log".toList] from rfl, walk_snoc_proper (proper_log rest),
    walk_single (proper_log rest)]
  rfl

theorem eq_append_of_isPrefixOf? {front path rest : List Char}
    (prefixed : front.isPrefixOf? path = some rest) : path = front ++ rest := by
  induction front generalizing path with
  | nil => simpa [List.isPrefixOf?] using prefixed
  | cons c front ih =>
    cases path with
    | nil => simp [List.isPrefixOf?] at prefixed
    | cons d path =>
      simp only [List.isPrefixOf?] at prefixed
      split at prefixed
      next same => rw [ih prefixed, ← beq_iff_eq.mp same, List.cons_append]
      · cases prefixed

theorem home_opens : homePlacement.Opens := by
  intro jobUuid path located
  change Installation.logPath jobUuid = some path at located
  unfold Installation.logPath at located
  split at located
  next rest climbs =>
    split at located
    · cases located
    next plain =>
      cases located
      have named : jobUuid = String.ofList ("../scripts/".toList ++ rest) := by
        rw [← eq_append_of_isPrefixOf? climbs, String.ofList_toList]
      rw [named]
      exact (join_climbing rest plain).symm
  next =>
    split at located
    · cases located
    · cases located
      rfl

def approvedEvents : List (Timestamp × Mutation) :=
  [("1", .stage "deploy" scriptOne md5One none), ("2", .approve "deploy")]

def job (jobUuid : String) : Request := .submitJob ⟨jobUuid, "deploy", Dict.empty, true, none⟩

/-- A job with a plain uuid logs in logs/. -/
theorem plain_job_is_confined :
    let w := Runs.run (Mutation.serve linux []) World.fresh approvedEvents
    .file (.log "job-1.log") ∈ (job "job-1").writes linux [] w ∧
      ∀ target ∈ (job "job-1").writes linux [] w, Own homePlacement (job "job-1") target := by
  refine ⟨by decide +kernel, (writes_are_confined homePlacement home_opens [] _ (job "job-1")).mpr ?_⟩
  rintro body ⟨⟩ _ _
  exact ⟨homePlacement.paths.logsDir, [], "job-1.log".toList, by decide, by decide, by decide, by decide⟩

/-- A job uuid that climbs out of logs/ creates or empties a file among the scripts. -/
theorem climbing_job_escapes :
    let w := Runs.run (Mutation.serve linux []) World.fresh approvedEvents
    .file (.scripts "victim.log") ∈ (job "../scripts/victim").writes linux [] w ∧
      ¬ Own homePlacement (job "../scripts/victim") (.file (.scripts "victim.log")) := by
  refine ⟨by decide +kernel, ?_⟩
  intro own
  have place : homePlacement.locate (.scripts "victim.log") =
      some ⟨[], "victim.log".toList :: homePlacement.paths.scriptsDir.place⟩ := by decide
  have inside : linux.DirectlyIn homePlacement.paths.logsDir
    (homePlacement.locate (.scripts "victim.log")) := own
  rw [place, directlyIn_some] at inside
  obtain ⟨_, _, ⟨⟩, same⟩ := inside
  revert same
  decide

end Confinement

end Csl.Agent
