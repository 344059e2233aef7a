import Csl.Agent.Approvals.Specs
import Csl.Agent.Main

/-! What the checks before a launch do when nothing interrupts them.

The checks only read: their outcome is a function of the approval record and of
the files in scripts/, and the world they leave is the resynchronised one.
-/

set_option autoImplicit false

namespace Csl.Agent
open Csl.Shared ApprovalsManager

namespace Disk
variable (host : Host) (disk : Disk)

def foundFrom (name : String) : List String → Except Err Path
  | [] => .error (.scriptNotFound name (extensions host))
  | ending :: rest =>
    if (disk.read host (.scripts (name ++ ending))).isSome then .ok (.scripts (name ++ ending))
    else foundFrom name rest

def foundScript (name : String) : Except Err Path := disk.foundFrom host name (extensions host)

def integrity (name : String) (script : Path) : Option String → Except Err Unit
  | none => .ok ()
  | some approvedMd5 =>
    match disk.text? host script with
    | none => .error (.fileNotFound script)
    | some text =>
      if host.md5 text = approvedMd5 then .ok ()
      else .error (.scriptIntegrity
        s!"refusing to run '{name}': on-disk MD5 {host.md5 text} != approved {approvedMd5}")

def metadata (name : String) : Option String :=
  (disk.text? host (.scripts (metaFile name))).map Newlines.universal

def prepared (verb name : String) (params : Params) (found : ScriptDescriptor) :
    Except Err (Command × Dict String String) :=
  if found.state = .approved then do
    checkParams host name params (disk.metadata host name)
    let script ← disk.foundScript host name
    disk.integrity host name script found.approvedMd5
    let command ← buildCommand host script
    return (command, buildEnv host params)
  else .error (.scriptNotApproved (s!"refusing to {verb} '{name}': approval state is" ++
    s!" '{found.state.text}' (must be approved)"))

end Disk

section
variable {host : Host}

theorem run_liftExcept {A : Type} (result : Except Err A) (w : World) :
    host.run (liftExcept result) w = (result, w) := by
  cases result <;> rfl

theorem run_validateParams (name : String) (params : Params) (w : World) :
    host.run (validateParams host name params) w =
      (checkParams host name params (w.disk.metadata host name), w) := by
  cases found : w.disk.read host (.scripts (metaFile name)) with
  | none => simp [validateParams, Disk.metadata, Disk.text?, found, run_liftExcept]
  | some file => simp [validateParams, Disk.metadata, Disk.text?, found, run_readText, run_liftExcept]

theorem run_findFrom (name : String) (endings : List String) (w : World) :
    host.run (findFrom host name endings) w = (w.disk.foundFrom host name endings, w) := by
  induction endings with
  | nil => rfl
  | cons ending rest ih =>
    by_cases present : (w.disk.read host (.scripts (name ++ ending))).isSome
    · simp [findFrom, Disk.foundFrom, present]
    · simpa [findFrom, Disk.foundFrom, present] using ih

theorem run_findScript (name : String) (w : World) :
    host.run (findScript host name) w = (w.disk.foundScript host name, w) := run_findFrom _ _ _

theorem run_verifyScriptIntegrity (name : String) (script : Path) (approvedMd5 : Option String)
    (w : World) :
    host.run (verifyScriptIntegrity host name script approvedMd5) w =
      (w.disk.integrity host name script approvedMd5, w) := by
  cases approvedMd5 with
  | none => rfl
  | some md5 =>
    cases found : w.disk.read host script with
    | none => simp [verifyScriptIntegrity, Disk.integrity, Disk.text?, run_readBytes, found]
    | some file =>
      by_cases same : host.md5 file.text = md5
      · simp [verifyScriptIntegrity, Disk.integrity, Disk.text?, run_readBytes, found, same]
      · simp [verifyScriptIntegrity, Disk.integrity, Disk.text?, run_readBytes, found, same]

theorem run_prepare (verb name : String) (params : Params) (w : World) :
    host.run (prepare host verb name params) w =
      ((w.resynced host).disk.prepared host verb name params
        (describe (w.resynced host).memory.store name), w.resynced host) := by
  simp only [prepare, Proc.run_bind, run_getState, Proc.follow_ok]
  by_cases approved : (describe (w.resynced host).memory.store name).state = .approved
  · simp only [approved, ne_eq, not_true_eq_false, if_false, Proc.run_bind, run_validateParams,
      Disk.prepared, if_true]
    cases valid : checkParams host name params ((w.resynced host).disk.metadata host name) with
    | error e => rfl
    | ok _ =>
      simp only [Proc.follow_ok, Proc.run_bind, run_findScript]
      cases found : (w.resynced host).disk.foundScript host name with
      | error e => rfl
      | ok script =>
        simp only [Proc.follow_ok, Proc.run_bind, run_verifyScriptIntegrity]
        cases intact : (w.resynced host).disk.integrity host name script
            (describe (w.resynced host).memory.store name).approvedMd5 with
        | error e => simp [intact, bind, Except.bind]
        | ok _ =>
          simp only [Proc.follow_ok, Proc.run_bind, run_liftExcept]
          cases command : buildCommand host script <;>
            simp [intact, command, bind, Except.bind, pure, Except.pure, Proc.follow, Proc.run]
  · simp [approved, Disk.prepared]

theorem buildCommand_script {script : Path} {command : Command}
    (built : buildCommand host script = .ok command) : command.script = script := by
  unfold buildCommand at built
  simp only at built
  split_ifs at built <;> cases built <;> rfl

structure Cleared (host : Host) (disk : Disk) (name : String) (params : Params)
    (found : ScriptDescriptor) (command : Command) (env : Dict String String) : Prop where
  approved : found.state = .approved
  script : disk.foundScript host name = .ok command.script
  intact : ∀ md5, found.approvedMd5 = some md5 →
    (disk.text? host command.script).map host.md5 = some md5
  env : env = buildEnv host params

theorem prepared_ok {disk : Disk} {verb name : String} {params : Params} {found : ScriptDescriptor}
    {command : Command} {env : Dict String String}
    (passed : disk.prepared host verb name params found = .ok (command, env)) :
    Cleared host disk name params found command env := by
  unfold Disk.prepared at passed
  split at passed
  next approved =>
    cases valid : checkParams host name params (disk.metadata host name) with
    | error e => simp [valid, bind, Except.bind] at passed
    | ok _ =>
      cases located : disk.foundScript host name with
      | error e => simp [valid, located, bind, Except.bind] at passed
      | ok script =>
        cases checked : disk.integrity host name script found.approvedMd5 with
        | error e => simp [valid, located, checked, bind, Except.bind] at passed
        | ok _ =>
          cases built : buildCommand host script with
          | error e => simp [valid, located, checked, built, bind, Except.bind] at passed
          | ok command' =>
            simp [valid, located, checked, built, bind, Except.bind, pure, Except.pure] at passed
            obtain ⟨rfl, rfl⟩ := passed
            rw [← buildCommand_script built] at located checked
            refine ⟨approved, located, ?_, rfl⟩
            intro md5 recorded
            rw [recorded] at checked
            simp only [Disk.integrity] at checked
            split at checked
            · cases checked
            next text present =>
              split at checked
              next same => simp [present, same]
              · cases checked
  · cases passed

/-- The checks on a script without metadata whose file has the approved md5. -/
theorem prepared_plain {disk : Disk} (verb : String) {name : String} {descriptor : ScriptDescriptor}
    {script : Path} {content : String} (approved : descriptor.state = .approved)
    (noMeta : disk.text? host (.scripts (metaFile name)) = none)
    (found : disk.foundScript host name = .ok script)
    (text : disk.text? host script = some content)
    (recorded : descriptor.approvedMd5 = some (host.md5 content)) :
    disk.prepared host verb name Dict.empty descriptor =
      (buildCommand host script).map fun command => (command, buildEnv host Dict.empty) := by
  have passed : checkParams host name Dict.empty (disk.metadata host name) = .ok () := by
    rw [Disk.metadata, noMeta]
    rfl
  have intact : disk.integrity host name script (some (host.md5 content)) = .ok () := by
    simp [Disk.integrity, text]
  unfold Disk.prepared
  rw [if_pos approved, passed, found, recorded]
  simp only [bind, Except.bind, intact]
  cases buildCommand host script <;> rfl

/-- The plain name is looked up last. -/
theorem extensions_split (host : Host) :
    ∃ proper, extensions host = proper ++ [""] ∧ ∀ ending ∈ proper, ending ≠ "" := by
  unfold extensions
  split
  · exact ⟨[".ps1", ".bat", ".cmd"], rfl, by decide⟩
  · exact ⟨[".sh", ".bash"], rfl, by decide⟩

/-- With no file under an extension, the lookup gets to the plain name. -/
theorem foundScript_plain {disk : Disk} {name : String}
    (absent : ∀ ending ∈ extensions host, ending ≠ "" →
      disk.text? host (.scripts (name ++ ending)) = none)
    (present : (disk.text? host (.scripts name)).isSome) :
    disk.foundScript host name = .ok (.scripts name) := by
  have plain : ∀ endings : List String, (∀ ending ∈ endings, ending ∈ extensions host ∧ ending ≠ "") →
      disk.foundFrom host name (endings ++ [""]) = .ok (.scripts name) := by
    intro endings among
    induction endings with
    | nil =>
      rw [Disk.isSome_text?] at present
      simp [Disk.foundFrom, present]
    | cons ending endings ih =>
      obtain ⟨member, proper⟩ := among ending List.mem_cons_self
      have missing := (Disk.text?_eq_none _).mp (absent ending member proper)
      rw [List.cons_append, Disk.foundFrom, missing]
      exact ih fun other later => among other (List.mem_cons_of_mem _ later)
  obtain ⟨endings, split, nonempty⟩ := extensions_split host
  rw [Disk.foundScript, split]
  apply plain
  intro ending member
  exact ⟨split ▸ List.mem_append_left _ member, nonempty ending member⟩

theorem run_runScript (name : String) (params : Params) (w : World) :
    host.run (runScript host name params) w =
      match (w.resynced host).disk.prepared host "run" name params
        (describe (w.resynced host).memory.store name) with
      | .error e => (.error e, w.resynced host)
      | .ok (command, env) =>
        (.ok (host.processResult (w.resynced host).launched.length),
          (w.resynced host).launch host name command env) := by
  simp only [runScript, Proc.run_bind, run_prepare]
  cases (w.resynced host).disk.prepared host "run" name params
      (describe (w.resynced host).memory.store name) with
  | error e => rfl
  | ok ready => simp

def World.logOpened (host : Host) (w : World) (path : Path) : World :=
  { w with disk := w.disk.write host path "" }

theorem run_openLog (jobUuid : String) (w : World) :
    host.run (openLog host jobUuid) w =
      match host.logPath jobUuid with
      | none => (.error (.cannotOpenLog jobUuid), w)
      | some path => (.ok (), w.logOpened host path) := by
  cases located : host.logPath jobUuid <;> simp [openLog, located, World.logOpened, encode]

theorem run_start (name : String) (params : Params) (jobUuid : String) (w : World) :
    host.run (ProcessManager.start host name params jobUuid) w =
      match (w.resynced host).disk.prepared host "start" name params
        (describe (w.resynced host).memory.store name), host.logPath jobUuid with
      | .error e, _ => (.error e, w.resynced host)
      | .ok _, none => (.error (.cannotOpenLog jobUuid), w.resynced host)
      | .ok (command, env), some path =>
        (.ok { jobUuid, scriptName := name, status := .running, persistent := true,
               startedAt := (w.resynced host).now },
          ((w.resynced host).logOpened host path).launch host name command env) := by
  simp only [ProcessManager.start, Proc.run_bind, run_prepare]
  cases (w.resynced host).disk.prepared host "start" name params
      (describe (w.resynced host).memory.store name) with
  | error e => rfl
  | ok ready =>
    simp only [Proc.follow_ok, Proc.run_bind, run_openLog]
    cases located : host.logPath jobUuid with
    | none => rfl
    | some path => simp [World.launch, World.logOpened]

end

end Csl.Agent
