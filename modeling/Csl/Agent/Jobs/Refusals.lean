import Csl.Agent.Jobs.Reported

/-! How the agent refuses jobs.

The checks raise exceptions that submit_job answers, but the parser of the metadata raises one that it
does not, and behind the checks stand the log and Popen, whose exceptions nobody answers.
-/

set_option autoImplicit false

namespace Csl.Agent.Refusals
open Csl.Shared ApprovalsManager

inductive Structured : Err → Prop where
  | forbidden (message : String) : Structured (.http 403 (.text message))
  | notFound (name : String) : Structured (.http 404 (.notFound name))
  | conflict (error : String) (state : ApprovalState) (detail : String) :
      Structured (.http 409 (.approvalError error state detail))
  | invalid (name : String) (problem : ParamProblem) : Structured (.http 422 (.validationError name problem))

def unapproved (verb name : String) (state : ApprovalState) : Err :=
  .scriptNotApproved (s!"refusing to {verb} '{name}': approval state is" ++
    s!" '{state.text}' (must be approved)")

/-- The branches refuse alike, up to their verbs. -/
inductive Alike {A : Type} (name : String) : Except Err A → Except Err A → Prop where
  | same (answer : Except Err A) : Alike name answer answer
  | unapproved (state : ApprovalState) :
      Alike name (.error (jobRefusal (unapproved "run" name state)))
        (.error (jobRefusal (unapproved "start" name state)))

variable (launcher : Launcher) (host : Host) (w : World) (body : JobRequest)

def ran (persistent : Bool) : Except Err JobStatusResponse × World :=
  launcher.submitted host w { body with persistent }

def LaunchesNothing (persistent : Bool) : Prop := (ran launcher host w body persistent).2.launched = w.launched

/-- Where a branch launches nothing it answers in structured form, and the other branch does the same. -/
structure Refuses : Prop where
  structured : ∀ persistent, LaunchesNothing launcher host w body persistent →
    ∃ e, (ran launcher host w body persistent).1 = .error e ∧ Structured e
  alike : ∀ persistent, LaunchesNothing launcher host w body persistent →
    LaunchesNothing launcher host w body (!persistent) ∧
      Alike body.scriptName (ran launcher host w body false).1 (ran launcher host w body true).1

/-- An approved script's metadata parses, and what passes the checks gets a log and a process. -/
structure Answerable : Prop where
  parses : let found := describe (w.resynced host).memory.store body.scriptName
    md5Check body found = .ok () → found.state = .approved →
      ∀ text, (w.resynced host).disk.metadata host body.scriptName = some text →
        ∃ scriptMeta, host.parseMetaYaml text = .ok scriptMeta
  starts : ∀ command env, w.checked host "start" body = .ok (command, env) →
    (host.logPath body.jobUuid).isSome ∧ launcher.popenError command env = none

variable {launcher host w body}

/-! ## What the checks raise -/

theorem prepared_unapproved {disk : Disk} {verb name : String} {params : Params} {found : ScriptDescriptor}
    (other : found.state ≠ .approved) :
    disk.prepared host verb name params found = .error (unapproved verb name found.state) := if_neg other

theorem prepared_approved {disk : Disk} {name : String} {params : Params} {found : ScriptDescriptor}
    (approved : found.state = .approved) (verb other : String) :
    disk.prepared host verb name params found = disk.prepared host other name params found := by
  unfold Disk.prepared
  rw [if_pos approved, if_pos approved]

theorem checkParams_structured {name : String} {params : Params} {text : Option String} {e : Err}
    (parses : ∀ given, text = some given → ∃ scriptMeta, host.parseMetaYaml given = .ok scriptMeta)
    (refused : checkParams host name params text = .error e) : Structured (jobRefusal e) := by
  cases text with
  | none =>
    simp only [checkParams] at refused
    by_cases given : params.keys = []
    · rw [if_pos given] at refused
      cases refused
    · rw [if_neg given] at refused
      cases refused
      exact .invalid _ _
  | some given =>
    obtain ⟨scriptMeta, parsed⟩ := parses given rfl
    simp only [checkParams, parsed] at refused
    split at refused
    · cases refused
    · cases refused
      exact .invalid _ _

theorem foundFrom_present {disk : Disk} {name : String} {endings : List String} {script : Path}
    (found : disk.foundFrom host name endings = .ok script) : (disk.text? host script).isSome := by
  induction endings with
  | nil => cases found
  | cons ending rest ih =>
    rw [Disk.foundFrom] at found
    by_cases present : (disk.read host (.scripts (name ++ ending))).isSome
    · rw [if_pos present] at found
      cases found
      rw [Disk.isSome_text?]
      exact present
    · rw [if_neg present] at found
      exact ih found

theorem foundFrom_error {disk : Disk} {name : String} {endings : List String} {e : Err}
    (missing : disk.foundFrom host name endings = .error e) : e = .scriptNotFound name (extensions host) := by
  induction endings with
  | nil =>
    cases missing
    rfl
  | cons ending rest ih =>
    rw [Disk.foundFrom] at missing
    split at missing
    · cases missing
    · exact ih missing

/-- A script that is there is refused for its content only. -/
theorem integrity_structured {disk : Disk} {name : String} {script : Path} {approvedMd5 : Option String} {e : Err}
    (present : (disk.text? host script).isSome)
    (refused : disk.integrity host name script approvedMd5 = .error e) : Structured (jobRefusal e) := by
  obtain ⟨text, read⟩ := Option.isSome_iff_exists.mp present
  cases approvedMd5 with
  | none => cases refused
  | some md5 =>
    simp only [Disk.integrity, read] at refused
    split at refused
    · cases refused
    · cases refused
      exact .conflict _ _ _

theorem buildCommand_error {script : Path} {e : Err} (refused : buildCommand host script = .error e) :
    e = .noInterpreter script := by
  unfold buildCommand at refused
  simp only at refused
  split_ifs at refused
  cases refused
  rfl

/-- If the metadata parses, every check that fails is answered in structured form. -/
theorem prepared_structured {disk : Disk} {verb name : String} {params : Params} {found : ScriptDescriptor} {e : Err}
    (parses : found.state = .approved → ∀ text, disk.metadata host name = some text →
      ∃ scriptMeta, host.parseMetaYaml text = .ok scriptMeta)
    (refused : disk.prepared host verb name params found = .error e) : Structured (jobRefusal e) := by
  by_cases approved : found.state = .approved
  · unfold Disk.prepared at refused
    rw [if_pos approved] at refused
    cases valid : checkParams host name params (disk.metadata host name) with
    | error raised =>
      rw [valid] at refused
      cases refused
      exact checkParams_structured (parses approved) valid
    | ok _ =>
      cases located : disk.foundScript host name with
      | error raised =>
        rw [valid, located] at refused
        cases refused
        rw [foundFrom_error located]
        exact .notFound _
      | ok script =>
        cases intact : disk.integrity host name script found.approvedMd5 with
        | error raised =>
          simp only [valid, located, intact, bind, Except.bind] at refused
          cases refused
          exact integrity_structured (foundFrom_present located) intact
        | ok _ =>
          cases built : buildCommand host script with
          | error raised =>
            simp only [valid, located, intact, built, bind, Except.bind] at refused
            cases refused
            rw [buildCommand_error built]
            exact .notFound _
          | ok command => simp [valid, located, intact, built, bind, Except.bind, pure, Except.pure] at refused
  · rw [prepared_unapproved approved] at refused
    cases refused
    exact .forbidden _

/-- The checks of the two branches fail together, and alike. -/
theorem checked_alike : Alike body.scriptName (w.checked host "run" body) (w.checked host "start" body) := by
  unfold World.checked
  dsimp only
  split
  · exact .same _
  · by_cases approved : (describe (w.resynced host).memory.store body.scriptName).state = .approved
    · rw [prepared_approved approved "run" "start"]
      exact .same _
    · rw [prepared_unapproved approved, prepared_unapproved approved]
      exact .unapproved _

/-! ## The two branches -/

theorem checked_body (verb : String) (persistent : Bool) :
    w.checked host verb { body with persistent } = w.checked host verb body := rfl

theorem ran_refused {persistent : Bool} {e : Err}
    (refused : w.checked host (if persistent then "start" else "run") body = .error e) :
    (ran launcher host w body persistent).1 = .error e ∧ LaunchesNothing launcher host w body persistent := by
  have named : w.checked host (Launcher.verb { body with persistent }) { body with persistent } = .error e := by
    rw [checked_body]
    exact refused
  exact Launcher.submitted_refused named

theorem checked_structured (answerable : Answerable launcher host w body) {verb : String} {e : Err}
    (refused : w.checked host verb body = .error e) : Structured e := by
  unfold World.checked at refused
  dsimp only at refused
  split at refused
  next raised mismatch =>
    cases refused
    unfold md5Check at mismatch
    split at mismatch
    · cases mismatch
    · split at mismatch
      · cases mismatch
        exact .conflict _ _ _
      · cases mismatch
  next expected =>
    cases prepared : (w.resynced host).disk.prepared host verb body.scriptName body.params
        (describe (w.resynced host).memory.store body.scriptName) with
    | ok ready =>
      rw [prepared] at refused
      cases refused
    | error raised =>
      rw [prepared] at refused
      cases refused
      exact prepared_structured (answerable.parses expected) prepared

theorem checked_unparsed {text message : String}
    (expected : md5Check body (describe (w.resynced host).memory.store body.scriptName) = .ok ())
    (approved : (describe (w.resynced host).memory.store body.scriptName).state = .approved)
    (described : (w.resynced host).disk.metadata host body.scriptName = some text)
    (unparsed : host.parseMetaYaml text = .error message) (verb : String) :
    w.checked host verb body = .error (.scriptMeta message) := by
  have raised : checkParams host body.scriptName body.params
      ((w.resynced host).disk.metadata host body.scriptName) = .error (.scriptMeta message) := by
    rw [described, checkParams, unparsed]
  unfold World.checked Disk.prepared
  simp only [expected, if_pos approved, raised]
  rfl

theorem popenError_unstructured (e : PopenError) : ¬ Structured e.raised := by
  cases e <;> exact nofun

theorem ran_start {command : Command} {env : Dict String String}
    (passed : w.checked host "start" body = .ok (command, env)) :
    ran launcher host w body true =
      match host.logPath body.jobUuid with
      | none => (.error (.cannotOpenLog body.jobUuid), w.resynced host)
      | some path =>
        match launcher.popenError command env with
        | some e => (.error e.raised, (w.resynced host).logOpened host path)
        | none =>
          (.ok { jobUuid := body.jobUuid, scriptName := body.scriptName, status := .running,
                 persistent := true, startedAt := w.now },
            ((w.resynced host).logOpened host path).launch host body.scriptName command env) :=
  Launcher.submitted_start rfl passed

/-- With a log and a process to be had, a persistent job is launched. -/
theorem start_launches {command : Command} {env : Dict String String}
    (passed : w.checked host "start" body = .ok (command, env)) (opens : (host.logPath body.jobUuid).isSome)
    (starts : launcher.popenError command env = none) : ¬ LaunchesNothing launcher host w body true := by
  obtain ⟨path, located⟩ := Option.isSome_iff_exists.mp opens
  intro nothing
  rw [LaunchesNothing, ran_start passed, located] at nothing
  simp only [starts] at nothing
  have more : w.launched ++ [_] = w.launched := (congrArg (· ++ [_]) (launched_resynced host w)).symm.trans nothing
  exact absurd (List.append_right_eq_self.mp more) (List.cons_ne_nil _ _)

theorem run_launches {command : Command} {env : Dict String String}
    (passed : w.checked host "run" body = .ok (command, env))
    (starts : launcher.popenError command env = none) : ¬ LaunchesNothing launcher host w body false := by
  have ends := (@Launcher.submitted_run launcher host w { body with persistent := false } rfl command env passed).2 starts
  intro nothing
  have kept : (ran launcher host w body false).2.launched =
      ((w.resynced host).launch host body.scriptName command env).launched := by
    unfold ran
    rw [ends]
    dsimp only
    split <;> rfl
  rw [LaunchesNothing, kept] at nothing
  have more : w.launched ++ [_] = w.launched := (congrArg (· ++ [_]) (launched_resynced host w)).symm.trans nothing
  exact absurd (List.append_right_eq_self.mp more) (List.cons_ne_nil _ _)

def approvedUnparsed : List Launches.Event :=
  [("1", .mutate (.stage "deploy" Installation.scriptOne Installation.md5One (some "- no mapping"))),
    ("2", .mutate (.approve "deploy"))]

def unparsedWorld : World := Runs.run (Launches.serve linux []) World.fresh approvedUnparsed

end Csl.Agent.Refusals
