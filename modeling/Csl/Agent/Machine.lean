import Csl.Agent.Disk
import Csl.Library.Proc

/-! The primitive calls of agent code and their meaning.

Agent code reads and writes the fields of one ApprovalsManager, the files of
the installation and the clock, and launches processes. Everything the agent
does is a `Proc` over these calls.
-/

set_option autoImplicit false

namespace Csl.Agent
open Csl.Shared

/-- The fields of an ApprovalsManager that change: `_store` and `_sig`. -/
structure Memory where
  store : ApprovalsStore
  sig : Sig
  deriving DecidableEq

structure Command where
  interpreter : List String
  script : Path
  deriving DecidableEq, Repr

structure Launch where
  script : String
  command : Command
  env : Dict String String
  content : Option String
  deriving DecidableEq

structure World where
  memory : Memory
  disk : Disk
  now : Timestamp
  launched : List Launch

inductive ParamError where
  | unknown (key : String)
  | missing (name : String)
  | notString (name : String)
  | notBoolean (name : String)
  | notInteger (name : String)
  | notNumber (name : String)
  | notChoice (name : String) (choices : Option (List ParamValue))
  | belowMin (name : String) (min : PyFloat)
  | aboveMax (name : String) (max : PyFloat)
  deriving DecidableEq, Repr

inductive ParamProblem where
  | acceptsNone (keys : List String)
  | invalid (errors : List ParamError)
  deriving DecidableEq, Repr

inductive HttpDetail where
  | text (message : String)
  | notFound (name : String)
  | approvalError (error : String) (agentState : ApprovalState) (detail : String)
  | validationError (name : String) (problem : ParamProblem)
  deriving DecidableEq, Repr

/-- The exceptions agent code raises or lets through; `exit` ends a command with status 1. -/
inductive Err where
  | approval (message : String)
  | scriptNotApproved (message : String)
  | paramValidation (name : String) (problem : ParamProblem)
  | scriptMeta (message : String)
  | scriptNotFound (name : String) (tried : List String)
  | noInterpreter (script : Path)
  | scriptIntegrity (message : String)
  | fileNotFound (path : Path)
  | cannotOpenLog (jobUuid : String)
  | osError (message : String)
  | valueError (message : String)
  /-- `UnicodeDecodeError`. -/
  | undecodable
  | http (status : Nat) (detail : HttpDetail)
  | exit (message : String)
  deriving DecidableEq, Repr

inductive Newline where
  | exact | platform
  deriving DecidableEq, Repr

inductive Dir where
  | scripts | pending | logs | agent
  deriving DecidableEq, Repr

inductive Op where
  | getStore
  | setStore (store : ApprovalsStore)
  | getSig
  | setSig (sig : Sig)
  | now
  | mkdir (dir : Dir)
  | exists? (path : Path)
  | stat
  | readText (path : Path)
  | readBytes (path : Path)
  | writeText (path : Path) (text : String) (newline : Newline)
  | replace (source target : Path)
  | unlink (path : Path)
  | popen (script : String) (command : Command) (env : Dict String String)
  | runToEnd (script : String) (command : Command) (env : Dict String String)
  deriving DecidableEq

abbrev Reply : Op → Type
  | .getStore => ApprovalsStore
  | .getSig | .stat => Sig
  | .now => Timestamp
  | .exists? _ => Bool
  | .readText _ | .readBytes _ => String
  | .runToEnd .. => ScriptResult
  | .setStore _ | .setSig _ | .mkdir _ | .writeText .. | .replace .. | .unlink _ | .popen .. => Unit

abbrev Action := Proc Op Reply Err

def perform (op : Op) : Action (Reply op) := Proc.perform op

/-- The calls that change files; a crash falls between two of them. -/
def Op.Effect : Op → Prop
  | .mkdir _ | .writeText .. | .replace .. | .unlink _ => True
  | _ => False

instance : DecidablePred Op.Effect := fun op => by cases op <;> unfold Op.Effect <;> infer_instance

variable (host : Host)

def encode (newline : Newline) (text : String) : String :=
  match newline with
  | .exact => text
  | .platform => if host.isWindows then Newlines.crlf text else text

def World.launch (world : World) (script : String) (command : Command) (env : Dict String String) :
    World :=
  { world with
    launched := world.launched ++
      [⟨script, command, env, (world.disk.read host command.script).map (·.text)⟩] }

-- Directories are not part of the disk: ensure_dirs creates them before the
-- agent starts and nothing removes them, so mkdir with exist_ok changes nothing.
def handle : Handler Op Reply Err World
  | .getStore, w => (.ok w.memory.store, w)
  | .setStore store, w => (.ok (), { w with memory := { w.memory with store } })
  | .getSig, w => (.ok w.memory.sig, w)
  | .setSig sig, w => (.ok (), { w with memory := { w.memory with sig } })
  | .now, w => (.ok w.now, w)
  | .mkdir _, w => (.ok (), w)
  | .exists? path, w => (.ok (w.disk.read host path).isSome, w)
  | .stat, w => (.ok (w.disk.currentSig host), w)
  | .readText path, w =>
      match w.disk.read host path with
      | some file => (.ok (Newlines.universal file.text), w)
      | none => (.error (.fileNotFound path), w)
  | .readBytes path, w =>
      match w.disk.read host path with
      | some file => (.ok file.text, w)
      | none => (.error (.fileNotFound path), w)
  | .writeText path text newline, w =>
      (.ok (), { w with disk := w.disk.write host path (encode host newline text) })
  | .replace source target, w =>
      if (w.disk.read host source).isSome then
        (.ok (), { w with disk := w.disk.rename host source target })
      else (.error (.fileNotFound source), w)
  | .unlink path, w =>
      if (w.disk.read host path).isSome then
        (.ok (), { w with disk := w.disk.unlink host path })
      else (.error (.fileNotFound path), w)
  | .popen script command env, w => (.ok (), w.launch host script command env)
  | .runToEnd script command env, w =>
      (.ok (host.processResult w.launched.length), w.launch host script command env)

def getStore : Action ApprovalsStore := perform .getStore
def setStore (store : ApprovalsStore) : Action Unit := perform (.setStore store)
def getSig : Action Sig := perform .getSig
def setSig (sig : Sig) : Action Unit := perform (.setSig sig)
def utcNow : Action Timestamp := perform .now
def mkdir (dir : Dir) : Action Unit := perform (.mkdir dir)
def pathExists (path : Path) : Action Bool := perform (.exists? path)
def stat : Action Sig := perform .stat
def readText (path : Path) : Action String := perform (.readText path)
def readBytes (path : Path) : Action String := perform (.readBytes path)
def writeText (path : Path) (text : String) (newline : Newline) : Action Unit :=
  perform (.writeText path text newline)
def replace (source target : Path) : Action Unit := perform (.replace source target)
def unlink (path : Path) : Action Unit := perform (.unlink path)
def popen (script : String) (command : Command) (env : Dict String String) : Action Unit :=
  perform (.popen script command env)
def runToEnd (script : String) (command : Command) (env : Dict String String) : Action ScriptResult :=
  perform (.runToEnd script command env)

abbrev Host.run {A : Type} (p : Action A) (world : World) : Except Err A × World :=
  p.run (handle host) world

section
variable {host} (w : World)

@[simp] theorem run_getStore : host.run getStore w = (.ok w.memory.store, w) :=
  Proc.run_perform _ _ _

@[simp] theorem run_setStore (store : ApprovalsStore) :
    host.run (setStore store) w = (.ok (), { w with memory := { w.memory with store } }) :=
  Proc.run_perform _ _ _

@[simp] theorem run_getSig : host.run getSig w = (.ok w.memory.sig, w) := Proc.run_perform _ _ _

@[simp] theorem run_setSig (sig : Sig) :
    host.run (setSig sig) w = (.ok (), { w with memory := { w.memory with sig } }) :=
  Proc.run_perform _ _ _

@[simp] theorem run_utcNow : host.run utcNow w = (.ok w.now, w) := Proc.run_perform _ _ _

@[simp] theorem run_mkdir (dir : Dir) : host.run (mkdir dir) w = (.ok (), w) :=
  Proc.run_perform _ _ _

@[simp] theorem run_pathExists (path : Path) :
    host.run (pathExists path) w = (.ok (w.disk.read host path).isSome, w) :=
  Proc.run_perform _ _ _

@[simp] theorem run_stat : host.run stat w = (.ok (w.disk.currentSig host), w) :=
  Proc.run_perform _ _ _

@[simp] theorem run_writeText (path : Path) (text : String) (newline : Newline) :
    host.run (writeText path text newline) w =
      (.ok (), { w with disk := w.disk.write host path (encode host newline text) }) :=
  Proc.run_perform _ _ _

theorem run_readText (path : Path) :
    host.run (readText path) w =
      match w.disk.read host path with
      | some file => (.ok (Newlines.universal file.text), w)
      | none => (.error (.fileNotFound path), w) := Proc.run_perform _ _ _

theorem run_readBytes (path : Path) :
    host.run (readBytes path) w =
      match w.disk.read host path with
      | some file => (.ok file.text, w)
      | none => (.error (.fileNotFound path), w) := Proc.run_perform _ _ _

theorem run_replace (source target : Path) :
    host.run (replace source target) w =
      if (w.disk.read host source).isSome then
        (.ok (), { w with disk := w.disk.rename host source target })
      else (.error (.fileNotFound source), w) := Proc.run_perform _ _ _

theorem run_unlink (path : Path) :
    host.run (unlink path) w =
      if (w.disk.read host path).isSome then
        (.ok (), { w with disk := w.disk.unlink host path })
      else (.error (.fileNotFound path), w) := Proc.run_perform _ _ _

@[simp] theorem run_popen (script : String) (command : Command) (env : Dict String String) :
    host.run (popen script command env) w = (.ok (), w.launch host script command env) :=
  Proc.run_perform _ _ _

@[simp] theorem run_runToEnd (script : String) (command : Command) (env : Dict String String) :
    host.run (runToEnd script command env) w =
      (.ok (host.processResult w.launched.length), w.launch host script command env) :=
  Proc.run_perform _ _ _

end

end Csl.Agent
