import Csl.Agent.Store

/-! The host an agent runs on and the files of one installation. -/

set_option autoImplicit false

namespace Csl.Agent
open Csl.Shared

/-- The files the agent works with; a script or log is named by its file name.
`other` is any file outside these places. -/
inductive Path where
  | scripts (file : String)
  | pending (file : String)
  | log (file : String)
  | approvals
  | approvalsTmp
  | other (location : String)
  deriving DecidableEq, Repr

structure ScriptResult where
  exitCode : Int
  stdout : String
  stderr : String
  timedOut : Bool := false
  deriving DecidableEq, Repr

/-- The platform and the third-party functions the agent calls. -/
structure Host where
  isWindows : Bool
  /-- File names that differ only in ASCII case name the same file. -/
  foldsCase : Bool
  /-- `str(path)`. -/
  display : Path → String
  environ : Dict String String
  /-- `hashlib.md5(text.encode()).hexdigest()`. -/
  md5 : String → String
  parseMetaYaml : String → Except String ScriptMeta
  /-- `str.upper`. -/
  upper : String → String
  codec : StoreCodec
  /-- What the k-th process to be launched gives back when it is run to its end. -/
  processResult : Nat → ScriptResult
  /-- The file that `logs_dir / f"\x7bjob_uuid\x7d.log"` denotes; none when it cannot be opened. -/
  logPath : String → Option Path
  /-- Its name ends in `.log`, so it is never approvals.json or its temporary file. -/
  logPath_suffix : ∀ jobUuid, logPath jobUuid ≠ some .approvals ∧ logPath jobUuid ≠ some .approvalsTmp

namespace Host
variable (host : Host)

def foldName (file : String) : String :=
  if host.foldsCase then String.ofList (file.toList.map Char.toLower) else file

def canonical : Path → Path
  | .scripts file => .scripts (host.foldName file)
  | .pending file => .pending (host.foldName file)
  | .log file => .log (host.foldName file)
  | .approvals => .approvals
  | .approvalsTmp => .approvalsTmp
  | .other location => .other (host.foldName location)

def SameFile (a b : String) : Prop := host.foldName a = host.foldName b

instance (a b : String) : Decidable (host.SameFile a b) :=
  inferInstanceAs (Decidable (_ = _))

theorem length_foldName (file : String) : (host.foldName file).length = file.length := by
  unfold foldName
  split
  · simp [← String.length_toList]
  · rfl

theorem foldName_append (a b : String) :
    host.foldName (a ++ b) = host.foldName a ++ host.foldName b := by
  unfold foldName
  split
  · simp
  · rfl

@[simp] theorem sameFile_refl (file : String) : host.SameFile file file := rfl

theorem SameFile.length_eq {host : Host} {a b : String} (same : host.SameFile a b) :
    a.length = b.length := by
  rw [← host.length_foldName a, same, host.length_foldName]

theorem sameFile_append_right (a b suffix : String) :
    host.SameFile (a ++ suffix) (b ++ suffix) ↔ host.SameFile a b := by
  unfold SameFile
  rw [foldName_append, foldName_append]
  simp

@[simp] theorem canonical_scripts_eq (a b : String) :
    host.canonical (.scripts a) = host.canonical (.scripts b) ↔ host.SameFile a b := by
  simp [canonical, SameFile]

@[simp] theorem canonical_pending_eq (a b : String) :
    host.canonical (.pending a) = host.canonical (.pending b) ↔ host.SameFile a b := by
  simp [canonical, SameFile]

@[simp] theorem canonical_scripts_ne_pending (a b : String) :
    ¬ host.canonical (.scripts a) = host.canonical (.pending b) := by simp [canonical]

@[simp] theorem canonical_pending_ne_scripts (a b : String) :
    ¬ host.canonical (.pending a) = host.canonical (.scripts b) := by simp [canonical]

end Host

structure File where
  text : String
  mtime : Nat
  deriving DecidableEq, Repr

/-- The change signature of approvals.json: modification time and size. -/
abbrev Sig := Nat × Nat

/-- The files of an installation. `writes` counts the writes so far, so that
no two writes leave the same modification time. -/
structure Disk where
  files : Path → Option File
  writes : Nat

namespace Disk

def empty : Disk := ⟨fun _ => none, 0⟩

variable (host : Host) (disk : Disk)

def read (path : Path) : Option File := disk.files (host.canonical path)

def text? (path : Path) : Option String := (disk.read host path).map File.text

def put (path : Path) (file : Option File) : Disk :=
  { disk with files := Function.update disk.files (host.canonical path) file }

def write (path : Path) (text : String) : Disk :=
  { (disk.put host path (some ⟨text, disk.writes + 1⟩)) with writes := disk.writes + 1 }

def unlink (path : Path) : Disk := disk.put host path none

/-- Move a file over another; its modification time moves with it. -/
def rename (source target : Path) : Disk :=
  ((disk.put host target (disk.read host source)).put host source none)

/-- `_current_sig`: `(0, 0)` when there is no file. -/
def currentSig : Sig :=
  match disk.read host .approvals with
  | none => (0, 0)
  | some file => (file.mtime, file.text.utf8ByteSize)

variable {host disk}

theorem read_put (path other : Path) (file : Option File) :
    (disk.put host path file).read host other =
      if host.canonical other = host.canonical path then file else disk.read host other := by
  simp only [read, put, Function.update_apply]

theorem read_write (path other : Path) (text : String) :
    (disk.write host path text).read host other =
      if host.canonical other = host.canonical path then some ⟨text, disk.writes + 1⟩
      else disk.read host other := read_put path other _

theorem read_unlink (path other : Path) :
    (disk.unlink host path).read host other =
      if host.canonical other = host.canonical path then none else disk.read host other :=
  read_put path other _

theorem read_rename (source target other : Path) :
    (disk.rename host source target).read host other =
      if host.canonical other = host.canonical source then none
      else if host.canonical other = host.canonical target then disk.read host source
      else disk.read host other := by
  simp only [rename, read_put]

@[simp] theorem isSome_text? (path : Path) :
    (disk.text? host path).isSome = (disk.read host path).isSome := Option.isSome_map

@[simp] theorem text?_eq_none (path : Path) :
    disk.text? host path = none ↔ disk.read host path = none := Option.map_eq_none_iff

theorem text?_write (path other : Path) (text : String) :
    (disk.write host path text).text? host other =
      if host.canonical other = host.canonical path then some text else disk.text? host other := by
  simp only [text?, read_write]
  split <;> rfl

theorem text?_unlink (path other : Path) :
    (disk.unlink host path).text? host other =
      if host.canonical other = host.canonical path then none else disk.text? host other := by
  simp only [text?, read_unlink]
  split <;> rfl

theorem text?_rename (source target other : Path) :
    (disk.rename host source target).text? host other =
      if host.canonical other = host.canonical source then none
      else if host.canonical other = host.canonical target then disk.text? host source
      else disk.text? host other := by
  simp only [text?, read_rename]
  split
  · rfl
  · split <;> rfl

theorem put_read (path : Path) : disk.put host path (disk.read host path) = disk := by
  simp only [put, read, Function.update_eq_self]

theorem unlink_absent {path : Path} (absent : disk.read host path = none) :
    disk.unlink host path = disk := by
  unfold unlink
  rw [← absent, put_read]

end Disk

end Csl.Agent
