import Csl.Agent.Disk
import Csl.Library.Walk

/-! Where the agent's paths lead. -/

set_option autoImplicit false

namespace Csl.Agent
open Walk

/-- A file or directory: its drive, always empty on POSIX, and its place there. -/
structure Location where
  drive : List Char
  place : Place
  deriving DecidableEq

structure CslPaths where
  scriptsDir : Location
  pendingDir : Location
  logsDir : Location
  approvalsPath : Location
  statePath : Location

inductive Anchor where
  | directory
  /-- The root of the directory's drive. -/
  | root
  /-- A drive of its own, with or without its root. -/
  | drive (name : List Char) (rooted : Bool)
  deriving DecidableEq

namespace Host
variable (host : Host)

def separates (c : Char) : Bool := c = '/' || (host.isWindows && c = '\\')

/-- What follows two separators on Windows: the names of a server and a share, its drive. -/
def share (path : List Char) : Anchor × List Char :=
  let server := path.takeWhile fun c => !host.separates c
  let shared := (path.drop server.length).drop 1
  let name := shared.takeWhile fun c => !host.separates c
  (.drive (server ++ '\\' :: name) true, (shared.drop name.length).drop 1)

/-- `splitroot`. -/
def anchor (path : List Char) : Anchor × List Char :=
  if host.isWindows then
    match path with
    | a :: b :: rest =>
      if host.separates a ∧ host.separates b then host.share rest
      else if host.separates a then (.root, b :: rest)
      else if b = ':' then
        match rest with
        | c :: names => if host.separates c then (.drive [a] true, names) else (.drive [a] false, rest)
        | [] => (.drive [a] false, [])
      else (.directory, path)
    | [a] => if host.separates a then (.root, []) else (.directory, path)
    | [] => (.directory, [])
  else
    match path with
    | a :: rest => if host.separates a then (.root, rest) else (.directory, path)
    | [] => (.directory, [])

def foldDrive (drive : List Char) : List Char := drive.map Char.toLower

/-- Where the names of a joined path are walked from; none in the current directory of
another drive. -/
def start (directory : Location) : Anchor → Option Location
  | .directory => some directory
  | .root => some ⟨directory.drive, []⟩
  | .drive name true => some ⟨name, []⟩
  | .drive name false => if foldDrive name = foldDrive directory.drive then some directory else none

def join (directory : Location) (path : String) : Option Location :=
  let (anchored, rest) := host.anchor path.toList
  (start directory anchored).map fun start =>
    ⟨start.drive, walk start.place (rest.splitOnP host.separates)⟩

def foldChars (name : List Char) : List Char :=
  if host.foldsCase then name.map Char.toLower else name

def SameLocation (a b : Location) : Prop :=
  foldDrive a.drive = foldDrive b.drive ∧ a.place.map host.foldChars = b.place.map host.foldChars

instance (a b : Location) : Decidable (host.SameLocation a b) := by unfold SameLocation; infer_instance

def DirectlyIn (directory : Location) (file : Option Location) : Prop :=
  ∃ drive name place, file = some ⟨drive, name :: place⟩ ∧ host.SameLocation ⟨drive, place⟩ directory

variable {host}

theorem sameLocation_refl (a : Location) : host.SameLocation a a := ⟨rfl, rfl⟩

theorem join_plain {name : String} (directory : Location) (proper : Proper name.toList)
    (plain : ∀ c ∈ name.toList, host.separates c = false) (noDrive : ':' ∉ name.toList) :
    host.join directory name = some ⟨directory.drive, name.toList :: directory.place⟩ := by
  have anchored : host.anchor name.toList = (.directory, name.toList) := by
    generalize name.toList = path at plain noDrive
    unfold anchor
    split
    · match path with
      | [] => rfl
      | [a] =>
        have first := plain a List.mem_cons_self
        simp [first]
      | a :: b :: rest =>
        have first := plain a List.mem_cons_self
        have second : b ≠ ':' := fun colon => noDrive (by simp [colon])
        simp [first, second]
    · match path with
      | [] => rfl
      | a :: rest =>
        have first := plain a List.mem_cons_self
        simp [first]
  simp only [join, anchored, start, Option.map_some, names_plain plain, walk_single proper]

theorem directlyIn_plain {name : String} (directory : Location) (proper : Proper name.toList)
    (plain : ∀ c ∈ name.toList, host.separates c = false) (noDrive : ':' ∉ name.toList) :
    host.DirectlyIn directory (host.join directory name) :=
  ⟨_, _, _, join_plain directory proper plain noDrive, sameLocation_refl directory⟩

end Host

end Csl.Agent
