import Csl.Library.Lines
import Csl.Library.ServerSentEvents
import Csl.Library.Utf8
import Mathlib.Data.List.DropRight
import Mathlib.Data.PNat.Notation

/-! A job's log, replayed and followed while the job writes it.

The log only grows. A reader opens it, finds the offset to replay from and takes
line after line; at the end of the file it asks whether the job is done, and once it
is, tries a last time. The job appends at any moment between two of these steps.
-/

set_option autoImplicit false

namespace Csl.Agent.LogStream

abbrev Bytes := List UInt8

def newline : UInt8 := 10

def seekChunk : ℕ+ := ⟨8192, by decide⟩

/-- A file opened for reading bytes, with the ranges that were read from it. -/
structure BinaryFile where
  content : Bytes
  position : Nat := 0
  reads : List (Nat × Nat) := []

namespace BinaryFile

def seek (f : BinaryFile) (position : Nat) : BinaryFile := { f with position := position }

/-- `f.seek(-back, 2)` -/
def seekEnd (f : BinaryFile) (back : Nat) : BinaryFile := f.seek (f.content.length - back)

def read (f : BinaryFile) (size : Nat) : Bytes × BinaryFile :=
  let buf := (f.content.drop f.position).take size
  (buf, { f with position := f.position + buf.length, reads := f.reads ++ [(f.position, size)] })

end BinaryFile

/-- How the countdown over one buffer ends: at the boundary newline, or with a count of newlines. -/
inductive Scan
  | boundary (i : Nat)
  | through (newlines : Nat)
deriving DecidableEq

/-- `for i in range(scan_len - 1, -1, -1)` -/
def scanBuffer (tailLines : Nat) (buf : Bytes) : (scanLen newlines : Nat) → Scan
  | 0, newlines => .through newlines
  | i + 1, newlines =>
    if buf[i]? = some newline then
      if newlines + 1 = tailLines then .boundary i
      else scanBuffer tailLines buf i (newlines + 1)
    else scanBuffer tailLines buf i newlines

/-- `while pos > 0` -/
def scanBack (chunk : ℕ+) (tailLines effectiveEnd : Nat) (f : BinaryFile) (pos newlines : Nat) :
    Nat × BinaryFile :=
  if _ : 0 < pos then
    let readSize := min chunk.val pos
    let start := pos - readSize
    let (buf, f) := (f.seek start).read readSize
    let scanLen := min buf.length (effectiveEnd - start)
    match scanBuffer tailLines buf scanLen newlines with
    | .boundary i => (start + i + 1, f)
    | .through newlines => scanBack chunk tailLines effectiveEnd f start newlines
  else (0, f)
termination_by pos
decreasing_by exact Nat.sub_lt ‹0 < pos› (lt_min chunk.property ‹0 < pos›)

/-- `_tail_start_offset`. The job may append between the two looks at the end of the file, so
the last byte is read from what the file holds `later`. -/
def tailStartOffset (chunk : ℕ+) (tailLines : Nat) (content later : Bytes) : Nat × BinaryFile :=
  let f := BinaryFile.seekEnd { content := content } 0
  let size := f.position
  if size = 0 then (0, f)
  else
    let (last, f) := ({ f with content := later }.seekEnd 1).read 1
    let effectiveEnd := if last = [newline] then size - 1 else size
    scanBack chunk tailLines effectiveEnd f effectiveEnd 0

def startOffset (tailLines : Int) (content later : Bytes) : Nat :=
  if tailLines = 0 then content.length
  else if 0 < tailLines then (tailStartOffset seekChunk tailLines.toNat content later).1
  else 0

/-- What the generator does next: `f.readline()`, `is_done()`, or the last `f.readline()`. -/
inductive Phase
  | reading
  | asking
  | draining
  | finished
deriving DecidableEq

/-- The log, whether the job is done, and one `tail_log` with what its reads have returned. -/
structure Tail where
  file : Bytes
  done : Bool := false
  position : Nat
  phase : Phase := .reading
  raws : List Bytes := []
deriving DecidableEq

namespace Tail

def rest (s : Tail) : Bytes := s.file.drop s.position

/-- `tail_log` just before its first read; `grown` was appended while it looked for the offset. -/
def opened (tailLines : Int) (content grown : Bytes) : Tail where
  file := content ++ grown
  position := startOffset tailLines content (content ++ grown)

/-- `raw = f.readline()`, and where the generator goes when the file has nothing left. -/
def readline (s : Tail) (empty : Phase) : Tail :=
  let raw := Lines.readline newline s.rest
  if raw = [] then { s with phase := empty }
  else { s with position := s.position + raw.length, phase := .reading, raws := s.raws ++ [raw] }

/-- The generator's next step. Sleeping changes nothing: the job appends between any two steps. -/
def turn (s : Tail) : Tail :=
  match s.phase with
  | .reading => s.readline .asking
  | .asking => { s with phase := if s.done then .draining else .reading }
  | .draining => s.readline .finished
  | .finished => s

def append (s : Tail) (chunk : Bytes) : Tail := { s with file := s.file ++ chunk }

/-- `is_done()` answers `True` from now on. -/
def finish (s : Tail) : Tail := { s with done := true }

def turns (s : Tail) : Nat → Tail
  | 0 => s
  | n + 1 => s.turn.turns n

end Tail

inductive Event
  | append (chunk : Bytes)
  | turn

def Tail.step (s : Tail) : Event → Tail
  | .append chunk => s.append chunk
  | .turn => s.turn

def Tail.run (s : Tail) (events : List Event) : Tail := events.foldl Tail.step s

def appended : List Event → Bytes
  | [] => []
  | .append chunk :: rest => chunk ++ appended rest
  | .turn :: rest => appended rest

def rstripNewlines (line : List Char) : List Char := line.rdropWhile (fun c => c = '\r' || c = '\n')

/-- `raw.decode("utf-8", errors="replace").rstrip("\r\n")` -/
def text (raw : Bytes) : List Char := rstripNewlines (Utf8.decode raw)

def Tail.yields (s : Tail) : List (List Char) := s.raws.map text

/-- `sse_events` over what `tail_log` yields. -/
def sseEvents (lines : List (List Char)) : List Char :=
  lines.flatMap ServerSentEvents.message ++ "event: done\ndata: \n\n".toList

end Csl.Agent.LogStream
