import Csl.Agent.Installation
import Csl.Server.Database

/-! A control station whose machines run Linux.

The parser's results are those for the metadata used in the runs below, with any line endings.
-/

set_option autoImplicit false

namespace Csl.Server
open Csl.Shared Csl.Agent

namespace Installation

def plainMeta : String := "params: []\n"

def levelMeta : String := "params:\n  - name: level\n    type: int\n    required: true\n"

def level : ParamDescriptor :=
  { name := "level", type := .int, required := true, min := none, max := none, choices := none }

def parseMetaYaml (text : String) : Except String ScriptMeta :=
  if Newlines.universal text = plainMeta then .ok ⟨[]⟩
  else if Newlines.universal text = levelMeta then .ok ⟨[level]⟩
  else .error "meta.yaml must be a YAML mapping at the top level"

end Installation

open Installation

def station : Platform where
  host := { linux with parseMetaYaml := parseMetaYaml }
  saysPersistent _ := false
  repr text := "'" ++ text ++ "'"

def workstation : Machine := ⟨1, "workstation", "linux"⟩

theorem station_lineEndings (text : String) (parsed : ScriptMeta)
    (parses : station.host.parseMetaYaml text = .ok parsed) :
    station.host.parseMetaYaml (Newlines.universal text) = .ok parsed := by
  have known : station.host.parseMetaYaml = parseMetaYaml := rfl
  rw [known] at parses ⊢
  rw [← parses]
  simp only [parseMetaYaml, Newlines.universal_universal]

end Csl.Server
