import Csl.Shared.Registration

/-! The commands that the control station may run on a target, and the gateway that runs them.

The station takes its commands from the same tables that the gateway of its key allows them from.
-/

set_option autoImplicit false

namespace Csl.Shared

def wakeupCmd : List (String × String) :=
  [("linux", "systemctl --user start csl-agent"),
    ("windows", "schtasks /run /tn \"CSL-Agent\""),
    ("macos", "launchctl kickstart \"gui/$UID/com.controlstationlite.agent\"")]

def configReadCmd : List (String × String) :=
  [("linux", "cat ~/.csl/config.yaml"),
    ("macos", "cat ~/.csl/config.yaml"),
    ("windows", "powershell -Command \"Get-Content (Join-Path $env:USERPROFILE \\\".csl\\config.yaml\\\")\"")]

def allowedCommands (platform : String) : List String :=
  (wakeupCmd.lookup platform).toList ++ (configReadCmd.lookup platform).toList

structure CommandResult where
  stdout : String
  exitCode : Int
  deriving DecidableEq, Repr

def rejectedExit : Int := 126

def notPermitted : String := "csl-agent ssh-gateway: command not permitted\n"

/-- `cmd_ssh_gateway`: the requested command is run if it is one of the platform's. -/
def cmdSshGateway (platform : String) (execute : String → CommandResult) (requested : String) : CommandResult :=
  match (allowedCommands platform).find? (· = requested) with
  | none => ⟨notPermitted, rejectedExit⟩
  | some matched => execute matched

def remoteConfigCmd (platform : String) : String :=
  (configReadCmd.lookup platform).getD "cat ~/.csl/config.yaml"

/-- The gateway runs nothing but its platform's commands, as they are requested. -/
theorem cmdSshGateway_eq (platform : String) (execute : String → CommandResult) (requested : String) :
    cmdSshGateway platform execute requested =
      if requested ∈ allowedCommands platform then execute requested else ⟨notPermitted, rejectedExit⟩ := by
  rw [cmdSshGateway]
  cases found : (allowedCommands platform).find? (· = requested) with
  | none =>
    have absent : requested ∉ allowedCommands platform := by
      intro member
      have differs := List.find?_eq_none.mp found requested member
      simp at differs
    rw [if_neg absent]
  | some matched =>
    have same : matched = requested := by simpa using List.find?_some found
    rw [← same, if_pos (List.mem_of_find?_eq_some found)]

theorem remoteConfigCmd_allowed {platform : String} (known : platform ∈ validPlatforms) :
    remoteConfigCmd platform ∈ allowedCommands platform := by
  simp only [validPlatforms, List.mem_cons, List.not_mem_nil, or_false] at known
  rcases known with linux | windows | macos
  · rw [linux]
    decide +kernel
  · rw [windows]
    decide +kernel
  · rw [macos]
    decide +kernel

end Csl.Shared
