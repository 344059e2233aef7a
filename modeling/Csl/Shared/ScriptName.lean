import Mathlib.Data.List.Basic

/-! Script names that become file names. -/

set_option autoImplicit false

namespace Csl.Shared

def maxScriptNameLength : Nat := 100

inductive ScriptNameError where
  | empty | tooLong | illegalCharacter | onlyDots | trailingDot | reservedDevice
  deriving DecidableEq, Repr

def asciiLetterOrDigit (c : Char) : Bool :=
  ('A' ≤ c && c ≤ 'Z') || ('a' ≤ c && c ≤ 'z') || ('0' ≤ c && c ≤ '9')

/-- The class `[A-Za-z0-9_.\-]`. -/
def allowedCharacter (c : Char) : Bool :=
  asciiLetterOrDigit c || c = '_' || c = '.' || c = '-'

/-- `^[A-Za-z0-9_.\-]+$` as `re.match` reads it: `$` also matches just before a
newline that ends the string. -/
def allowedMatch (name : List Char) : Bool :=
  let body := if name.getLast? = some '\n' then name.dropLast else name
  body ≠ [] && body.all allowedCharacter

def windowsReserved : List String :=
  ["CON", "PRN", "AUX", "NUL",
    "COM1", "COM2", "COM3", "COM4", "COM5", "COM6", "COM7", "COM8", "COM9",
    "LPT1", "LPT2", "LPT3", "LPT4", "LPT5", "LPT6", "LPT7", "LPT8", "LPT9"]

def stem (name : List Char) : List Char := name.takeWhile (· ≠ '.')

def validateScriptName (name : String) : Except ScriptNameError String :=
  if name = "" then .error .empty
  else if name.length > maxScriptNameLength then .error .tooLong
  else if !allowedMatch name.toList then .error .illegalCharacter
  else if name.toList.all (· = '.') then .error .onlyDots
  else if name.toList.getLast? = some '.' then .error .trailingDot
  else if String.ofList ((stem name.toList).map Char.toUpper) ∈ windowsReserved then
    .error .reservedDevice
  else .ok name

def Accepted (name : String) : Prop := validateScriptName name = .ok name

instance (name : String) : Decidable (Accepted name) := by unfold Accepted; infer_instance

end Csl.Shared
