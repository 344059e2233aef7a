import Mathlib.Algebra.Order.Ring.Rat

/-! Parameter values and the metadata that describes them. -/

set_option autoImplicit false

namespace Csl.Shared

/-- The exact value of a Python number as comparisons see it. -/
inductive Number where
  | nan
  | negInfinity
  | finite (value : Rat)
  | posInfinity
  deriving DecidableEq, Repr

/-- `<` between Python numbers; no comparison with NaN holds. -/
def Number.lt : Number → Number → Bool
  | .finite a, .finite b => decide (a < b)
  | .negInfinity, .finite _ | .negInfinity, .posInfinity | .finite _, .posInfinity => true
  | _, _ => false

/-- `==` between Python numbers. -/
def Number.eq : Number → Number → Bool
  | .nan, _ => false
  | a, b => decide (a = b)

/-- A float: the text `str` gives it and the number it denotes. -/
structure PyFloat where
  text : String
  number : Number
  deriving DecidableEq, Repr

inductive ParamValue where
  | str (value : String)
  | int (value : Int)
  | float (value : PyFloat)
  | bool (value : Bool)
  deriving DecidableEq, Repr

/-- The number a value compares as; booleans are integers, strings are no numbers. -/
def ParamValue.number? : ParamValue → Option Number
  | .str _ => none
  | .int value => some (.finite value)
  | .float value => some value.number
  | .bool value => some (.finite (if value then 1 else 0))

/-- `==` between parameter values. -/
def ParamValue.eq : ParamValue → ParamValue → Bool
  | .str a, .str b => decide (a = b)
  | a, b => match a.number?, b.number? with
    | some m, some n => m.eq n
    | _, _ => false

/-- `str(value)`. -/
def ParamValue.text : ParamValue → String
  | .str value => value
  | .int value => toString value
  | .float value => value.text
  | .bool true => "True"
  | .bool false => "False"

inductive ParamType where
  | string | int | float | bool | choice | path
  deriving DecidableEq, Repr

structure ParamDescriptor where
  name : String
  type : ParamType
  required : Bool
  min : Option PyFloat
  max : Option PyFloat
  choices : Option (List ParamValue)
  deriving DecidableEq, Repr

structure ScriptMeta where
  params : List ParamDescriptor
  deriving DecidableEq, Repr

end Csl.Shared
