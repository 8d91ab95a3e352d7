import RuleScript.Number.Integer
import RuleScript.Number.Decimal

/-!
# Values

What an expression evaluates to. There are five types of value and no
structure: a rule is called by name and is never a value.
-/

namespace RuleScript

/-- A value of the language. -/
inductive Value where
  /-- no value, such as the result of an empty block -/
  | nil
  /-- a truth value -/
  | bool (b : Bool)
  /-- an integer of 64 bits -/
  | int (n : Int64)
  /-- a floating-point number -/
  | float (x : Float)
  /-- a text -/
  | string (text : String)
  deriving BEq, Inhabited

/-- The types of value. -/
inductive ValueType where
  | nil
  | boolean
  | int
  | float
  | string
  deriving DecidableEq, Repr

/-- The name of a type, as messages use it. -/
def ValueType.name : ValueType → String
  | .nil => "nil"
  | .boolean => "boolean"
  | .int => "int"
  | .float => "float"
  | .string => "string"

namespace Value

/-- The type of a value. -/
def type : Value → ValueType
  | .nil => .nil
  | .bool _ => .boolean
  | .int _ => .int
  | .float _ => .float
  | .string _ => .string

/-- Whether there is no value. -/
def isNil : Value → Bool
  | .nil => true
  | _ => false

/-- A number as a floating-point number. An integer is rounded to the nearest. -/
def toFloat? : Value → Option Float
  | .int n => some n.toFloat
  | .float x => some x
  | _ => none

/-- How a value is printed. -/
def display : Value → String
  | .nil => "nil"
  | .bool b => toString b
  | .int n => Integer.display n
  | .float x => Decimal.display x
  | .string text => text

end Value

end RuleScript
