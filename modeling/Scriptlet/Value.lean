namespace Scriptlet

inductive ValueType
  | integer
  | string
  | boolean
  | none
  deriving DecidableEq

def ValueType.name : ValueType → String
  | .integer => "integer"
  | .string => "string"
  | .boolean => "boolean"
  | .none => "none"

/-- What expressions evaluate to; `none` is the result of a function that ends without `return`. -/
inductive Value
  | integer (n : Int64)
  | string (s : String)
  | boolean (b : Bool)
  | none
  deriving DecidableEq, Inhabited

namespace Value

def type : Value → ValueType
  | integer _ => .integer
  | string _ => .string
  | boolean _ => .boolean
  | none => .none

/-- Conditions hold of numbers other than zero, of strings other than the empty one, and of true. -/
def truthy : Value → Bool
  | integer n => n ≠ 0
  | string s => s ≠ ""
  | boolean b => b
  | none => false

/-- The text of a value wherever it is printed, recorded, written or joined to a string. -/
def display : Value → String
  | integer n => toString n.toInt
  | string s => s
  | boolean true => "true"
  | boolean false => "false"
  | none => "none"

end Value

end Scriptlet
