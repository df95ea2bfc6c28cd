import Scriptlet.Program
import Scriptlet.Value
import Scriptlet.Host.Refusal

namespace Scriptlet

inductive Fault
  | undefinedVariable (name : String)
  | undefinedFunction (name : String)
  | arityMismatch (name : String) (expected found : Nat)
  | unsupportedOperands (op : Operator) (left right : ValueType)
  | divisionByZero
  | overflow (op : Arithmetic)
  | returnOutsideFunction
  | callDepthExceeded (name : String) (limit : Nat)
  | fileNotFound (path : String)
  | io (path : String) (reason : Refusal)
  | output (reason : Refusal)
  | diagnostic (reason : Refusal)
  deriving DecidableEq

def Fault.message : Fault → String
  | undefinedVariable name => s!"undefined variable '{name}'"
  | undefinedFunction name => s!"undefined function '{name}'"
  | arityMismatch name expected found =>
    s!"function '{name}' expects {expected} argument(s), got {found}"
  | unsupportedOperands op left right =>
    s!"unsupported operation: {left.name} {op.symbol} {right.name}"
  | divisionByZero => "division by zero"
  | overflow op => s!"integer overflow in {op.symbol}"
  | returnOutsideFunction => "return outside of a function"
  | callDepthExceeded name limit => s!"call depth exceeded {limit} nested calls in '{name}'"
  | fileNotFound path => s!"file not found: {path}"
  | io path reason => s!"I/O error on {path}: {reason.text}"
  | output reason => s!"cannot write to standard output: {reason.text}"
  | diagnostic reason => s!"cannot write diagnostic record: {reason.text}"

/-- A fault, with the place of the statement that met it once that is known. -/
structure RuntimeError where
  fault : Fault
  position : Option Position
  deriving DecidableEq

namespace RuntimeError

/-- Says where an error arose, unless a statement further inside has said so. -/
def locate (e : RuntimeError) (pos : Position) : RuntimeError :=
  { e with position := e.position <|> some pos }

def message (e : RuntimeError) : String :=
  match e.position with
  | some pos => s!"{pos.text}: {e.fault.message}"
  | none => e.fault.message

end RuntimeError

end Scriptlet
