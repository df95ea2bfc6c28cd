import Scriptlet.Integer
import Scriptlet.Fault

namespace Scriptlet

/-- The mathematical result of an operation on integers; a quotient is cut off toward zero. -/
def Arithmetic.exact : Arithmetic → Int → Int → Int
  | .add, a, b => a + b
  | .subtract, a, b => a - b
  | .multiply, a, b => a * b
  | .divide, a, b => a.tdiv b

/-- Whether a comparison holds of two values that are ordered in the given way. -/
def Comparison.holds : Comparison → Ordering → Bool
  | .greater, o => o = .gt
  | .less, o => o = .lt
  | .greaterEqual, o => o ≠ .lt
  | .lessEqual, o => o ≠ .gt
  | .equal, o => o = .eq
  | .notEqual, o => o ≠ .eq

namespace Value

/-- Arithmetic on two integers fails rather than leave the range of 64 bits. -/
def compute (op : Arithmetic) (a b : Int64) : Except Fault Value :=
  if op = .divide ∧ b = 0 then .error .divisionByZero
  else match Integer.ofInt? (op.exact a.toInt b.toInt) with
    | some n => .ok (.integer n)
    | Option.none => .error (.overflow op)

/-- Arithmetic needs two integers, except that a string can be joined to anything. -/
def arithmetic (op : Arithmetic) (left right : Value) : Except Fault Value :=
  match op, left, right with
  | op, .integer a, .integer b => compute op a b
  | .add, .string s, b => .ok (.string (s ++ b.display))
  | .add, a, .string s => .ok (.string (a.display ++ s))
  | op, a, b => .error (.unsupportedOperands (.arithmetic op) a.type b.type)

/-- Values of one type are ordered; strings are ordered by their characters, false comes before
true, and values of different types do not compare. -/
def compare? : Value → Value → Option Ordering
  | .integer a, .integer b => some (compare a.toInt b.toInt)
  | .string a, .string b => some (compare a b)
  | .boolean a, .boolean b => some (compare a.toNat b.toNat)
  | .none, .none => some .eq
  | _, _ => Option.none

def binary (op : Operator) (left right : Value) : Except Fault Value :=
  match op with
  | .arithmetic a => arithmetic a left right
  | .comparison c =>
    match left.compare? right with
    | some o => .ok (.boolean (c.holds o))
    | Option.none => .error (.unsupportedOperands op left.type right.type)

end Value

end Scriptlet
