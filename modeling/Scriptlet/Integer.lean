namespace Scriptlet.Integer

/-- The 64-bit integer of a given value, if the value is in range. -/
def ofInt? (i : Int) : Option Int64 :=
  if Int64.minValue.toInt ≤ i ∧ i ≤ Int64.maxValue.toInt then some (Int64.ofInt i) else none

def digits? (cs : List Char) : Option Nat :=
  if cs ≠ [] ∧ cs.all Char.isDigit then
    some (cs.foldl (fun n c => 10 * n + (c.toNat - '0'.toNat)) 0)
  else none

/-- Reads a decimal numeral, which may carry one sign, if its value is in range. -/
def ofNumeral? (numeral : String) : Option Int64 :=
  match numeral.toList with
  | '-' :: cs => (digits? cs).bind fun n => ofInt? (-n)
  | '+' :: cs => (digits? cs).bind fun n => ofInt? n
  | cs => (digits? cs).bind fun n => ofInt? n

end Scriptlet.Integer
