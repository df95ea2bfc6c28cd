namespace Scriptlet.Pattern

/-- How many levels of nesting a pattern may have. -/
def maxDepth : Nat := 250

/-- Parts that stand side by side: how many, and how deep the deepest one is. -/
structure Row where
  count : Nat
  depth : Nat

namespace Row

def empty : Row := ⟨0, 0⟩

def add (r : Row) (depth : Nat) : Row :=
  ⟨r.count + 1, max r.depth depth⟩

/-- A row of several parts is a level of its own. -/
def total (r : Row) : Nat :=
  if r.count ≤ 1 then r.depth else r.depth + 1

/-- The depth of a row with other rows before it, from which an operator sets it apart. -/
def totalAfter (r : Row) : Option Nat → Nat
  | none => r.total
  | some before => max before r.total + 1

end Row

end Scriptlet.Pattern
