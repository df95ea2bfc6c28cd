import Scriptlet.Table
import Scriptlet.Program
import Scriptlet.Value

namespace Scriptlet

/-- What a `function` statement defines. -/
structure Function where
  parameters : List String
  body : List Statement

abbrev Scope := Table String Value

/-- The scope in which a function starts: its parameters, of which the last of one name counts. -/
def Function.scope (f : Function) (arguments : List Value) : Scope :=
  (f.parameters.zip arguments).foldl (fun s (x, v) => s.insert x v) .empty

inductive Flow
  | normal
  | giveBack (v : Value)
  deriving DecidableEq

/-- What a program's statements act on: the scope of the running activation, those of the
activations that wait for it, innermost first, the functions, and how many calls may be active. -/
structure Machine where
  current : Scope
  callers : List Scope
  functions : Table String Function
  callLimit : Nat

/-- So many calls may be active when nothing else is said. -/
def defaultCallLimit : Nat := 128

namespace Machine

def fresh (callLimit : Nat) : Machine :=
  ⟨.empty, [], .empty, callLimit⟩

def active (m : Machine) : Nat :=
  m.callers.length

/-- The scope of the statements that stand outside all functions. -/
def globals (m : Machine) : Scope :=
  m.callers.getLast?.getD m.current

def bind (m : Machine) (x : String) (v : Value) : Machine :=
  { m with current := m.current.insert x v }

/-- Defines a function, in place of what was defined under its name before. -/
def define (m : Machine) (name : String) (f : Function) : Machine :=
  { m with functions := m.functions.insert name f }

def enter (m : Machine) (scope : Scope) : Machine :=
  { m with current := scope, callers := m.current :: m.callers }

def leave (m : Machine) : Machine :=
  match m.callers with
  | [] => m
  | scope :: outer => { m with current := scope, callers := outer }

end Machine

end Scriptlet
