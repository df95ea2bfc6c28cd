import Scriptlet.Token
import Scriptlet.Machine

namespace Scriptlet

/-- What an observer of a run is told, in the order in which it happens. -/
inductive Event
  /-- The reader of programs was handed a token. -/
  | token (t : Token)
  /-- Records go to this file from now on. -/
  | logOpened (path : String)
  /-- A statement begins. -/
  | execute (s : Statement)
  /-- The condition of a statement is about to be evaluated. -/
  | test (s : Statement)
  /-- A statement ended without an error. -/
  | finish (s : Statement) (flow : Flow)
  /-- A variable was bound. -/
  | bind (name : String) (v : Value)
  /-- A function was defined. -/
  | define (name : String) (f : Function)
  /-- The body of a function begins. -/
  | enter (name : String) (f : Function) (arguments : List Value)
  /-- The body of a function ended, by an error too. -/
  | leave (name : String)

end Scriptlet
