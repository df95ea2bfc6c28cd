import Scriptlet.Integer

namespace Scriptlet

/-- How much detail an event is; a threshold lets pass what is at most as detailed. -/
inductive Level
  | off
  | error
  | warn
  | info
  | debug
  | trace
  deriving DecidableEq

namespace Level

def all : List Level :=
  [off, error, warn, info, debug, trace]

def name : Level → String
  | off => "off"
  | error => "error"
  | warn => "warn"
  | info => "info"
  | debug => "debug"
  | trace => "trace"

/-- Levels count up with the detail they stand for. -/
def rank : Level → Nat
  | off => 0
  | error => 1
  | warn => 2
  | info => 3
  | debug => 4
  | trace => 5

/-- The value of a decimal numeral that may carry a plus sign. -/
def numeral? : List Char → Option Nat
  | '+' :: cs => Integer.digits? cs
  | cs => Integer.digits? cs

/-- A level is written by its name, in any ASCII letter case, or by its rank. -/
def ofChars? (cs : List Char) : Option Level :=
  all.find? fun l => numeral? cs = some l.rank || cs.map Char.toLower = l.name.toList

end Level

end Scriptlet
