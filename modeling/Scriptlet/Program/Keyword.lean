namespace Scriptlet

/-- The words that open a statement. -/
inductive Keyword
  | assign
  | print
  | log
  | test
  | loop
  | write
  | append
  | read
  | delete
  | function
  | giveBack
  deriving DecidableEq

namespace Keyword

def all : List Keyword :=
  [assign, print, log, test, loop, write, append, read, delete, function, giveBack]

def word : Keyword → String
  | assign => "set"
  | print => "print"
  | log => "log"
  | test => "if"
  | loop => "while"
  | write => "writefile"
  | append => "appendfile"
  | read => "readfile"
  | delete => "deletefile"
  | function => "function"
  | giveBack => "return"

/-- The keyword that a name spells, in any mixture of ASCII letter cases. -/
def ofName? (name : String) : Option Keyword :=
  all.find? fun k => k.word == name.toLower

end Keyword

end Scriptlet
