import Scriptlet.Position

namespace Scriptlet

inductive Arithmetic
  | add
  | subtract
  | multiply
  | divide
  deriving DecidableEq

def Arithmetic.symbol : Arithmetic → String
  | .add => "+"
  | .subtract => "-"
  | .multiply => "*"
  | .divide => "/"

inductive Comparison
  | greater
  | less
  | greaterEqual
  | lessEqual
  | equal
  | notEqual
  deriving DecidableEq

def Comparison.symbol : Comparison → String
  | .greater => ">"
  | .less => "<"
  | .greaterEqual => ">="
  | .lessEqual => "<="
  | .equal => "=="
  | .notEqual => "!="

inductive Operator
  | arithmetic (a : Arithmetic)
  | comparison (c : Comparison)
  deriving DecidableEq

def Operator.symbol : Operator → String
  | .arithmetic a => a.symbol
  | .comparison c => c.symbol

/-- The operators that leave the right side alone when the left one decides. -/
inductive Connective
  | and
  | or
  deriving DecidableEq

def Connective.word : Connective → String
  | .and => "and"
  | .or => "or"

inductive Expression
  | string (s : String)
  | number (n : Int64)
  | var (name : String)
  | binary (op : Operator) (left right : Expression)
  | logical (op : Connective) (left right : Expression)
  | call (name : String) (arguments : List Expression)
  deriving Inhabited

/-- What a write does with the old contents of a file. -/
inductive WriteMode
  | replace
  | extend
  deriving DecidableEq

/-- One statement; `pos` is the place of its first token. -/
inductive Statement
  | assign (pos : Position) (name : String) (value : Expression)
  | print (pos : Position) (value : Expression)
  | log (pos : Position) (value : Expression)
  | ifThen (pos : Position) (condition : Expression) (body : List Statement)
  | ifElse (pos : Position) (condition : Expression) (body otherwise : List Statement)
  | loop (pos : Position) (condition : Expression) (body : List Statement)
  | write (pos : Position) (mode : WriteMode) (path content : Expression)
  | read (pos : Position) (path : Expression) (target : String)
  | delete (pos : Position) (path : Expression)
  | function (pos : Position) (name : String) (parameters : List String) (body : List Statement)
  | call (pos : Position) (name : String) (arguments : List Expression)
  | giveBack (pos : Position) (value : Expression)
  deriving Inhabited

abbrev Program := List Statement

namespace Statement

def position : Statement → Position
  | assign pos .. | print pos .. | log pos .. | ifThen pos .. | ifElse pos .. | loop pos ..
  | write pos .. | read pos .. | delete pos .. | function pos .. | call pos ..
  | giveBack pos .. => pos

/-- What a statement is called: its opening word, or `call`. -/
def name : Statement → String
  | assign .. => "set"
  | print .. => "print"
  | log .. => "log"
  | ifThen .. | ifElse .. => "if"
  | loop .. => "while"
  | write _ .replace .. => "writefile"
  | write _ .extend .. => "appendfile"
  | read .. => "readfile"
  | delete .. => "deletefile"
  | function .. => "function"
  | call .. => "call"
  | giveBack .. => "return"

end Statement

end Scriptlet
