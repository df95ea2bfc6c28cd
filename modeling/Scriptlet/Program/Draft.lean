import Scriptlet.Program
import Scriptlet.Program.Error

namespace Scriptlet

/-- Left sides that wait for their right side within one expression, the loosest operators first.
A level holds at most one of them, since all operators of a level associate to the left. -/
structure Pending where
  logic : Option (Expression × Connective)
  comparison : Option (Expression × Comparison)
  sum : Option (Expression × Arithmetic)
  term : Option (Expression × Arithmetic)

namespace Pending

def empty : Pending := ⟨none, none, none, none⟩

def joinArithmetic : Option (Expression × Arithmetic) → Expression → Expression
  | none, e => e
  | some (left, op), e => .binary (.arithmetic op) left e

def joinComparison : Option (Expression × Comparison) → Expression → Expression
  | none, e => e
  | some (left, op), e => .binary (.comparison op) left e

def joinLogic : Option (Expression × Connective) → Expression → Expression
  | none, e => e
  | some (left, op), e => .logical op left e

/-- The term that a last factor completes. -/
def asTerm (p : Pending) (e : Expression) : Expression :=
  joinArithmetic p.term e

def asSum (p : Pending) (e : Expression) : Expression :=
  joinArithmetic p.sum (p.asTerm e)

def asComparison (p : Pending) (e : Expression) : Expression :=
  joinComparison p.comparison (p.asSum e)

def asWhole (p : Pending) (e : Expression) : Expression :=
  joinLogic p.logic (p.asComparison e)

/-- Goes on behind the factor `e` and a comparison; these do not chain, so a second one is none. -/
def compare? (p : Pending) (e : Expression) (op : Comparison) : Option Pending :=
  match p.comparison with
  | some _ => none
  | none => some ⟨p.logic, some (p.asSum e, op), none, none⟩

/-- Goes on behind the factor `e` and a connective. -/
def connect (p : Pending) (e : Expression) (op : Connective) : Pending :=
  ⟨some (p.asWhole e, op), none, none, none⟩

/-- Goes on behind the factor `e` and a token that is an operator there. -/
def extend? (p : Pending) (e : Expression) (t : Token) : Option Pending :=
  match t.kind with
  | .star => some { p with term := some (p.asTerm e, .multiply) }
  | .slash => some { p with term := some (p.asTerm e, .divide) }
  | .plus => some { p with sum := some (p.asSum e, .add), term := none }
  | .minus => some { p with sum := some (p.asSum e, .subtract), term := none }
  | .greater => p.compare? e .greater
  | .less => p.compare? e .less
  | .greaterEqual => p.compare? e .greaterEqual
  | .lessEqual => p.compare? e .lessEqual
  | .equalEqual => p.compare? e .equal
  | .notEqual => p.compare? e .notEqual
  | _ =>
    if t.isKeyword Connective.and.word then some (p.connect e .and)
    else if t.isKeyword Connective.or.word then some (p.connect e .or)
    else none

end Pending

/-- The place in a statement that an expression fills. -/
inductive Slot
  | assign (name : String)
  | print
  | log
  | ifCondition
  | loopCondition
  | writePath (mode : WriteMode)
  | writeContent (mode : WriteMode) (path : Expression)
  | readPath
  | deletePath
  | argument (name : String) (before : List Expression)
  | giveBack

/-- What surrounds an expression within another one: parentheses, or the arguments of a call, with
what is pending outside. -/
inductive Enclosure
  | parens (outer : Pending)
  | argument (outer : Pending) (name : String) (before : List Expression)

/-- Where an expression stands: its statement, its slot there, and what surrounds it, innermost
first. -/
structure Site where
  pos : Position
  slot : Slot
  enclosures : List Enclosure

/-- The expressions that are open at a site, the innermost one included. -/
def Site.depth (s : Site) : Nat :=
  s.enclosures.length + 1

/-- What a block belongs to, with all of it that stands before the block. -/
inductive Header
  | ifThen (condition : Expression)
  | ifElse (condition : Expression) (body : List Statement)
  | loop (condition : Expression)
  | function (name : String) (parameters : List String)

namespace Header

/-- The statement that a finished block completes. -/
def complete (pos : Position) : Header → List Statement → Statement
  | ifThen condition, body => .ifThen pos condition body
  | ifElse condition body, otherwise => .ifElse pos condition body otherwise
  | loop condition, body => .loop pos condition body
  | function name parameters, body => .function pos name parameters body

/-- The error of a block that the input leaves open. -/
def unclosed (pos : Position) : Header → SyntaxError
  | ifThen _ | ifElse _ _ => .missingEnd .test pos
  | loop _ => .missingEnd .loop pos
  | function name _ => .missingFunctionEnd name pos

end Header

/-- A block whose end was not read yet, with its statements in reverse. -/
structure OpenBlock where
  pos : Position
  header : Header
  reversed : List Statement

namespace OpenBlock

def add (b : OpenBlock) (s : Statement) : OpenBlock :=
  { b with reversed := s :: b.reversed }

def complete (b : OpenBlock) : Statement :=
  b.header.complete b.pos b.reversed.reverse

end OpenBlock

/-- What was read last, and so what may come next. -/
inductive Phase
  /-- Between statements. -/
  | statement
  /-- Behind a name that opens a statement and is no keyword. -/
  | callee (start : Token)
  /-- Behind the opening parenthesis of a call statement. -/
  | firstStatementArgument (pos : Position) (name : String)
  | assignName (pos : Position)
  | assignEqual (pos : Position) (name : String)
  | functionName (pos : Position)
  | functionParen (pos : Position) (name : String)
  | firstParameter (pos : Position) (name : String)
  | parameter (pos : Position) (name : String) (before : List String)
  | parameterEnd (pos : Position) (name : String) (parameters : List String)
  /-- A block opens at the next token. -/
  | block (pos : Position) (header : Header)
  /-- Behind a separator between the two parts of a write. -/
  | content (pos : Position) (mode : WriteMode) (path : Expression)
  /-- Behind a separator between the two parts of a read. -/
  | target (pos : Position) (path : Expression)
  /-- An expression opens at the next token. -/
  | expression (site : Site)
  /-- An operand is due in an expression that is open. -/
  | operand (site : Site) (pending : Pending)
  /-- Behind a name in an expression; a parenthesis makes it a call. -/
  | name (site : Site) (pending : Pending) (name : String)
  /-- Behind the opening parenthesis of a call in an expression. -/
  | firstArgument (site : Site) (pending : Pending) (name : String)
  /-- Behind a numeral, whose value is checked only when the next token is there. -/
  | numeral (site : Site) (pending : Pending) (t : Token)
  /-- Behind a factor. -/
  | factor (site : Site) (pending : Pending) (e : Expression)

/-- A program of which a part was read: its finished statements in reverse, the blocks that are
open, innermost first, and what was read last. -/
structure Draft where
  reversed : List Statement
  blocks : List OpenBlock
  phase : Phase

namespace Draft

def empty : Draft := ⟨[], [], .statement⟩

def program (d : Draft) : Program :=
  d.reversed.reverse

def goto (d : Draft) (phase : Phase) : Draft :=
  { d with phase }

def add (d : Draft) (s : Statement) : Draft :=
  match d.blocks with
  | [] => ⟨s :: d.reversed, [], .statement⟩
  | b :: outer => ⟨d.reversed, b.add s :: outer, .statement⟩

end Draft

/-- What one token makes of a draft: another draft, or a whole program. -/
inductive Progress
  | more (d : Draft)
  | finished (p : Program)

def Progress.program : Progress → Program
  | .more d => d.program
  | .finished p => p

end Scriptlet
