import Scriptlet.Token
import Scriptlet.Program.Keyword

namespace Scriptlet

/-- The two kinds of block that only their opening word names. -/
inductive Construct
  | test
  | loop
  deriving DecidableEq

def Construct.name : Construct → String
  | .test => "IF"
  | .loop => "WHILE"

/-- Why a stream of tokens is no program. -/
inductive SyntaxError
  | unexpectedToken (expected : String) (found : Token)
  | invalidStatement (found : Token)
  | missingEnd (construct : Construct) (position : Position)
  | missingFunctionEnd (name : String) (position : Position)
  | nestingTooDeep (limit : Nat) (position : Position)
  | numberOutOfRange (numeral : Token)
  deriving DecidableEq

namespace SyntaxError

def position : SyntaxError → Position
  | unexpectedToken _ t => t.position
  | invalidStatement t => t.position
  | missingEnd _ p => p
  | missingFunctionEnd _ p => p
  | nestingTooDeep _ p => p
  | numberOutOfRange t => t.position

def message : SyntaxError → String
  | unexpectedToken expected t => s!"expected {expected} but found {t.text}"
  | invalidStatement t =>
    s!"invalid statement starting with {t.text}; expected one of: "
      ++ ", ".intercalate (Keyword.all.map Keyword.word) ++ " or a function call"
  | missingEnd construct p => s!"missing END for {construct.name} opened at {p.text}"
  | missingFunctionEnd name p => s!"missing END for function '{name}' defined at {p.text}"
  | nestingTooDeep limit p => s!"nesting deeper than {limit} levels at {p.text}"
  | numberOutOfRange t => s!"integer literal '{t.lexeme}' out of range at {t.position.text}"

end SyntaxError

/-- Why a text is no program: it does not split into tokens, or these do not fit together. -/
inductive ParseError
  | lexical (e : LexError)
  | structural (e : SyntaxError)
  deriving DecidableEq

namespace ParseError

def position : ParseError → Position
  | lexical e => e.position
  | structural e => e.position

def stage : ParseError → String
  | lexical _ => "lexical error"
  | structural _ => "syntax error"

def message (e : ParseError) : String :=
  match e with
  | lexical reason => s!"{e.stage}: {reason.message}"
  | structural reason => s!"{e.stage}: {reason.message}"

end ParseError

end Scriptlet
