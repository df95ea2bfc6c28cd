import Scriptlet.Position

namespace Scriptlet

/-- The classes of tokens; words of the language are identifiers like any other name. -/
inductive TokenKind
  | string
  | number
  | identifier
  | plus
  | minus
  | star
  | slash
  | equal
  | equalEqual
  | notEqual
  | greater
  | less
  | greaterEqual
  | lessEqual
  | semicolon
  | leftParen
  | rightParen
  | comma
  | endOfInput
  deriving DecidableEq, Inhabited

def TokenKind.name : TokenKind → String
  | .string => "STRING"
  | .number => "NUMBER"
  | .identifier => "IDENT"
  | .plus => "PLUS"
  | .minus => "MINUS"
  | .star => "STAR"
  | .slash => "SLASH"
  | .equal => "EQUAL"
  | .equalEqual => "EQEQ"
  | .notEqual => "NEQ"
  | .greater => "GT"
  | .less => "LT"
  | .greaterEqual => "GTE"
  | .lessEqual => "LTE"
  | .semicolon => "SEMICOL"
  | .leftParen => "LPAREN"
  | .rightParen => "RPAREN"
  | .comma => "COMMA"
  | .endOfInput => "EOF"

/-- One token: its class, the text it was read from (quotes included) and where that text starts. -/
structure Token where
  kind : TokenKind
  lexeme : String
  position : Position
  deriving DecidableEq, Inhabited

namespace Token

/-- Identifiers that spell a word of the language do so in any mixture of ASCII letter cases. -/
def isKeyword (t : Token) (word : String) : Bool :=
  t.kind == .identifier && t.lexeme.toLower == word.toLower

/-- Stands for the end of a stream that lacks its own end token. -/
def missingEnd : Token := ⟨.endOfInput, "", ⟨0, 0⟩⟩

/-- How messages show a token: its class, then its text in quotes, then its place. -/
def text (t : Token) : String :=
  s!"{t.kind.name} '{t.lexeme}' at {t.position.text}"

end Token

/-- Why no token could be read at a place. -/
inductive LexError
  | unexpectedCharacter (c : Char) (position : Position)
  | scanner (reason : String) (position : Position)
  deriving DecidableEq

namespace LexError

def position : LexError → Position
  | unexpectedCharacter _ p => p
  | scanner _ p => p

def message : LexError → String
  | unexpectedCharacter c p => s!"unexpected character '{c}' at {p.text}"
  | scanner reason p => s!"token scanner failed at {p.text}: {reason}"

end LexError

/-- One item of a token stream: a token, or the error that took its place. -/
abbrev Item := Except LexError Token

end Scriptlet
