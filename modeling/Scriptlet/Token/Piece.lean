import Scriptlet.Token

namespace Scriptlet

/-- The piece at the head of a text: the class of its token, `none` for blanks, line ends and
comments, and how many characters it takes after its first one. -/
structure Piece where
  kind : Option TokenKind
  more : Nat
  deriving DecidableEq

namespace Piece

/-- Blanks within a line; a line feed is a piece of its own. -/
def isBlank (c : Char) : Bool :=
  c = ' ' || c = '\t' || c = '\r'

def isNameStart (c : Char) : Bool :=
  c.isAlpha || c = '_'

def isNamePart (c : Char) : Bool :=
  c.isAlphanum || c = '_'

/-- The class of a token of a single character. -/
def symbol? : Char → Option TokenKind
  | '+' => some .plus
  | '-' => some .minus
  | '*' => some .star
  | '/' => some .slash
  | '=' => some .equal
  | '>' => some .greater
  | '<' => some .less
  | ';' => some .semicolon
  | '(' => some .leftParen
  | ')' => some .rightParen
  | ',' => some .comma
  | _ => none

def pair? : Char → Char → Option TokenKind
  | '=', '=' => some .equalEqual
  | '>', '=' => some .greaterEqual
  | '<', '=' => some .lessEqual
  | '!', '=' => some .notEqual
  | _, _ => none

/-- How far a string reaches behind its opening quote, the closing quote counted in: a backslash
takes the character behind it along, whatever that is. -/
def closing? (seen : Nat) : List Char → Option Nat
  | [] => none
  | '"' :: _ => some (seen + 1)
  | ['\\'] => none
  | '\\' :: _ :: rest => closing? (seen + 2) rest
  | _ :: rest => closing? (seen + 1) rest

/-- How many characters at the head of a text satisfy `p`. -/
def run (p : Char → Bool) (cs : List Char) : Nat :=
  (cs.takeWhile p).length

/-- The piece that starts with `c` and goes on in `rest`, if any does. -/
def at? (c : Char) (rest : List Char) : Option Piece :=
  if c = '\n' then some ⟨none, 0⟩
  else if isBlank c then some ⟨none, run isBlank rest⟩
  else if c = '#' then some ⟨none, run (· ≠ '\n') rest⟩
  else if c = '"' then (closing? 0 rest).map (⟨some .string, ·⟩)
  else if c.isDigit then some ⟨some .number, run Char.isDigit rest⟩
  else if isNameStart c then some ⟨some .identifier, run isNamePart rest⟩
  else match rest.head?.bind (pair? c) with
    | some kind => some ⟨some kind, 1⟩
    | none => (symbol? c).map (⟨some ·, 0⟩)

end Piece

end Scriptlet
