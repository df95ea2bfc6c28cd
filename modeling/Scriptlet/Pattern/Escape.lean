import Scriptlet.Pattern.Mode

namespace Scriptlet.Pattern

inductive Escape
  /-- A character, which may be written by the code of a byte. -/
  | literal (c : Char) (byte : Bool)
  /-- A class of digits, blanks or word characters. -/
  | set
  /-- An end of the text. -/
  | edge
  /-- An end of a word, or none. -/
  | wordEdge

namespace Escape

def hexDigit? (c : Char) : Option Nat :=
  if c.isDigit then some (c.toNat - '0'.toNat)
  else if 'a' ≤ c.toLower && c.toLower ≤ 'f' then some (c.toLower.toNat - 'a'.toNat + 10)
  else none

/-- Reads a fixed number of hexadecimal digits on from a value. -/
def hex? (m : Mode) (digits value : Nat) (cs : List Char) : Option (Nat × List Char) :=
  match digits, m.skip cs with
  | 0, cs => some (value, cs)
  | _, [] => none
  | digits + 1, c :: cs => (hexDigit? c).bind fun d => hex? m digits (16 * value + d) cs

def ofCode? (m : Mode) (digits : Nat) (cs : List Char) : Option (Escape × List Char) :=
  (hex? m digits 0 cs).bind fun (n, cs) =>
    if n.isValidChar then some (.literal (Char.ofNat n) (digits = 2), cs) else none

/-- Reads on behind a backslash. Of the rest of ASCII, what is no letter or digit stands for
itself. -/
def read? (m : Mode) : List Char → Option (Escape × List Char)
  | [] => none
  | c :: cs =>
    match c with
    | 'x' => ofCode? m 2 cs
    | 'u' => ofCode? m 4 cs
    | 'U' => ofCode? m 8 cs
    | 'd' | 's' | 'w' => some (.set, cs)
    | 'A' | 'z' => some (.edge, cs)
    | 'b' | 'B' | '<' | '>' => some (.wordEdge, cs)
    | 'a' => some (.literal '\x07' false, cs)
    | 'f' => some (.literal '\x0c' false, cs)
    | 't' => some (.literal '\t' false, cs)
    | 'n' => some (.literal '\n' false, cs)
    | 'r' => some (.literal '\r' false, cs)
    | 'v' => some (.literal '\x0b' false, cs)
    | c => if c ≤ '\x7f' && !c.isAlphanum then some (.literal c false, cs) else none

/-- Whether an escape is understood outside of classes. Beyond ASCII, a byte alone is no
character, and digits, blanks and words are known of ASCII only. -/
def isKnown (m : Mode) : Escape → Bool
  | literal c byte => !m.lacksCase && (m.unicode || !byte || c ≤ '\x7f')
  | set | wordEdge => !m.unicode
  | edge => true

end Escape

end Scriptlet.Pattern
