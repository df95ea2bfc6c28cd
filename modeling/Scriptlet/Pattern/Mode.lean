import Scriptlet.Text.Blank

namespace Scriptlet.Pattern

structure Mode where
  ignoreCase : Bool
  unicode : Bool
  /-- Whether white space means nothing, and neither does the rest of a line behind a hash. -/
  spaced : Bool

namespace Mode

def initial : Mode := ⟨false, true, false⟩

/-- Letter case is known of ASCII only. -/
def lacksCase (m : Mode) : Bool :=
  m.ignoreCase && m.unicode

def set (m : Mode) (flag : Char) (on : Bool) : Mode :=
  match flag with
  | 'i' => { m with ignoreCase := on }
  | 'u' => { m with unicode := on }
  | 'x' => { m with spaced := on }
  | _ => m

/-- What follows white space and comments. -/
def afterSpace (inComment : Bool) : List Char → List Char
  | [] => []
  | c :: cs =>
    if inComment then afterSpace (c ≠ '\n') cs
    else if c = '#' then afterSpace true cs
    else if Text.isBlank c then afterSpace false cs
    else c :: cs

def skip (m : Mode) (cs : List Char) : List Char :=
  if m.spaced then afterSpace false cs else cs

/-- The character that tells what a hyphen in a class means: behind white space and, of a comment,
behind its hash only. -/
def ahead? (m : Mode) (cs : List Char) : Option Char :=
  if m.spaced then
    match cs.dropWhile Text.isBlank with
    | '#' :: cs => (cs.dropWhile Text.isBlank).head?
    | cs => cs.head?
  else cs.head?

/-- Reads flags, each at most once, up to the colon or bracket behind them; those behind a hyphen
are turned off. -/
def flags? (m : Mode) (on : Bool) (seen : List Char) : List Char → Option (Mode × List Char)
  | [] => none
  | c :: cs =>
    if c = ':' || c = ')' then
      if seen.head? = some '-' || (c = ')' && seen = []) then none else some (m, c :: cs)
    else if seen.contains c then none
    else if c = '-' then flags? m false (c :: seen) cs
    else if "imsUuRx".toList.contains c then flags? (m.set c on) on (c :: seen) cs
    else none

end Mode

end Scriptlet.Pattern
