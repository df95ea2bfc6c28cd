import Scriptlet.Pattern.Escape
import Scriptlet.Pattern.Row

namespace Scriptlet.Pattern

structure Bracket where
  /-- The members behind the last operator. -/
  row : Row
  /-- How deep that is which stands before the last operator. -/
  before : Option Nat

namespace Bracket

def empty : Bracket := ⟨.empty, none⟩

def add (b : Bracket) (depth : Nat) : Bracket :=
  { b with row := b.row.add depth }

def operate (b : Bracket) : Bracket :=
  ⟨.empty, some (b.row.totalAfter b.before)⟩

def depth (b : Bracket) : Nat :=
  b.row.totalAfter b.before + 1

def names : List String :=
  ["alnum", "alpha", "ascii", "blank", "cntrl", "digit", "graph", "lower", "print", "punct",
    "space", "upper", "word", "xdigit"]

def named? : List Char → Option (Bool × List Char)
  | ':' :: '^' :: cs => (plain? cs).map (true, ·)
  | ':' :: cs => (plain? cs).map (false, ·)
  | _ => none
where
  plain? (cs : List Char) : Option (List Char) :=
    let name := cs.takeWhile (· ≠ ':')
    match cs.drop name.length with
    | ':' :: ']' :: cs => if names.contains (String.ofList name) then some cs else none
    | _ => none

/-- A class of bytes has members in ASCII only, and a class that would need letter case beyond
ASCII has none. -/
def admits (m : Mode) (c : Char) : Bool :=
  !m.lacksCase && (m.unicode || c ≤ '\x7f')

/-- Reads one member: a character, or an escape for many. -/
def member? (m : Mode) : List Char → Option (Option Char × List Char)
  | [] => none
  | '\\' :: cs =>
    match Escape.read? m cs with
    | some (.literal c _, cs) => if admits m c then some (some c, cs) else none
    | some (.set, cs) => if m.unicode then none else some (none, cs)
    | _ => none
  | c :: cs => if admits m c then some (some c, cs) else none

/-- Reads one member or, with a hyphen between its ends, a range. -/
def range? (m : Mode) (cs : List Char) : Option (List Char) :=
  (member? m cs).bind fun (first, cs) =>
    match m.skip cs with
    | '-' :: cs =>
      if m.ahead? cs = some ']' || m.ahead? cs = some '-' then some ('-' :: cs)
      else
        match first, member? m (m.skip cs) with
        | some first, some (some last, cs) => if first ≤ last then some cs else none
        | _, _ => none
    | cs => some cs

/-- Reads on behind a bracket, up to the members; of bytes there are no complements. -/
def enter? (m : Mode) (cs : List Char) : Option (List Char) :=
  match m.skip cs with
  | '^' :: cs => if m.unicode then some cs else none
  | cs => some cs

/-- Reads a class to its end, given the classes that it stands in, and tells its depth. As long as
it `starts`, hyphens stand for themselves, and so does a closing bracket that is its first
member. -/
def finish? (m : Mode) (fuel : Nat) (b : Bracket) (outer : List Bracket) (starts : Bool)
    (cs : List Char) : Option (Nat × List Char) :=
  match fuel, m.skip cs with
  | 0, _ | _, [] => none
  | fuel + 1, c :: cs =>
    if starts then
      if c = '-' || (c = ']' && b.row.count = 0) then
        if admits m c then finish? m fuel (b.add 0) outer (c = '-') cs else none
      else finish? m fuel b outer false (c :: cs)
    else if c = ']' then
      match outer with
      | [] => some (b.depth, cs)
      | o :: outer => finish? m fuel (o.add b.depth) outer false cs
    else if c = '[' then
      match named? cs with
      | some (complement, cs) =>
        if m.lacksCase || (complement && !m.unicode) then none
        else finish? m fuel (b.add 0) outer false cs
      | none => (enter? m cs).bind (finish? m fuel .empty (b :: outer) true)
    else if (c = '&' || c = '-' || c = '~') && cs.head? = some c then
      finish? m fuel b.operate outer false cs.tail
    else (range? m (c :: cs)).bind (finish? m fuel (b.add 0) outer false)

def read? (m : Mode) (cs : List Char) : Option (Nat × List Char) :=
  (enter? m cs).bind fun cs => finish? m (2 * cs.length + 1) .empty [] true cs

end Bracket

end Scriptlet.Pattern
