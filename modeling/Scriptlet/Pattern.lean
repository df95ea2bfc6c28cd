import Scriptlet.Text.Alphanumeric
import Scriptlet.Pattern.Bracket

namespace Scriptlet

namespace Pattern

structure Group where
  /-- The parts of the last alternative. -/
  row : Row
  /-- How deep the last part is, if it can be repeated. -/
  last : Option Nat
  /-- How deep the alternatives before the last one are. -/
  before : Option Nat

namespace Group

def empty : Group := ⟨.empty, none, none⟩

def add (g : Group) (depth : Nat) : Group :=
  { g with row := g.row.add depth, last := some depth }

def addFlags (g : Group) : Group :=
  { g with row := g.row.add 0, last := none }

def repeated? (g : Group) : Option Group :=
  g.last.map fun d => { g with row.depth := max g.row.depth (d + 1), last := some (d + 1) }

def branch (g : Group) : Group :=
  ⟨.empty, none, some (max (g.before.getD 0) g.row.total)⟩

def depth (g : Group) : Nat :=
  g.row.totalAfter g.before

end Group

/-- The name of a group is a word, in which a few other characters may stand too. -/
def isName : List Char → Bool
  | [] => false
  | c :: cs =>
    (c = '_' || Text.isAlphabetic c) &&
      cs.all fun c => Text.isAlphanumeric c || "_.[]".toList.contains c

/-- A pattern that is read up to some place: the innermost open group and those around it, with the
modes that hold again behind them, and the names of groups. -/
structure Prior where
  mode : Mode
  group : Group
  outer : List (Mode × Group)
  names : List (List Char)

namespace Prior

def initial : Prior := ⟨.initial, .empty, [], []⟩

def add (p : Prior) (depth : Nat) : Prior :=
  { p with group := p.group.add depth }

def enter (p : Prior) (mode : Mode) : Prior :=
  { p with mode, group := .empty, outer := (p.mode, p.group) :: p.outer }

def leave? (p : Prior) : Option Prior :=
  match p.outer with
  | [] => none
  | (mode, group) :: outer => some { p with mode, group := group.add (p.group.depth + 1), outer }

def enterNamed? (p : Prior) (cs : List Char) : Option (Prior × List Char) :=
  let name := cs.takeWhile (· ≠ '>')
  match cs.drop name.length with
  | [] => none
  | _ :: cs =>
    if isName name && !p.names.contains name then
      some ({ p.enter p.mode with names := name :: p.names }, cs)
    else none

def enter? (p : Prior) (cs : List Char) : Option (Prior × List Char) :=
  match p.mode.skip cs with
  | '?' :: 'P' :: '<' :: cs => p.enterNamed? cs
  | '?' :: '<' :: cs => p.enterNamed? cs
  | '?' :: cs =>
    match p.mode.flags? true [] cs with
    | some (mode, ':' :: cs) => some (p.enter mode, cs)
    | some (mode, _ :: cs) => some ({ p with mode, group := p.group.addFlags }, cs)
    | _ => none
  | cs => some (p.enter p.mode, cs)

def repeated? (p : Prior) (cs : List Char) : Option (Prior × List Char) :=
  p.group.repeated?.map fun group =>
    ({ p with group }, if cs.head? = some '?' then cs.tail else cs)

/-- Whether a character that is no operator is understood. Without Unicode a point would match a
byte that is no character. -/
def isKnown (m : Mode) (c : Char) : Bool :=
  if c = '^' || c = '$' then true
  else if c = '.' then m.unicode
  else !m.lacksCase

/-- Reads one part of a pattern, or the start or end of a group. Repetitions are not counted, so no
brace stands for itself. -/
def step? (p : Prior) (c : Char) (cs : List Char) : Option (Prior × List Char) :=
  match c with
  | '(' => p.enter? cs
  | ')' => p.leave?.map (·, cs)
  | '|' => some ({ p with group := p.group.branch }, cs)
  | '*' | '+' | '?' => p.repeated? cs
  | '\x7b' => none
  | '[' => (Bracket.read? p.mode cs).map fun (depth, cs) => (p.add depth, cs)
  | '\\' =>
    (Escape.read? p.mode cs).bind fun (e, cs) =>
      if e.isKnown p.mode then some (p.add 0, cs) else none
  | c => if isKnown p.mode c then some (p.add 0, cs) else none

def isWhole (p : Prior) : Bool :=
  p.outer.isEmpty && p.group.depth ≤ maxDepth

def accepts (fuel : Nat) (p : Prior) (cs : List Char) : Bool :=
  match fuel, p.mode.skip cs with
  | _, [] => p.isWhole
  | 0, _ => false
  | fuel + 1, c :: cs =>
    match p.step? c cs with
    | some (p, cs) => accepts fuel p cs
    | none => false

end Prior

end Pattern

/-- Whether a text is a pattern. Parts are characters, escapes, classes in brackets and groups;
alternatives are set apart by bars, and parts can be repeated. -/
def isPattern (cs : List Char) : Bool :=
  Pattern.Prior.initial.accepts cs.length cs

end Scriptlet
