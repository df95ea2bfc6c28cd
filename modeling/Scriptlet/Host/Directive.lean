import Scriptlet.Text.Blank
import Scriptlet.Text.Magnitude
import Scriptlet.Text.Slice
import Scriptlet.Pattern
import Scriptlet.Host.Level

namespace Scriptlet

/-- A field that events are asked to have, with the value it is asked to have. -/
structure Field where
  name : String
  value : Option String
  deriving DecidableEq

namespace Field

/-- A value is a pattern or a number; a number is a pattern too unless it starts with a plus
sign. -/
def isValue (cs : List Char) : Bool :=
  isPattern cs || (cs.head? = some '+' && Text.isMagnitude cs.tail)

/-- Reads a name and, behind an equals sign, a value; a further equals sign ends the value. -/
def ofChars? (cs : List Char) : Option Field :=
  let name := cs.takeWhile (· ≠ '=')
  match cs, cs.drop name.length with
  | [], _ => none
  | _, [] => some ⟨String.ofList name, none⟩
  | _, _ :: rest =>
    let value := rest.takeWhile (· ≠ '=')
    if isValue value then some ⟨String.ofList name, some (String.ofList value)⟩ else none

end Field

/-- One rule of a filter: the most detail that is let through, of all that happens or of what fits a
target, a span and a field. -/
structure Directive where
  target : Option String
  span : Option String
  field : Option Field
  level : Level
  deriving DecidableEq

namespace Directive

inductive Flaw
  /-- It does not have the form of a rule. -/
  | malformed
  /-- What stands where a level is expected is none. -/
  | unknownLevel
  /-- The value of its field is no value. -/
  | badValue
  /-- A part of it starts or ends within a character. -/
  | torn

def Flaw.message : Flaw → String
  | malformed => "invalid filter directive"
  | unknownLevel =>
    "error parsing level filter: expected one of \"off\", \"error\", \"warn\", \"info\", "
      ++ "\"debug\", \"trace\", or a number 0-5"
  | badValue => "invalid field filter: error building NFA"
  | torn => "a part ends within a character"

def everything : Directive :=
  ⟨none, none, none, .trace⟩

/-- Targets start with a letter, a number, or one of a few other characters. -/
def opens (c : Char) : Bool :=
  c = '-' || c = ':' || c = '_' || Text.isAlphanumeric c

/-- The part of a rule between two byte offsets. The form of a rule is told without the white space
at its ends, but its parts are counted off with that white space. -/
def cut (rule : List Char) (start stop : Nat) : Except Flaw (List Char) :=
  match Text.slice? start stop rule with
  | some part => .ok part
  | none => .error .torn

def cutRest (rule : List Char) (start : Nat) : Except Flaw (List Char) :=
  cut rule start (Text.byteLength rule)

/-- Reads the level at the end of a rule; none written means all detail. -/
def readLevel (rule : List Char) (start : Nat) (d : Directive) : Except Flaw Directive := do
  let text ← cutRest rule start
  match text, Level.ofChars? text with
  | [], _ => .ok d
  | _, some level => .ok { d with level }
  | _, none => .error .unknownLevel

def readEnd (rule : List Char) (start : Nat) (d : Directive) : List Char → Except Flaw Directive
  | [] => .ok d
  | '=' :: _ => readLevel rule (start + 1) d
  | _ => .error .malformed

def readField (rule : List Char) (start : Nat) (d : Directive) (cs : List Char) :
    Except Flaw Directive :=
  let inner := cs.takeWhile (· ≠ '\x7d')
  let stop := start + Text.byteLength inner
  match cs.drop inner.length with
  | [] => .error .malformed
  | _ :: cs => do
    let text ← cut rule start stop
    match text, Field.ofChars? text, cs with
    | _ :: _, none, _ => .error .badValue
    | _, some field, ']' :: cs => readEnd rule (stop + 2) { d with field := some field } cs
    | _, _, _ => .error .malformed

def readSpan (rule : List Char) (start : Nat) (d : Directive) (cs : List Char) :
    Except Flaw Directive :=
  let inner := cs.takeWhile fun c => c ≠ ']' && c ≠ '\x7b'
  let stop := start + Text.byteLength inner
  match cs.drop inner.length with
  | [] => .error .malformed
  | c :: cs => do
    let name ← cut rule start stop
    let span := String.ofList name
    if c = ']' then readEnd rule (stop + 1) { d with span := some span } cs
    else if name = [] then readField rule (stop + 1) d cs
    else readField rule (stop + 1) { d with span := some span } cs

/-- Reads a rule that starts with a target; a rule without further parts may be a level alone. -/
def readTarget (rule cs : List Char) : Except Flaw Directive :=
  let front := cs.takeWhile fun c => c ≠ '=' && c ≠ '['
  let stop := Text.byteLength front
  match cs.drop front.length with
  | [] => do
    let text ← cutRest rule 0
    match Level.ofChars? text with
    | some level => .ok { everything with level }
    | none => .ok { everything with target := some (String.ofList text) }
  | c :: cs => do
    let target ← cut rule 0 stop
    let d := { everything with target := some (String.ofList target) }
    if c = '=' then readLevel rule (stop + 1) d else readSpan rule (stop + 1) d cs

/-- Reads `level`, `target`, `target=level` or `target[span{field=value}]=level`; of the last,
everything but the brackets and one of the parts can be left out. -/
def read (text : String) : Except Flaw Directive :=
  let rule := text.toList
  match Text.trimChars rule with
  | [] => .error .malformed
  | '[' :: cs => readSpan rule 1 everything cs
  | c :: cs => if opens c then readTarget rule (c :: cs) else .error .malformed

/-- A rule for a span or for a value bears on no event, as no event stands in a span. -/
def isStatic (d : Directive) : Bool :=
  d.span.isNone && d.field.all fun f => f.value.isNone

/-- How closely a rule picks its events: by the length of its target before all, then by its
field. -/
def compareReach (d e : Directive) : Ordering :=
  (compare (reach d) (reach e)).then (compare (fieldName d) (fieldName e))
where
  reach (d : Directive) : Nat := (d.target.map String.utf8ByteSize).getD 0
  fieldName (d : Directive) : String := (d.field.map Field.name).getD ""

end Directive

end Scriptlet
