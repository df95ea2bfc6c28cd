import Scriptlet.Host.Directive
import Scriptlet.Host.Event

namespace Scriptlet

/-- How much detail the events of one kind are, where they come from, and the fields they have. -/
structure Origin where
  level : Level
  target : String
  fields : List String

/-- The kind of an event, if it is one that can be reported. -/
def Event.origin? : Event → Option Origin
  | token _ => some ⟨.trace, "scriptlang::lexer", ["message", "kind", "lexeme", "line", "col"]⟩
  | logOpened _ => some ⟨.debug, "scriptlang", ["message", "log"]⟩
  | execute _ => some ⟨.debug, "scriptlang::interpreter", ["message", "pos", "statement"]⟩
  | _ => none

def Event.text : Event → String
  | token t =>
    let place := s!"line={t.position.line} col={t.position.column}"
    s!"token kind={t.kind.name} lexeme={t.lexeme} {place}"
  | logOpened path => s!"diagnostic log opened log={path}"
  | execute s => s!"execute pos={s.position.text} statement={s.name}"
  | _ => ""

/-- Whether a rule says something about the events of a kind. -/
def Directive.bearsOn (d : Directive) (o : Origin) : Bool :=
  d.isStatic && (d.target.all fun t => o.target.startsWith t) &&
    d.field.all fun f => o.fields.contains f.name

structure Filter where
  directives : List Directive
  /-- The rules that could not be read, each with what is wrong with it. -/
  rejected : List (String × Directive.Flaw)
  /-- The rule at which reading broke off. -/
  torn : Option String

namespace Filter

def silent : Filter := ⟨[], [], none⟩

def gather : List String → Filter
  | [] => silent
  | text :: rest =>
    let f := gather rest
    match Directive.read text with
    | .ok d => { f with directives := d :: f.directives }
    | .error .torn => { silent with torn := some text }
    | .error flaw => { f with rejected := (text, flaw) :: f.rejected }

/-- Reads rules that are separated by commas; without any, errors pass. -/
def ofText (s : String) : Filter :=
  let f := gather ((s.splitOn ",").filter (· ≠ ""))
  if f.directives = [] then { f with directives := [{ Directive.everything with level := .error }] }
  else f

/-- The rule that picks events of a kind most closely, and the last one of these. -/
def deciding? (f : Filter) (o : Origin) : Option Directive :=
  (f.directives.filter (·.bearsOn o)).foldl (fun best d =>
    match best with
    | some b => if b.compareReach d = .gt then best else some d
    | none => some d) none

def passes (f : Filter) (e : Event) : Bool :=
  e.origin?.any fun o => (f.deciding? o).any fun d => o.level.rank ≤ d.level.rank

def prints (f : Filter) (e : Event) : String :=
  if f.passes e then e.text ++ "\n" else ""

end Filter

end Scriptlet
