import Scriptlet.Text.Lines
import Scriptlet.Script

namespace Scriptlet

def spaces (n : Nat) : String :=
  String.ofList (List.replicate n ' ')

/-- The line of a source that an error is in, with a mark under its column. -/
def excerpt (source : String) (pos : Position) : String :=
  match Text.line? source pos.line with
  | none => ""
  | some line =>
    let number := toString pos.line
    s!"\n  {number} | {line}\n  {spaces number.length} | {spaces (pos.column - 1)}^\n"

/-- What is said of a text that is no program; `file` is where it came from. -/
def ParseError.report (e : ParseError) (source : String) (file : Option String) : String :=
  let place := file.elim "" (· ++ ":")
  s!"[{e.stage}] {place}{e.position.line}:{e.position.column}: {e.message}\n"
    ++ excerpt source e.position

def RuntimeError.report (e : RuntimeError) (file : Option String) : String :=
  let place := file.elim "" (· ++ ": ")
  s!"[runtime error] {place}{e.message}\n"

def ScriptError.report (e : ScriptError) (source : String) (file : Option String) : String :=
  match e with
  | .parse e => e.report source file
  | .runtime e => e.report file
  | e => s!"error: {e.message}\n"

end Scriptlet
