import Scriptlet.Command.Shell

namespace Scriptlet

/-- What a command line chooses. -/
structure Options where
  script : Option String
  logFile : Option String
  noLog : Bool
  deriving DecidableEq

/-- What is said in place of doing what a command line asks for: of a failure on standard error,
else on standard output. -/
structure Notice where
  text : String
  failure : Bool

namespace Command

def version : String := "scriptlang 0.1.0\n"

def openLog (o : Options) (usual : Option String) : Dialogue (Except ScriptError Unit) :=
  match if o.noLog then none else o.logFile <|> usual with
  | none => .done (.ok ())
  | some path => do
    match ← Dialogue.openLog path with
    | .error reason => pure (.error (.log path reason))
    | .ok () =>
      Dialogue.request (.note (.logOpened path))
      pure (.ok ())

def giveUp (e : ScriptError) (source : String) (file : Option String) : Dialogue Nat := do
  Dialogue.request (.complain (e.report source file))
  pure e.exitCode

/-- Reads a script file, parses it, opens the log and runs the program, in this order; the first of
these that fails decides the status. -/
def runFile (fuel : Nat) (path : String) (o : Options) : Dialogue Nat := do
  match ← Dialogue.request (.readFile path) with
  | .error reason => giveUp (.source path reason) "" (some path)
  | .ok source =>
    match ← readScript source with
    | .error e => giveUp (.parse e) source (some path)
    | .ok program =>
      match ← openLog o (some (Path.defaultLog path)) with
      | .error e => giveUp e source (some path)
      | .ok () =>
        match ← runProgram fuel program (.fresh defaultCallLimit) with
        | (.error e, _) => giveUp (.runtime e) source (some path)
        | (.ok (), _) => pure 0

/-- Greets, opens the log if one is asked for, and obeys lines of input. -/
def runShell (fuel : Nat) (o : Options) : Dialogue Nat := do
  Shell.say (version ++ "Type 'exit' or press Ctrl+D to quit\n\n")
  match ← openLog o none with
  | .error e => giveUp e "" none
  | .ok () =>
    let _ ← Shell.converse fuel (.fresh defaultCallLimit)
    pure 0

def start (fuel : Nat) (o : Options) : Dialogue Nat :=
  match o.script with
  | some path => runFile fuel path o
  | none => runShell fuel o

def notify (n : Notice) : Dialogue Nat := do
  if n.failure then
    Dialogue.request (.complain n.text)
    pure 1
  else
    Shell.say n.text
    pure 0

/-- Says on standard error what is wrong with the setup of the observer. -/
def protest : List String → Dialogue Unit
  | [] => pure ()
  | complaint :: rest => do
    Dialogue.request (.complain complaint)
    protest rest

/-- The whole program, by the reader that understands its command line, and with the complaints that
come before all else. -/
def run (fuel : Nat) (complaints : List String) (read : List String → Except Notice Options)
    (arguments : List String) : Dialogue Nat := do
  protest complaints
  match read arguments with
  | .error n => notify n
  | .ok o => start fuel o

end Command

end Scriptlet
