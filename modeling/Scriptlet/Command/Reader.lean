import Scriptlet.Command

namespace Scriptlet

/-- Why a command line is refused. -/
inductive Misuse
  | unknown (argument : String)
  | repeated (option : String)
  | missingValue (option : String)
  | unwantedValue (option : String)
  | excess (argument : String)
  | conflict
  deriving DecidableEq

def Misuse.message : Misuse → String
  | unknown argument => s!"unexpected argument '{argument}' found"
  | repeated option => s!"the argument '{option}' cannot be used multiple times"
  | missingValue option => s!"a value is required for '{option}' but none was supplied"
  | unwantedValue option => s!"unexpected value for '{option}' found; no more were expected"
  | excess argument => s!"unexpected argument '{argument}' found"
  | conflict => "the argument '--log-file <PATH>' cannot be used with '--no-log'"

inductive Invocation
  | help
  | version
  | start (o : Options)
  | refuse (m : Misuse)

namespace Options

def none : Options := ⟨.none, .none, false⟩

def takeScript (o : Options) (path : String) : Except Misuse Options :=
  if path = "" then .error (.missingValue "[FILE]")
  else match o.script with
    | .none => .ok { o with script := some path }
    | some _ => .error (.excess path)

def takeLogFile (o : Options) (path : String) : Except Misuse Options :=
  if path = "" then .error (.missingValue "--log-file <PATH>")
  else match o.logFile with
    | .none => .ok { o with logFile := some path }
    | some _ => .error (.repeated "--log-file <PATH>")

def conclude (o : Options) : Invocation :=
  if o.noLog ∧ o.logFile.isSome then .refuse .conflict else .start o

def readScripts (o : Options) : List String → Invocation
  | [] => o.conclude
  | path :: rest =>
    match o.takeScript path with
    | .error m => .refuse m
    | .ok o => o.readScripts rest

/-- The parts of a long option before and behind its first equals sign. -/
def cutOption (argument : String) : String × Option String :=
  let name := argument.toList.takeWhile (· ≠ '=')
  match argument.toList.drop name.length with
  | [] => (argument, .none)
  | _ :: value => (String.ofList name, some (String.ofList value))

/-- Whether an argument can be no value: it starts with a dash and goes on. -/
def dashed (argument : String) : Bool :=
  argument.startsWith "-" && argument ≠ "-"

/-- Reads arguments in order; the first one that asks for help, for the version, or for something
impossible decides. -/
def scan (o : Options) : List String → Invocation
  | [] => o.conclude
  | argument :: rest =>
    if argument = "--" then o.readScripts rest
    else if argument.startsWith "--" then
      match cutOption argument with
      | ("--help", .none) => .help
      | ("--version", .none) => .version
      | ("--no-log", .none) =>
        if o.noLog then .refuse (.repeated "--no-log") else scan { o with noLog := true } rest
      | ("--log-file", some path) =>
        match o.takeLogFile path with
        | .error m => .refuse m
        | .ok o => scan o rest
      | ("--log-file", .none) =>
        match rest with
        | [] => .refuse (.missingValue "--log-file <PATH>")
        | path :: rest =>
          if dashed path then .refuse (.missingValue "--log-file <PATH>")
          else match o.takeLogFile path with
            | .error m => .refuse m
            | .ok o => scan o rest
      | (name, some _) =>
        if name = "--help" ∨ name = "--version" ∨ name = "--no-log" then
          .refuse (.unwantedValue name)
        else .refuse (.unknown argument)
      | (_, .none) => .refuse (.unknown argument)
    else if dashed argument then
      match argument.toList with
      | _ :: 'h' :: _ => .help
      | _ :: 'V' :: _ => .version
      | _ => .refuse (.unknown argument)
    else match o.takeScript argument with
      | .error m => .refuse m
      | .ok o => scan o rest

end Options

def usage : String :=
  "Run scriptlang programs

Usage: scriptlang [OPTIONS] [FILE]

Arguments:
  [FILE]  Script file to execute; starts an interactive shell when omitted

Options:
      --log-file <PATH>  Write diagnostic records to this file instead of logs/<script>.log
      --no-log           Do not write diagnostic records anywhere
  -h, --help             Print help
  -V, --version          Print version
"

namespace Invocation

/-- What is to be done, or to be said instead. -/
def choice : Invocation → Except Notice Options
  | help => .error ⟨usage, false⟩
  | version => .error ⟨Command.version, false⟩
  | start o => .ok o
  | refuse m =>
    .error ⟨s!"error: {m.message}\n\nFor more information, try '--help'.\n", true⟩

end Invocation

def Options.read (arguments : List String) : Except Notice Options :=
  (none.scan arguments).choice

end Scriptlet
