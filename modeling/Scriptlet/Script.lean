import Scriptlet.Program.Reading
import Scriptlet.Machine.Run

namespace Scriptlet

/-- Why a script did not run to its end. -/
inductive ScriptError
  | source (path : String) (reason : Refusal)
  | log (path : String) (reason : Refusal)
  | parse (e : ParseError)
  | runtime (e : RuntimeError)

namespace ScriptError

def message : ScriptError → String
  | source path reason => s!"cannot read {path}: {reason.text}"
  | log path reason => s!"cannot open log file {path}: {reason.text}"
  | parse e => e.message
  | runtime e => s!"runtime error: {e.message}"

/-- The stage that failed, as the status that a process ends with. -/
def exitCode : ScriptError → Nat
  | source .. | log .. => 1
  | parse _ => 2
  | runtime _ => 3

end ScriptError

/-- Tells the observer of the tokens that were taken off a stream; its end is none. -/
def announce : List Item → Dialogue Unit
  | [] => .done ()
  | .error _ :: rest => announce rest
  | .ok t :: rest =>
    if t.kind = .endOfInput then announce rest
    else (Dialogue.request (.note (.token t))).bind fun _ => announce rest

/-- Reads a program, of the tokens of which the observer is told as far as they were needed. -/
def readScript (text : String) : Dialogue (Except ParseError Program) :=
  let items := tokenize text
  let reading := readProgram items
  (announce (items.take (items.length - reading.unread.length))).bind fun _ => .done reading.result

/-- Reads a program and runs it. -/
def runScript (fuel : Nat) (text : String) (m : Machine) :
    Dialogue (Except ScriptError Unit × Machine) :=
  (readScript text).bind fun
    | .error e => .done (.error (.parse e), m)
    | .ok p => (runProgram fuel p m).bind fun (r, m) => .done (r.mapError .runtime, m)

end Scriptlet
