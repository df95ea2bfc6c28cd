import Scriptlet.Text.Blank
import Scriptlet.Command.Report

namespace Scriptlet.Shell

/-- Writes to standard output and does not mind a refusal. -/
def say (text : String) : Dialogue Unit :=
  (Dialogue.request (.write text)).bind fun _ => .done ()

def isFarewell (line : String) : Bool :=
  line = "exit" || line = "quit"

/-- Reads and runs one line; what is wrong with it is said on standard error. -/
def obey (fuel : Nat) (line : String) (m : Machine) : Dialogue Machine :=
  (runScript fuel line m).bind fun
    | (.ok (), m) => .done m
    | (.error e, m) => (Dialogue.request (.complain (e.report line none))).bind fun _ => .done m

/-- Prompts for lines and obeys them until one says farewell, cannot be read, or is missing; gives
the machine as the lines left it. -/
def converse (fuel : Nat) (m : Machine) : Dialogue Machine :=
  match fuel with
  | 0 => .unfinished
  | fuel + 1 => do
    say "> "
    let _ ← Dialogue.request .flush
    match ← Dialogue.request .readLine with
    | .error reason =>
      Dialogue.request (.complain s!"Error reading input: {reason.text}\n")
      pure m
    | .ok none =>
      say "\nGoodbye!\n"
      pure m
    | .ok (some line) =>
      let line := Text.trim line
      if isFarewell line then
        say "Goodbye!\n"
        pure m
      else if line = "" then converse fuel m
      else
        let m ← obey fuel line m
        converse fuel m

end Scriptlet.Shell
