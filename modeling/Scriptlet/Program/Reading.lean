import Scriptlet.Token.Stream
import Scriptlet.Program.Draft.Step

namespace Scriptlet

def maxNestingDepth : Nat := 64

/-- What became of a stream, and the items of it that were not looked at. -/
structure Reading where
  result : Except ParseError Program
  unread : List Item

/-- Goes on reading from a draft; a stream that runs dry counts as ended. -/
def Draft.read (limit : Option Nat) (d : Draft) : List Item → Reading
  | [] => ⟨((d.step limit .missingEnd).map Progress.program).mapError .structural, []⟩
  | .error e :: rest => ⟨.error (.lexical e), rest⟩
  | .ok t :: rest =>
    match d.step limit t with
    | .error e => ⟨.error (.structural e), rest⟩
    | .ok (.finished p) => ⟨.ok p, rest⟩
    | .ok (.more d) => d.read limit rest

/-- Reads a program from a stream of items, of which it takes no more than it needs. -/
def readProgram (items : List Item) (limit : Option Nat := some maxNestingDepth) : Reading :=
  Draft.empty.read limit items

/-- The program that a stream of items spells. -/
def parse (items : List Item) : Except ParseError Program :=
  (readProgram items).result

/-- The program that a text spells. -/
def parseText (text : String) : Except ParseError Program :=
  parse (tokenize text)

end Scriptlet
