namespace Scriptlet.Text

/-- Cuts a text behind each of its line feeds, which are left out together with a carriage return
right before them; nothing behind the last one is no line. -/
def cutLines (line : List Char) : List Char → List (List Char)
  | [] => if line = [] then [] else [line.reverse]
  | '\n' :: rest =>
    match line with
    | '\r' :: line => line.reverse :: cutLines [] rest
    | line => line.reverse :: cutLines [] rest
  | c :: rest => cutLines (c :: line) rest

def lines (s : String) : List String :=
  (cutLines [] s.toList).map String.ofList

/-- The line of a text with a given number, the first one being 1. -/
def line? (s : String) (number : Nat) : Option String :=
  match number with
  | 0 => none
  | n + 1 => (lines s)[n]?

end Scriptlet.Text
