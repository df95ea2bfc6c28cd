namespace Scriptlet.Path

def cut : List Char → List (List Char)
  | [] => [[]]
  | c :: rest =>
    if c = '/' then [] :: cut rest
    else match cut rest with
      | [] => [[c]]
      | part :: parts => (c :: part) :: parts

def parts (path : String) : List String :=
  (cut path.toList).map String.ofList

/-- A part that leads nowhere: an empty one, or a single dot. -/
def idle (part : String) : Bool :=
  part = "" || part = "."

/-- Leaves out the idle parts at the end. -/
def trim (ps : List String) : List String :=
  (ps.reverse.dropWhile idle).reverse

def glue (ps : List String) : String :=
  "/".intercalate ps

def isAbsolute (path : String) : Bool :=
  path.toList.head? = some '/'

/-- The path without its last name, as it is written: none for the root and the empty path, empty
for a single name. -/
def parent? (path : String) : Option String :=
  if path = "" then none
  else match parts path with
    | [] => none
    | first :: rest =>
      match trim rest with
      | [] => if isAbsolute path then none else some ""
      | names =>
        match trim names.dropLast with
        | [] => some (if isAbsolute path then "/" else first)
        | names => some (glue (first :: names))

def name? (path : String) : Option String :=
  match parts path with
  | [] => none
  | first :: rest =>
    match (trim rest).getLast? with
    | some ".." => none
    | some name => some name
    | none => if idle first || first = ".." then none else some first

/-- A name without what follows its last dot; a dot at its start counts as a letter. -/
def stem (name : String) : String :=
  match name.toList.reverse.dropWhile (· ≠ '.') with
  | _ :: c :: cs => String.ofList (c :: cs).reverse
  | _ => name

def join (directory name : String) : String :=
  if directory = "" then name
  else if directory.toList.getLast? = some '/' then directory ++ name
  else directory ++ "/" ++ name

/-- Where the records of a script go when nothing else is said: beside it, in `logs`. -/
def defaultLog (script : String) : String :=
  let file := (name? script).elim "scriptlang" stem ++ ".log"
  join (join ((parent? script).getD "") "logs") file

end Scriptlet.Path
