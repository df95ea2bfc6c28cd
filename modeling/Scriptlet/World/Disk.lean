import Scriptlet.Path
import Scriptlet.Table
import Scriptlet.Host.Refusal

namespace Scriptlet

/-- The names that lead from the root of a file system to an entry of it. -/
abbrev Location := List String

/-- What stands at a location. A file keeps its identity while its contents change. -/
inductive Entry
  | directory
  | file (id : Nat) (contents : ByteArray)

/-- A file system and the current directory in it; files that are made get the next identity. -/
structure Disk where
  entries : Table Location Entry
  here : Location
  nextId : Nat

namespace Disk

def entry? (d : Disk) (l : Location) : Option Entry :=
  if l = [] then some .directory else d.entries.find? l

def put (d : Disk) (l : Location) (e : Entry) : Disk :=
  { d with entries := d.entries.insert l e }

def maxName : Nat := 255

/-- Paths are shorter than so many bytes. -/
def maxPath : Nat := 4096

/-- Goes from a directory to one that it names. -/
def enter (d : Disk) (l : Location) (name : String) : Except Refusal Location :=
  if name = "." then .ok l
  else if name = ".." then .ok l.dropLast
  else if maxName < name.utf8ByteSize then .error .nameTooLong
  else match d.entry? (l ++ [name]) with
    | none => .error .noEntry
    | some (.file ..) => .error .notDirectory
    | some .directory => .ok (l ++ [name])

def walk (d : Disk) (l : Location) : List String → Except Refusal Location
  | [] => .ok l
  | name :: rest => do
    let l ← d.enter l name
    d.walk l rest

/-- Where a path leads: to a name in a directory, with a slash behind it or without, or to a
directory by dots or slashes alone. -/
inductive Aim
  | named (directory : Location) (name : String) (slash : Bool)
  | place (l : Location)

/-- Follows a path as far as its last name, which need not exist. -/
def aim (d : Disk) (path : String) : Except Refusal Aim :=
  if path.toList.contains '\x00' then .error .nulInName
  else if path = "" then .error .noEntry
  else if maxPath ≤ path.utf8ByteSize then .error .nameTooLong
  else do
    let names := (Path.parts path).filter (· ≠ "")
    let l ← d.walk (if Path.isAbsolute path then [] else d.here) names.dropLast
    match names.getLast? with
    | none => .ok (.place l)
    | some "." => .ok (.place l)
    | some ".." => .ok (.place l.dropLast)
    | some name => .ok (.named l name (path.toList.getLast? = some '/'))

def locate (l : Location) (name : String) : Except Refusal Location :=
  if maxName < name.utf8ByteSize then .error .nameTooLong else .ok (l ++ [name])

def read (d : Disk) (path : String) : Except Refusal ByteArray := do
  match ← d.aim path with
  | .place _ => .error .isDirectory
  | .named l name slash =>
    match d.entry? (← locate l name) with
    | none => .error .noEntry
    | some .directory => .error .isDirectory
    | some (.file _ bytes) => if slash then .error .notDirectory else .ok bytes

/-- The place to which a file is to be written, with its identity and old contents. -/
def writable (d : Disk) (path : String) : Except Refusal (Location × Option (Nat × ByteArray)) := do
  match ← d.aim path with
  | .place _ => .error .isDirectory
  | .named _ _ true => .error .isDirectory
  | .named l name false =>
    let l ← locate l name
    match d.entry? l with
    | none => .ok (l, none)
    | some .directory => .error .isDirectory
    | some (.file id bytes) => .ok (l, some (id, bytes))

/-- Changes the contents of a file, which is made if it is missing. -/
def write (d : Disk) (path : String) (change : ByteArray → ByteArray) :
    Except Refusal (Nat × Disk) := do
  match ← d.writable path with
  | (l, some (id, bytes)) => .ok (id, d.put l (.file id (change bytes)))
  | (l, none) =>
    .ok (d.nextId, { d.put l (.file d.nextId (change .empty)) with nextId := d.nextId + 1 })

def remove (d : Disk) (path : String) : Except Refusal Disk := do
  match ← d.aim path with
  | .place _ => .error .isDirectory
  | .named l name slash =>
    let l ← locate l name
    match d.entry? l with
    | none => .error .noEntry
    | some .directory => .error .isDirectory
    | some (.file ..) =>
      if slash then .error .notDirectory else .ok { d with entries := d.entries.erase l }

def makeDirectory (d : Disk) (path : String) : Except Refusal Disk := do
  match ← d.aim path with
  | .place _ => .error .alreadyExists
  | .named l name _ =>
    let l ← locate l name
    match d.entry? l with
    | none => .ok (d.put l .directory)
    | some _ => .error .alreadyExists

def isDirectory (d : Disk) (path : String) : Bool :=
  match d.aim path with
  | .error _ => false
  | .ok (.place _) => true
  | .ok (.named l name _) =>
    match d.entry? (l ++ [name]) with
    | some .directory => true
    | _ => false

/-- Makes the first directory of a chain in which each one stands in the next, after the others
where these are missing; what was made before a refusal stays. -/
def makeChain (d : Disk) : List String → Except Refusal Unit × Disk
  | [] => (.ok (), d)
  | path :: outer =>
    match d.makeDirectory path with
    | .ok d => (.ok (), d)
    | .error .noEntry =>
      match d.makeChain outer with
      | (.error reason, d) => (.error reason, d)
      | (.ok (), d) =>
        match d.makeDirectory path with
        | .ok d => (.ok (), d)
        | .error reason => (if d.isDirectory path then .ok () else .error reason, d)
    | .error reason => (if d.isDirectory path then .ok () else .error reason, d)

/-- A path and the paths of the directories that lead to it, as it names them; there are at most
as many as it has characters. -/
def chain (path : String) : List String :=
  go path.length path
where
  go : Nat → String → List String
    | 0, _ => []
    | n + 1, path =>
      if path = "" then []
      else match Path.parent? path with
        | none => [path]
        | some outer => path :: go n outer

def makeDirectories (d : Disk) (path : String) : Except Refusal Unit × Disk :=
  d.makeChain (chain path)

/-- Writes to the end of the file of a given identity; a file that was taken away is written to in
vain. -/
def extendFile (d : Disk) (id : Nat) (bytes : ByteArray) : Disk :=
  { d with entries := ⟨d.entries.entries.map fun (l, e) =>
      match e with
      | .file id' old => if id' = id then (l, .file id (old ++ bytes)) else (l, e)
      | .directory => (l, e)⟩ }

def empty : Disk :=
  ⟨⟨[(["scratch"], .directory)]⟩, ["scratch"], 0⟩

/-- Puts a file, or a directory if there are no contents, where a path says, with the directories
that lead there. -/
def lay (d : Disk) (path : String) (contents : Option ByteArray) : Disk :=
  match contents with
  | none => (d.makeDirectories path).2
  | some bytes =>
    let d := (d.makeDirectories ((Path.parent? path).getD "")).2
    match d.write path fun _ => bytes with
    | .ok (_, d) => d
    | .error _ => d

/-- The path of a location as seen from the directory `l`, if it lies within. -/
def relative? : Location → Location → Option Location
  | [], names => some names
  | _ :: _, [] => none
  | a :: l, b :: names => if a = b then relative? l names else none

/-- All that lies in the current directory, at any depth, sorted by path; the paths of directories
end in a slash. -/
def listing (d : Disk) : List (String × Option ByteArray) :=
  let found := d.entries.entries.filterMap fun (l, e) =>
    match relative? d.here l, e with
    | none, _ | some [], _ => none
    | some names, .directory => some (Path.glue names ++ "/", none)
    | some names, .file _ bytes => some (Path.glue names, some bytes)
  found.mergeSort fun a b => a.1 ≤ b.1

end Disk

end Scriptlet
