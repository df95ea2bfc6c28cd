import Std.Time.Format
import Scriptlet.Command.Launch
import Scriptlet.World

namespace Scriptlet.Console

/-- The system's number of a failure, which some operations give with its sign changed. -/
def failureNumber (code : UInt32) : UInt32 :=
  if code < 0x80000000 then code else 0 - code

def refusalOf : IO.Error → Refusal
  | .noFileOrDirectory _ _ _ => .noEntry
  | .alreadyExists _ _ _ => .alreadyExists
  | .inappropriateType _ code _ => if failureNumber code = 20 then .notDirectory else .isDirectory
  | .invalidArgument path code details =>
    if failureNumber code = 36 then .nameTooLong
    else .other (toString (IO.Error.invalidArgument path code details))
  | .permissionDenied _ _ _ => .other "Permission denied (os error 13)"
  | e => .other (toString e)

def attempt {α : Type} (x : IO α) : IO (Except Refusal α) := do
  try
    return .ok (← x)
  catch e =>
    return .error (refusalOf e)

/-- Runs an operation on a path, which the system takes only without NUL. -/
def attemptAt {α : Type} (path : String) (x : IO α) : IO (Except Refusal α) :=
  if path.toList.contains '\x00' then return .error .nulInName else attempt x

/-- Reads bytes up to a line feed or the end of the input. -/
partial def takeLine (input : IO.FS.Stream) (seen : ByteArray) : IO ByteArray := do
  let bytes ← input.read 1
  match bytes.toList with
  | [] => return seen
  | b :: _ => if b = 10 then return seen.push b else takeLine input (seen.push b)

def isDirectory (path : String) : IO Bool := do
  try
    (← IO.FS.realPath path).isDir
  catch _ =>
    return false

/-- Makes the first directory of a chain in which each one stands in the next. -/
def makeChain : List String → IO (Except Refusal Unit)
  | [] => return .ok ()
  | path :: outer => do
    match ← attemptAt path (IO.FS.createDir path) with
    | .error .noEntry =>
      match ← makeChain outer with
      | .ok () => settle path (← attemptAt path (IO.FS.createDir path))
      | refused => return refused
    | answer => settle path answer
where
  settle (path : String) : Except Refusal Unit → IO (Except Refusal Unit)
    | .ok () => return .ok ()
    | .error reason => return if ← isDirectory path then .ok () else .error reason

/-- The local time as records show it. -/
def timeStamp : IO String := do
  return (← Std.Time.PlainDateTime.now).format "uuuu-MM-dd HH:mm:ss"

/-- Answers requests by acting on the process's surroundings. -/
def answer (filter : Filter) (log : IO.Ref (Option IO.FS.Handle)) : (q : Request) → IO q.Answer
  | .write text => do attempt ((← IO.getStdout).putStr text)
  | .flush => do attempt (← IO.getStdout).flush
  | .record line => do
    match ← log.get with
    | none => return .ok ()
    | some file =>
      let now ← timeStamp
      attempt (file.putStr (now ++ " " ++ line ++ "\n") *> file.flush)
  | .openLog path => attemptAt path do log.set (some (← IO.FS.Handle.mk path .append))
  | .readFile path => do
    match ← attemptAt path (IO.FS.readBinFile path) with
    | .ok bytes => return (String.fromUTF8? bytes).elim (.error .invalidText) .ok
    | .error reason => return .error reason
  | .writeFile path text =>
    attemptAt path do (← IO.FS.Handle.mk path .write).putStr text
  | .appendFile path text =>
    attemptAt path do (← IO.FS.Handle.mk path .append).putStr text
  | .removeFile path => attemptAt path (IO.FS.removeFile path)
  | .createDirectories path => makeChain (Disk.chain path)
  | .readLine => do
    match ← attempt (takeLine (← IO.getStdin) .empty) with
    | .error reason => return .error reason
    | .ok bytes =>
      if bytes.isEmpty then return .ok none
      else return (String.fromUTF8? bytes).elim (.error .invalidText) (.ok ∘ some ∘ World.chomp)
  | .complain text => IO.eprint text
  | .note e => IO.eprint (filter.prints e)

/-- More steps than any run takes. -/
def plenty : Nat := 0x3fffffffffffffff

end Scriptlet.Console

open Scriptlet in
def main (arguments : List String) : IO UInt32 := do
  let filter := (← IO.getEnv "RUST_LOG").elim Filter.silent Filter.ofText
  let log ← IO.mkRef none
  match ← (Command.launch Console.plenty filter arguments).perform (Console.answer filter log) with
  | some status => return status.toUInt32
  | none => return 1
