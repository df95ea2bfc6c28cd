import Scriptlet.Host.Dialogue
import Scriptlet.World.Disk

namespace Scriptlet

inductive Log
  | discard
  /-- Kept in memory, and refused when there is no room for more. -/
  | memory (records : Array String) (room : Option Nat)
  /-- Appended, each with the time before it, to the file of this identity. -/
  | file (id : Nat)

/-- Standard output: what was written, how many line feeds were taken so far and how many may be
taken before all else is refused, and whether flushing is refused. -/
structure Output where
  text : String
  lineFeeds : Nat
  limit : Option Nat
  flushFails : Bool

/-- A clock, by what it shows when it is read for the first time, for the second time, and so on. -/
structure Clock where
  readings : Nat → String

namespace Clock

def now (c : Clock) : String :=
  c.readings 0

def tick (c : Clock) : Clock :=
  ⟨fun n => c.readings (n + 1)⟩

end Clock

/-- A system in which a program can run: its file system, its streams, the log, the clock, what an
observer prints of an event, and what it was told. -/
structure World where
  disk : Disk
  input : List UInt8
  output : Output
  errors : String
  log : Log
  clock : Clock
  observer : Event → String
  events : Array Event

namespace Output

def write (o : Output) (text : String) : Except Refusal Unit × Output :=
  match o.limit with
  | some n => if n ≤ o.lineFeeds then (.error (.other "output refused"), o) else accept o
  | none => accept o
where
  accept (o : Output) : Except Refusal Unit × Output :=
    (.ok (), { o with text := o.text ++ text, lineFeeds := o.lineFeeds + text.toList.count '\n' })

def flush (o : Output) : Except Refusal Unit :=
  if o.flushFails then .error (.other "flush refused") else .ok ()

end Output

namespace World

/-- A system with an empty current directory, in which nothing is refused. -/
def empty : World where
  disk := .empty
  input := []
  output := ⟨"", 0, none, false⟩
  errors := ""
  log := .discard
  clock := ⟨fun _ => "2000-01-01 00:00:00"⟩
  observer _ := ""
  events := #[]

def record (w : World) (line : String) : Except Refusal Unit × World :=
  match w.log with
  | .discard => (.ok (), w)
  | .memory records (some 0) =>
    (.error (.other "sink refused"), { w with log := .memory records (some 0) })
  | .memory records room =>
    (.ok (), { w with log := .memory (records.push line) (room.map (· - 1)) })
  | .file id =>
    let stamped := w.clock.now ++ " " ++ line ++ "\n"
    (.ok (), { w with disk := w.disk.extendFile id stamped.toUTF8, clock := w.clock.tick })

def takeLine : List UInt8 → List UInt8 × List UInt8
  | [] => ([], [])
  | b :: rest =>
    if b = 10 then ([b], rest)
    else ((b :: (takeLine rest).1), (takeLine rest).2)

/-- A line without the line feed and the carriage return before it. -/
def chomp (line : String) : String :=
  match line.toList.reverse with
  | '\n' :: '\r' :: cs => String.ofList cs.reverse
  | '\n' :: cs => String.ofList cs.reverse
  | _ => line

def decode (bytes : ByteArray) : Except Refusal String :=
  match String.fromUTF8? bytes with
  | some text => .ok text
  | none => .error .invalidText

def readLine (w : World) : Except Refusal (Option String) × World :=
  match takeLine w.input with
  | ([], _) => (.ok none, w)
  | (line, rest) => ((decode ⟨line.toArray⟩).map (some ∘ chomp), { w with input := rest })

def onDisk (w : World) : Except Refusal Disk → Except Refusal Unit × World
  | .ok disk => (.ok (), { w with disk })
  | .error reason => (.error reason, w)

/-- Tells the observer, who prints something of it or nothing. -/
def note (w : World) (e : Event) : World :=
  { w with errors := w.errors ++ w.observer e, events := w.events.push e }

def host : Host World
  | .write text, w =>
    let (r, output) := w.output.write text
    (r, { w with output })
  | .flush, w => (w.output.flush, w)
  | .record line, w => w.record line
  | .openLog path, w =>
    match w.disk.write path id with
    | .ok (file, disk) => (.ok (), { w with disk, log := .file file })
    | .error reason => (.error reason, w)
  | .readFile path, w => ((w.disk.read path).bind decode, w)
  | .writeFile path text, w => w.onDisk ((w.disk.write path fun _ => text.toUTF8).map Prod.snd)
  | .appendFile path text, w => w.onDisk ((w.disk.write path (· ++ text.toUTF8)).map Prod.snd)
  | .removeFile path, w => w.onDisk (w.disk.remove path)
  | .createDirectories path, w =>
    let (r, disk) := w.disk.makeDirectories path
    (r, { w with disk })
  | .readLine, w => w.readLine
  | .complain text, w => ((), { w with errors := w.errors ++ text })
  | .note e, w => ((), w.note e)

end World

end Scriptlet
