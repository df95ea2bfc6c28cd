import Scriptlet.Value.Operation
import Scriptlet.Host.Log
import Scriptlet.Machine.Eval

namespace Scriptlet

/-- The value of the left side that makes the right side irrelevant. -/
def Connective.decisive : Connective → Bool
  | .and => false
  | .or => true

namespace Eval

def record (line : String) : Eval Unit := do
  accept .diagnostic (← ask (.record line))

/-- Writes to standard output; an empty text is not written. -/
def output (text : String) : Eval Unit := do
  if text ≠ "" then accept .output (← ask (.write text))

def variableValue (x : String) : Eval Value := do
  match (← get).current.find? x with
  | some v => pure v
  | none => fail (.undefinedVariable x)

/-- The function that a call with `count` arguments starts. The name is looked up first, then the
arguments are counted, then the active calls. -/
def callee (name : String) (count : Nat) : Eval Function := do
  let m ← get
  match m.functions.find? name with
  | none => fail (.undefinedFunction name)
  | some f =>
    if count ≠ f.parameters.length then fail (.arityMismatch name f.parameters.length count)
    else if m.callLimit ≤ m.active then fail (.callDepthExceeded name m.callLimit)
    else pure f

def assign (x : String) (v : Value) : Eval Unit := do
  modify (·.bind x v)
  note (.bind x v)

def define (name : String) (f : Function) : Eval Unit := do
  modify (·.define name f)
  note (.define name f)

/-- Writes a file, making the directories that lead to it, and says so in the log. -/
def writeFile (mode : WriteMode) (path text : String) : Eval Unit := do
  accept (.io path) (← talk (Dialogue.prepareParent path))
  match mode with
  | .replace =>
    accept (.io path) (← ask (.writeFile path text))
    record s!"[WRITEFILE] {path}"
  | .extend =>
    accept (.io path) (← ask (.appendFile path text))
    record s!"[APPENDFILE] {path}"

def readFile (path target : String) : Eval Unit := do
  match ← ask (.readFile path) with
  | .ok text =>
    assign target (.string text)
    record s!"[READFILE] {path} -> {target}"
  | .error .noEntry => fail (.fileNotFound path)
  | .error reason => fail (.io path reason)

/-- Deletes a file and says so in the log, unless there is none. -/
def deleteFile (path : String) : Eval Unit := do
  match ← ask (.removeFile path) with
  | .ok () => record s!"[DELETEFILE] {path}"
  | .error .noEntry => pure ()
  | .error reason => fail (.io path reason)

end Eval

mutual

def evaluate (fuel : Nat) (e : Expression) : Eval Value :=
  match fuel with
  | 0 => .unfinished
  | fuel + 1 =>
    match e with
    | .string s => pure (.string s)
    | .number n => pure (.integer n)
    | .var x => Eval.variableValue x
    | .binary op left right => do
      let a ← evaluate fuel left
      let b ← evaluate fuel right
      Eval.ofExcept (a.binary op b)
    | .logical op left right => do
      let a ← evaluate fuel left
      if a.truthy = op.decisive then pure (.boolean a.truthy)
      else
        let b ← evaluate fuel right
        pure (.boolean b.truthy)
    | .call name arguments => invoke fuel name arguments

/-- Calls a function: its arguments are evaluated in the calling activation, its body in a new
one. -/
def invoke (fuel : Nat) (name : String) (arguments : List Expression) : Eval Value :=
  match fuel with
  | 0 => .unfinished
  | fuel + 1 => do
    let f ← Eval.callee name arguments.length
    let values ← Eval.each (evaluate fuel) arguments
    Eval.note (.enter name f values)
    match ← Eval.within name (f.scope values) (Eval.block (execute fuel) f.body) with
    | .giveBack v => pure v
    | .normal => pure .none

/-- Executes a statement and locates the errors that no statement within it has located. -/
def execute (fuel : Nat) (s : Statement) : Eval Flow :=
  match fuel with
  | 0 => .unfinished
  | fuel + 1 => do
    Eval.note (.execute s)
    let flow ← Eval.locate s.position (perform fuel s)
    Eval.note (.finish s flow)
    pure flow

def perform (fuel : Nat) (s : Statement) : Eval Flow :=
  match fuel with
  | 0 => .unfinished
  | fuel + 1 =>
    match s with
    | .assign _ x e => do
      let v ← evaluate fuel e
      Eval.record s!"[SET] {x} = {v.display}"
      Eval.assign x v
      pure .normal
    | .print _ e => do
      let v ← evaluate fuel e
      Eval.output v.display
      Eval.output "\n"
      Eval.record s!"[PRINT] {v.display}"
      pure .normal
    | .log _ e => do
      let v ← evaluate fuel e
      Eval.record s!"[LOG] {v.display}"
      pure .normal
    | .ifThen _ condition body => do
      Eval.note (.test s)
      let v ← evaluate fuel condition
      if v.truthy then Eval.block (execute fuel) body else pure .normal
    | .ifElse _ condition body otherwise => do
      Eval.note (.test s)
      let v ← evaluate fuel condition
      Eval.block (execute fuel) (if v.truthy then body else otherwise)
    | .loop _ condition body => do
      Eval.note (.test s)
      let v ← evaluate fuel condition
      if v.truthy then
        match ← Eval.block (execute fuel) body with
        | .normal => perform fuel s
        | .giveBack v => pure (.giveBack v)
      else pure .normal
    | .write _ mode path content => do
      let p ← evaluate fuel path
      let v ← evaluate fuel content
      Eval.writeFile mode p.display v.display
      pure .normal
    | .read _ path target => do
      let p ← evaluate fuel path
      Eval.readFile p.display target
      pure .normal
    | .delete _ path => do
      let p ← evaluate fuel path
      Eval.deleteFile p.display
      pure .normal
    | .function _ name parameters body => do
      Eval.define name ⟨parameters, body⟩
      pure .normal
    | .call _ name arguments => do
      let _ ← invoke fuel name arguments
      pure .normal
    | .giveBack _ e => do
      let v ← evaluate fuel e
      pure (.giveBack v)

end

/-- Executes statements outside all functions, where nothing can be returned. -/
def runStatements (fuel : Nat) : List Statement → Eval Unit
  | [] => pure ()
  | s :: rest => do
    match ← execute fuel s with
    | .normal => runStatements fuel rest
    | .giveBack _ => Eval.locate s.position (Eval.fail .returnOutsideFunction)

/-- Runs a program: its statements in order, then what was written is flushed. -/
def runProgram (fuel : Nat) (p : Program) : Eval Unit := do
  runStatements fuel p
  Eval.accept .output (← Eval.ask .flush)

end Scriptlet
