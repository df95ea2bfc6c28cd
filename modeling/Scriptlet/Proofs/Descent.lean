import Scriptlet.Proofs.Nesting

namespace Scriptlet

/-- Where a reader with a counter stands: the token at hand, the items behind it, the count, and
what it saw open so far. -/
structure Cursor where
  current : Token
  unread : List Item
  depth : Nat
  openings : List Opening

namespace Cursor

def size (c : Cursor) : Nat :=
  c.unread.length + if c.current.kind = .endOfInput then 0 else 1

def note (c : Cursor) : Cursor :=
  { c with openings := c.openings ++ [⟨c.depth, c.current, c.unread⟩] }

/-- The next item comes to hand; a stream that runs dry counts as ended. -/
def advance (c : Cursor) : Except ParseError Token × Cursor :=
  match c.unread with
  | [] => (.ok c.current, { c with current := .missingEnd })
  | .error e :: rest => (.error (.lexical e), { c with unread := rest })
  | .ok t :: rest => (.ok c.current, { c with current := t, unread := rest })

theorem size_advance_le (c : Cursor) : c.advance.2.size ≤ c.unread.length := by
  have hone (t : Token) (n : Nat) : (n + if t.kind = .endOfInput then 0 else 1) ≤ n + 1 := by
    split
    · exact Nat.le_succ n
    · exact Nat.le_refl _
  obtain ⟨current, unread, depth, openings⟩ := c
  cases unread with
  | nil => exact Nat.le_refl 0
  | cons item rest =>
    cases item with
    | error e => exact hone current rest.length
    | ok t => exact hone t rest.length

end Cursor

/-- A reader of one part of a program by recursive descent. It may count levels, but has counted
all of them back when it is done, also where it fails, and it never moves backwards. -/
structure Descent (α : Type) where
  run : Cursor → Except ParseError α × Cursor
  balanced : ∀ c, (run c).2.depth = c.depth
  forward : ∀ c, (run c).2.size ≤ c.size

namespace Descent

variable {α β : Type}

def pure (a : α) : Descent α where
  run c := (.ok a, c)
  balanced _ := rfl
  forward _ := Nat.le_refl _

def bind (x : Descent α) (f : α → Descent β) : Descent β where
  run c :=
    match x.run c with
    | (.ok a, c') => (f a).run c'
    | (.error e, c') => (.error e, c')
  balanced c := by
    have hx := x.balanced c
    generalize x.run c = r at hx ⊢
    obtain ⟨e | a, c'⟩ := r
    · exact hx
    · exact ((f a).balanced c').trans hx
  forward c := by
    have hx := x.forward c
    generalize x.run c = r at hx ⊢
    obtain ⟨e | a, c'⟩ := r
    · exact hx
    · exact Nat.le_trans ((f a).forward c') hx

instance : Monad Descent where
  pure := Descent.pure
  bind := Descent.bind

def peek : Descent Token where
  run c := (.ok c.current, c)
  balanced _ := rfl
  forward _ := Nat.le_refl _

def fail (e : SyntaxError) : Descent α where
  run c := (.error (.structural e), c)
  balanced _ := rfl
  forward _ := Nat.le_refl _

/-- Takes the token at hand; nothing is pulled behind the end of the input. -/
def take : Descent Token where
  run c := if c.current.kind = .endOfInput then (.ok c.current, c) else c.advance
  balanced c := by
    split
    · rfl
    · unfold Cursor.advance
      split <;> rfl
  forward c := by
    split
    · exact Nat.le_refl _
    · exact Nat.le_trans c.size_advance_le (Nat.le_add_right _ _)

def unexpected (expected : String) : Descent α := do
  fail (.unexpectedToken expected (← peek))

def expect (kind : TokenKind) (expected : String) : Descent Token := do
  if (← peek).kind = kind then take else unexpected expected

/-- Reads one level deeper, of which at most `limit` may be open, and counts the level back. -/
def nested (limit : Nat) (x : Descent α) : Descent α where
  run c :=
    if limit ≤ c.depth then
      (.error (.structural (.nestingTooDeep limit c.current.position)), c.note)
    else
      let inside := x.run { c.note with depth := c.depth + 1 }
      (inside.1, { inside.2 with depth := inside.2.depth - 1 })
  balanced c := by
    split
    · rfl
    · exact congrArg (· - 1) (x.balanced { c.note with depth := c.depth + 1 })
  forward c := by
    split
    · exact Nat.le_refl _
    · exact x.forward { c.note with depth := c.depth + 1 }

/-- Repeats `x` until it gives nothing, at most so many times. -/
def loop (x : α → Descent (Option α)) : Nat → α → Descent α
  | 0, a => pure a
  | n + 1, a => do
    match ← x a with
    | none => pure a
    | some a => loop x n a

/-- Repeats `x` until it gives nothing, which it does at the latest when no token is left. -/
def repeated (x : α → Descent (Option α)) (a : α) : Descent α where
  run c := (loop x (c.size + 1) a).run c
  balanced c := (loop x (c.size + 1) a).balanced c
  forward c := (loop x (c.size + 1) a).forward c

def skipSeparators : Descent Unit :=
  repeated (fun _ => do
    if (← peek).kind = .semicolon then
      let _ ← take
      return some ()
    else return none) ()

def separated (x : Descent α) : Descent (List α) := do
  let first ← x
  repeated (fun before => do
    if (← peek).kind = .comma then
      let _ ← take
      let next ← x
      return some (before ++ [next])
    else return none) [first]

def list (x : Descent α) : Descent (List α) := do
  if (← peek).kind = .rightParen then return [] else separated x

/-- Operands with operators between them, joined from the left. -/
def chain (operator? : Token → Option β) (join : β → Expression → Expression → Expression)
    (operand : Descent Expression) : Descent Expression := do
  let first ← operand
  repeated (fun left => do
    match operator? (← peek) with
    | some op =>
      let _ ← take
      let right ← operand
      return some (join op left right)
    | none => return none) first

end Descent

namespace Token

def termOperator? (t : Token) : Option Arithmetic :=
  match t.kind with
  | .star => some .multiply
  | .slash => some .divide
  | _ => none

def sumOperator? (t : Token) : Option Arithmetic :=
  match t.kind with
  | .plus => some .add
  | .minus => some .subtract
  | _ => none

def comparison? (t : Token) : Option Comparison :=
  match t.kind with
  | .greater => some .greater
  | .less => some .less
  | .greaterEqual => some .greaterEqual
  | .lessEqual => some .lessEqual
  | .equalEqual => some .equal
  | .notEqual => some .notEqual
  | _ => none

def connective? (t : Token) : Option Connective :=
  if t.isKeyword Connective.and.word then some .and
  else if t.isKeyword Connective.or.word then some .or
  else none

end Token

inductive Terminator
  | otherwise
  | finish

namespace Descent

section
variable (inner : Descent Expression)

def callArguments : Descent (List Expression) := do
  let _ ← expect .leftParen "'('"
  let arguments ← list inner
  let _ ← expect .rightParen "')' or ','"
  return arguments

def factor : Descent Expression := do
  match (← peek).kind with
  | .leftParen =>
    let _ ← take
    let e ← inner
    let _ ← expect .rightParen "')'"
    return e
  | .string =>
    let t ← take
    return .string (Text.unescape t.lexeme)
  | .number =>
    let t ← take
    match Integer.ofNumeral? t.lexeme with
    | some value => return .number value
    | none => fail (.numberOutOfRange t)
  | .identifier =>
    let t ← take
    if (← peek).kind = .leftParen then return .call t.lexeme (← callArguments inner)
    else return .var t.lexeme
  | _ => unexpected "an expression"

def term : Descent Expression :=
  chain Token.termOperator? (fun op => .binary (.arithmetic op)) (factor inner)

def sum : Descent Expression :=
  chain Token.sumOperator? (fun op => .binary (.arithmetic op)) (term inner)

def comparison : Descent Expression := do
  let left ← sum inner
  match (← peek).comparison? with
  | some op =>
    let _ ← take
    let right ← sum inner
    return .binary (.comparison op) left right
  | none => return left

def logic : Descent Expression :=
  chain Token.connective? .logical (comparison inner)

end

/-- An expression that can hold so many levels of others; `limit` of them are never exceeded. -/
def expressionIn (limit : Nat) : Nat → Descent Expression
  | 0 => nested limit (unexpected "an expression")
  | n + 1 => nested limit (logic (expressionIn limit n))

def expression (limit : Nat) : Descent Expression :=
  expressionIn limit limit

section
variable (limit : Nat) (block : Bool → Descent (List Statement × Option Terminator))

def test (pos : Position) : Descent Statement := do
  let condition ← expression limit
  match ← block true with
  | (_, none) => fail (.missingEnd .test pos)
  | (body, some .finish) => return .ifThen pos condition body
  | (body, some .otherwise) =>
    match ← block false with
    | (_, none) => fail (.missingEnd .test pos)
    | (otherwise, some _) => return .ifElse pos condition body otherwise

def whileLoop (pos : Position) : Descent Statement := do
  let condition ← expression limit
  match ← block false with
  | (_, none) => fail (.missingEnd .loop pos)
  | (body, some _) => return .loop pos condition body

def write (pos : Position) (mode : WriteMode) : Descent Statement := do
  let path ← expression limit
  skipSeparators
  let content ← expression limit
  return .write pos mode path content

def read (pos : Position) : Descent Statement := do
  let path ← expression limit
  skipSeparators
  let target ← expect .identifier "variable name"
  return .read pos path target.lexeme

def function (pos : Position) : Descent Statement := do
  let name ← expect .identifier "function name"
  let _ ← expect .leftParen "'('"
  let parameters ← list (do return (← expect .identifier "parameter name").lexeme)
  let _ ← expect .rightParen "')'"
  match ← block false with
  | (_, none) => fail (.missingFunctionEnd name.lexeme pos)
  | (body, some _) => return .function pos name.lexeme parameters body

def call (start : Token) : Descent Statement := do
  if (← peek).kind ≠ .leftParen then fail (.invalidStatement start)
  else return .call start.position start.lexeme (← callArguments (expression limit))

def statement : Descent Statement := do
  let start ← peek
  let pos := start.position
  if start.kind ≠ .identifier then fail (.invalidStatement start)
  else
    let _ ← take
    match Keyword.ofName? start.lexeme with
    | some .assign =>
      let x ← expect .identifier "variable name"
      let _ ← expect .equal "'='"
      return .assign pos x.lexeme (← expression limit)
    | some .print => return .print pos (← expression limit)
    | some .log => return .log pos (← expression limit)
    | some .test => test limit block pos
    | some .loop => whileLoop limit block pos
    | some .write => write limit pos .replace
    | some .append => write limit pos .extend
    | some .read => read limit pos
    | some .delete => return .delete pos (← expression limit)
    | some .function => function block pos
    | some .giveBack => return .giveBack pos (← expression limit)
    | none => call limit start

end

/-- Reads statements up to a token at which they stop. -/
def statementsUntil (stops : Token → Bool) (statement : Descent Statement) :
    Descent (List Statement) :=
  repeated (fun before => do
    skipSeparators
    if stops (← peek) then return none
    else return some (before ++ [← statement])) []

/-- The statements of a block and the word that stops it, if the input does not end first. -/
def blockBody (statement : Descent Statement) (allowElse : Bool) :
    Descent (List Statement × Option Terminator) := do
  let stops (t : Token) : Bool :=
    t.kind = .endOfInput || t.isKeyword "end" || allowElse && t.isKeyword "else"
  let body ← statementsUntil stops statement
  let t ← peek
  if t.kind = .endOfInput then return (body, none)
  else
    let _ ← take
    return (body, some (if t.isKeyword "end" then .finish else .otherwise))

/-- A block that can hold so many levels of others; `limit` of them are never exceeded. -/
def blockIn (limit : Nat) : Nat → Bool → Descent (List Statement × Option Terminator)
  | 0, _ => nested limit (pure ([], none))
  | n + 1, allowElse => nested limit (blockBody (statement limit (blockIn limit n)) allowElse)

def block (limit : Nat) : Bool → Descent (List Statement × Option Terminator) :=
  blockIn limit limit

def program (limit : Nat) : Descent Program :=
  statementsUntil (·.kind = .endOfInput) (statement limit (block limit))

/-- Reads a program from a stream of items, with nothing counted at the start. -/
def whole (limit : Nat) : List Item → Except ParseError Program × Cursor
  | [] => (program limit).run ⟨.missingEnd, [], 0, []⟩
  | .error e :: rest => (.error (.lexical e), ⟨.missingEnd, rest, 0, []⟩)
  | .ok t :: rest => (program limit).run ⟨t, rest, 0, []⟩

/-- In the end no level is counted, also where a reading fails. -/
theorem whole_balanced (limit : Nat) (items : List Item) : (whole limit items).2.depth = 0 := by
  cases items with
  | nil => exact (program limit).balanced _
  | cons item rest =>
    cases item with
    | error e => rfl
    | ok t => exact (program limit).balanced _

end Descent

end Scriptlet
