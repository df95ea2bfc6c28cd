import Scriptlet.Integer
import Scriptlet.Text.Escape
import Scriptlet.Program.Draft

namespace Scriptlet.Draft

/-- Refuses one more level of blocks and expressions at `t` when `depth` of them are open and no
more are allowed. -/
def checkDepth (limit : Option Nat) (depth : Nat) (t : Token) : Except SyntaxError Unit :=
  match limit with
  | some n => if n ≤ depth then .error (.nestingTooDeep n t.position) else .ok ()
  | none => .ok ()

def opening (d : Draft) (t : Token) : Except SyntaxError Progress :=
  if t.kind ≠ .identifier then .error (.invalidStatement t)
  else
    let fill (slot : Slot) : Phase := .expression ⟨t.position, slot, []⟩
    let phase := match Keyword.ofName? t.lexeme with
      | some .assign => .assignName t.position
      | some .print => fill .print
      | some .log => fill .log
      | some .test => fill .ifCondition
      | some .loop => fill .loopCondition
      | some .write => fill (.writePath .replace)
      | some .append => fill (.writePath .extend)
      | some .read => fill .readPath
      | some .delete => fill .deletePath
      | some .function => .functionName t.position
      | some .giveBack => fill .giveBack
      | none => .callee t
    .ok (.more (d.goto phase))

/-- Reads a token between statements: a separator, the end of the input, the end of a block, or
the start of a statement. -/
def betweenStatements (d : Draft) (t : Token) : Except SyntaxError Progress :=
  if t.kind = .semicolon then .ok (.more (d.goto .statement))
  else match d.blocks with
    | [] => if t.kind = .endOfInput then .ok (.finished d.program) else d.opening t
    | b :: outer =>
      if t.kind = .endOfInput then .error (b.header.unclosed b.pos)
      else if t.isKeyword "end" then
        .ok (.more (Draft.add ⟨d.reversed, outer, .statement⟩ b.complete))
      else match b.header with
        | .ifThen condition =>
          if t.isKeyword "else" then
            .ok (.more ⟨d.reversed, outer, .block b.pos (.ifElse condition b.reversed.reverse)⟩)
          else d.opening t
        | _ => d.opening t

def inBlock (limit : Option Nat) (d : Draft) (pos : Position) (header : Header) (t : Token) :
    Except SyntaxError Progress := do
  checkDepth limit d.blocks.length t
  betweenStatements ⟨d.reversed, ⟨pos, header, []⟩ :: d.blocks, .statement⟩ t

def operand (d : Draft) (site : Site) (pending : Pending) (t : Token) :
    Except SyntaxError Progress :=
  match t.kind with
  | .leftParen =>
    .ok (.more (d.goto (.expression { site with enclosures := .parens pending :: site.enclosures })))
  | .string => .ok (.more (d.goto (.factor site pending (.string (Text.unescape t.lexeme)))))
  | .number => .ok (.more (d.goto (.numeral site pending t)))
  | .identifier => .ok (.more (d.goto (.name site pending t.lexeme)))
  | _ => .error (.unexpectedToken "an expression" t)

def inExpression (limit : Option Nat) (d : Draft) (site : Site) (t : Token) :
    Except SyntaxError Progress := do
  checkDepth limit (d.blocks.length + site.enclosures.length) t
  d.operand site .empty t

def inContent (limit : Option Nat) (d : Draft) (pos : Position) (mode : WriteMode)
    (path : Expression) (t : Token) : Except SyntaxError Progress :=
  if t.kind = .semicolon then .ok (.more (d.goto (.content pos mode path)))
  else d.inExpression limit ⟨pos, .writeContent mode path, []⟩ t

def inTarget (d : Draft) (pos : Position) (path : Expression) (t : Token) :
    Except SyntaxError Progress :=
  if t.kind = .semicolon then .ok (.more (d.goto (.target pos path)))
  else if t.kind = .identifier then .ok (.more (d.add (.read pos path t.lexeme)))
  else .error (.unexpectedToken "variable name" t)

/-- Closes an expression that fills a slot of its statement, `t` being the token behind it. -/
def fillSlot (limit : Option Nat) (d : Draft) (pos : Position) (slot : Slot) (e : Expression)
    (t : Token) : Except SyntaxError Progress :=
  match slot with
  | .assign name => (d.add (.assign pos name e)).betweenStatements t
  | .print => (d.add (.print pos e)).betweenStatements t
  | .log => (d.add (.log pos e)).betweenStatements t
  | .ifCondition => d.inBlock limit pos (.ifThen e) t
  | .loopCondition => d.inBlock limit pos (.loop e) t
  | .writePath mode => d.inContent limit pos mode e t
  | .writeContent mode path => (d.add (.write pos mode path e)).betweenStatements t
  | .readPath => d.inTarget pos e t
  | .deletePath => (d.add (.delete pos e)).betweenStatements t
  | .giveBack => (d.add (.giveBack pos e)).betweenStatements t
  | .argument name before =>
    match t.kind with
    | .comma => .ok (.more (d.goto (.expression ⟨pos, .argument name (before ++ [e]), []⟩)))
    | .rightParen => .ok (.more (d.add (.call pos name (before ++ [e]))))
    | _ => .error (.unexpectedToken "')' or ','" t)

/-- Closes an expression, `t` being the token behind it. -/
def closeExpression (limit : Option Nat) (d : Draft) (site : Site) (e : Expression) (t : Token) :
    Except SyntaxError Progress :=
  match site.enclosures with
  | [] => d.fillSlot limit site.pos site.slot e t
  | .parens outer :: rest =>
    if t.kind = .rightParen then .ok (.more (d.goto (.factor { site with enclosures := rest } outer e)))
    else .error (.unexpectedToken "')'" t)
  | .argument outer name before :: rest =>
    match t.kind with
    | .comma =>
      let inside := .argument outer name (before ++ [e]) :: rest
      .ok (.more (d.goto (.expression { site with enclosures := inside })))
    | .rightParen =>
      .ok (.more (d.goto (.factor { site with enclosures := rest } outer
        (.call name (before ++ [e])))))
    | _ => .error (.unexpectedToken "')' or ','" t)

/-- Reads the token behind the factor `e`: an operator, or one at which the expression ends. -/
def afterFactor (limit : Option Nat) (d : Draft) (site : Site) (pending : Pending)
    (e : Expression) (t : Token) : Except SyntaxError Progress :=
  match pending.extend? e t with
  | some pending => .ok (.more (d.goto (.operand site pending)))
  | none => d.closeExpression limit site (pending.asWhole e) t

def name (d : Draft) (expected : String) (t : Token) (next : String → Phase) :
    Except SyntaxError Progress :=
  if t.kind = .identifier then .ok (.more (d.goto (next t.lexeme)))
  else .error (.unexpectedToken expected t)

def punctuation (d : Draft) (kind : TokenKind) (expected : String) (t : Token) (next : Phase) :
    Except SyntaxError Progress :=
  if t.kind = kind then .ok (.more (d.goto next))
  else .error (.unexpectedToken expected t)

/-- Reads one token. Blocks and expressions may be nested `limit` deep, or without bound. -/
def step (limit : Option Nat) (d : Draft) (t : Token) : Except SyntaxError Progress :=
  match d.phase with
  | .statement => d.betweenStatements t
  | .callee start =>
    if t.kind = .leftParen then
      .ok (.more (d.goto (.firstStatementArgument start.position start.lexeme)))
    else .error (.invalidStatement start)
  | .firstStatementArgument pos f =>
    if t.kind = .rightParen then .ok (.more (d.add (.call pos f [])))
    else d.inExpression limit ⟨pos, .argument f [], []⟩ t
  | .assignName pos => d.name "variable name" t (.assignEqual pos)
  | .assignEqual pos x => d.punctuation .equal "'='" t (.expression ⟨pos, .assign x, []⟩)
  | .functionName pos => d.name "function name" t (.functionParen pos)
  | .functionParen pos f => d.punctuation .leftParen "'('" t (.firstParameter pos f)
  | .firstParameter pos f =>
    if t.kind = .rightParen then .ok (.more (d.goto (.block pos (.function f []))))
    else d.name "parameter name" t fun x => .parameterEnd pos f [x]
  | .parameter pos f before =>
    d.name "parameter name" t fun x => .parameterEnd pos f (before ++ [x])
  | .parameterEnd pos f parameters =>
    if t.kind = .comma then .ok (.more (d.goto (.parameter pos f parameters)))
    else d.punctuation .rightParen "')'" t (.block pos (.function f parameters))
  | .block pos header => d.inBlock limit pos header t
  | .content pos mode path => d.inContent limit pos mode path t
  | .target pos path => d.inTarget pos path t
  | .expression site => d.inExpression limit site t
  | .operand site pending => d.operand site pending t
  | .name site pending x =>
    if t.kind = .leftParen then .ok (.more (d.goto (.firstArgument site pending x)))
    else d.afterFactor limit site pending (.var x) t
  | .firstArgument site pending f =>
    if t.kind = .rightParen then .ok (.more (d.goto (.factor site pending (.call f []))))
    else
      let inside := .argument pending f [] :: site.enclosures
      d.inExpression limit { site with enclosures := inside } t
  | .numeral site pending n =>
    match Integer.ofNumeral? n.lexeme with
    | some value => d.afterFactor limit site pending (.number value) t
    | none => .error (.numberOutOfRange n)
  | .factor site pending e => d.afterFactor limit site pending e t

end Scriptlet.Draft
