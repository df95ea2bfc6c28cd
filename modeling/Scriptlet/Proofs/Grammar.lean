import Scriptlet.Program
import Scriptlet.Text.Escape
import Scriptlet.Proofs.Keyword
import Scriptlet.Proofs.Numeral

namespace Scriptlet
set_option autoImplicit true

def Arithmetic.kind : Arithmetic → TokenKind
  | .add => .plus
  | .subtract => .minus
  | .multiply => .star
  | .divide => .slash

def Comparison.kind : Comparison → TokenKind
  | .greater => .greater
  | .less => .less
  | .greaterEqual => .greaterEqual
  | .lessEqual => .lessEqual
  | .equal => .equalEqual
  | .notEqual => .notEqual

/-- The levels of an expression, the tightest first. -/
inductive Precedence
  | factor
  | term
  | sum
  | comparison
  | logic
  deriving DecidableEq

def Arithmetic.precedence : Arithmetic → Precedence
  | .add | .subtract => .sum
  | .multiply | .divide => .term

def WriteMode.keyword : WriteMode → Keyword
  | .replace => .write
  | .extend => .append

namespace Token

/-- A name that opens a statement of its own form nowhere. -/
def IsPlainName (t : Token) : Prop :=
  t.kind = .identifier ∧ ∀ k : Keyword, ¬ t.isKeyword k.word

theorem isPlainName_iff {t : Token} :
    t.IsPlainName ↔ t.kind = .identifier ∧ Keyword.ofName? t.lexeme = none := by
  constructor
  · rintro ⟨ht, hk⟩
    refine ⟨ht, Option.eq_none_iff_forall_ne_some.2 fun k h => hk k ?_⟩
    exact isKeyword_word_iff.2 ⟨ht, h⟩
  · rintro ⟨ht, hn⟩
    refine ⟨ht, fun k h => ?_⟩
    rw [(isKeyword_word_iff.1 h).2] at hn
    cases hn

/-- A token that ends the block in which the given words end it. -/
def Closes (t : Token) (closers : List String) : Prop :=
  ∃ w ∈ closers, t.isKeyword w

end Token

/-- Nothing but separators stands between two places. -/
def Apart (ts rest : List Token) : Prop :=
  ∃ gap, ts = gap ++ rest ∧ ∀ t ∈ gap, t.kind = .semicolon

/-- The parts of expressions that the grammar names, each with the tree that it spells. -/
inductive Phrase
  | operand (l : Precedence) (e : Expression)
  | whole (e : Expression)
  | list (es : List Expression)

/-- The tokens of `ts` before `rest` spell a phrase in which at most `n` expressions are open at
once. A name before a parenthesis is called, and a connective behind an expression goes on with it,
whatever stands there otherwise. -/
inductive Phrase.Spells : Nat → Phrase → List Token → List Token → Prop
  | string (ht : t.kind = .string) :
      Spells n (.operand .factor (.string (Text.unescape t.lexeme))) (t :: rest) rest
  | number (ht : t.kind = .number) (hv : Integer.Numeral t.lexeme.toList v.toInt) :
      Spells n (.operand .factor (.number v)) (t :: rest) rest
  | var (ht : t.kind = .identifier) (hr : ∀ u ∈ rest.head?, u.kind ≠ .leftParen) :
      Spells n (.operand .factor (.var t.lexeme)) (t :: rest) rest
  | parens (ht : t.kind = .leftParen) (he : Spells n (.whole e) ts (u :: rest))
      (hu : u.kind = .rightParen) : Spells n (.operand .factor e) (t :: ts) rest
  | callNone (ht : t.kind = .identifier) (hu : u.kind = .leftParen) (hv : v.kind = .rightParen) :
      Spells n (.operand .factor (.call t.lexeme [])) (t :: u :: v :: rest) rest
  | call (ht : t.kind = .identifier) (hu : u.kind = .leftParen)
      (hes : Spells n (.list es) ts (v :: rest)) (hv : v.kind = .rightParen) :
      Spells n (.operand .factor (.call t.lexeme es)) (t :: u :: ts) rest
  | term (he : Spells n (.operand .factor e) ts rest) : Spells n (.operand .term e) ts rest
  | product (ha : Spells n (.operand .term a) ts (t :: mid)) (hop : op.precedence = .term)
      (ht : t.kind = op.kind) (hb : Spells n (.operand .factor b) mid rest) :
      Spells n (.operand .term (.binary (.arithmetic op) a b)) ts rest
  | sum (he : Spells n (.operand .term e) ts rest) : Spells n (.operand .sum e) ts rest
  | total (ha : Spells n (.operand .sum a) ts (t :: mid)) (hop : op.precedence = .sum)
      (ht : t.kind = op.kind) (hb : Spells n (.operand .term b) mid rest) :
      Spells n (.operand .sum (.binary (.arithmetic op) a b)) ts rest
  | comparison (he : Spells n (.operand .sum e) ts rest) :
      Spells n (.operand .comparison e) ts rest
  | compare (ha : Spells n (.operand .sum a) ts (t :: mid)) (ht : t.kind = op.kind)
      (hb : Spells n (.operand .sum b) mid rest) :
      Spells n (.operand .comparison (.binary (.comparison op) a b)) ts rest
  | logic (he : Spells n (.operand .comparison e) ts rest) : Spells n (.operand .logic e) ts rest
  | connect (ha : Spells n (.operand .logic a) ts (t :: mid)) (ht : t.isKeyword op.word)
      (hb : Spells n (.operand .comparison b) mid rest) :
      Spells n (.operand .logic (.logical op a b)) ts rest
  | whole (he : Spells n (.operand .logic e) ts rest)
      (hr : ∀ u ∈ rest.head?, ∀ op : Connective, ¬ u.isKeyword op.word) :
      Spells (n + 1) (.whole e) ts rest
  | last (he : Spells n (.whole e) ts rest) : Spells n (.list [e]) ts rest
  | more (he : Spells n (.whole e) ts (t :: mid)) (ht : t.kind = .comma)
      (hes : Spells n (.list es) mid rest) : Spells n (.list (e :: es)) ts rest

inductive Names : List String → List Token → List Token → Prop
  | last (ht : t.kind = .identifier) : Names [t.lexeme] (t :: rest) rest
  | more (ht : t.kind = .identifier) (hu : u.kind = .comma) (hxs : Names xs ts rest) :
      Names (t.lexeme :: xs) (t :: u :: ts) rest

/-- The names between the parentheses of a definition, of which there may be none. -/
def Parameters (xs : List String) (ts rest : List Token) : Prop :=
  (xs = [] ∧ ts = rest) ∨ Names xs ts rest

/-- The expressions between the parentheses of a call, of which there may be none. -/
def Arguments (n : Nat) (es : List Expression) (ts rest : List Token) : Prop :=
  (es = [] ∧ ts = rest) ∨ Phrase.Spells n (.list es) ts rest

/-- The parts of programs that the grammar names, each with what it spells: one statement, or
statements in a block that the given words end. -/
inductive Clause
  | statement (s : Statement)
  | statements (closers : List String) (ss : List Statement)

/-- The tokens of `ts` before `rest` spell a clause in which at most `n` expressions and blocks are
open at once. A keyword opens its own form, and a word that ends a block is not read as a statement
in it. -/
inductive Clause.Spells : Nat → Clause → List Token → List Token → Prop
  | assign (ht : t.isKeyword Keyword.assign.word) (hx : x.kind = .identifier)
      (hq : q.kind = .equal) (he : Phrase.Spells n (.whole e) ts rest) :
      Spells n (.statement (.assign t.position x.lexeme e)) (t :: x :: q :: ts) rest
  | print (ht : t.isKeyword Keyword.print.word) (he : Phrase.Spells n (.whole e) ts rest) :
      Spells n (.statement (.print t.position e)) (t :: ts) rest
  | log (ht : t.isKeyword Keyword.log.word) (he : Phrase.Spells n (.whole e) ts rest) :
      Spells n (.statement (.log t.position e)) (t :: ts) rest
  | ifThen (ht : t.isKeyword Keyword.test.word) (hc : Phrase.Spells (n + 1) (.whole c) ts mid)
      (hb : Spells n (.statements ["end", "else"] body) mid (u :: rest))
      (hu : u.isKeyword "end") :
      Spells (n + 1) (.statement (.ifThen t.position c body)) (t :: ts) rest
  | ifElse (ht : t.isKeyword Keyword.test.word) (hc : Phrase.Spells (n + 1) (.whole c) ts mid)
      (hb : Spells n (.statements ["end", "else"] body) mid (u :: mid'))
      (hu : u.isKeyword "else") (ho : Spells n (.statements ["end"] otherwise) mid' (v :: rest))
      (hv : v.isKeyword "end") :
      Spells (n + 1) (.statement (.ifElse t.position c body otherwise)) (t :: ts) rest
  | loop (ht : t.isKeyword Keyword.loop.word) (hc : Phrase.Spells (n + 1) (.whole c) ts mid)
      (hb : Spells n (.statements ["end"] body) mid (u :: rest)) (hu : u.isKeyword "end") :
      Spells (n + 1) (.statement (.loop t.position c body)) (t :: ts) rest
  | write (ht : t.isKeyword mode.keyword.word) (hp : Phrase.Spells n (.whole path) ts mid)
      (hm : Apart mid mid') (hc : Phrase.Spells n (.whole content) mid' rest) :
      Spells n (.statement (.write t.position mode path content)) (t :: ts) rest
  | read (ht : t.isKeyword Keyword.read.word) (hp : Phrase.Spells n (.whole path) ts mid)
      (hm : Apart mid (x :: rest)) (hx : x.kind = .identifier) :
      Spells n (.statement (.read t.position path x.lexeme)) (t :: ts) rest
  | delete (ht : t.isKeyword Keyword.delete.word) (hp : Phrase.Spells n (.whole path) ts rest) :
      Spells n (.statement (.delete t.position path)) (t :: ts) rest
  | function (ht : t.isKeyword Keyword.function.word) (hf : f.kind = .identifier)
      (hu : u.kind = .leftParen) (hxs : Parameters xs ts (v :: mid)) (hv : v.kind = .rightParen)
      (hb : Spells n (.statements ["end"] body) mid (w :: rest)) (hw : w.isKeyword "end") :
      Spells (n + 1) (.statement (.function t.position f.lexeme xs body)) (t :: f :: u :: ts) rest
  | call (ht : t.IsPlainName) (hu : u.kind = .leftParen) (hes : Arguments n es ts (v :: rest))
      (hv : v.kind = .rightParen) :
      Spells n (.statement (.call t.position t.lexeme es)) (t :: u :: ts) rest
  | giveBack (ht : t.isKeyword Keyword.giveBack.word) (he : Phrase.Spells n (.whole e) ts rest) :
      Spells n (.statement (.giveBack t.position e)) (t :: ts) rest
  | nothing : Spells n (.statements closers []) ts ts
  | separator (ht : t.kind = .semicolon) (hss : Spells n (.statements closers ss) ts rest) :
      Spells n (.statements closers ss) (t :: ts) rest
  | more (ht : ¬ t.Closes closers) (hs : Spells n (.statement s) (t :: ts) mid)
      (hss : Spells n (.statements closers ss) mid rest) :
      Spells n (.statements closers (s :: ss)) (t :: ts) rest

theorem Clause.Spells.head (h : Clause.Spells n (.statement s) ts rest) :
    ∃ t ts', ts = t :: ts' := by
  cases h <;> exact ⟨_, _, rfl⟩

/-- The tokens spell the program: they are its statements, outside all blocks, with at most `n`
expressions and blocks open at once. -/
def Program.SpelledBy (n : Nat) (p : Program) (ts : List Token) : Prop :=
  Clause.Spells n (.statements [] p) ts []

end Scriptlet
