import Scriptlet.Proofs.Grammar

namespace Scriptlet
set_option autoImplicit true

def TokenKind.symbol : TokenKind → String
  | .plus => "+"
  | .minus => "-"
  | .star => "*"
  | .slash => "/"
  | .equal => "="
  | .equalEqual => "=="
  | .notEqual => "!="
  | .greater => ">"
  | .less => "<"
  | .greaterEqual => ">="
  | .lessEqual => "<="
  | .semicolon => ";"
  | .leftParen => "("
  | .rightParen => ")"
  | .comma => ","
  | .string | .number | .identifier | .endOfInput => ""

namespace Text

def escape (c : Char) : List Char :=
  if c = '\\' ∨ c = '"' then ['\\', c] else [c]

def quote (s : String) : String :=
  String.ofList ('"' :: (s.toList.flatMap escape ++ ['"']))

theorem decode_cons {c : Char} (hb : c ≠ '\\') (rest : List Char) :
    decode (c :: rest) = c :: decode rest := by
  rw [decode.eq_def]
  split <;> simp_all

theorem decode_escape (cs : List Char) : decode (cs.flatMap escape) = cs := by
  induction cs with
  | nil => rfl
  | cons c cs ih =>
    rw [List.flatMap_cons, escape]
    split
    · rename_i hc
      rw [List.cons_append, List.singleton_append, decode, ih]
      rcases hc with rfl | rfl <;> rfl
    · rename_i hc
      rw [List.singleton_append, decode_cons (fun h => hc (.inl h)), ih]

theorem unescape_quote (s : String) : unescape (quote s) = s := by
  rw [unescape, quote, String.toList_ofList, unquote]
  simp only [List.getLast?_append, List.getLast?_singleton, Option.some_or, if_true,
    List.dropLast_concat, decode_escape, String.ofList_toList]

end Text

structure Word where
  kind : TokenKind
  lexeme : String

def Token.word (t : Token) : Word :=
  ⟨t.kind, t.lexeme⟩

namespace Word

def symbol (kind : TokenKind) : Word :=
  ⟨kind, kind.symbol⟩

def name (x : String) : Word :=
  ⟨.identifier, x⟩

def separator (w : Word) : Char :=
  if w.kind = .semicolon then '\n' else ' '

def chars (w : Word) : List Char :=
  w.lexeme.toList ++ [w.separator]

end Word

namespace Precedence

/-- Looser operators have a higher rank. -/
def rank : Precedence → Nat
  | .factor => 0
  | .term => 1
  | .sum => 2
  | .comparison => 3
  | .logic => 4

def tighter : Precedence → Precedence
  | .factor | .term => .factor
  | .sum => .term
  | .comparison => .sum
  | .logic => .comparison

end Precedence

/-- The words of an operand where `l` is expected, with parentheses only if its own operator is
looser. -/
def enclose (l own : Precedence) (ws : List Word) : List Word :=
  if own.rank ≤ l.rank then ws else .symbol .leftParen :: (ws ++ [.symbol .rightParen])

mutual

/-- The words of an expression where an operand of level `l` is expected. All operators associate to
the left but comparisons, which do not chain. -/
def Expression.words : Precedence → Expression → List Word
  | _, .string s => [⟨.string, Text.quote s⟩]
  | _, .number n => [⟨.number, toString n.toInt⟩]
  | _, .var x => [.name x]
  | l, .binary (.arithmetic op) a b => enclose l op.precedence
      (a.words op.precedence ++ .symbol op.kind :: b.words op.precedence.tighter)
  | l, .binary (.comparison op) a b => enclose l .comparison
      (a.words .sum ++ .symbol op.kind :: b.words .sum)
  | l, .logical op a b => enclose l .logic (a.words .logic ++ .name op.word :: b.words .comparison)
  | _, .call f es => .name f :: .symbol .leftParen :: (listWords es ++ [.symbol .rightParen])

def listWords : List Expression → List Word
  | [] => []
  | [e] => e.words .logic
  | e :: es => e.words .logic ++ .symbol .comma :: listWords es

end

def nameWords : List String → List Word
  | [] => []
  | [x] => [.name x]
  | x :: xs => .name x :: .symbol .comma :: nameWords xs

mutual

def Statement.words : Statement → List Word
  | .assign _ x e =>
    .name Keyword.assign.word :: .name x :: .symbol .equal :: e.words .logic
  | .print _ e => .name Keyword.print.word :: e.words .logic
  | .log _ e => .name Keyword.log.word :: e.words .logic
  | .ifThen _ c body => .name Keyword.test.word :: (c.words .logic ++
      .symbol .semicolon :: (blockWords body ++ [.name "end"]))
  | .ifElse _ c body otherwise => .name Keyword.test.word :: (c.words .logic ++
      .symbol .semicolon :: (blockWords body ++
        .name "else" :: .symbol .semicolon :: (blockWords otherwise ++ [.name "end"])))
  | .loop _ c body => .name Keyword.loop.word :: (c.words .logic ++
      .symbol .semicolon :: (blockWords body ++ [.name "end"]))
  | .write _ mode path content => .name mode.keyword.word :: (path.words .logic ++
      .symbol .semicolon :: content.words .logic)
  | .read _ path x => .name Keyword.read.word :: (path.words .logic ++
      [.symbol .semicolon, .name x])
  | .delete _ path => .name Keyword.delete.word :: path.words .logic
  | .function _ f xs body => .name Keyword.function.word :: .name f :: .symbol .leftParen ::
      (nameWords xs ++ .symbol .rightParen :: .symbol .semicolon ::
        (blockWords body ++ [.name "end"]))
  | .call _ f es => .name f :: .symbol .leftParen :: (listWords es ++ [.symbol .rightParen])
  | .giveBack _ e => .name Keyword.giveBack.word :: e.words .logic

def blockWords : List Statement → List Word
  | [] => []
  | s :: ss => s.words ++ .symbol .semicolon :: blockWords ss

end

def Program.text (p : Program) : String :=
  String.ofList ((blockWords p).flatMap Word.chars)

mutual

/-- A statement without its place and those of the statements in it. -/
def Statement.unplaced : Statement → Statement
  | .assign _ x e => .assign default x e
  | .print _ e => .print default e
  | .log _ e => .log default e
  | .ifThen _ c body => .ifThen default c (unplacedAll body)
  | .ifElse _ c body otherwise => .ifElse default c (unplacedAll body) (unplacedAll otherwise)
  | .loop _ c body => .loop default c (unplacedAll body)
  | .write _ mode path content => .write default mode path content
  | .read _ path x => .read default path x
  | .delete _ path => .delete default path
  | .function _ f xs body => .function default f xs (unplacedAll body)
  | .call _ f es => .call default f es
  | .giveBack _ e => .giveBack default e

def unplacedAll : List Statement → List Statement
  | [] => []
  | s :: ss => s.unplaced :: unplacedAll ss

end

end Scriptlet
