import Scriptlet.Program.Reading
import Scriptlet.Proofs.Grammar.Steps

namespace Scriptlet
set_option autoImplicit true

/-- Names are spelled anew, and the case of ASCII letters is all that changes. -/
def Respells (ρ : String → String) : Prop :=
  ∀ x, (ρ x).toLower = x.toLower

variable (ρ : String → String)

/-- The token with its name spelled anew, if it is a name. -/
def Token.renamed (t : Token) : Token :=
  if t.kind = .identifier then { t with lexeme := ρ t.lexeme } else t

def Item.renamed : Item → Item
  | .ok t => .ok (t.renamed ρ)
  | .error e => .error e

mutual

def Expression.renamed : Expression → Expression
  | .string s => .string s
  | .number n => .number n
  | .var x => .var (ρ x)
  | .binary op left right => .binary op left.renamed right.renamed
  | .logical op left right => .logical op left.renamed right.renamed
  | .call f es => .call (ρ f) (renamedEach es)

def renamedEach : List Expression → List Expression
  | [] => []
  | e :: es => e.renamed :: renamedEach es

end

mutual

def Statement.renamed : Statement → Statement
  | .assign pos x e => .assign pos (ρ x) (e.renamed ρ)
  | .print pos e => .print pos (e.renamed ρ)
  | .log pos e => .log pos (e.renamed ρ)
  | .ifThen pos c body => .ifThen pos (c.renamed ρ) (renamedAll body)
  | .ifElse pos c body otherwise =>
    .ifElse pos (c.renamed ρ) (renamedAll body) (renamedAll otherwise)
  | .loop pos c body => .loop pos (c.renamed ρ) (renamedAll body)
  | .write pos mode path content => .write pos mode (path.renamed ρ) (content.renamed ρ)
  | .read pos path x => .read pos (path.renamed ρ) (ρ x)
  | .delete pos path => .delete pos (path.renamed ρ)
  | .function pos f xs body => .function pos (ρ f) (xs.map ρ) (renamedAll body)
  | .call pos f es => .call pos (ρ f) (renamedEach ρ es)
  | .giveBack pos e => .giveBack pos (e.renamed ρ)

def renamedAll : List Statement → List Statement
  | [] => []
  | s :: ss => s.renamed :: renamedAll ss

end

/-- The error with the names in it spelled anew; a numeral is none. -/
def SyntaxError.renamed : SyntaxError → SyntaxError
  | .unexpectedToken expected t => .unexpectedToken expected (t.renamed ρ)
  | .invalidStatement t => .invalidStatement (t.renamed ρ)
  | .missingEnd construct pos => .missingEnd construct pos
  | .missingFunctionEnd f pos => .missingFunctionEnd (ρ f) pos
  | .nestingTooDeep limit pos => .nestingTooDeep limit pos
  | .numberOutOfRange n => .numberOutOfRange n

def ParseError.renamed : ParseError → ParseError
  | .lexical e => .lexical e
  | .structural e => .structural (e.renamed ρ)

def renamedResult : Except ParseError Program → Except ParseError Program
  | .ok p => .ok (renamedAll ρ p)
  | .error e => .error (e.renamed ρ)

/-! ## Programs of which a part was read -/

def Pending.renamed (p : Pending) : Pending where
  logic := p.logic.map fun (e, op) => (e.renamed ρ, op)
  comparison := p.comparison.map fun (e, op) => (e.renamed ρ, op)
  sum := p.sum.map fun (e, op) => (e.renamed ρ, op)
  term := p.term.map fun (e, op) => (e.renamed ρ, op)

def Slot.renamed : Slot → Slot
  | .assign x => .assign (ρ x)
  | .writeContent mode path => .writeContent mode (path.renamed ρ)
  | .argument f before => .argument (ρ f) (renamedEach ρ before)
  | slot => slot

def Enclosure.renamed : Enclosure → Enclosure
  | .parens outer => .parens (outer.renamed ρ)
  | .argument outer f before => .argument (outer.renamed ρ) (ρ f) (renamedEach ρ before)

def Site.renamed (site : Site) : Site :=
  ⟨site.pos, site.slot.renamed ρ, site.enclosures.map (Enclosure.renamed ρ)⟩

def Header.renamed : Header → Header
  | .ifThen c => .ifThen (c.renamed ρ)
  | .ifElse c body => .ifElse (c.renamed ρ) (renamedAll ρ body)
  | .loop c => .loop (c.renamed ρ)
  | .function f xs => .function (ρ f) (xs.map ρ)

def OpenBlock.renamed (b : OpenBlock) : OpenBlock :=
  ⟨b.pos, b.header.renamed ρ, renamedAll ρ b.reversed⟩

def Phase.renamed : Phase → Phase
  | .statement => .statement
  | .callee start => .callee (start.renamed ρ)
  | .firstStatementArgument pos f => .firstStatementArgument pos (ρ f)
  | .assignName pos => .assignName pos
  | .assignEqual pos x => .assignEqual pos (ρ x)
  | .functionName pos => .functionName pos
  | .functionParen pos f => .functionParen pos (ρ f)
  | .firstParameter pos f => .firstParameter pos (ρ f)
  | .parameter pos f before => .parameter pos (ρ f) (before.map ρ)
  | .parameterEnd pos f xs => .parameterEnd pos (ρ f) (xs.map ρ)
  | .block pos header => .block pos (header.renamed ρ)
  | .content pos mode path => .content pos mode (path.renamed ρ)
  | .target pos path => .target pos (path.renamed ρ)
  | .expression site => .expression (site.renamed ρ)
  | .operand site p => .operand (site.renamed ρ) (p.renamed ρ)
  | .name site p x => .name (site.renamed ρ) (p.renamed ρ) (ρ x)
  | .firstArgument site p f => .firstArgument (site.renamed ρ) (p.renamed ρ) (ρ f)
  | .numeral site p n => .numeral (site.renamed ρ) (p.renamed ρ) n
  | .factor site p e => .factor (site.renamed ρ) (p.renamed ρ) (e.renamed ρ)

def Draft.renamed (d : Draft) : Draft :=
  ⟨renamedAll ρ d.reversed, d.blocks.map (OpenBlock.renamed ρ), d.phase.renamed ρ⟩

def Progress.renamed : Progress → Progress
  | .more d => .more (d.renamed ρ)
  | .finished p => .finished (renamedAll ρ p)

def renamedStep : Except SyntaxError Progress → Except SyntaxError Progress
  | .ok q => .ok (q.renamed ρ)
  | .error e => .error (e.renamed ρ)

theorem renamedEach_eq_map (es : List Expression) :
    renamedEach ρ es = es.map (Expression.renamed ρ) := by
  induction es with
  | nil => rfl
  | cons e es ih => rw [renamedEach, ih, List.map_cons]

theorem renamedAll_eq_map (ss : List Statement) :
    renamedAll ρ ss = ss.map (Statement.renamed ρ) := by
  induction ss with
  | nil => rfl
  | cons s ss ih => rw [renamedAll, ih, List.map_cons]

theorem renamedEach_concat (es : List Expression) (e : Expression) :
    renamedEach ρ (es ++ [e]) = renamedEach ρ es ++ [e.renamed ρ] := by
  simp only [renamedEach_eq_map, List.map_append, List.map_singleton]

theorem renamedAll_reverse (ss : List Statement) :
    renamedAll ρ ss.reverse = (renamedAll ρ ss).reverse := by
  simp only [renamedAll_eq_map, List.map_reverse]

namespace Token

@[simp] theorem kind_renamed (t : Token) : (t.renamed ρ).kind = t.kind := by
  unfold renamed
  split <;> rfl

@[simp] theorem position_renamed (t : Token) : (t.renamed ρ).position = t.position := by
  unfold renamed
  split <;> rfl

theorem lexeme_renamed {t : Token} (ht : t.kind = .identifier) :
    (t.renamed ρ).lexeme = ρ t.lexeme := by
  rw [renamed, if_pos ht]

theorem renamed_eq_self {t : Token} (ht : t.kind ≠ .identifier) : t.renamed ρ = t :=
  if_neg ht

end Token

end Scriptlet
