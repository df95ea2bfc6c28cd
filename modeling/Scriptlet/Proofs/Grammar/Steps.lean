import Scriptlet.Program.Draft.Step
import Scriptlet.Proofs.Grammar

namespace Scriptlet
set_option autoImplicit true

/-- Tokens that go on with an expression which could end before them. -/
def Token.IsOperator (t : Token) : Prop :=
  (∃ op : Arithmetic, t.kind = op.kind) ∨ (∃ op : Comparison, t.kind = op.kind) ∨
    ∃ op : Connective, t.isKeyword op.word

namespace Pending

theorem extend?_term {t : Token} (p : Pending) (e : Expression) (hop : op.precedence = .term)
    (ht : t.kind = op.kind) :
    p.extend? e t = some { p with term := some (p.asTerm e, op) } := by
  cases op <;> simp_all [extend?, Arithmetic.precedence, Arithmetic.kind]

theorem extend?_sum {t : Token} (p : Pending) (e : Expression) (hop : op.precedence = .sum)
    (ht : t.kind = op.kind) :
    p.extend? e t = some { p with sum := some (p.asSum e, op), term := none } := by
  cases op <;> simp_all [extend?, Arithmetic.precedence, Arithmetic.kind]

theorem extend?_comparison {t : Token} {op : Comparison} (p : Pending) (e : Expression)
    (hp : p.comparison = none) (ht : t.kind = op.kind) :
    p.extend? e t = some ⟨p.logic, some (p.asSum e, op), none, none⟩ := by
  cases op <;> simp_all [extend?, compare?, Comparison.kind]

theorem extend?_connective {t : Token} (p : Pending) (e : Expression)
    (ht : t.isKeyword (Connective.word op)) : p.extend? e t = some (p.connect e op) := by
  have hk := (Token.isKeyword_iff.1 ht).1
  cases op with
  | and => simp [extend?, hk, ht]
  | or =>
    -- The first of the two words is tried first, but no name spells both.
    have hn : ¬ t.isKeyword Connective.and.word := by
      intro h
      have he := (Token.isKeyword_iff.1 h).2.symm.trans (Token.isKeyword_iff.1 ht).2
      exact absurd he (by decide +kernel)
    simp [extend?, hk, ht, hn]

theorem extend?_eq_none {t : Token} (p : Pending) (e : Expression) (ht : ¬ t.IsOperator) :
    p.extend? e t = none := by
  have ha (op : Arithmetic) : t.kind ≠ op.kind := fun h => ht (.inl ⟨op, h⟩)
  have hc (op : Comparison) : t.kind ≠ op.kind := fun h => ht (.inr (.inl ⟨op, h⟩))
  have hl (op : Connective) : ¬ t.isKeyword op.word := fun h => ht (.inr (.inr ⟨op, h⟩))
  unfold extend?
  split
  · exact absurd ‹_› (ha .multiply)
  · exact absurd ‹_› (ha .divide)
  · exact absurd ‹_› (ha .add)
  · exact absurd ‹_› (ha .subtract)
  · exact absurd ‹_› (hc .greater)
  · exact absurd ‹_› (hc .less)
  · exact absurd ‹_› (hc .greaterEqual)
  · exact absurd ‹_› (hc .lessEqual)
  · exact absurd ‹_› (hc .equal)
  · exact absurd ‹_› (hc .notEqual)
  · rw [if_neg (hl .and), if_neg (hl .or)]

end Pending

def TokenKind.isApart : TokenKind → Bool
  | .string | .number | .semicolon | .leftParen | .rightParen | .comma | .endOfInput => true
  | _ => false

theorem Token.not_isOperator {t : Token} (ht : t.kind.isApart) : ¬ t.IsOperator := by
  rintro (⟨op, h⟩ | ⟨op, h⟩ | ⟨op, h⟩)
  · cases op <;> simp_all [Arithmetic.kind, TokenKind.isApart]
  · cases op <;> simp_all [Comparison.kind, TokenKind.isApart]
  · simp_all [(Token.isKeyword_iff.1 h).1, TokenKind.isApart]

namespace Draft

variable {N : Nat} {stop : Token}

theorem step_factor {t : Token} (ht : ¬ t.IsOperator) (limit : Option Nat) (d : Draft)
    (site : Site) (p : Pending) (e : Expression) :
    (d.goto (.factor site p e)).step limit t = d.closeExpression limit site (p.asWhole e) t := by
  have hn := p.extend?_eq_none e ht
  simp only [step, goto, afterFactor, hn]
  rfl

theorem step_operator {t : Token} {p p' : Pending} (hp : p.extend? e t = some p')
    (limit : Option Nat) (d : Draft) (site : Site) :
    (d.goto (.factor site p e)).step limit t = .ok (.more (d.goto (.operand site p'))) := by
  simp only [step, goto, afterFactor, hp]

theorem step_expression {d : Draft} {site : Site}
    (h : d.blocks.length + site.enclosures.length < N) (t : Token) :
    (d.goto (.expression site)).step (some N) t =
      (d.goto (.operand site .empty)).step (some N) t := by
  have hd : checkDepth (some N) (d.blocks.length + site.enclosures.length) t = .ok () :=
    if_neg (by omega)
  change (do checkDepth (some N) (d.blocks.length + site.enclosures.length) t
             d.operand site .empty t) = d.operand site .empty t
  rw [hd]
  rfl

theorem step_operand_string {t : Token} (ht : t.kind = .string) (limit : Option Nat) (d : Draft)
    (site : Site) (p : Pending) : (d.goto (.operand site p)).step limit t =
      .ok (.more (d.goto (.factor site p (.string (Text.unescape t.lexeme))))) := by
  simp [step, goto, operand, ht]

theorem step_operand_number {t : Token} (ht : t.kind = .number) (limit : Option Nat) (d : Draft)
    (site : Site) (p : Pending) : (d.goto (.operand site p)).step limit t =
      .ok (.more (d.goto (.numeral site p t))) := by
  simp [step, goto, operand, ht]

theorem step_operand_name {t : Token} (ht : t.kind = .identifier) (limit : Option Nat) (d : Draft)
    (site : Site) (p : Pending) : (d.goto (.operand site p)).step limit t =
      .ok (.more (d.goto (.name site p t.lexeme))) := by
  simp [step, goto, operand, ht]

theorem step_operand_parens {t : Token} (ht : t.kind = .leftParen) (limit : Option Nat) (d : Draft)
    (site : Site) (p : Pending) : (d.goto (.operand site p)).step limit t =
      .ok (.more (d.goto (.expression
        { site with enclosures := .parens p :: site.enclosures }))) := by
  simp [step, goto, operand, ht]

theorem step_name_paren {u : Token} (hu : u.kind = .leftParen) (limit : Option Nat) (d : Draft)
    (site : Site) (p : Pending) (f : String) : (d.goto (.name site p f)).step limit u =
      .ok (.more (d.goto (.firstArgument site p f))) := by
  simp [step, goto, hu]

theorem step_firstArgument_paren {v : Token} (hv : v.kind = .rightParen) (limit : Option Nat)
    (d : Draft) (site : Site) (p : Pending) (f : String) :
    (d.goto (.firstArgument site p f)).step limit v =
      .ok (.more (d.goto (.factor site p (.call f [])))) := by
  simp [step, goto, hv]

theorem step_firstArgument {t : Token} (ht : t.kind ≠ .rightParen) (limit : Option Nat)
    (d : Draft) (site : Site) (p : Pending) (f : String) :
    (d.goto (.firstArgument site p f)).step limit t =
      (d.goto (.expression { site with enclosures := .argument p f [] :: site.enclosures })).step
        limit t := by
  simp only [step, goto, if_neg ht]
  rfl

theorem closeExpression_parens {u : Token} (hu : u.kind = .rightParen) (limit : Option Nat)
    (d : Draft) (site : Site) (p : Pending) (e : Expression) :
    d.closeExpression limit { site with enclosures := .parens p :: site.enclosures } e u =
      .ok (.more (d.goto (.factor site p e))) := by
  simp only [closeExpression, if_pos hu]

theorem closeExpression_argument {u : Token} (hu : u.kind = .rightParen) (limit : Option Nat)
    (d : Draft) (site : Site) (p : Pending) (f : String) (es : List Expression) (e : Expression) :
    d.closeExpression limit { site with enclosures := .argument p f es :: site.enclosures } e u =
      .ok (.more (d.goto (.factor site p (.call f (es ++ [e]))))) := by
  simp only [closeExpression, hu]

theorem closeExpression_comma {u : Token} (hu : u.kind = .comma) (limit : Option Nat)
    (d : Draft) (site : Site) (p : Pending) (f : String) (es : List Expression) (e : Expression) :
    d.closeExpression limit { site with enclosures := .argument p f es :: site.enclosures } e u =
      .ok (.more (d.goto (.expression
        { site with enclosures := .argument p f (es ++ [e]) :: site.enclosures }))) := by
  simp only [closeExpression, hu]

theorem step_name (hu : t.kind ≠ .leftParen) (limit : Option Nat) (d : Draft) (site : Site)
    (p : Pending) (x : String) :
    (d.goto (.name site p x)).step limit t = (d.goto (.factor site p (.var x))).step limit t := by
  simp only [step, goto, if_neg hu]
  rfl

theorem step_numeral (hv : Integer.ofNumeral? n.lexeme = some v) (limit : Option Nat) (d : Draft)
    (site : Site) (p : Pending) (t : Token) :
    (d.goto (.numeral site p n)).step limit t =
      (d.goto (.factor site p (.number v))).step limit t := by
  simp only [step, goto, hv]
  rfl

end Draft

def Keyword.phase (pos : Position) : Keyword → Phase
  | .assign => .assignName pos
  | .print => .expression ⟨pos, .print, []⟩
  | .log => .expression ⟨pos, .log, []⟩
  | .test => .expression ⟨pos, .ifCondition, []⟩
  | .loop => .expression ⟨pos, .loopCondition, []⟩
  | .write => .expression ⟨pos, .writePath .replace, []⟩
  | .append => .expression ⟨pos, .writePath .extend, []⟩
  | .read => .expression ⟨pos, .readPath, []⟩
  | .delete => .expression ⟨pos, .deletePath, []⟩
  | .function => .functionName pos
  | .giveBack => .expression ⟨pos, .giveBack, []⟩

/-- The words that end a block. -/
def Header.closers : Header → List String
  | .ifThen _ => ["end", "else"]
  | _ => ["end"]

def closersIn : List OpenBlock → List String
  | [] => []
  | b :: _ => b.header.closers

namespace Draft

def openBlock (d : Draft) (pos : Position) (header : Header) : Draft :=
  ⟨d.reversed, ⟨pos, header, []⟩ :: d.blocks, .statement⟩

theorem length_add (d : Draft) (s : Statement) : (d.add s).blocks.length = d.blocks.length := by
  unfold add
  split <;> simp_all

theorem closersIn_add (d : Draft) (s : Statement) :
    closersIn (d.add s).blocks = closersIn d.blocks := by
  unfold add
  split <;> simp_all [closersIn, OpenBlock.add]

theorem goto_add (d : Draft) (s : Statement) : (d.add s).goto .statement = d.add s := by
  unfold add
  split <;> rfl

theorem phase_add (d : Draft) (s : Statement) : (d.add s).phase = .statement := by
  unfold add
  split <;> rfl

theorem step_add (limit : Option Nat) (d : Draft) (s : Statement) :
    (d.add s).step limit = (d.add s).betweenStatements := by
  rw [← goto_add]
  rfl

theorem step_statement {d : Draft} {t : Token} (ht : t.kind = .identifier)
    (hc : ¬ t.Closes (closersIn d.blocks)) (limit : Option Nat) :
    (d.goto .statement).step limit t = d.opening t := by
  change d.betweenStatements t = d.opening t
  unfold betweenStatements
  rw [if_neg (by simp [ht])]
  cases hb : d.blocks with
  | nil => simp [ht]
  | cons b outer =>
    rw [hb] at hc
    have hend : ¬ t.isKeyword "end" := fun h =>
      hc ⟨"end", by cases hh : b.header <;> simp [closersIn, hh, Header.closers], h⟩
    simp only [ht, reduceCtorEq, if_false, hend, Bool.false_eq_true]
    cases hh : b.header with
    | ifThen c =>
      have helse : ¬ t.isKeyword "else" := fun h =>
        hc ⟨"else", by simp [closersIn, hh, Header.closers], h⟩
      simp only [helse, Bool.false_eq_true, if_false]
    | _ => rfl

theorem opening_keyword {t : Token} (ht : t.isKeyword (Keyword.word k)) (d : Draft) :
    d.opening t = .ok (.more (d.goto (k.phase t.position))) := by
  obtain ⟨hi, hk⟩ := Token.isKeyword_word_iff.1 ht
  cases k <;> simp [opening, hi, hk, Keyword.phase]

theorem step_keyword {d : Draft} {t : Token} (ht : t.isKeyword (Keyword.word k))
    (hc : ¬ t.Closes (closersIn d.blocks)) (limit : Option Nat) :
    (d.goto .statement).step limit t = .ok (.more (d.goto (k.phase t.position))) := by
  rw [step_statement (Token.isKeyword_iff.1 ht).1 hc, opening_keyword ht]

theorem opening_plain {t : Token} (ht : t.IsPlainName) (d : Draft) :
    d.opening t = .ok (.more (d.goto (.callee t))) := by
  obtain ⟨hi, hk⟩ := Token.isPlainName_iff.1 ht
  simp [opening, hi, hk]

theorem step_block {d : Draft} (h : d.blocks.length < N) (pos : Position) (header : Header)
    (t : Token) : (d.goto (.block pos header)).step (some N) t =
      (d.openBlock pos header).step (some N) t := by
  have hd : checkDepth (some N) d.blocks.length t = .ok () := if_neg (by omega)
  change (do checkDepth (some N) d.blocks.length t
             (d.openBlock pos header).betweenStatements t) = _
  rw [hd]
  rfl

theorem step_end {u : Token} (hu : u.isKeyword "end") (limit : Option Nat) (d : Draft)
    (b : OpenBlock) : (Draft.mk d.reversed (b :: d.blocks) .statement).step limit u =
      .ok (.more (d.add b.complete)) := by
  have hk := (Token.isKeyword_iff.1 hu).1
  simp [step, betweenStatements, hk, hu]
  rfl

theorem step_else {u : Token} (hu : u.isKeyword "else") (limit : Option Nat) (d : Draft)
    (pos : Position) (c : Expression) (reversed : List Statement) :
    (Draft.mk d.reversed (⟨pos, .ifThen c, reversed⟩ :: d.blocks) .statement).step limit u =
      .ok (.more (d.goto (.block pos (.ifElse c reversed.reverse)))) := by
  obtain ⟨hk, hw⟩ := Token.isKeyword_iff.1 hu
  have hend : ¬ u.isKeyword "end" := by
    intro h
    rw [(Token.isKeyword_iff.1 h).2] at hw
    exact absurd hw (by decide +kernel)
  simp [step, betweenStatements, hk, hu, hend, goto]

end Draft

end Scriptlet
