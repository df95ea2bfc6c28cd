import Scriptlet.Proofs.Reading
import Scriptlet.Proofs.Grammar.Steps

namespace Scriptlet
set_option autoImplicit true

def Token.made (kind : TokenKind) (lexeme : String) : Token :=
  ⟨kind, lexeme, ⟨0, 0⟩⟩

namespace Draft

/-- Some tokens make a program of the draft, if levels may be open without bound. -/
def Completable (d : Draft) : Prop :=
  ∃ ts p, (d.read none ((ts ++ [.missingEnd]).map .ok)).result = .ok p

section
variable {d d' : Draft} {t : Token} {site : Site} {pos : Position} {slot : Slot}

theorem Completable.step (h : d'.Completable) (hs : d.step none t = .ok (.more d')) :
    d.Completable := by
  obtain ⟨ts, p, hp⟩ := h
  refine ⟨t :: ts, p, ?_⟩
  rw [List.cons_append, List.map_cons, read, hs]
  exact hp

theorem Completable.congr (h : d'.Completable) (hs : ∀ t, d.step none t = d'.step none t) :
    d.Completable := by
  obtain ⟨ts, p, hp⟩ := h
  refine ⟨ts, p, ?_⟩
  cases ts with
  | nil =>
    rw [List.nil_append, List.map_singleton, read, hs]
    exact hp
  | cons t ts =>
    rw [List.cons_append, List.map_cons, read, hs]
    exact hp

theorem completable_statement (d : Draft) : (d.goto .statement).Completable := by
  induction hn : d.blocks.length generalizing d with
  | zero =>
    have hb := List.length_eq_zero_iff.1 hn
    refine ⟨[], d.program, ?_⟩
    simp [read, step, betweenStatements, goto, hb, Token.missingEnd, program]
  | succ n ih =>
    obtain ⟨b, outer, hb⟩ := List.exists_cons_of_length_eq_add_one hn
    let outside : Draft := ⟨d.reversed, outer, .statement⟩
    have hlength : (outside.add b.complete).blocks.length = n := by
      rw [length_add]
      exact Nat.succ.inj ((congrArg List.length hb).symm.trans hn)
    have hstep : (Draft.mk d.reversed (b :: outer) .statement).step none (.made .identifier "end") =
        .ok (.more (outside.add b.complete)) := step_end (by decide +kernel) none outside b
    rw [← hb, ← goto_add] at hstep
    exact (ih _ hlength).step hstep

theorem completable_add (d : Draft) (s : Statement) : (d.add s).Completable := by
  rw [← goto_add]
  exact completable_statement (d.add s)

theorem completable_factor
    (hslot : ∀ e, ∃ t d', t.kind.isApart ∧ d.fillSlot none pos slot e t = .ok (.more d') ∧
      d'.Completable) (enclosures : List Enclosure) (p : Pending) (e : Expression) :
    (d.goto (.factor ⟨pos, slot, enclosures⟩ p e)).Completable := by
  -- A parenthesis closes the innermost enclosure, and what it held is a factor of the next one.
  induction enclosures generalizing p e with
  | nil =>
    obtain ⟨t, d', ht, hs, h⟩ := hslot (p.asWhole e)
    exact h.step ((step_factor (Token.not_isOperator ht) ..).trans hs)
  | cons enclosure rest ih =>
    let close : Token := .made .rightParen ")"
    have hoperator : ¬ close.IsOperator := Token.not_isOperator rfl
    cases enclosure with
    | parens outer =>
      have hs := closeExpression_parens (u := close) rfl none d ⟨pos, slot, rest⟩ outer
        (p.asWhole e)
      exact (ih outer (p.asWhole e)).step ((step_factor hoperator ..).trans hs)
    | argument outer f before =>
      have hs := closeExpression_argument (u := close) rfl none d ⟨pos, slot, rest⟩ outer f before
        (p.asWhole e)
      exact (ih outer _).step ((step_factor hoperator ..).trans hs)

theorem completable_content (d : Draft) (pos : Position) (mode : WriteMode) (path : Expression) :
    (d.goto (.content pos mode path)).Completable := by
  have hslot (e : Expression) : ∃ t d', t.kind.isApart ∧
      d.fillSlot none pos (.writeContent mode path) e t = .ok (.more d') ∧ d'.Completable :=
    ⟨.made .semicolon ";", _, rfl, rfl, completable_statement (d.add (.write pos mode path e))⟩
  exact (completable_factor hslot [] .empty _).step (t := .made .string "") rfl

theorem completable_slot (d : Draft) (pos : Position) (slot : Slot) (e : Expression) :
    ∃ t d', t.kind.isApart ∧ d.fillSlot none pos slot e t = .ok (.more d') ∧ d'.Completable := by
  let separator : Token := .made .semicolon ";"
  have hfinished (s : Statement) : ∃ t d', t.kind.isApart ∧
      (d.add s).betweenStatements t = .ok (.more d') ∧ d'.Completable :=
    ⟨separator, _, rfl, rfl, completable_statement (d.add s)⟩
  cases slot with
  | ifCondition =>
    exact ⟨separator, _, rfl, rfl, completable_statement (d.openBlock pos (.ifThen e))⟩
  | loopCondition =>
    exact ⟨separator, _, rfl, rfl, completable_statement (d.openBlock pos (.loop e))⟩
  | writePath mode => exact ⟨separator, _, rfl, rfl, completable_content d pos mode e⟩
  | readPath =>
    have hname : (d.goto (.target pos e)).step none (.made .identifier "x") =
        .ok (.more (d.add (.read pos e "x"))) := rfl
    exact ⟨separator, _, rfl, rfl, (completable_add d _).step hname⟩
  | argument f before =>
    exact ⟨.made .rightParen ")", _, rfl, rfl, completable_add d (.call pos f (before ++ [e]))⟩
  | _ => exact hfinished _

theorem completable_operand (d : Draft) (site : Site) (p : Pending) :
    (d.goto (.operand site p)).Completable :=
  (completable_factor (completable_slot d site.pos site.slot) site.enclosures p _).step
    (step_operand_string (t := .made .string "") rfl none d site p)

theorem completable_expression (d : Draft) (site : Site) :
    (d.goto (.expression site)).Completable :=
  (completable_operand d site .empty).congr fun _ => rfl

theorem completable_block (d : Draft) (pos : Position) (header : Header) :
    (d.goto (.block pos header)).Completable :=
  (completable_statement (d.openBlock pos header)).congr fun _ => rfl

theorem completable_parameterEnd (d : Draft) (pos : Position) (f : String) (xs : List String) :
    (d.goto (.parameterEnd pos f xs)).Completable :=
  (completable_block d pos (.function f xs)).step (t := .made .rightParen ")") rfl

theorem completable_firstParameter (d : Draft) (pos : Position) (f : String) :
    (d.goto (.firstParameter pos f)).Completable :=
  (completable_block d pos (.function f [])).step (t := .made .rightParen ")") rfl

theorem completable_functionName (d : Draft) (pos : Position) :
    (d.goto (.functionName pos)).Completable := by
  have hparen := (completable_firstParameter d pos "f").step (d := d.goto (.functionParen pos "f"))
    (t := .made .leftParen "(") rfl
  exact hparen.step (t := .made .identifier "f") rfl

/-- Whatever was read can be completed, unless it ends in a numeral that is out of range. -/
theorem completable (d : Draft) (h : ∀ site p n, d.phase = .numeral site p n →
    Integer.ofNumeral? n.lexeme ≠ none) : d.Completable := by
  have hgoto : d = d.goto d.phase := rfl
  generalize d.phase = phase at h hgoto
  rw [hgoto]
  let openParen : Token := .made .leftParen "("
  let closeParen : Token := .made .rightParen ")"
  let name : Token := .made .identifier "x"
  have hfactor (site : Site) (p : Pending) (e : Expression) :
      (d.goto (.factor site p e)).Completable :=
    completable_factor (completable_slot d site.pos site.slot) site.enclosures p e
  have hfirstArgument (site : Site) (p : Pending) (f : String) :
      (d.goto (.firstArgument site p f)).Completable :=
    (hfactor site p (.call f [])).step (t := closeParen) rfl
  have hstatementArgument (pos : Position) (f : String) :
      (d.goto (.firstStatementArgument pos f)).Completable :=
    (completable_add d (.call pos f [])).step (t := closeParen) rfl
  have hassign (pos : Position) (x : String) : (d.goto (.assignEqual pos x)).Completable :=
    (completable_expression d ⟨pos, .assign x, []⟩).step (t := .made .equal "=") rfl
  cases phase with
  | statement => exact completable_statement d
  | callee start =>
    exact (hstatementArgument start.position start.lexeme).step (t := openParen) rfl
  | firstStatementArgument pos f => exact hstatementArgument pos f
  | assignName pos => exact (hassign pos "x").step (t := name) rfl
  | assignEqual pos x => exact hassign pos x
  | functionName pos => exact completable_functionName d pos
  | functionParen pos f => exact (completable_firstParameter d pos f).step (t := openParen) rfl
  | firstParameter pos f => exact completable_firstParameter d pos f
  | parameter pos f before =>
    exact (completable_parameterEnd d pos f (before ++ ["x"])).step (t := name) rfl
  | parameterEnd pos f parameters => exact completable_parameterEnd d pos f parameters
  | block pos header => exact completable_block d pos header
  | content pos mode path => exact completable_content d pos mode path
  | target pos path => exact (completable_add d (.read pos path "x")).step (t := name) rfl
  | expression site => exact completable_expression d site
  | operand site p => exact completable_operand d site p
  | name site p x => exact (hfirstArgument site p x).step (t := openParen) rfl
  | firstArgument site p f => exact hfirstArgument site p f
  | numeral site p n =>
    obtain ⟨v, hv⟩ := Option.ne_none_iff_exists'.1 (h site p n rfl)
    exact (hfactor site p (.number v)).congr (step_numeral hv none d site p)
  | factor site p e => exact hfactor site p e

end

end Draft

end Scriptlet
