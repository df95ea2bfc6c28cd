import Scriptlet.Proofs.Grammar.Steps
import Scriptlet.Proofs.Reading

namespace Scriptlet
set_option autoImplicit true

def Precedence.up : Precedence → Precedence
  | .factor => .term
  | .term => .sum
  | .sum => .comparison
  | .comparison | .logic => .logic

namespace Pending

/-- The operand of a level that a last factor completes. -/
def upTo : Precedence → Pending → Expression → Expression
  | .factor, _, e => e
  | .term, p, e => p.asTerm e
  | .sum, p, e => p.asSum e
  | .comparison, p, e => p.asComparison e
  | .logic, p, e => p.asWhole e

/-- What is pending outside an operand of a level. -/
def outside : Precedence → Pending → Pending
  | .factor, p => p
  | .term, p => { p with term := none }
  | .sum, p => { p with sum := none, term := none }
  | .comparison, p => ⟨p.logic, none, none, none⟩
  | .logic, _ => .empty

theorem outside_of_up (p : Pending) (h : p.outside l.up = p) : p.outside l = p := by
  rw [← h]
  cases l <;> rfl

theorem outside_up (p : Pending) {p' : Pending} (h : p.outside l.up = p)
    (ho : p'.outside l = p) : p'.outside l.up = p := by
  subst p
  obtain ⟨_, _, _, _⟩ := p'
  cases l <;> simp_all [outside, Precedence.up, empty, @eq_comm _ none]

theorem upTo_up (p' : Pending) {p : Pending} (h : p.outside l.up = p) (ho : p'.outside l = p)
    (e : Expression) : p'.upTo l.up e = p'.upTo l e := by
  subst p
  obtain ⟨_, _, _, _⟩ := p'
  cases l <;> simp_all [outside, Precedence.up, empty, upTo, asTerm, asSum, asComparison, asWhole,
    joinArithmetic, joinComparison, joinLogic, @eq_comm _ none]

end Pending

/-- Reading a phrase takes a draft from the place where it starts to the last factor of it. For a
list, `place` is where its next expression stands when the ones before it are known. -/
def Phrase.IsRead (N : Nat) (stop : Token) (n : Nat) : Phrase → List Token → List Token → Prop
  | .operand l e, ts, rest => ∀ (d : Draft) (site : Site) (p : Pending),
      d.blocks.length + site.depth + n ≤ N → p.outside l = p →
      ∃ p' e', p'.outside l = p ∧ p'.upTo l e' = e ∧
        (d.goto (.operand site p)).outcome (some N) stop ts =
          (d.goto (.factor site p' e')).outcome (some N) stop rest
  | .whole e, ts, rest => ∀ (d : Draft) (site : Site),
      d.blocks.length + site.enclosures.length + n ≤ N →
      ∃ p' e', p'.asWhole e' = e ∧
        (d.goto (.expression site)).outcome (some N) stop ts =
          (d.goto (.factor site p' e')).outcome (some N) stop rest
  | .list es, ts, rest => ∀ (d : Draft) (place : List Expression → Site) (before : List Expression),
      (∀ b, d.blocks.length + (place b).enclosures.length + n ≤ N) →
      (∀ b p e t, t.kind = .comma → (d.goto (.factor (place b) p e)).step (some N) t =
        .ok (.more (d.goto (.expression (place (b ++ [p.asWhole e])))))) →
      ∃ init p' e', before ++ es = init ++ [p'.asWhole e'] ∧
        (d.goto (.expression (place before))).outcome (some N) stop ts =
          (d.goto (.factor (place init) p' e')).outcome (some N) stop rest

theorem Phrase.Spells.first (h : Phrase.Spells n p ts rest) :
    ∃ t ts', ts = t :: ts' ∧ (t.kind = .leftParen ∨ t.kind = .string ∨ t.kind = .number ∨
      t.kind = .identifier) := by
  induction h with
  | string ht => exact ⟨_, _, rfl, .inr (.inl ht)⟩
  | number ht hv => exact ⟨_, _, rfl, .inr (.inr (.inl ht))⟩
  | var ht hr => exact ⟨_, _, rfl, .inr (.inr (.inr ht))⟩
  | parens ht he hu ih => exact ⟨_, _, rfl, .inl ht⟩
  | callNone ht hu hv => exact ⟨_, _, rfl, .inr (.inr (.inr ht))⟩
  | call ht hu hes hv ih => exact ⟨_, _, rfl, .inr (.inr (.inr ht))⟩
  | term he ih | sum he ih | comparison he ih | logic he ih => exact ih
  | whole he hr ih | last he ih => exact ih
  | product ha hop ht hb iha ihb | total ha hop ht hb iha ihb => exact iha
  | compare ha ht hb iha ihb | connect ha ht hb iha ihb => exact iha
  | more he ht hes ih ihs => exact ih

section
variable {N n : Nat} {stop : Token} {ts mid rest : List Token}

theorem Phrase.IsRead.up (h : (Phrase.operand l e).IsRead N stop n ts rest) :
    (Phrase.operand l.up e).IsRead N stop n ts rest := by
  intro d site p hd hp
  obtain ⟨p', e', ho, he, hr⟩ := h d site p hd (p.outside_of_up hp)
  exact ⟨p', e', p.outside_up hp ho, (p'.upTo_up hp ho e').trans he, hr⟩

/-- Two operands and the operator between them are read as one operand, if what the operator makes
pending is joined in the end. -/
theorem Phrase.IsRead.join {la lb l : Precedence} {a b c : Expression}
    (ha : (Phrase.operand la a).IsRead N stop n ts (t :: mid))
    (hb : (Phrase.operand lb b).IsRead N stop n mid rest)
    (hl : ∀ p : Pending, p.outside l = p → p.outside la = p)
    (hj : ∀ (p p' : Pending) e', p.outside l = p → p'.outside la = p → p'.upTo la e' = a →
      ∃ q : Pending, p'.extend? e' t = some q ∧ q.outside lb = q ∧
        ∀ (p'' : Pending) e'', p''.outside lb = q → p''.upTo lb e'' = b →
          p''.outside l = p ∧ p''.upTo l e'' = c) :
    (Phrase.operand l c).IsRead N stop n ts rest := by
  intro d site p hd hp
  obtain ⟨p', e', ho, he, hr⟩ := ha d site p hd (hl p hp)
  obtain ⟨q, hq, hqo, hjoin⟩ := hj p p' e' hp ho he
  obtain ⟨p'', e'', ho', he', hr'⟩ := hb d site q hd hqo
  obtain ⟨hout, hup⟩ := hjoin p'' e'' ho' he'
  refine ⟨p'', e'', hout, hup, ?_⟩
  rw [hr, Draft.outcome_cons (Draft.step_operator hq ..), hr']

end

theorem Phrase.Spells.isRead (hstop : stop.kind = .endOfInput) (h : Phrase.Spells n p ts rest) :
    p.IsRead N stop n ts rest := by
  -- What surrounds a phrase is left open by `IsRead`, so the hypotheses serve within parentheses
  -- and arguments as well as behind operators.
  induction h with
  | string ht =>
    intro d site p hd hp
    exact ⟨p, _, hp, rfl, Draft.outcome_cons (Draft.step_operand_string ht ..) _⟩
  | number ht hv =>
    intro d site p hd hp
    have hn := Integer.ofNumeral?_eq_some_iff.2 hv
    refine ⟨p, _, hp, rfl, ?_⟩
    rw [Draft.outcome_cons (Draft.step_operand_number ht ..)]
    exact Draft.outcome_congr (Draft.step_numeral hn ..)
  | @var n t rest ht hr =>
    intro d site p hd hp
    refine ⟨p, _, hp, rfl, ?_⟩
    rw [Draft.outcome_cons (Draft.step_operand_name ht ..)]
    apply Draft.outcome_congr
    apply Draft.step_name
    cases rest with
    | nil => simp [hstop]
    | cons u rest => exact hr u rfl
  | @parens n e ts u rest t ht he hu ih =>
    intro d site p hd hp
    obtain ⟨p', e', rfl, hr⟩ := ih d { site with enclosures := .parens p :: site.enclosures }
      (by simpa [Site.depth] using hd)
    have hclose := Draft.closeExpression_parens hu (some N) d site p (p'.asWhole e')
    rw [← Draft.step_factor (Token.not_isOperator (by rw [hu]; rfl))] at hclose
    refine ⟨p, p'.asWhole e', hp, rfl, ?_⟩
    rw [Draft.outcome_cons (Draft.step_operand_parens ht ..), hr, Draft.outcome_cons hclose]
  | @callNone n t u v rest ht hu hv =>
    intro d site p hd hp
    refine ⟨p, .call t.lexeme [], hp, rfl, ?_⟩
    rw [Draft.outcome_cons (Draft.step_operand_name ht ..),
      Draft.outcome_cons (Draft.step_name_paren hu ..),
      Draft.outcome_cons (Draft.step_firstArgument_paren hv ..)]
  | @call n es ts v rest t u ht hu hes hv ih =>
    intro d site p hd hp
    let place (b : List Expression) : Site :=
      { site with enclosures := .argument p t.lexeme b :: site.enclosures }
    obtain ⟨init, p', e', hi, hr⟩ := ih d place [] (by simpa [place, Site.depth] using hd)
      fun b p' e' u hu => by
        rw [Draft.step_factor (Token.not_isOperator (by rw [hu]; rfl))]
        exact Draft.closeExpression_comma hu ..
    have hclose := Draft.closeExpression_argument hv (some N) d site p t.lexeme init (p'.asWhole e')
    rw [← Draft.step_factor (Token.not_isOperator (by rw [hv]; rfl)), ← hi] at hclose
    refine ⟨p, .call t.lexeme es, hp, rfl, ?_⟩
    rw [Draft.outcome_cons (Draft.step_operand_name ht ..),
      Draft.outcome_cons (Draft.step_name_paren hu ..), ← List.nil_append es,
      ← Draft.outcome_cons hclose, ← hr]
    obtain ⟨w, ws, rfl, hw⟩ := hes.first
    apply Draft.outcome_congr
    apply Draft.step_firstArgument
    rcases hw with hw | hw | hw | hw <;> simp [hw]
  | term he ih => exact ih.up
  | sum he ih => exact ih.up
  | comparison he ih => exact ih.up
  | logic he ih => exact ih.up
  | @product n a ts t mid b rest op ha hop ht hb iha ihb =>
    refine iha.join ihb (fun p hp => hp) fun p p' e' hp ho he => ?_
    refine ⟨_, p'.extend?_term e' hop ht, rfl, fun p'' e'' ho' he' => ?_⟩
    obtain rfl : p'' = _ := ho'
    obtain rfl : e'' = b := he'
    exact ⟨ho, congrArg (Expression.binary (.arithmetic op) · e'') he⟩
  | @total n a ts t mid b rest op ha hop ht hb iha ihb =>
    refine iha.join ihb (fun p hp => hp) fun p p' e' hp ho he => ?_
    refine ⟨_, p'.extend?_sum e' hop ht, rfl, fun p'' e'' ho' he' => ?_⟩
    refine ⟨(congrArg (Pending.outside .sum) ho').trans ho, ?_⟩
    have hs : p''.sum = some (p'.asSum e', op) := congrArg Pending.sum ho'
    have he'' : p''.asTerm e'' = b := he'
    have ha' : p'.asSum e' = a := he
    rw [Pending.upTo, Pending.asSum, hs, he'', ha', Pending.joinArithmetic]
  | @compare n a ts t mid b rest op ha ht hb iha ihb =>
    refine iha.join ihb (fun p => p.outside_of_up (l := .sum)) fun p p' e' hp ho he => ?_
    -- The sum on the left leaves pending what was pending, and that is no comparison.
    have hc : p'.comparison = none :=
      (congrArg Pending.comparison ho).trans (congrArg Pending.comparison hp).symm
    refine ⟨_, p'.extend?_comparison e' hc ht, rfl, fun p'' e'' ho' he' => ?_⟩
    have hl := (congrArg Pending.logic ho').trans (congrArg Pending.logic ho :)
    have hs : p''.comparison = some (p'.asSum e', op) := congrArg Pending.comparison ho'
    have he'' : p''.asSum e'' = b := he'
    have ha' : p'.asSum e' = a := he
    refine ⟨?_, ?_⟩
    · rw [← hp]
      exact congrArg (Pending.mk · none none none) hl
    · rw [Pending.upTo, Pending.asComparison, hs, he'', ha', Pending.joinComparison]
  | @connect n a ts t mid b rest op ha ht hb iha ihb =>
    refine iha.join ihb (fun p hp => hp) fun p p' e' hp ho he => ?_
    refine ⟨_, p'.extend?_connective e' ht, rfl, fun p'' e'' ho' he' => ?_⟩
    have hs : p''.logic = some (p'.asWhole e', op) := congrArg Pending.logic ho'
    have he'' : p''.asComparison e'' = b := he'
    have ha' : p'.asWhole e' = a := he
    refine ⟨hp, ?_⟩
    rw [Pending.upTo, Pending.asWhole, hs, he'', ha', Pending.joinLogic]
  | @whole n e ts rest he hr ih =>
    intro d site hd
    obtain ⟨p', e', _, he', hr'⟩ := ih d site .empty (by rw [Site.depth]; omega) rfl
    refine ⟨p', e', he', ?_⟩
    rw [← hr']
    exact Draft.outcome_congr (Draft.step_expression (by omega) _)
  | last he ih =>
    intro d place before hd hc
    obtain ⟨p', e', rfl, hr⟩ := ih d (place before) (hd before)
    exact ⟨before, p', e', rfl, hr⟩
  | more he ht hes ih ihs =>
    intro d place before hd hc
    obtain ⟨p', e', rfl, hr⟩ := ih d (place before) (hd before)
    obtain ⟨init, p'', e'', hi, hr'⟩ := ihs d place (before ++ [p'.asWhole e']) hd hc
    refine ⟨init, p'', e'', ?_, ?_⟩
    · rw [← hi, List.append_assoc, List.singleton_append]
    · rw [hr, Draft.outcome_cons (hc before p' e' _ ht), hr']

end Scriptlet
