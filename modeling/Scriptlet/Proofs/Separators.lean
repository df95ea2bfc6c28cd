import Scriptlet.Proofs.Lexeme.Breaks
import Scriptlet.Proofs.Printing.RoundTrip

namespace Scriptlet
set_option autoImplicit true

/-- Any name that spells a connective, in any mixture of cases. -/
def Token.isConnective (t : Token) : Bool :=
  t.isKeyword Connective.and.word || t.isKeyword Connective.or.word

theorem Token.isConnective_iff {t : Token} :
    t.isConnective ↔ ∃ op : Connective, t.isKeyword op.word := by
  rw [isConnective, Bool.or_eq_true]
  constructor
  · rintro (h | h)
    · exact ⟨.and, h⟩
    · exact ⟨.or, h⟩
  · rintro ⟨_ | _, h⟩
    · exact .inl h
    · exact .inr h

/-- An expression that could end here goes on with the token: one that ends in a name does so with
a parenthesis, which makes it a call, and each does with a connective. -/
def Phase.continues (t : Token) : Phase → Bool
  | .name .. => t.kind == .leftParen || t.isConnective
  | .numeral .. | .factor .. => t.isConnective
  | _ => false

/-- Behind no row of semicolons stands a token with which an expression in front of the row goes
on. -/
def Draft.separated (limit : Option Nat) : Draft → List Token → Bool
  | _, [] => true
  | d, t :: ts =>
    (t.kind != .semicolon || (ts.find? (·.kind ≠ .semicolon)).all (!d.phase.continues ·)) &&
      match d.step limit t with
      | .ok (.more d) => d.separated limit ts
      | _ => true

/-- A token that joins operands and is no name. -/
def Token.Joins (t : Token) : Prop :=
  (∃ op : Arithmetic, t.kind = op.kind) ∨ ∃ op : Comparison, t.kind = op.kind

/-- What a semicolon does: it is refused, or what reads it goes on as if it had not been there, and
wants no operator. -/
def Skips (limit : Option Nat) (f : Token → Except SyntaxError Progress) : Prop :=
  ∀ s, s.kind = .semicolon →
    (∃ e, f s = .error e) ∨
      ∃ d, f s = .ok (.more d) ∧ (∀ t, d.step limit t = f t) ∧ ∀ t, t.Joins → ∃ e, f t = .error e

theorem Token.Joins.kind {t : Token} (h : t.Joins) :
    t.kind ∉ [.semicolon, .endOfInput, .leftParen, .string, .number, .identifier] := by
  rcases h with ⟨op, h⟩ | ⟨op, h⟩ <;> cases op <;> simp [h, Arithmetic.kind, Comparison.kind]

namespace Draft

variable {limit : Option Nat} {t : Token}

theorem betweenStatements_joins (d : Draft) (h : t.Joins) :
    ∃ e, d.betweenStatements t = .error e := by
  have hk := h.kind
  simp only [List.mem_cons, List.not_mem_nil, or_false, not_or] at hk
  obtain ⟨hsemicolon, hend, -, -, -, hname⟩ := hk
  unfold betweenStatements opening
  simp only [if_neg hsemicolon, if_neg hend, if_pos hname, Token.not_isKeyword hname]
  rcases d.blocks with _ | ⟨⟨pos, header, reversed⟩, outer⟩
  · exact ⟨_, rfl⟩
  · cases header <;> exact ⟨_, rfl⟩

theorem inExpression_error (d : Draft) (site : Site)
    (ht : t.kind ∉ [.leftParen, .string, .number, .identifier]) :
    ∃ e, d.inExpression limit site t = .error e := by
  have hoperand : d.operand site .empty t = .error (.unexpectedToken "an expression" t) := by
    unfold operand
    split <;> simp_all
  unfold inExpression
  cases checkDepth limit (d.blocks.length + site.enclosures.length) t with
  | error e => exact ⟨e, rfl⟩
  | ok => exact ⟨_, hoperand⟩

theorem betweenStatements_skips (d : Draft) : Skips limit d.betweenStatements := by
  intro s hs
  refine .inr ⟨d.goto .statement, if_pos hs, fun t => rfl, fun t => d.betweenStatements_joins⟩

theorem checkDepth_skips {f : Token → Except SyntaxError Progress} (hf : Skips limit f) :
    Skips limit fun t => checkDepth limit depth t >>= fun _ => f t := by
  cases limit with
  | none => exact hf
  | some n =>
    by_cases hn : n ≤ depth
    · intro s hs
      refine .inl ⟨.nestingTooDeep n s.position, ?_⟩
      simp [checkDepth, hn, bind, Except.bind]
    · simpa [checkDepth, hn, bind, Except.bind] using hf

theorem inBlock_skips (d : Draft) (pos : Position) (header : Header) :
    Skips limit (d.inBlock limit pos header) :=
  checkDepth_skips (betweenStatements_skips _)

theorem inContent_skips (d : Draft) (pos : Position) (mode : WriteMode) (path : Expression) :
    Skips limit (d.inContent limit pos mode path) := by
  intro s hs
  refine .inr ⟨d.goto (.content pos mode path), if_pos hs, fun t => rfl, ?_⟩
  intro t ht
  have hk := ht.kind
  rw [List.mem_cons, List.mem_cons, not_or, not_or] at hk
  rw [inContent, if_neg hk.1]
  exact d.inExpression_error _ hk.2.2

theorem inTarget_skips (d : Draft) (pos : Position) (path : Expression) :
    Skips limit (d.inTarget pos path) := by
  intro s hs
  refine .inr ⟨d.goto (.target pos path), if_pos hs, fun t => rfl, ?_⟩
  intro t ht
  have hk := ht.kind
  simp only [List.mem_cons, List.not_mem_nil, or_false, not_or] at hk
  rw [inTarget, if_neg hk.1, if_neg hk.2.2.2.2.2]
  exact ⟨_, rfl⟩

theorem fillSlot_skips (d : Draft) (pos : Position) (slot : Slot) (e : Expression) :
    Skips limit (d.fillSlot limit pos slot e) := by
  cases slot with
  | ifCondition => exact d.inBlock_skips pos _
  | loopCondition => exact d.inBlock_skips pos _
  | writePath mode => exact d.inContent_skips pos mode e
  | readPath => exact d.inTarget_skips pos e
  | argument name before =>
    intro s hs
    refine .inl ⟨.unexpectedToken "')' or ','" s, ?_⟩
    simp [fillSlot, hs]
  | _ => exact betweenStatements_skips _

theorem closeExpression_skips (d : Draft) (site : Site) (e : Expression) :
    Skips limit (d.closeExpression limit site e) := by
  unfold closeExpression
  cases site.enclosures with
  | nil => exact d.fillSlot_skips site.pos site.slot e
  | cons enclosure rest =>
    intro s hs
    cases enclosure with
    | parens outer =>
      refine .inl ⟨.unexpectedToken "')'" s, ?_⟩
      simp [hs]
    | argument outer name before =>
      refine .inl ⟨.unexpectedToken "')' or ','" s, ?_⟩
      simp [hs]

end Draft

/-- What a semicolon between two tokens does: it is refused, or the second token is read without it
in the same way, or is refused behind it. -/
def Parts (limit : Option Nat) (f : Token → Except SyntaxError Progress) (t : Token) : Prop :=
  ∀ s, s.kind = .semicolon →
    (∃ e, f s = .error e) ∨
      ∃ d, f s = .ok (.more d) ∧ (d.step limit t = f t ∨ ∃ e, d.step limit t = .error e)

theorem Parts.congr {f g : Token → Except SyntaxError Progress} {t : Token} (hg : Parts limit g t)
    (h : ∀ u, u.kind = .semicolon ∨ u = t → f u = g u) : Parts limit f t := by
  intro s hs
  rw [h s (.inl hs), h t (.inr rfl)]
  exact hg s hs

theorem Skips.parts {f : Token → Except SyntaxError Progress} (h : Skips limit f) (t : Token) :
    Parts limit f t := by
  intro s hs
  rcases h s hs with he | ⟨d, hd, hskip, -⟩
  · exact .inl he
  · exact .inr ⟨d, hd, .inl (hskip t)⟩

namespace Draft

variable {limit : Option Nat} {t : Token}

theorem afterFactor_parts (d : Draft) (site : Site) (pending : Pending) (e : Expression)
    (ht : ¬ t.isConnective) : Parts limit (d.afterFactor limit site pending e) t := by
  intro s hs
  have hclose {u : Token} (hu : ¬ u.IsOperator) : d.afterFactor limit site pending e u =
      d.closeExpression limit site (pending.asWhole e) u := by
    rw [afterFactor, pending.extend?_eq_none e hu]
  have hsapart : ¬ s.IsOperator := Token.not_isOperator (by simp [hs, TokenKind.isApart])
  rw [hclose hsapart]
  rcases d.closeExpression_skips site (pending.asWhole e) s hs with he | ⟨d', hd', hskip, hjoins⟩
  · exact .inl he
  · refine .inr ⟨d', hd', ?_⟩
    by_cases hoperator : t.IsOperator
    · rcases hoperator with ⟨op, h⟩ | ⟨op, h⟩ | ⟨op, h⟩
      · exact .inr (hskip t ▸ hjoins t (.inl ⟨op, h⟩))
      · exact .inr (hskip t ▸ hjoins t (.inr ⟨op, h⟩))
      · exact absurd (Token.isConnective_iff.2 ⟨op, h⟩) ht
    · exact .inl ((hskip t).trans (hclose hoperator).symm)

/-- A semicolon behind which the expression in front of it does not go on changes nothing. -/
theorem step_parts (d : Draft) (ht : ¬ d.phase.continues t) : Parts limit (d.step limit) t := by
  have hrefused {f : Token → Except SyntaxError Progress}
      (h : ∀ s, s.kind = .semicolon → ∃ e, f s = .error e) : Parts limit f t :=
    fun s hs => .inl (h s hs)
  obtain ⟨reversed, blocks, phase⟩ := d
  cases phase with
  | statement => exact (betweenStatements_skips _).parts t
  | block pos header => exact (inBlock_skips _ pos header).parts t
  | content pos mode path => exact (inContent_skips _ pos mode path).parts t
  | target pos path => exact (inTarget_skips _ pos path).parts t
  | name site pending x =>
    simp only [Phase.continues, Bool.or_eq_true, beq_iff_eq, not_or] at ht
    apply (afterFactor_parts _ site pending (.var x) ht.2).congr
    intro u hu
    apply if_neg
    rcases hu with hu | rfl
    · simp [hu]
    · exact ht.1
  | numeral site pending n =>
    cases hv : Integer.ofNumeral? n.lexeme with
    | none => exact hrefused fun s hs => ⟨.numberOutOfRange n, by simp [step, hv]⟩
    | some v =>
      let d : Draft := ⟨reversed, blocks, .numeral site pending n⟩
      apply (d.afterFactor_parts site pending (.number v) ht).congr
      intro u hu
      simp only [step, hv, d]
  | factor site pending e => exact afterFactor_parts _ site pending e ht
  | firstStatementArgument pos f =>
    refine hrefused fun s hs => ?_
    simp only [step, if_neg (show s.kind ≠ .rightParen by simp [hs])]
    exact inExpression_error _ _ (by simp [hs])
  | expression site => exact hrefused fun s hs => inExpression_error _ _ (by simp [hs])
  | firstArgument site pending f =>
    refine hrefused fun s hs => ?_
    simp only [step, if_neg (show s.kind ≠ .rightParen by simp [hs])]
    exact inExpression_error _ _ (by simp [hs])
  | _ =>
    refine hrefused fun s hs => ?_
    simp [step, Draft.name, punctuation, operand, hs]

theorem continues_end (phase : Phase) (ht : t.kind = .endOfInput) : phase.continues t = false := by
  cases phase <;> simp [Phase.continues, Token.isConnective, ht, Token.not_isKeyword]

theorem separated_of_append {d : Draft} {ts rest : List Token}
    (h : d.separated limit (ts ++ rest)) : d.separated limit ts := by
  induction ts generalizing d with
  | nil => rfl
  | cons t ts ih =>
    rw [List.cons_append, separated, List.find?_append, Bool.and_eq_true] at h
    obtain ⟨hnext, hsep⟩ := h
    rw [separated, Bool.and_eq_true]
    constructor
    · cases hfind : ts.find? (·.kind ≠ .semicolon) with
      | none => simp
      | some u =>
        rw [hfind] at hnext
        exact hnext
    · cases hd : d.step limit t with
      | error e => rfl
      | ok q =>
        cases q with
        | more d' =>
          rw [hd] at hsep
          exact ih hsep
        | finished p => rfl

theorem outcome_refused {d : Draft} {ts : List Token}
    (h : ∃ e, d.step limit (ts.headD stop) = .error e) (p : Program) :
    d.outcome limit stop ts ≠ .ok p := by
  obtain ⟨e, he⟩ := h
  cases ts with
  | nil =>
    rw [List.headD_nil] at he
    simp [he, Except.map]
  | cons t ts =>
    rw [List.headD_cons] at he
    simp [outcome, he]

/-- Where no semicolon keeps an expression from going on, the semicolons may be left out. -/
theorem outcome_filter {d : Draft} {ts : List Token} (hsep : d.separated limit ts)
    (hstop : stop.kind = .endOfInput) (h : d.outcome limit stop ts = .ok p) :
    d.outcome limit stop (ts.filter (·.kind ≠ .semicolon)) = .ok p := by
  -- Behind a semicolon the row goes on from another draft, which the induction has to allow for.
  induction ts generalizing d with
  | nil => exact h
  | cons s ts ih =>
    rw [separated, Bool.and_eq_true] at hsep
    obtain ⟨hnext, hsep⟩ := hsep
    by_cases hs : s.kind = .semicolon
    · have ht : ¬ d.phase.continues ((ts.filter (·.kind ≠ .semicolon)).headD stop) := by
        rw [List.headD_eq_head?_getD, List.head?_filter]
        cases hfind : ts.find? (·.kind ≠ .semicolon) with
        | none => simp [continues_end d.phase hstop]
        | some t =>
          rw [hfind, hs] at hnext
          simpa using hnext
      rw [List.filter_cons_of_neg (by simpa using hs)]
      rcases d.step_parts ht s hs with ⟨e, he⟩ | ⟨d', hd', hstep⟩
      · rw [outcome, he] at h
        cases h
      · rw [outcome_cons hd'] at h
        rw [hd'] at hsep
        have hrest := ih hsep h
        rcases hstep with hsame | hrefused
        · rw [outcome_congr hsame.symm]
          exact hrest
        · exact absurd hrest (outcome_refused hrefused p)
    · rw [List.filter_cons_of_pos (by simpa using hs)]
      rw [outcome] at h ⊢
      cases hd : d.step limit s with
      | error e => simp [hd] at h
      | ok q =>
        cases q with
        | more d' =>
          rw [hd] at h hsep
          exact ih hsep h
        | finished q => simpa [hd] using h

end Draft

/-- Where no semicolon keeps an expression from going on, a line feed in the place of each semicolon
leaves the program as it is, but for places. -/
theorem parseText_breakLines (text : String) (p : Program) (ts : List Token)
    (hp : parseText text = .ok p) (hts : tokenizeAll text = .ok ts)
    (hsep : Draft.empty.separated (some maxNestingDepth) ts) :
    ∃ p', parseText (breakLines text) = .ok p' ∧ unplacedAll p' = unplacedAll p := by
  obtain ⟨body, stop, hitems, hspelled⟩ := parseText_ok_iff.1 hp
  obtain ⟨hg, hstop⟩ := tokenize_genuine hitems
  rw [tokenizeAll, hitems, allTokens_map] at hts
  obtain rfl := Except.ok.inj hts
  have houtcome :=
    Draft.outcome_filter (Draft.separated_of_append hsep) hstop (hspelled.outcome hstop)
  have hwithout : Program.SpelledBy maxNestingDepth p (body.filter (·.kind ≠ .semicolon)) := by
    apply Program.SpelledBy.of_outcome hstop _ houtcome
    intro t ht
    exact (hg t (List.mem_filter.1 ht).1).kind
  obtain ⟨broken, stop', hbroken, hmatches⟩ := itemsFrom_breakLines hitems .start
  obtain ⟨p', hsame, hspelled'⟩ := hwithout.transport hmatches
  refine ⟨p', parseText_ok_iff.2 ⟨broken, stop', ?_, hspelled'⟩, hsame.unplacedAll⟩
  rw [tokenize, breakLines, String.toList_ofList]
  exact hbroken

/-- The semicolon between the parts of a write is a token; the one in the string is none. -/
theorem parseText_breakLines_write :
    breakLines "writefile a;\"x;\"" = "writefile a\n\"x;\"" ∧
      ∃ p', parseText "writefile a\n\"x;\"" = .ok p' ∧
        unplacedAll p' = unplacedAll [.write ⟨1, 1⟩ .replace (.var "a") (.string "x;")] := by
  have htext : breakLines "writefile a;\"x;\"" = "writefile a\n\"x;\"" := by cbv
  have hp : parseText "writefile a;\"x;\"" =
      .ok [.write ⟨1, 1⟩ .replace (.var "a") (.string "x;")] := by cbv
  have hts : tokenizeAll "writefile a;\"x;\"" = .ok
      [⟨.identifier, "writefile", ⟨1, 1⟩⟩, ⟨.identifier, "a", ⟨1, 11⟩⟩, ⟨.semicolon, ";", ⟨1, 12⟩⟩,
        ⟨.string, "\"x;\"", ⟨1, 13⟩⟩, ⟨.endOfInput, "", ⟨1, 17⟩⟩] := by cbv
  have hbroken := parseText_breakLines _ _ _ hp hts (by cbv)
  rw [htext] at hbroken
  exact ⟨htext, hbroken⟩

/-- A call of `and` behind a separator. -/
theorem parseText_breakLines_connective :
    breakLines "print x; and(1)" = "print x\n and(1)" ∧
      ¬ ∀ text p, parseText text = .ok p →
        ∃ p', parseText (breakLines text) = .ok p' ∧ unplacedAll p' = unplacedAll p := by
  have htext : breakLines "print x; and(1)" = "print x\n and(1)" := by cbv
  refine ⟨htext, fun h => ?_⟩
  have hp : parseText "print x; and(1)" =
      .ok [.print ⟨1, 1⟩ (.var "x"), .call ⟨1, 10⟩ "and" [.number 1]] := by cbv
  have hjoined : parseText "print x\n and(1)" =
      .ok [.print ⟨1, 1⟩ (.logical .and (.var "x") (.number 1))] := by cbv
  obtain ⟨p', hp', hsame⟩ := h _ _ hp
  rw [htext, hjoined] at hp'
  obtain rfl := Except.ok.inj hp'
  cases hsame

end Scriptlet
