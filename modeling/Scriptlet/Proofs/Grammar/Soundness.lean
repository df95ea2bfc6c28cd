import Scriptlet.Proofs.Grammar.DraftInvariant
import Scriptlet.Proofs.Reading
import Scriptlet.Proofs.Transition

namespace Scriptlet
set_option autoImplicit true

theorem Next.cons (h : Next t here) (ht : t.kind ≠ .endOfInput) : ∃ ts, here = t :: ts := by
  cases h with
  | token => exact ⟨_, rfl⟩
  | stop hstop => exact absurd hstop ht

theorem Next.eq_nil (h : Next t here) (ht : t.kind = .endOfInput) : here = [] := by
  cases h with
  | token hne => exact absurd ht hne
  | stop => rfl

theorem Next.head (h : Next t here) : ∀ u ∈ here.head?, u = t := by
  intro u hu
  cases h with
  | token => exact (Option.some.inj hu).symm
  | stop => cases hu

theorem Keyword.phase_spelled {t : Token} (ht : t.isKeyword (Keyword.word k)) :
    (k.phase t.position).Spelled n (t :: here) here := by
  cases k with
  | assign => exact .assignName ht
  | function => exact .functionName ht
  | _ => exact .expression ⟨here, .keyword ht rfl, .nil⟩

theorem Keyword.phase_ne_argument (k : Keyword) :
    k.phase pos ≠ .expression ⟨pos, .argument f before, []⟩ := by
  cases k <;> simp [phase]

/-- Where no operator stands, a factor completes the expression that it is in. -/
theorem Pending.Spelled.whole {p : Pending} (h : p.Spelled n ts mid)
    (he : Phrase.Spells n (.operand .factor e) mid (t :: rest)) (ht : t.kind.isApart) :
    Phrase.Spells (n + 1) (.whole (p.asWhole e)) ts (t :: rest) :=
  .whole (h.asWhole he) fun u hu op hk => by
    rw [← Option.some.inj hu] at hk
    exact Token.not_isOperator ht (.inr (.inr ⟨op, hk⟩))

namespace Draft

section
variable {N n : Nat} {all ts here rest : List Token} {d d' : Draft} {t : Token} {phase : Phase}
  {q : Progress}

theorem Starts.fill? (h : d.Starts N all n ts) (hs : Slot.Spelled n pos slot ts start)
    (he : Phrase.Spells n (.whole e) start here) (hf : d.fill? pos e slot = some d') :
    d'.Spelled N all here := by
  have hfinish {s : Statement} (hs : Clause.Spells n (.statement s) ts here) :
      (d.add s).Spelled N all here := .between (h.add hs) (phase_add ..)
  cases hs with
  | @keyword _ w slot k ht hk =>
    cases k <;> simp only [Keyword.phase, Phase.expression.injEq, Site.mk.injEq, reduceCtorEq,
      true_and, and_true] at hk
    all_goals subst hk
    all_goals cases hf
    · exact hfinish (.print ht he)
    · exact hfinish (.log ht he)
    · exact h.goto (.block (.ifThen ht he))
    · exact h.goto (.block (.loop ht he))
    · have hw : w.isKeyword WriteMode.replace.keyword.word := ht
      exact h.goto (.content hw he (.refl _))
    · have hw : w.isKeyword WriteMode.extend.keyword.word := ht
      exact h.goto (.content hw he (.refl _))
    · exact h.goto (.target ht he (.refl _))
    · exact hfinish (.delete ht he)
    · exact hfinish (.giveBack ht he)
  | assign ht hx heq =>
    cases hf
    exact hfinish (.assign ht hx heq he)
  | content ht hp hm =>
    cases hf
    exact hfinish (.write ht hp hm he)
  | argument ht hu hes => cases hf

theorem Passes.spelled (h : d.Passes (some N) t phase d') (hd : (d.goto phase).Spelled N all here)
    (hn : ∀ u ∈ here.head?, u = t) : d'.Spelled N all here := by
  cases hd with
  | between hs hp =>
    obtain rfl : phase = .statement := hp
    cases h
  | @within n _ hs hp =>
    have hs : d.Starts N all n _ := ⟨hs.stands, hs.opens⟩
    have hroom := hs.stands.room
    cases h with
    | block h =>
      cases hp with
      | block hh =>
        have hlevel := h N rfl
        obtain ⟨m, rfl⟩ := Nat.exists_eq_add_one_of_ne_zero (show n ≠ 0 by omega)
        exact .between (.block hs.stands hs.opens hh .nothing) rfl
    | @expression site h =>
      cases hp with
      | @expression _ _ _ m hsite =>
        obtain ⟨start, hslot, he⟩ := hsite
        have hlevel : d.blocks.length + (site.enclosures.length + 1) ≤ N := h N rfl
        have hroom' := he.room
        obtain ⟨m, rfl⟩ := Nat.exists_eq_add_one_of_ne_zero (show m ≠ 0 by omega)
        exact hs.goto (.operand ⟨start, hslot, he⟩ (Pending.empty_spelled m here))
    | content ht =>
      cases hp with
      | content hw hpath hm => exact hs.goto (.expression ⟨here, .content hw hpath hm, .nil⟩)
    | firstStatementArgument ht =>
      cases hp with
      | firstStatementArgument hw hu =>
        exact hs.goto (.expression ⟨here, .argument hw hu .nil, .nil⟩)
    | firstArgument ht =>
      cases hp with
      | firstArgument hsite hpending hf hu =>
        obtain ⟨start, hslot, he⟩ := hsite
        exact hs.goto (.expression ⟨start, hslot, he.argument hpending hf hu .nil⟩)
    | name ht =>
      cases hp with
      | name hsite hpending hx =>
        exact hs.goto (.factor hsite hpending (.var hx fun u hu => hn u hu ▸ ht))
    | numeral hv =>
      cases hp with
      | numeral hsite hpending hk =>
        have hvalue := Integer.ofNumeral?_eq_some_iff.1 hv
        exact hs.goto (.factor hsite hpending (.number hk hvalue))
    | filled hx hf =>
      cases hp with
      | factor hsite hpending he =>
        obtain ⟨start, hslot, hen⟩ := hsite
        cases hen
        refine hs.fill? hslot (.whole (hpending.asWhole he) fun u hu op hk => ?_) hf
        rw [hn u hu] at hk
        rw [Pending.extend?_connective _ _ hk] at hx
        cases hx

theorem Takes.not_endOfInput (h : d.Takes limit t phase (.ok (.more d'))) :
    t.kind ≠ .endOfInput := by
  intro hk
  cases h with
  | operator hx =>
    rw [Pending.extend?_eq_none _ _ (Token.not_isOperator (by rw [hk]; rfl))] at hx
    cases hx
  | blockEnd ht | otherwise ht | keyword ht => simp [(Token.isKeyword_iff.1 ht).1] at hk
  | plainName ht => simp [ht.1] at hk
  | _ => simp_all

theorem Takes.spelled (h : d.Takes (some N) t phase (.ok (.more d')))
    (hd : (d.goto phase).Spelled N all (t :: rest)) : d'.Spelled N all rest := by
  cases hd with
  | between hs hp =>
    obtain rfl : phase = .statement := hp
    have hs : Stands N all d.reversed _ d.blocks (t :: rest) := hs
    have hstarts (hc : ¬ t.Closes (closersIn d.blocks)) : d.Starts N all _ (t :: rest) :=
      ⟨hs, fun u hu => by rwa [← Option.some.inj hu]⟩
    cases h with
    | separator ht => exact .between (hs.separator ht) rfl
    | blockEnd ht hb =>
      rw [hb] at hs
      cases hs with
      | block ho hc hh hbody =>
        have hadd : Starts N all _ ⟨d.reversed, _, .statement⟩ _ := ⟨ho, hc⟩
        exact .between (hadd.add (hh.complete hbody ht)) (phase_add ..)
    | otherwise ht hb =>
      rw [hb] at hs
      cases hs with
      | block ho hc hh hbody => exact .within ⟨ho, hc⟩ (.block (.ifElse hh hbody ht))
    | keyword ht hc => exact (hstarts hc).goto (Keyword.phase_spelled ht)
    | plainName ht hc => exact (hstarts hc).goto (.callee ht)
  | within hs hp =>
    have hs : d.Starts N all _ _ := ⟨hs.stands, hs.opens⟩
    -- Each phase knows the tokens of its statement that were read, and this one extends them.
    cases h with
    | separator | blockEnd | otherwise | keyword | plainName => cases hp
    | callee ht =>
      cases hp with
      | callee hw => exact hs.goto (.firstStatementArgument hw ht)
    | noStatementArgument ht =>
      cases hp with
      | firstStatementArgument hw hu =>
        exact .between (hs.add (.call hw hu (.inl ⟨rfl, rfl⟩) ht)) (phase_add ..)
    | assignName ht =>
      cases hp with
      | assignName hw => exact hs.goto (.assignEqual hw ht)
    | assignEqual ht =>
      cases hp with
      | assignEqual hw hx => exact hs.goto (.expression ⟨rest, .assign hw hx ht, .nil⟩)
    | functionName ht =>
      cases hp with
      | functionName hw => exact hs.goto (.functionParen hw ht)
    | functionParen ht =>
      cases hp with
      | functionParen hw hf => exact hs.goto (.firstParameter hw hf ht)
    | noParameter ht =>
      cases hp with
      | firstParameter hw hf hu =>
        exact hs.goto (.block (.function hw hf hu (.inl ⟨rfl, rfl⟩) ht))
    | firstParameter ht =>
      cases hp with
      | firstParameter hw hf hu => exact hs.goto (.parameterEnd hw hf hu .nil ht)
    | parameter ht =>
      cases hp with
      | parameter hw hf hu hxs => exact hs.goto (.parameterEnd hw hf hu hxs ht)
    | nextParameter ht =>
      cases hp with
      | parameterEnd hw hf hu hxs hx => exact hs.goto (.parameter hw hf hu (hxs.snoc hx ht))
    | lastParameter ht =>
      cases hp with
      | parameterEnd hw hf hu hxs hx =>
        exact hs.goto (.block (.function hw hf hu (.inr (hxs.names hx)) ht))
    | contentSeparator ht =>
      cases hp with
      | content hw hpath hm => exact hs.goto (.content hw hpath (hm.snoc ht))
    | targetSeparator ht =>
      cases hp with
      | target hw hpath hm => exact hs.goto (.target hw hpath (hm.snoc ht))
    | target ht =>
      cases hp with
      | target hw hpath hm => exact .between (hs.add (.read hw hpath hm ht)) (phase_add ..)
    | parens ht =>
      cases hp with
      | operand hsite hpending =>
        obtain ⟨start, hslot, he⟩ := hsite
        exact hs.goto (.expression ⟨start, hslot, .parens he hpending ht⟩)
    | string ht =>
      cases hp with
      | operand hsite hpending => exact hs.goto (.factor hsite hpending (.string ht))
    | numeral ht =>
      cases hp with
      | operand hsite hpending => exact hs.goto (.numeral hsite hpending ht)
    | name ht =>
      cases hp with
      | operand hsite hpending => exact hs.goto (.name hsite hpending ht)
    | call ht =>
      cases hp with
      | name hsite hpending hf => exact hs.goto (.firstArgument hsite hpending hf ht)
    | noArgument ht =>
      cases hp with
      | firstArgument hsite hpending hf hu =>
        exact hs.goto (.factor hsite hpending (.callNone hf hu ht))
    | operator hx =>
      cases hp with
      | factor hsite hpending he => exact hs.goto (.operand hsite (hpending.extend he hx))
    | parensEnd ht =>
      cases hp with
      | factor hsite hpending he =>
        obtain ⟨start, hslot, hen⟩ := hsite
        have hwhole := hpending.whole he (by rw [ht]; rfl)
        cases hen with
        | parens hen hp hu => exact hs.goto (.factor ⟨start, hslot, hen⟩ hp (.parens hu hwhole ht))
    | nextArgument ht =>
      cases hp with
      | factor hsite hpending he =>
        obtain ⟨start, hslot, hen⟩ := hsite
        have hwhole := hpending.whole he (by rw [ht]; rfl)
        cases hen with
        | argument hen hp hf hu hes =>
          have hinside := hen.argument hp hf hu (hes.snoc hwhole ht)
          exact hs.goto (.expression ⟨start, hslot, hinside⟩)
    | lastArgument ht =>
      cases hp with
      | factor hsite hpending he =>
        obtain ⟨start, hslot, hen⟩ := hsite
        have hwhole := hpending.whole he (by rw [ht]; rfl)
        cases hen with
        | argument hen hp hf hu hes =>
          have hcall := Phrase.Spells.call hf hu (hes.list hwhole) ht
          exact hs.goto (.factor ⟨start, hslot, hen⟩ hp hcall)
    | nextStatementArgument ht =>
      cases hp with
      | factor hsite hpending he =>
        obtain ⟨start, hslot, hen⟩ := hsite
        have hwhole := hpending.whole he (by rw [ht]; rfl)
        cases hen
        cases hslot with
        | argument hw hu hes =>
          exact hs.goto (.expression ⟨rest, .argument hw hu (hes.snoc hwhole ht), .nil⟩)
        | @keyword _ _ _ k _ hk => exact (k.phase_ne_argument hk).elim
    | lastStatementArgument ht =>
      cases hp with
      | factor hsite hpending he =>
        obtain ⟨start, hslot, hen⟩ := hsite
        have hwhole := hpending.whole he (by rw [ht]; rfl)
        cases hen
        cases hslot with
        | argument hw hu hes =>
          exact .between (hs.add (.call hw hu (.inr (hes.list hwhole)) ht)) (phase_add ..)
        | @keyword _ _ _ k _ hk => exact (k.phase_ne_argument hk).elim

/-- What the draft holds stays spelled by the tokens that were read, whichever token comes next. -/
theorem Steps.spelled (h : Steps (some N) t d r) (hd : d.Spelled N all here) (hn : Next t here)
    (hr : r = .ok q) : q.Spelled N all t here := by
  induction h with
  | @takes _ d _ h =>
    subst hr
    cases q with
    | more d' =>
      obtain ⟨rest, rfl⟩ := hn.cons h.not_endOfInput
      exact ⟨rest, rfl, h.spelled hd⟩
    | finished p =>
      cases h with
      | finish ht hb =>
        obtain rfl := hn.eq_nil ht
        cases hd with
        | between hs _ =>
          have hs : Stands N all _ _ d.blocks [] := hs
          rw [hb] at hs
          cases hs with
          | outermost hss => exact ⟨rfl, hss⟩
        | within _ hp => cases hp
  | passes h _ ih => exact ih (h.spelled hd hn.head) hr

theorem Spelled.step (h : d.Spelled N all here) (hn : Next t here)
    (hq : d.step (some N) t = .ok q) : q.Spelled N all t here :=
  (d.steps_step (some N) t).spelled h hn hq

/-- A run that ends in a program read the tokens that spell it. -/
theorem Spelled.outcome (h : d.Spelled N all here) (hstop : stop.kind = .endOfInput)
    (hk : ∀ t ∈ here, t.kind ≠ .endOfInput) (hq : d.outcome (some N) stop here = .ok p) :
    Program.SpelledBy N p all := by
  induction here generalizing d with
  | nil =>
    cases hs : d.step (some N) stop with
    | error e =>
      rw [outcome_nil, hs] at hq
      cases hq
    | ok q =>
      rw [outcome_nil, hs] at hq
      have hspelled := h.step (.stop hstop) hs
      cases q with
      | more d' =>
        obtain ⟨ts, hts, -⟩ := hspelled
        cases hts
      | finished p' =>
        cases hq
        exact hspelled.2
  | cons t here ih =>
    obtain ⟨ht, hk⟩ := List.forall_mem_cons.1 hk
    rw [Draft.outcome] at hq
    cases hs : d.step (some N) t with
    | error e =>
      rw [hs] at hq
      cases hq
    | ok q =>
      rw [hs] at hq
      have hspelled := h.step (.token ht) hs
      cases q with
      | more d' =>
        obtain ⟨ts, hts, hd⟩ := hspelled
        cases hts
        exact ih hd hk hq
      | finished p' => cases hspelled.1

end

end Draft

theorem Program.SpelledBy.of_outcome (hstop : stop.kind = .endOfInput)
    (hk : ∀ t ∈ ts, t.kind ≠ .endOfInput) (h : Draft.empty.outcome (some N) stop ts = .ok p) :
    Program.SpelledBy N p ts :=
  Draft.Spelled.outcome (.between (.outermost .nothing) rfl) hstop hk h

end Scriptlet
