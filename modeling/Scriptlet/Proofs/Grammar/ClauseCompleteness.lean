import Scriptlet.Proofs.Grammar.PhraseCompleteness

namespace Scriptlet
set_option autoImplicit true

namespace Draft

theorem foldl_add (r : List Statement) (b : OpenBlock) (outer : List OpenBlock)
    (ss : List Statement) : ss.foldl add ⟨r, b :: outer, .statement⟩ =
      ⟨r, { b with reversed := ss.reverse ++ b.reversed } :: outer, .statement⟩ := by
  induction ss generalizing b with
  | nil => rfl
  | cons s ss ih =>
    rw [List.foldl_cons, add, ih]
    simp [OpenBlock.add]

theorem foldl_add_nil (r ss : List Statement) :
    ss.foldl add ⟨r, [], .statement⟩ = ⟨ss.reverse ++ r, [], .statement⟩ := by
  induction ss generalizing r with
  | nil => rfl
  | cons s ss ih =>
    rw [List.foldl_cons, add, ih]
    simp

theorem openBlock_addAll (d : Draft) (pos : Position) (header : Header) (ss : List Statement) :
    ss.foldl add (d.openBlock pos header) =
      ⟨d.reversed, ⟨pos, header, ss.reverse⟩ :: d.blocks, .statement⟩ := by
  rw [openBlock, foldl_add, List.append_nil]

end Draft

def Detached (ts : List Token) : Prop :=
  ∀ u ∈ ts.head?, u.kind = .identifier ∨ u.kind.isApart

theorem Phrase.Spells.detached (h : Phrase.Spells n p ts rest) : Detached ts := by
  obtain ⟨t, ts', rfl, ht⟩ := h.first
  intro u hu
  obtain rfl : t = u := Option.some.inj hu
  rcases ht with ht | ht | ht | ht <;> simp [ht, TokenKind.isApart]

/-- Where an expression ends, no operator stands unless the expression could not go on with it. -/
theorem Phrase.Spells.not_isOperator (hstop : stop.kind = .endOfInput)
    (h : Phrase.Spells n (.whole e) ts rest) (hr : Detached rest) :
    ¬ (rest.headD stop).IsOperator := by
  cases h with
  | whole he hop =>
    cases rest with
    | nil => exact Token.not_isOperator (by rw [List.headD_nil, hstop]; rfl)
    | cons u rest =>
      rcases hr u rfl with hu | hu
      · rintro (⟨op, h⟩ | ⟨op, h⟩ | ⟨op, h⟩)
        · cases op <;> simp_all [Arithmetic.kind]
        · cases op <;> simp_all [Comparison.kind]
        · exact hop u rfl op h
      · exact Token.not_isOperator hu

/-- An expression is read into its slot. -/
theorem Phrase.Spells.fills (hstop : stop.kind = .endOfInput)
    (h : Phrase.Spells n (.whole e) ts rest) (hr : Detached rest) {d d' : Draft}
    (hd : d.blocks.length + n ≤ N)
    (hf : ∀ t, d.fillSlot (some N) pos slot e t = d'.step (some N) t) :
    (d.goto (.expression ⟨pos, slot, []⟩)).outcome (some N) stop ts =
      d'.outcome (some N) stop rest := by
  obtain ⟨p, e', rfl, hread⟩ := h.isRead hstop d ⟨pos, slot, []⟩ hd
  rw [hread]
  apply Draft.outcome_congr
  rw [Draft.step_factor (h.not_isOperator hstop hr), ← hf]
  rfl

theorem Apart.detached (h : Apart ts rest) (hr : Detached rest) : Detached ts := by
  obtain ⟨gap, rfl, hg⟩ := h
  cases gap with
  | nil => exact hr
  | cons t gap =>
    intro u hu
    obtain rfl := Option.some.inj hu
    exact .inr (by rw [hg t (List.mem_cons_self ..)]; rfl)

theorem Detached.identifier (ht : t.kind = .identifier) (ts : List Token) : Detached (t :: ts) := by
  intro u hu
  obtain rfl := Option.some.inj hu
  exact .inl ht

theorem Detached.keyword (ht : t.isKeyword w) (ts : List Token) : Detached (t :: ts) :=
  .identifier (Token.isKeyword_iff.1 ht).1 ts

theorem Clause.Spells.detached (h : Clause.Spells n c ts rest) (hr : Detached rest) :
    Detached ts := by
  induction h with
  | call ht hu hes hv => exact .identifier ht.1 _
  | nothing => exact hr
  | separator ht hss ih =>
    intro u hu
    obtain rfl := Option.some.inj hu
    exact .inr (by rw [ht]; rfl)
  | more ht hs hss ihs ihss => exact ihs (ihss hr)
  | assign ht | print ht | log ht | ifThen ht | ifElse ht | loop ht | write ht | read ht
  | delete ht | function ht | giveBack ht => exact .keyword ht _

namespace Draft

variable {N : Nat} {stop : Token}

theorem outcome_apart {d : Draft} (h : Apart ts rest)
    (hd : ∀ t, t.kind = .semicolon → d.step (some N) t = .ok (.more d)) :
    d.outcome (some N) stop ts = d.outcome (some N) stop rest := by
  obtain ⟨gap, rfl, hg⟩ := h
  induction gap with
  | nil => rfl
  | cons t gap ih =>
    obtain ⟨ht, hg⟩ := List.forall_mem_cons.1 hg
    rw [List.cons_append, outcome_cons (hd t ht), ih hg]

theorem outcome_content (h : Apart ts rest) (d : Draft) (pos : Position) (mode : WriteMode)
    (path : Expression) :
    (d.goto (.content pos mode path)).outcome (some N) stop ts =
      (d.goto (.content pos mode path)).outcome (some N) stop rest :=
  outcome_apart h fun t ht => by simp [step, goto, inContent, ht]

theorem outcome_target (h : Apart ts rest) (d : Draft) (pos : Position) (path : Expression) :
    (d.goto (.target pos path)).outcome (some N) stop ts =
      (d.goto (.target pos path)).outcome (some N) stop rest :=
  outcome_apart h fun t ht => by simp [step, goto, inTarget, ht]

theorem outcome_names (h : Names xs ts rest) (d : Draft) (pos : Position) (f : String)
    (before : List String) :
    (d.goto (.parameter pos f before)).outcome (some N) stop ts =
      (d.goto (.parameterEnd pos f (before ++ xs))).outcome (some N) stop rest := by
  have first {t : Token} (ht : t.kind = .identifier) (before : List String) :
      (d.goto (.parameter pos f before)).step (some N) t =
        .ok (.more (d.goto (.parameterEnd pos f (before ++ [t.lexeme])))) := by
    simp [step, goto, name, ht]
  induction h generalizing before with
  | last ht => rw [outcome_cons (first ht before)]
  | @more xs ts rest t u ht hu hxs ih =>
    have hcomma : (d.goto (.parameterEnd pos f (before ++ [t.lexeme]))).step (some N) u =
        .ok (.more (d.goto (.parameter pos f (before ++ [t.lexeme])))) := by
      simp [step, goto, hu]
    rw [outcome_cons (first ht before), outcome_cons hcomma, ih, List.append_assoc]
    rfl

theorem outcome_parameters (h : Parameters xs ts (v :: rest)) (hv : v.kind = .rightParen)
    (d : Draft) (pos : Position) (f : String) :
    (d.goto (.firstParameter pos f)).outcome (some N) stop ts =
      (d.goto (.block pos (.function f xs))).outcome (some N) stop rest := by
  rcases h with ⟨rfl, rfl⟩ | h
  · apply outcome_cons
    simp [step, goto, hv]
  · have hclose : (d.goto (.parameterEnd pos f xs)).step (some N) v =
        .ok (.more (d.goto (.block pos (.function f xs)))) := by
      simp [step, goto, punctuation, hv]
    have hnames : (d.goto (.parameter pos f [])).outcome (some N) stop ts = _ :=
      outcome_names h d pos f []
    rw [List.nil_append, outcome_cons hclose] at hnames
    rw [← hnames]
    cases h with
    | last ht | more ht =>
      apply outcome_congr
      simp [step, goto, ht]
      rfl

theorem outcome_arguments (hstop : stop.kind = .endOfInput) (h : Arguments n es ts (v :: rest))
    (hv : v.kind = .rightParen) {d : Draft} (hd : d.blocks.length + n ≤ N) (pos : Position)
    (f : String) :
    (d.goto (.firstStatementArgument pos f)).outcome (some N) stop ts =
      (d.add (.call pos f es)).outcome (some N) stop rest := by
  rcases h with ⟨rfl, rfl⟩ | h
  · apply outcome_cons
    simp [step, goto, hv]
    rfl
  · obtain ⟨init, p, e, hi, hr⟩ := h.isRead hstop d (fun b => ⟨pos, .argument f b, []⟩) []
      (fun _ => hd) fun b p e u hu => by
        rw [step_factor (Token.not_isOperator (by rw [hu]; rfl))]
        simp [closeExpression, fillSlot, hu]
    have hclose : (d.goto (.factor ⟨pos, .argument f init, []⟩ p e)).step (some N) v =
        .ok (.more (d.add (.call pos f es))) := by
      rw [step_factor (Token.not_isOperator (by rw [hv]; rfl))]
      simp [closeExpression, fillSlot, hv, ← hi]
    rw [← outcome_cons hclose, ← hr]
    obtain ⟨t, ts', rfl, ht⟩ := h.first
    have hne : t.kind ≠ .rightParen := by
      rcases ht with ht | ht | ht | ht <;> simp [ht]
    apply outcome_congr
    simp [step, goto, hne]
    rfl

end Draft

/-- Reading a clause takes a draft from the place between statements where it starts to the place
behind it, with its statements added. -/
def Clause.IsRead (N : Nat) (stop : Token) (n : Nat) : Clause → List Token → List Token → Prop
  | .statement s, ts, rest => ∀ d : Draft, d.blocks.length + n ≤ N →
      (∀ t ∈ ts.head?, ¬ t.Closes (closersIn d.blocks)) → Detached rest →
      (d.goto .statement).outcome (some N) stop ts = (d.add s).outcome (some N) stop rest
  | .statements closers ss, ts, rest => ∀ d : Draft, closersIn d.blocks = closers →
      d.blocks.length + n ≤ N → Detached rest →
      (d.goto .statement).outcome (some N) stop ts =
        (ss.foldl Draft.add (d.goto .statement)).outcome (some N) stop rest

section
variable {N n : Nat} {stop t : Token} {ts mid rest : List Token} {d d' : Draft}

theorem Draft.outcome_keyword (hstop : stop.kind = .endOfInput) (ht : t.isKeyword (Keyword.word k))
    (hk : k.phase t.position = .expression ⟨t.position, slot, []⟩)
    (hc : ∀ u ∈ (t :: ts).head?, ¬ u.Closes (closersIn d.blocks)) (hd : d.blocks.length + n ≤ N)
    (he : Phrase.Spells n (.whole e) ts rest) (hr : Detached rest)
    (d' : Draft) (hf : ∀ u, d.fillSlot (some N) t.position slot e u = d'.step (some N) u) :
    (d.goto .statement).outcome (some N) stop (t :: ts) = d'.outcome (some N) stop rest := by
  have hs := Draft.step_keyword ht (hc t rfl) (some N)
  rw [hk] at hs
  rw [Draft.outcome_cons hs]
  exact he.fills hstop hr hd hf

theorem Clause.IsRead.block (h : (Clause.statements closers body).IsRead N stop n mid (t :: rest))
    (header : Header) (hc : header.closers = closers) (hd : d.blocks.length + (n + 1) ≤ N)
    (ht : t.kind = .identifier) (pos : Position) :
    (d.goto (.block pos header)).outcome (some N) stop mid =
      (Draft.mk d.reversed (⟨pos, header, body.reverse⟩ :: d.blocks) .statement).outcome (some N)
        stop (t :: rest) := by
  have hn : (d.openBlock pos header).blocks.length + n ≤ N := by
    simp only [Draft.openBlock, List.length_cons]
    omega
  rw [Draft.outcome_congr (Draft.step_block (by omega) pos header _), ← Draft.openBlock_addAll]
  exact h (d.openBlock pos header) hc hn (.identifier ht rest)

end

theorem Clause.Spells.isRead (hstop : stop.kind = .endOfInput) (h : Clause.Spells n c ts rest) :
    c.IsRead N stop n ts rest := by
  -- The statements of a block are read by a draft that has one block more open.
  induction h with
  | @assign n e ts rest t x q ht hx hq he =>
    intro d hd hc hr
    have hs : (d.goto .statement).step (some N) t =
        .ok (.more (d.goto (.assignName t.position))) := Draft.step_keyword ht (hc t rfl) (some N)
    have hname : (d.goto (.assignName t.position)).step (some N) x =
        .ok (.more (d.goto (.assignEqual t.position x.lexeme))) := by
      simp [Draft.step, Draft.goto, Draft.name, hx]
    have hequal : (d.goto (.assignEqual t.position x.lexeme)).step (some N) q =
        .ok (.more (d.goto (.expression ⟨t.position, .assign x.lexeme, []⟩))) := by
      simp [Draft.step, Draft.goto, Draft.punctuation, hq]
    rw [Draft.outcome_cons hs, Draft.outcome_cons hname, Draft.outcome_cons hequal]
    exact he.fills hstop hr hd fun u => by rw [Draft.step_add]; rfl
  | print ht he | log ht he | delete ht he | giveBack ht he =>
    intro d hd hc hr
    exact Draft.outcome_keyword hstop ht rfl hc hd he hr _ fun u => by rw [Draft.step_add]; rfl
  | @ifThen n c ts mid body u rest t ht hcond hb hu ih =>
    intro d hd hc hr
    have hblock := ih.block (.ifThen c) rfl hd (Token.isKeyword_iff.1 hu).1 t.position
    rw [Draft.outcome_keyword hstop ht rfl hc hd hcond (hb.detached (.keyword hu _))
      (d.goto (.block t.position (.ifThen c))) fun u => rfl,
      hblock, Draft.outcome_cons (Draft.step_end hu ..)]
    simp [OpenBlock.complete, Header.complete]
  | @ifElse n c ts mid body u mid' otherwise v rest t ht hcond hb hu ho hv ihb iho =>
    intro d hd hc hr
    have hthen := ihb.block (.ifThen c) rfl hd (Token.isKeyword_iff.1 hu).1 t.position
    have helse := iho.block (.ifElse c body) rfl hd (Token.isKeyword_iff.1 hv).1 t.position
    rw [Draft.outcome_keyword hstop ht rfl hc hd hcond (hb.detached (.keyword hu _))
      (d.goto (.block t.position (.ifThen c))) fun u => rfl,
      hthen, Draft.outcome_cons (Draft.step_else hu ..), List.reverse_reverse, helse,
      Draft.outcome_cons (Draft.step_end hv ..)]
    simp [OpenBlock.complete, Header.complete]
  | @loop n c ts mid body u rest t ht hcond hb hu ih =>
    intro d hd hc hr
    have hblock := ih.block (.loop c) rfl hd (Token.isKeyword_iff.1 hu).1 t.position
    rw [Draft.outcome_keyword hstop ht rfl hc hd hcond (hb.detached (.keyword hu _))
      (d.goto (.block t.position (.loop c))) fun u => rfl,
      hblock, Draft.outcome_cons (Draft.step_end hu ..)]
    simp [OpenBlock.complete, Header.complete]
  | @write n path ts mid mid' content rest mode t ht hp hm hcontent =>
    intro d hd hc hr
    have hk : mode.keyword.phase t.position = .expression ⟨t.position, .writePath mode, []⟩ := by
      cases mode <;> rfl
    have hf (u : Token) : d.fillSlot (some N) t.position (.writeContent mode path) content u =
        (d.add (.write t.position mode path content)).step (some N) u := by
      rw [Draft.step_add]
      rfl
    rw [Draft.outcome_keyword hstop ht hk hc hd hp (hm.detached hcontent.detached)
      (d.goto (.content t.position mode path)) fun u => rfl, Draft.outcome_content hm,
      ← hcontent.fills hstop hr hd hf]
    obtain ⟨w, ws, rfl, hw⟩ := hcontent.first
    have hne : w.kind ≠ .semicolon := by
      rcases hw with hw | hw | hw | hw <;> simp [hw]
    apply Draft.outcome_congr
    simp [Draft.step, Draft.goto, Draft.inContent, hne]
    rfl
  | @read n path ts mid x rest t ht hp hm hx =>
    intro d hd hc hr
    have hx' : (d.goto (.target t.position path)).step (some N) x =
        .ok (.more (d.add (.read t.position path x.lexeme))) := by
      simp [Draft.step, Draft.goto, Draft.inTarget, hx]
      rfl
    rw [Draft.outcome_keyword hstop ht rfl hc hd hp (hm.detached (.identifier hx rest))
      (d.goto (.target t.position path)) fun u => rfl, Draft.outcome_target hm,
      Draft.outcome_cons hx']
  | @function xs ts v mid n body w rest t f u ht hf hu hxs hv hb hw ih =>
    intro d hd hc hr
    have hs : (d.goto .statement).step (some N) t =
        .ok (.more (d.goto (.functionName t.position))) := Draft.step_keyword ht (hc t rfl) (some N)
    have hname : (d.goto (.functionName t.position)).step (some N) f =
        .ok (.more (d.goto (.functionParen t.position f.lexeme))) := by
      simp [Draft.step, Draft.goto, Draft.name, hf]
    have hparen : (d.goto (.functionParen t.position f.lexeme)).step (some N) u =
        .ok (.more (d.goto (.firstParameter t.position f.lexeme))) := by
      simp [Draft.step, Draft.goto, Draft.punctuation, hu]
    have hblock := ih.block (.function f.lexeme xs) rfl hd (Token.isKeyword_iff.1 hw).1
      t.position
    rw [Draft.outcome_cons hs, Draft.outcome_cons hname, Draft.outcome_cons hparen,
      Draft.outcome_parameters hxs hv, hblock, Draft.outcome_cons (Draft.step_end hw ..)]
    simp [OpenBlock.complete, Header.complete]
  | @call n es ts v rest t u ht hu hes hv =>
    intro d hd hc hr
    have hs : (d.goto .statement).step (some N) t = .ok (.more (d.goto (.callee t))) := by
      rw [Draft.step_statement ht.1 (hc t rfl), Draft.opening_plain ht]
    have hparen : (d.goto (.callee t)).step (some N) u =
        .ok (.more (d.goto (.firstStatementArgument t.position t.lexeme))) := by
      simp [Draft.step, Draft.goto, hu]
    rw [Draft.outcome_cons hs, Draft.outcome_cons hparen,
      Draft.outcome_arguments hstop hes hv hd]
  | nothing => exact fun d hd hn hr => rfl
  | @separator n closers ss ts rest t ht hss ih =>
    intro d hd hn hr
    have hs : (d.goto .statement).step (some N) t = .ok (.more (d.goto .statement)) := by
      simp [Draft.step, Draft.goto, Draft.betweenStatements, ht]
    rw [Draft.outcome_cons hs]
    exact ih d hd hn hr
  | @more n s t ts mid closers ss rest ht hs hss ihs ihss =>
    intro d hd hn hr
    have hc : ∀ u ∈ (t :: ts).head?, ¬ u.Closes (closersIn d.blocks) := by
      intro u hu
      obtain rfl := Option.some.inj hu
      rwa [hd]
    have hrest := ihss (d.add s) ((d.closersIn_add s).trans hd) (by rwa [d.length_add]) hr
    rw [Draft.goto_add] at hrest
    rw [ihs d hn hc (hss.detached hr), hrest]
    rfl

theorem Program.SpelledBy.outcome (hstop : stop.kind = .endOfInput) (h : Program.SpelledBy n p ts) :
    Draft.empty.outcome (some n) stop ts = .ok p := by
  have hread := Clause.Spells.isRead (N := n) hstop h Draft.empty rfl (by simp [Draft.empty])
    (fun u hu => by cases hu)
  have hfold : p.foldl Draft.add (Draft.empty.goto .statement) = ⟨p.reverse, [], .statement⟩ := by
    rw [← List.append_nil p.reverse]
    exact Draft.foldl_add_nil [] p
  rw [hfold] at hread
  refine hread.trans ?_
  simp [Draft.step, Draft.betweenStatements, hstop, Draft.program, Except.map, Progress.program]

end Scriptlet
