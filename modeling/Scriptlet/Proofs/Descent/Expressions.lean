import Scriptlet.Proofs.Grammar.Steps
import Scriptlet.Proofs.Descent.Following

namespace Scriptlet
set_option autoImplicit true

namespace Pending

/-- How an expression goes on behind a factor, the tightest operators first. -/
theorem extend?_eq (p : Pending) (e : Expression) (t : Token) :
    p.extend? e t =
      match t.termOperator?, t.sumOperator?, t.comparison? with
      | some op, _, _ => some { p with term := some (p.asTerm e, op) }
      | none, some op, _ => some { p with sum := some (p.asSum e, op), term := none }
      | none, none, some op => p.compare? e op
      | none, none, none => t.connective?.map (p.connect e) := by
  obtain ⟨kind, lexeme, pos⟩ := t
  cases kind with
  | identifier =>
    simp only [extend?, Token.termOperator?, Token.sumOperator?, Token.comparison?,
      Token.connective?]
    split
    · rfl
    · split <;> rfl
  | _ => rfl

theorem extend?_product (p : Pending) (a b : Expression) (op : Arithmetic) (t : Token) :
    extend? { p with term := some (a, op) } b t =
      extend? { p with term := none } (.binary (.arithmetic op) a b) t := by
  rw [extend?_eq, extend?_eq]
  rfl

theorem extend?_total (p : Pending) (a b : Expression) (op : Arithmetic) {t : Token}
    (ht : t.termOperator? = none) : extend? { p with sum := some (a, op), term := none } b t =
      extend? { p with sum := none, term := none } (.binary (.arithmetic op) a b) t := by
  rw [extend?_eq, extend?_eq, ht]
  cases t.sumOperator? with
  | some op => rfl
  | none => cases t.comparison? <;> rfl

theorem extend?_compared {p : Pending} (e : Expression) {t : Token}
    (hterm : t.termOperator? = none) (hsum : t.sumOperator? = none)
    (hp : p.comparison = none → t.comparison? = none) :
    p.extend? e t = t.connective?.map (p.connect e) := by
  rw [extend?_eq, hterm, hsum]
  cases hc : t.comparison? with
  | none => rfl
  | some op =>
    have hnone : t.connective? = none := by
      obtain ⟨kind, lexeme, pos⟩ := t
      cases kind <;> first | rfl | cases hc
    obtain ⟨logic, _ | left, sum, term⟩ := p
    · rw [hp rfl] at hc
      cases hc
    · rw [hnone]
      rfl

end Pending

namespace Draft

def closing (limit : Nat) (d : Draft) (site : Site) (e : Expression) : Reader :=
  ⟨d.closeExpression (some limit) site e, d.closeOpens site⟩

def connecting (limit : Nat) (d : Draft) (site : Site) (left : Option (Expression × Connective))
    (e : Expression) : Reader where
  step t :=
    match t.connective? with
    | some op =>
      .ok (.more (d.goto (.operand site ⟨some (Pending.joinLogic left e, op), none, none, none⟩)))
    | none => (d.closing limit site (Pending.joinLogic left e)).step t
  opens t :=
    match t.connective? with
    | some _ => none
    | none => (d.closing limit site (Pending.joinLogic left e)).opens t

/-- The reader behind the arguments `es` of a call, the last of which may not be complete. -/
def listing (d : Draft) (place : List Expression → Site) (finish : List Expression → Draft)
    (es : List Expression) : Reader where
  step t :=
    match t.kind with
    | .comma => .ok (.more (d.goto (.expression (place es))))
    | .rightParen => .ok (.more (finish es))
    | _ => .error (.unexpectedToken "')' or ','" t)
  opens _ := none

section
variable {p : Pending} {e : Expression} {t : Token} (limit : Nat) (d : Draft) (site : Site)

theorem reader_factor_some (h : p.extend? e t = some q) :
    ((d.goto (.factor site p e)).reader limit).step t = .ok (.more (d.goto (.operand site q))) ∧
      ((d.goto (.factor site p e)).reader limit).opens t = none := by
  simp only [reader, step, opens?, goto, afterFactor, factorOpens, h, and_self]

theorem reader_factor_none (h : p.extend? e t = none) :
    ((d.goto (.factor site p e)).reader limit).step t =
        (d.closing limit site (p.asWhole e)).step t ∧
      ((d.goto (.factor site p e)).reader limit).opens t =
        (d.closing limit site (p.asWhole e)).opens t := by
  simp only [reader, step, opens?, goto, afterFactor, factorOpens, h]
  exact ⟨rfl, rfl⟩

theorem outcome_factor_congr {p' : Pending} {e' : Expression} {c : Cursor}
    (hextend : p.extend? e c.current = p'.extend? e' c.current)
    (hwhole : p.asWhole e = p'.asWhole e') :
    c.outcome limit ((d.goto (.factor site p e)).reader limit) =
      c.outcome limit ((d.goto (.factor site p' e')).reader limit) := by
  cases h : p'.extend? e' c.current with
  | some q =>
    obtain ⟨hs, ho⟩ := reader_factor_some limit d site (hextend.trans h)
    obtain ⟨hs', ho'⟩ := reader_factor_some limit d site h
    exact Cursor.outcome_congr (hs.trans hs'.symm) (ho.trans ho'.symm) limit
  | none =>
    obtain ⟨hs, ho⟩ := reader_factor_none limit d site (hextend.trans h)
    obtain ⟨hs', ho'⟩ := reader_factor_none limit d site h
    rw [hwhole] at hs ho
    exact Cursor.outcome_congr (hs.trans hs'.symm) (ho.trans ho'.symm) limit

theorem outcome_compared {c : Cursor} {left : Option (Expression × Connective)}
    (hp : p.logic = left)
    (hextend : p.extend? e c.current = c.current.connective?.map (p.connect e)) :
    c.outcome limit ((d.goto (.factor site p e)).reader limit) =
      c.outcome limit (d.connecting limit site left (p.asComparison e)) := by
  subst hp
  cases hop : c.current.connective? with
  | some op =>
    rw [hop] at hextend
    obtain ⟨hs, ho⟩ := reader_factor_some limit d site hextend
    refine Cursor.outcome_congr (hs.trans ?_) (ho.trans ?_) limit
    · simp only [connecting, hop]
      rfl
    · simp only [connecting, hop]
  | none =>
    rw [hop] at hextend
    obtain ⟨hs, ho⟩ := reader_factor_none limit d site hextend
    refine Cursor.outcome_congr (hs.trans ?_) (ho.trans ?_) limit
    · simp only [connecting, hop]
      rfl
    · simp only [connecting, hop]
      rfl

end

end Draft

namespace Descent

/-- The descent `x` reads the expressions that are due in a draft, if `n` levels at most can open
beyond those that are counted. -/
def ReadsExpressions (limit n : Nat) (x : Descent Expression) : Prop :=
  ∀ (out : Reading × List Opening) (d : Draft) (site : Site) (c : Cursor),
    c.depth = d.blocks.length + site.enclosures.length → limit ≤ c.depth + n →
    c.outcome limit ((d.goto (.expression site)).reader limit) = out →
    x.Yields out c fun e c' => c'.outcome limit (d.closing limit site e) = out

section
variable {limit n : Nat} {inner : Descent Expression} {out : Reading × List Opening} {d : Draft}
  {site : Site} {p : Pending} {c : Cursor} {r : Reader}

theorem callArguments_yields (hinner : ReadsExpressions limit n inner) (d d₀ : Draft)
    (place : List Expression → Site) (finish : List Expression → Draft)
    (hplace : ∀ es, c.depth = d.blocks.length + (place es).enclosures.length)
    (hn : limit ≤ c.depth + n)
    (hclosing : ∀ before e,
      d.closing limit (place before) e = d.listing place finish (before ++ [e]))
    (hempty : ∀ t, t.kind = .rightParen →
      (d₀.reader limit).step t = .ok (.more (finish [])) ∧ (d₀.reader limit).opens t = none)
    (hfirst : ∀ t, t.kind ≠ .rightParen →
      (d₀.reader limit).step t = ((d.goto (.expression (place []))).reader limit).step t ∧
        (d₀.reader limit).opens t = ((d.goto (.expression (place []))).reader limit).opens t)
    (hc : c.current.kind = .leftParen) (h : c.outcome limit r = out)
    (hs : r.step c.current = .ok (.more d₀)) (ho : r.opens c.current = none) :
    (callArguments inner).Yields out c fun es c' =>
      c'.outcome limit ((finish es).reader limit) = out := by
  refine (Yields.expect h (by decide) (hs.trans (if_pos hc).symm) ho).next fun c₁ hd₁ _ h₁ => ?_
  let due (es : List Expression) : Reader := (d.goto (.expression (place es))).reader limit
  refine (Yields.list limit due (d.listing place finish) ?_ ?_ ?_ ?_).bind
    fun es c₂ _ _ h₂ => ?_
  · intro hk
    obtain ⟨hs₁, ho₁⟩ := hempty _ hk
    refine Eq.trans (Cursor.outcome_congr ?_ ?_ limit) h₁
    · simp [Draft.listing, hk, hs₁]
    · exact ho₁.symm
  · intro hk
    obtain ⟨hs₁, ho₁⟩ := hfirst _ hk
    exact (Cursor.outcome_congr hs₁ ho₁ limit).symm.trans h₁
  · intro before c₂ hd₂ h₂
    have hd₂ := hd₂.trans hd₁
    refine (hinner out d (place before) c₂ (hd₂.trans (hplace before)) (hd₂ ▸ hn) h₂).imp ?_
    intro e c₃ h₃
    exact (congrArg (c₃.outcome limit) (hclosing before e)).symm.trans h₃
  · intro before t ht
    exact ⟨d.goto (.expression (place before)), by simp [Draft.listing, ht], rfl, rfl⟩
  · have hs₂ : (d.listing place finish es).step c₂.current =
        if c₂.current.kind = .rightParen then .ok (.more (finish es)) else
          .error (.unexpectedToken "')' or ','" c₂.current) := by
      cases hk : c₂.current.kind <;> simp_all [Draft.listing]
    exact (Yields.expect h₂.2 (by decide) hs₂ rfl).next fun _ _ _ h₃ => h₃

theorem factor_yields (hinner : ReadsExpressions limit n inner)
    (hd : c.depth = d.blocks.length + site.depth) (hn : limit ≤ c.depth + n)
    (h : c.outcome limit ((d.goto (.operand site p)).reader limit) = out) :
    (factor inner).Yields out c fun e c' =>
      c'.outcome limit ((d.goto (.factor site p e)).reader limit) = out := by
  apply Yields.peek
  cases hk : c.current.kind with
  | leftParen =>
    have hs := Draft.step_operand_parens hk (some limit) d site p
    let inside : Site := { site with enclosures := .parens p :: site.enclosures }
    refine (Yields.take h (by simp [hk]) hs rfl).next fun c₁ hd₁ _ h₁ => ?_
    refine (hinner out d inside c₁ (hd₁.trans hd) (hd₁ ▸ hn) h₁).bind fun e c₂ _ _ h₂ => ?_
    exact (Yields.expect h₂ (by decide) rfl rfl).next fun _ _ _ h₃ => h₃
  | string =>
    have hs := Draft.step_operand_string hk (some limit) d site p
    refine (Yields.take h (by simp [hk]) hs rfl).next fun c₁ _ _ h₁ => ?_
    exact h₁
  | number =>
    have hs := Draft.step_operand_number hk (some limit) d site p
    refine (Yields.take h (by simp [hk]) hs rfl).next fun c₁ _ _ h₁ => ?_
    cases hv : Integer.ofNumeral? c.current.lexeme with
    | none =>
      refine Yields.fail h₁ ?_ ?_ <;> simp [Draft.reader, Draft.step, Draft.opens?, Draft.goto, hv]
    | some v =>
      refine Eq.trans (Cursor.outcome_congr ?_ ?_ limit) h₁ <;>
        simp only [Draft.reader, Draft.step, Draft.opens?, Draft.goto, hv] <;> rfl
  | identifier =>
    have hs := Draft.step_operand_name hk (some limit) d site p
    refine (Yields.take h (by simp [hk]) hs rfl).next fun c₁ hd₁ _ h₁ => ?_
    apply Yields.peek
    split
    · rename_i hparen
      let f := c.current.lexeme
      let place (es : List Expression) : Site :=
        { site with enclosures := .argument p f es :: site.enclosures }
      let finish (es : List Expression) : Draft := d.goto (.factor site p (.call f es))
      have hs₁ := Draft.step_name_paren hparen (some limit) d site p f
      have ho₁ : ((d.goto (.name site p f)).reader limit).opens c₁.current = none := by
        simp [Draft.reader, Draft.opens?, Draft.goto, hparen]
      refine (callArguments_yields hinner d (d.goto (.firstArgument site p f)) place finish
        (fun _ => hd₁.trans hd) (hd₁ ▸ hn) (fun _ _ => rfl) ?_ ?_ hparen h₁ hs₁ ho₁).bind
        fun es c₂ _ _ h₂ => h₂
      · intro t ht
        refine ⟨Draft.step_firstArgument_paren ht (some limit) d site p f, ?_⟩
        simp [Draft.reader, Draft.opens?, Draft.goto, ht]
      · intro t ht
        refine ⟨Draft.step_firstArgument ht (some limit) d site p f, ?_⟩
        simp [Draft.reader, Draft.opens?, Draft.goto, ht, place, Site.depth]
    · rename_i hparen
      have hs₁ := Draft.step_name hparen (some limit) d site p c.current.lexeme
      refine Eq.trans (Cursor.outcome_congr hs₁.symm ?_ limit) h₁
      simp only [Draft.reader, Draft.opens?, Draft.goto, if_neg hparen]
      rfl
  | _ => exact .unexpected h (by simp [Draft.reader, Draft.step, Draft.goto, Draft.operand, hk]) rfl

theorem term_yields (hinner : ReadsExpressions limit n inner)
    (hd : c.depth = d.blocks.length + site.depth) (hn : limit ≤ c.depth + n)
    (h : c.outcome limit ((d.goto (.operand site { p with term := none })).reader limit) = out) :
    (term inner).Yields out c fun e c' => c'.current.termOperator? = none ∧
      c'.outcome limit ((d.goto (.factor site { p with term := none } e)).reader limit) = out := by
  let due (left : Option (Expression × Arithmetic)) : Reader :=
    (d.goto (.operand site { p with term := left })).reader limit
  let behind (left : Option (Expression × Arithmetic)) (e : Expression) : Reader :=
    (d.goto (.factor site { p with term := left } e)).reader limit
  refine (Yields.chain limit (fun _ => True) due behind h ?_ ?_ ?_).imp
    fun e c' h' => ⟨h'.1, h'.2.2⟩
  · intro left c₁ hd₁ h₁
    exact (factor_yields hinner (hd₁.trans hd) (hd₁ ▸ hn) h₁).imp fun e c' h' => ⟨trivial, h'⟩
  · intro a op b c' _
    exact Draft.outcome_factor_congr limit d site (p.extend?_product a b op _) rfl
  · intro a op t _ hop
    have hextend : Pending.extend? { p with term := none } a t =
        some { p with term := some (a, op) } := by
      rw [Pending.extend?_eq, hop]
      rfl
    refine ⟨fun hk => by simp [Token.termOperator?, hk] at hop, _, ?_, ?_, rfl⟩
    · exact (Draft.reader_factor_some limit d site hextend).1
    · exact (Draft.reader_factor_some limit d site hextend).2

theorem sum_yields (hinner : ReadsExpressions limit n inner)
    (hd : c.depth = d.blocks.length + site.depth) (hn : limit ≤ c.depth + n)
    (h : c.outcome limit
      ((d.goto (.operand site { p with sum := none, term := none })).reader limit) = out) :
    (sum inner).Yields out c fun e c' => c'.current.termOperator? = none ∧
      c'.current.sumOperator? = none ∧ c'.outcome limit
        ((d.goto (.factor site { p with sum := none, term := none } e)).reader limit) = out := by
  let due (left : Option (Expression × Arithmetic)) : Reader :=
    (d.goto (.operand site { p with sum := left, term := none })).reader limit
  let behind (left : Option (Expression × Arithmetic)) (e : Expression) : Reader :=
    (d.goto (.factor site { p with sum := left, term := none } e)).reader limit
  refine (Yields.chain limit (fun t => t.termOperator? = none) due behind h ?_ ?_ ?_).imp
    fun e c' h' => ⟨h'.2.1, h'.1, h'.2.2⟩
  · intro left c₁ hd₁ h₁
    exact term_yields (p := { p with sum := left }) hinner (hd₁.trans hd) (hd₁ ▸ hn) h₁
  · intro a op b c' hterm
    exact Draft.outcome_factor_congr limit d site (p.extend?_total a b op hterm) rfl
  · intro a op t hterm hop
    have hextend : Pending.extend? { p with sum := none, term := none } a t =
        some { p with sum := some (a, op), term := none } := by
      rw [Pending.extend?_eq, hterm, hop]
      rfl
    refine ⟨fun hk => by simp [Token.sumOperator?, hk] at hop, _, ?_, ?_, rfl⟩
    · exact (Draft.reader_factor_some limit d site hextend).1
    · exact (Draft.reader_factor_some limit d site hextend).2

theorem comparison_yields (hinner : ReadsExpressions limit n inner)
    (left : Option (Expression × Connective)) (hd : c.depth = d.blocks.length + site.depth)
    (hn : limit ≤ c.depth + n)
    (h : c.outcome limit ((d.goto (.operand site ⟨left, none, none, none⟩)).reader limit) = out) :
    (comparison inner).Yields out c fun e c' =>
      c'.outcome limit (d.connecting limit site left e) = out := by
  refine (sum_yields (p := ⟨left, none, none, none⟩) hinner hd hn h).bind
    fun a c₁ hd₁ _ h₁ => ?_
  obtain ⟨hterm, hsum, h₁⟩ := h₁
  apply Yields.peek
  cases hop : c₁.current.comparison? with
  | none =>
    have hextend := Pending.extend?_compared (p := ⟨left, none, none, none⟩) a hterm hsum
      fun _ => hop
    exact (Draft.outcome_compared limit d site rfl hextend).symm.trans h₁
  | some op =>
    have hextend : Pending.extend? ⟨left, none, none, none⟩ a c₁.current =
        some ⟨left, some (a, op), none, none⟩ := by
      rw [Pending.extend?_eq, hterm, hsum, hop]
      rfl
    obtain ⟨hs, ho⟩ := Draft.reader_factor_some limit d site hextend
    have hk : c₁.current.kind ≠ .endOfInput := fun hk => by simp [Token.comparison?, hk] at hop
    refine (Yields.take h₁ hk hs ho).next fun c₂ hd₂ _ h₂ => ?_
    have hd₂ := hd₂.trans hd₁
    refine (sum_yields (p := ⟨left, some (a, op), none, none⟩) hinner (hd₂.trans hd) (hd₂ ▸ hn)
      h₂).bind fun b c₃ _ _ h₃ => ?_
    obtain ⟨hterm₃, hsum₃, h₃⟩ := h₃
    have hextend₃ := Pending.extend?_compared (p := ⟨left, some (a, op), none, none⟩) b hterm₃ hsum₃
      fun hnone => by cases hnone
    exact (Draft.outcome_compared limit d site rfl hextend₃).symm.trans h₃

theorem logic_yields (hinner : ReadsExpressions limit n inner)
    (hd : c.depth = d.blocks.length + site.depth) (hn : limit ≤ c.depth + n)
    (h : c.outcome limit ((d.goto (.operand site .empty)).reader limit) = out) :
    (logic inner).Yields out c fun e c' => c'.outcome limit (d.closing limit site e) = out := by
  let due (left : Option (Expression × Connective)) : Reader :=
    (d.goto (.operand site ⟨left, none, none, none⟩)).reader limit
  refine (Yields.chain limit (fun _ => True) due (d.connecting limit site) h ?_ ?_ ?_).imp
    fun e c' h' => ?_
  · intro left c₁ hd₁ h₁
    exact (comparison_yields hinner left (hd₁.trans hd) (hd₁ ▸ hn) h₁).imp
      fun e c' h' => ⟨trivial, h'⟩
  · intro a op b c' _
    rfl
  · intro a op t _ hop
    refine ⟨fun hk => ?_, d.goto (.operand site ⟨some (a, op), none, none, none⟩), ?_, ?_, rfl⟩
    · simp [Token.connective?, Token.not_isKeyword, hk] at hop
    · simp only [Draft.connecting, hop]
      rfl
    · simp only [Draft.connecting, hop]
  · obtain ⟨hop, -, h'⟩ := h'
    refine Eq.trans (Cursor.outcome_congr ?_ ?_ limit) h'
    · simp only [Draft.connecting, hop]
      rfl
    · simp only [Draft.connecting, hop]
      rfl

theorem nested_yields (hd : c.depth = d.blocks.length + site.enclosures.length)
    (h : c.outcome limit ((d.goto (.expression site)).reader limit) = out)
    (hinner : ∀ c', c'.depth = c.depth + 1 → c.depth < limit →
      c'.outcome limit ((d.goto (.operand site .empty)).reader limit) = out →
      inner.Yields out c' fun e c'' => c''.outcome limit (d.closing limit site e) = out) :
    (nested limit inner).Yields out c fun e c' =>
      c'.outcome limit (d.closing limit site e) = out := by
  let inside : Reader := (d.goto (.operand site .empty)).reader limit
  have hinside : c.outcome limit ⟨fun t => Draft.checkDepth (some limit) c.depth t >>= fun _ =>
      inside.step t, fun _ => some c.depth⟩ = out := by
    rw [hd]
    exact h
  exact Yields.nested inside hinside rfl fun c' hd' _ h' hlt => hinner c' hd' hlt h'

/-- The expressions of the descent are those of the drafts, with a level counted for each that is
open there. -/
theorem expressionIn_reads (limit n : Nat) : ReadsExpressions limit n (expressionIn limit n) := by
  induction n with
  | zero =>
    -- No level is left, so the one that opens is refused.
    intro out d site c hd hn h
    exact nested_yields hd h fun c' _ hlt _ => absurd hn (Nat.not_le_of_lt hlt)
  | succ n ih =>
    intro out d site c hd hn h
    refine nested_yields hd h fun c' hd' _ h' => logic_yields ih ?_ ?_ h'
    · rw [hd', hd, Nat.add_assoc]
      rfl
    · omega

end

end Descent

end Scriptlet
