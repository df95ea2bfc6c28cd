import Scriptlet.Proofs.Renaming

namespace Scriptlet
set_option autoImplicit true

variable {ρ : String → String}

theorem Keyword.ofName?_respelled (hρ : Respells ρ) (x : String) :
    Keyword.ofName? (ρ x) = Keyword.ofName? x := by
  unfold Keyword.ofName?
  rw [hρ x]

theorem Token.isKeyword_renamed (hρ : Respells ρ) (t : Token) (w : String) :
    (t.renamed ρ).isKeyword w = t.isKeyword w := by
  by_cases ht : t.kind = .identifier
  · simp only [isKeyword, kind_renamed, lexeme_renamed ρ ht, hρ t.lexeme]
  · rw [renamed_eq_self ρ ht]

namespace Pending

theorem asTerm_renamed (p : Pending) (e : Expression) :
    (p.renamed ρ).asTerm (e.renamed ρ) = (p.asTerm e).renamed ρ := by
  obtain ⟨logic, comparison, sum, term⟩ := p
  cases term <;> rfl

theorem asSum_renamed (p : Pending) (e : Expression) :
    (p.renamed ρ).asSum (e.renamed ρ) = (p.asSum e).renamed ρ := by
  unfold asSum
  rw [p.asTerm_renamed]
  obtain ⟨logic, comparison, sum, term⟩ := p
  cases sum <;> rfl

theorem asComparison_renamed (p : Pending) (e : Expression) :
    (p.renamed ρ).asComparison (e.renamed ρ) = (p.asComparison e).renamed ρ := by
  unfold asComparison
  rw [p.asSum_renamed]
  obtain ⟨logic, comparison, sum, term⟩ := p
  cases comparison <;> rfl

theorem asWhole_renamed (p : Pending) (e : Expression) :
    (p.renamed ρ).asWhole (e.renamed ρ) = (p.asWhole e).renamed ρ := by
  unfold asWhole
  rw [p.asComparison_renamed]
  obtain ⟨logic, comparison, sum, term⟩ := p
  cases logic <;> rfl

theorem compare?_renamed (p : Pending) (e : Expression) (op : Comparison) :
    (p.renamed ρ).compare? (e.renamed ρ) op = (p.compare? e op).map (Pending.renamed ρ) := by
  unfold compare?
  rw [p.asSum_renamed]
  obtain ⟨logic, comparison, sum, term⟩ := p
  cases comparison <;> rfl

theorem connect_renamed (p : Pending) (e : Expression) (op : Connective) :
    (p.renamed ρ).connect (e.renamed ρ) op = (p.connect e op).renamed ρ := by
  unfold connect
  rw [p.asWhole_renamed]
  rfl

theorem extend?_renamed (hρ : Respells ρ) (p : Pending) (e : Expression) (t : Token) :
    (p.renamed ρ).extend? (e.renamed ρ) (t.renamed ρ) =
      (p.extend? e t).map (Pending.renamed ρ) := by
  unfold extend?
  simp only [Token.kind_renamed, Token.isKeyword_renamed hρ, asTerm_renamed, asSum_renamed,
    compare?_renamed, connect_renamed]
  split
  any_goals rfl
  split
  · rfl
  split <;> rfl

end Pending

theorem Header.complete_renamed (header : Header) (pos : Position) (ss : List Statement) :
    (header.renamed ρ).complete pos (renamedAll ρ ss) = (header.complete pos ss).renamed ρ := by
  cases header <;> rfl

theorem Header.unclosed_renamed (header : Header) (pos : Position) :
    (header.renamed ρ).unclosed pos = (header.unclosed pos).renamed ρ := by
  cases header <;> rfl

theorem OpenBlock.complete_renamed (b : OpenBlock) :
    (b.renamed ρ).complete = b.complete.renamed ρ := by
  unfold complete
  rw [← Header.complete_renamed, renamedAll_reverse]
  rfl

namespace Draft

variable {limit : Option Nat}

theorem add_renamed (d : Draft) (s : Statement) :
    (d.renamed ρ).add (s.renamed ρ) = (d.add s).renamed ρ := by
  obtain ⟨reversed, blocks, phase⟩ := d
  cases blocks <;> rfl

theorem program_renamed (d : Draft) : (d.renamed ρ).program = renamedAll ρ d.program :=
  (renamedAll_reverse ρ d.reversed).symm

theorem opening_renamed (hρ : Respells ρ) (d : Draft) (t : Token) :
    (d.renamed ρ).opening (t.renamed ρ) = renamedStep ρ (d.opening t) := by
  unfold opening
  by_cases ht : t.kind = .identifier
  · simp only [Token.kind_renamed, Token.position_renamed, Token.lexeme_renamed ρ ht, ht,
      Keyword.ofName?_respelled hρ, ne_eq, not_true_eq_false, if_false]
    cases Keyword.ofName? t.lexeme with
    | none => rfl
    | some k => cases k <;> rfl
  · rw [Token.kind_renamed, if_pos ht, if_pos ht]
    rfl

theorem betweenStatements_renamed (hρ : Respells ρ) (d : Draft) (t : Token) :
    (d.renamed ρ).betweenStatements (t.renamed ρ) = renamedStep ρ (d.betweenStatements t) := by
  have hopening := d.opening_renamed hρ t
  obtain ⟨reversed, blocks, phase⟩ := d
  unfold betweenStatements
  simp only [Token.kind_renamed, Token.isKeyword_renamed hρ]
  split
  · rfl
  cases blocks with
  | nil =>
    simp only [renamed, List.map_nil]
    split
    · exact congrArg (Except.ok ∘ Progress.finished) (program_renamed ⟨reversed, [], phase⟩)
    · exact hopening
  | cons b outer =>
    simp only [renamed, List.map_cons]
    split
    · exact congrArg Except.error (b.header.unclosed_renamed b.pos)
    split
    · rw [OpenBlock.complete_renamed]
      exact congrArg (Except.ok ∘ Progress.more) (add_renamed ⟨reversed, outer, .statement⟩ _)
    obtain ⟨pos, header, body⟩ := b
    cases header with
    | ifThen c =>
      dsimp only [OpenBlock.renamed, Header.renamed]
      split
      · simp only [renamedStep, Progress.renamed, renamed, Phase.renamed, Header.renamed,
          renamedAll_reverse]
      · exact hopening
    | _ => exact hopening

theorem checkDepth_renamed {g g' : Except SyntaxError Progress} (h : g' = renamedStep ρ g)
    (depth : Nat) (t : Token) : (checkDepth limit depth (t.renamed ρ) >>= fun _ => g') =
      renamedStep ρ (checkDepth limit depth t >>= fun _ => g) := by
  subst h
  unfold checkDepth
  cases limit with
  | none => rfl
  | some N =>
    dsimp only
    rw [Token.position_renamed]
    split <;> rfl

theorem inBlock_renamed (hρ : Respells ρ) (d : Draft) (pos : Position) (header : Header)
    (t : Token) : (d.renamed ρ).inBlock limit pos (header.renamed ρ) (t.renamed ρ) =
      renamedStep ρ (d.inBlock limit pos header t) := by
  unfold inBlock
  rw [show (d.renamed ρ).blocks.length = d.blocks.length from List.length_map ..]
  exact checkDepth_renamed (betweenStatements_renamed hρ (d.openBlock pos header) t) ..

theorem operand_renamed (d : Draft) (site : Site) (p : Pending) (t : Token) :
    (d.renamed ρ).operand (site.renamed ρ) (p.renamed ρ) (t.renamed ρ) =
      renamedStep ρ (d.operand site p t) := by
  unfold operand
  rw [Token.kind_renamed]
  split
  · rfl
  · rename_i ht
    rw [Token.renamed_eq_self ρ (by simp [ht])]
    rfl
  · rename_i ht
    rw [Token.renamed_eq_self ρ (by simp [ht])]
    rfl
  · rename_i ht
    rw [Token.lexeme_renamed ρ ht]
    rfl
  · rfl

theorem inExpression_renamed (d : Draft) (site : Site) (t : Token) :
    (d.renamed ρ).inExpression limit (site.renamed ρ) (t.renamed ρ) =
      renamedStep ρ (d.inExpression limit site t) := by
  unfold inExpression
  rw [show (d.renamed ρ).blocks.length = d.blocks.length from List.length_map ..,
    show (site.renamed ρ).enclosures.length = site.enclosures.length from List.length_map ..]
  exact checkDepth_renamed (d.operand_renamed site .empty t) ..

theorem inContent_renamed (d : Draft) (pos : Position) (mode : WriteMode) (path : Expression)
    (t : Token) : (d.renamed ρ).inContent limit pos mode (path.renamed ρ) (t.renamed ρ) =
      renamedStep ρ (d.inContent limit pos mode path t) := by
  unfold inContent
  rw [Token.kind_renamed]
  split
  · rfl
  · exact d.inExpression_renamed ⟨pos, .writeContent mode path, []⟩ t

theorem inTarget_renamed (d : Draft) (pos : Position) (path : Expression) (t : Token) :
    (d.renamed ρ).inTarget pos (path.renamed ρ) (t.renamed ρ) =
      renamedStep ρ (d.inTarget pos path t) := by
  unfold inTarget
  rw [Token.kind_renamed]
  split
  · rfl
  split
  · rename_i ht
    rw [Token.lexeme_renamed ρ ht]
    exact congrArg (Except.ok ∘ Progress.more) (d.add_renamed (.read pos path t.lexeme))
  · rfl

theorem fillSlot_renamed (hρ : Respells ρ) (d : Draft) (pos : Position) (slot : Slot)
    (e : Expression) (t : Token) :
    (d.renamed ρ).fillSlot limit pos (slot.renamed ρ) (e.renamed ρ) (t.renamed ρ) =
      renamedStep ρ (d.fillSlot limit pos slot e t) := by
  have hadd (s : Statement) : ((d.renamed ρ).add (s.renamed ρ)).betweenStatements (t.renamed ρ) =
      renamedStep ρ ((d.add s).betweenStatements t) := by
    rw [add_renamed]
    exact (d.add s).betweenStatements_renamed hρ t
  cases slot with
  | ifCondition => exact d.inBlock_renamed hρ pos (.ifThen e) t
  | loopCondition => exact d.inBlock_renamed hρ pos (.loop e) t
  | writePath mode => exact d.inContent_renamed pos mode e t
  | readPath => exact d.inTarget_renamed pos e t
  | argument f before =>
    unfold fillSlot
    dsimp only [Slot.renamed]
    rw [Token.kind_renamed, ← renamedEach_concat]
    split
    · rfl
    · exact congrArg (Except.ok ∘ Progress.more) (d.add_renamed (.call pos f (before ++ [e])))
    · rfl
  | assign x => exact hadd (.assign pos x e)
  | print => exact hadd (.print pos e)
  | log => exact hadd (.log pos e)
  | writeContent mode path => exact hadd (.write pos mode path e)
  | deletePath => exact hadd (.delete pos e)
  | giveBack => exact hadd (.giveBack pos e)

theorem closeExpression_renamed (hρ : Respells ρ) (d : Draft) (site : Site) (e : Expression)
    (t : Token) : (d.renamed ρ).closeExpression limit (site.renamed ρ) (e.renamed ρ)
      (t.renamed ρ) = renamedStep ρ (d.closeExpression limit site e t) := by
  obtain ⟨pos, slot, enclosures⟩ := site
  unfold closeExpression
  cases enclosures with
  | nil => exact d.fillSlot_renamed hρ pos slot e t
  | cons enclosure rest =>
    cases enclosure with
    | parens outer =>
      simp only [Site.renamed, List.map_cons, Enclosure.renamed]
      rw [Token.kind_renamed]
      split <;> rfl
    | argument outer f before =>
      simp only [Site.renamed, List.map_cons, Enclosure.renamed]
      rw [Token.kind_renamed, ← renamedEach_concat]
      split <;> rfl

theorem afterFactor_renamed (hρ : Respells ρ) (d : Draft) (site : Site) (p : Pending)
    (e : Expression) (t : Token) :
    (d.renamed ρ).afterFactor limit (site.renamed ρ) (p.renamed ρ) (e.renamed ρ) (t.renamed ρ) =
      renamedStep ρ (d.afterFactor limit site p e t) := by
  unfold afterFactor
  rw [p.extend?_renamed hρ]
  cases p.extend? e t with
  | some q => rfl
  | none =>
    dsimp only [Option.map_none]
    rw [p.asWhole_renamed]
    exact d.closeExpression_renamed hρ site (p.asWhole e) t

theorem name_renamed (d : Draft) (expected : String) (t : Token) (next next' : String → Phase)
    (h : ∀ x, next' (ρ x) = (next x).renamed ρ) :
    (d.renamed ρ).name expected (t.renamed ρ) next' = renamedStep ρ (d.name expected t next) := by
  unfold name
  rw [Token.kind_renamed]
  split
  · rename_i ht
    rw [Token.lexeme_renamed ρ ht, h]
    rfl
  · rfl

theorem punctuation_renamed (d : Draft) (kind : TokenKind) (expected : String) (t : Token)
    (next : Phase) : (d.renamed ρ).punctuation kind expected (t.renamed ρ) (next.renamed ρ) =
      renamedStep ρ (d.punctuation kind expected t next) := by
  unfold punctuation
  rw [Token.kind_renamed]
  split <;> rfl

/-- What waits for the parenthesis of a call statement is a name. -/
def CallsName (d : Draft) : Prop :=
  ∀ start, d.phase = .callee start → start.kind = .identifier

/-- What one token makes of a draft it makes in every spelling, with that spelling. -/
theorem step_renamed (hρ : Respells ρ) {d : Draft} (hd : d.CallsName) (t : Token) :
    (d.renamed ρ).step limit (t.renamed ρ) = renamedStep ρ (d.step limit t) := by
  unfold step renamed
  cases hp : d.phase with
  | statement => exact d.betweenStatements_renamed hρ t
  | callee start =>
    simp only [Phase.renamed, Token.kind_renamed, Token.position_renamed,
      Token.lexeme_renamed ρ (hd start hp)]
    split <;> rfl
  | firstStatementArgument pos f =>
    simp only [Phase.renamed, Token.kind_renamed]
    split
    · exact congrArg (Except.ok ∘ Progress.more) (d.add_renamed (.call pos f []))
    · exact d.inExpression_renamed ⟨pos, .argument f [], []⟩ t
  | assignName pos =>
    exact d.name_renamed "variable name" t (.assignEqual pos) (.assignEqual pos) fun _ => rfl
  | assignEqual pos x =>
    exact d.punctuation_renamed .equal "'='" t (.expression ⟨pos, .assign x, []⟩)
  | functionName pos =>
    exact d.name_renamed "function name" t (.functionParen pos) (.functionParen pos) fun _ => rfl
  | functionParen pos f => exact d.punctuation_renamed .leftParen "'('" t (.firstParameter pos f)
  | firstParameter pos f =>
    simp only [Phase.renamed, Token.kind_renamed]
    split
    · rfl
    · exact d.name_renamed "parameter name" t (fun x => .parameterEnd pos f [x])
        (fun x => .parameterEnd pos (ρ f) [x]) fun _ => rfl
  | parameter pos f before =>
    refine d.name_renamed "parameter name" t (fun x => .parameterEnd pos f (before ++ [x]))
      (fun x => .parameterEnd pos (ρ f) (before.map ρ ++ [x])) fun x => ?_
    rw [Phase.renamed, List.map_append, List.map_singleton]
  | parameterEnd pos f xs =>
    simp only [Phase.renamed, Token.kind_renamed]
    split
    · rfl
    · exact d.punctuation_renamed .rightParen "')'" t (.block pos (.function f xs))
  | block pos header => exact d.inBlock_renamed hρ pos header t
  | content pos mode path => exact d.inContent_renamed pos mode path t
  | target pos path => exact d.inTarget_renamed pos path t
  | expression site => exact d.inExpression_renamed site t
  | operand site p => exact d.operand_renamed site p t
  | name site p x =>
    simp only [Phase.renamed, Token.kind_renamed]
    split
    · rfl
    · exact d.afterFactor_renamed hρ site p (.var x) t
  | firstArgument site p f =>
    simp only [Phase.renamed, Token.kind_renamed]
    split
    · rfl
    · exact d.inExpression_renamed
        { site with enclosures := .argument p f [] :: site.enclosures } t
  | numeral site p n =>
    simp only [Phase.renamed]
    split
    · exact d.afterFactor_renamed hρ site p (.number _) t
    · rfl
  | factor site p e => exact d.afterFactor_renamed hρ site p e t

end Draft

end Scriptlet
