import Scriptlet.Proofs.Grammar.Steps

namespace Scriptlet
set_option autoImplicit true

def Phase.levels : Phase → Nat
  | .expression site => site.enclosures.length
  | .operand site _ | .name site _ _ | .firstArgument site _ _ | .numeral site _ _
  | .factor site _ _ => site.depth
  | _ => 0

/-- So many levels may be open. -/
def Allows (limit : Option Nat) (level : Nat) : Prop :=
  ∀ N ∈ limit, level ≤ N

theorem Allows.mono (h : Allows limit level) (hle : level' ≤ level) : Allows limit level' :=
  fun N hN => Nat.le_trans hle (h N hN)

namespace Draft

def levels (d : Draft) : Nat :=
  d.blocks.length + d.phase.levels

/-- The draft whose statement goes on behind the expression in a slot; behind an argument the
statement does not go on yet. -/
def fill? (d : Draft) (pos : Position) (e : Expression) : Slot → Option Draft
  | .assign x => some (d.add (.assign pos x e))
  | .print => some (d.add (.print pos e))
  | .log => some (d.add (.log pos e))
  | .ifCondition => some (d.goto (.block pos (.ifThen e)))
  | .loopCondition => some (d.goto (.block pos (.loop e)))
  | .writePath mode => some (d.goto (.content pos mode e))
  | .writeContent mode path => some (d.add (.write pos mode path e))
  | .readPath => some (d.goto (.target pos e))
  | .deletePath => some (d.add (.delete pos e))
  | .giveBack => some (d.add (.giveBack pos e))
  | .argument _ _ => none

/-- At the token `t`, the draft goes on in a phase as another draft does, without taking `t`. -/
inductive Passes (limit : Option Nat) (t : Token) (d : Draft) : Phase → Draft → Prop
  | block (h : Allows limit (d.blocks.length + 1)) :
      Passes limit t d (.block pos header) (d.openBlock pos header)
  | expression {site : Site} (h : Allows limit (d.blocks.length + site.depth)) :
      Passes limit t d (.expression site) (d.goto (.operand site .empty))
  | content (ht : t.kind ≠ .semicolon) : Passes limit t d (.content pos mode path)
      (d.goto (.expression ⟨pos, .writeContent mode path, []⟩))
  | firstStatementArgument (ht : t.kind ≠ .rightParen) :
      Passes limit t d (.firstStatementArgument pos f)
        (d.goto (.expression ⟨pos, .argument f [], []⟩))
  | firstArgument {site : Site} (ht : t.kind ≠ .rightParen) :
      Passes limit t d (.firstArgument site p f)
        (d.goto (.expression { site with enclosures := .argument p f [] :: site.enclosures }))
  | name (ht : t.kind ≠ .leftParen) :
      Passes limit t d (.name site p x) (d.goto (.factor site p (.var x)))
  | numeral {n : Token} (hv : Integer.ofNumeral? n.lexeme = some v) :
      Passes limit t d (.numeral site p n) (d.goto (.factor site p (.number v)))
  | filled {p : Pending} (hx : p.extend? e t = none)
      (hf : d.fill? pos (p.asWhole e) slot = some d') :
      Passes limit t d (.factor ⟨pos, slot, []⟩ p e) d'

/-- What the draft makes in a phase of the token `t`, which it takes or complains of. -/
inductive Takes (limit : Option Nat) (t : Token) (d : Draft) :
    Phase → Except SyntaxError Progress → Prop
  | tooDeep {phase : Phase} (hN : limit = some N) (hd : N ≤ (d.goto phase).levels) :
      Takes limit t d phase (.error (.nestingTooDeep N t.position))
  | unexpected {phase : Phase} : Takes limit t d phase (.error (.unexpectedToken expected t))
  | separator (ht : t.kind = .semicolon) :
      Takes limit t d .statement (.ok (.more (d.goto .statement)))
  | finish (ht : t.kind = .endOfInput) (hb : d.blocks = []) :
      Takes limit t d .statement (.ok (.finished d.program))
  | unclosed {b : OpenBlock} (ht : t.kind = .endOfInput) (hb : d.blocks = b :: outer) :
      Takes limit t d .statement (.error (b.header.unclosed b.pos))
  | blockEnd {b : OpenBlock} (ht : t.isKeyword "end") (hb : d.blocks = b :: outer) :
      Takes limit t d .statement (.ok (.more (add ⟨d.reversed, outer, .statement⟩ b.complete)))
  | otherwise (ht : t.isKeyword "else") (hb : d.blocks = ⟨pos, .ifThen c, body⟩ :: outer) :
      Takes limit t d .statement
        (.ok (.more ⟨d.reversed, outer, .block pos (.ifElse c body.reverse)⟩))
  | keyword {k : Keyword} (ht : t.isKeyword k.word) (hc : ¬ t.Closes (closersIn d.blocks)) :
      Takes limit t d .statement (.ok (.more (d.goto (k.phase t.position))))
  | plainName (ht : t.IsPlainName) (hc : ¬ t.Closes (closersIn d.blocks)) :
      Takes limit t d .statement (.ok (.more (d.goto (.callee t))))
  | noStatement (ht : t.kind ≠ .identifier) :
      Takes limit t d .statement (.error (.invalidStatement t))
  | callee {start : Token} (ht : t.kind = .leftParen) : Takes limit t d (.callee start)
      (.ok (.more (d.goto (.firstStatementArgument start.position start.lexeme))))
  | noCall (ht : t.kind ≠ .leftParen) :
      Takes limit t d (.callee start) (.error (.invalidStatement start))
  | noStatementArgument (ht : t.kind = .rightParen) :
      Takes limit t d (.firstStatementArgument pos f) (.ok (.more (d.add (.call pos f []))))
  | assignName (ht : t.kind = .identifier) :
      Takes limit t d (.assignName pos) (.ok (.more (d.goto (.assignEqual pos t.lexeme))))
  | assignEqual (ht : t.kind = .equal) : Takes limit t d (.assignEqual pos x)
      (.ok (.more (d.goto (.expression ⟨pos, .assign x, []⟩))))
  | functionName (ht : t.kind = .identifier) :
      Takes limit t d (.functionName pos) (.ok (.more (d.goto (.functionParen pos t.lexeme))))
  | functionParen (ht : t.kind = .leftParen) :
      Takes limit t d (.functionParen pos f) (.ok (.more (d.goto (.firstParameter pos f))))
  | noParameter (ht : t.kind = .rightParen) : Takes limit t d (.firstParameter pos f)
      (.ok (.more (d.goto (.block pos (.function f [])))))
  | firstParameter (ht : t.kind = .identifier) : Takes limit t d (.firstParameter pos f)
      (.ok (.more (d.goto (.parameterEnd pos f [t.lexeme]))))
  | parameter (ht : t.kind = .identifier) : Takes limit t d (.parameter pos f before)
      (.ok (.more (d.goto (.parameterEnd pos f (before ++ [t.lexeme])))))
  | nextParameter (ht : t.kind = .comma) : Takes limit t d (.parameterEnd pos f parameters)
      (.ok (.more (d.goto (.parameter pos f parameters))))
  | lastParameter (ht : t.kind = .rightParen) : Takes limit t d (.parameterEnd pos f parameters)
      (.ok (.more (d.goto (.block pos (.function f parameters)))))
  | contentSeparator (ht : t.kind = .semicolon) : Takes limit t d (.content pos mode path)
      (.ok (.more (d.goto (.content pos mode path))))
  | targetSeparator (ht : t.kind = .semicolon) :
      Takes limit t d (.target pos path) (.ok (.more (d.goto (.target pos path))))
  | target (ht : t.kind = .identifier) :
      Takes limit t d (.target pos path) (.ok (.more (d.add (.read pos path t.lexeme))))
  | parens {site : Site} (ht : t.kind = .leftParen) : Takes limit t d (.operand site p)
      (.ok (.more (d.goto (.expression { site with enclosures := .parens p :: site.enclosures }))))
  | string (ht : t.kind = .string) : Takes limit t d (.operand site p)
      (.ok (.more (d.goto (.factor site p (.string (Text.unescape t.lexeme))))))
  | numeral (ht : t.kind = .number) :
      Takes limit t d (.operand site p) (.ok (.more (d.goto (.numeral site p t))))
  | name (ht : t.kind = .identifier) :
      Takes limit t d (.operand site p) (.ok (.more (d.goto (.name site p t.lexeme))))
  | call (ht : t.kind = .leftParen) :
      Takes limit t d (.name site p f) (.ok (.more (d.goto (.firstArgument site p f))))
  | noArgument (ht : t.kind = .rightParen) : Takes limit t d (.firstArgument site p f)
      (.ok (.more (d.goto (.factor site p (.call f [])))))
  | outOfRange {n : Token} (hv : Integer.ofNumeral? n.lexeme = none) :
      Takes limit t d (.numeral site p n) (.error (.numberOutOfRange n))
  | operator {p : Pending} (hx : p.extend? e t = some q) :
      Takes limit t d (.factor site p e) (.ok (.more (d.goto (.operand site q))))
  | parensEnd {p : Pending} (ht : t.kind = .rightParen) :
      Takes limit t d (.factor ⟨pos, slot, .parens outer :: rest⟩ p e)
        (.ok (.more (d.goto (.factor ⟨pos, slot, rest⟩ outer (p.asWhole e)))))
  | nextArgument {p : Pending} (ht : t.kind = .comma) :
      Takes limit t d (.factor ⟨pos, slot, .argument outer f before :: rest⟩ p e) (.ok (.more
        (d.goto (.expression ⟨pos, slot, .argument outer f (before ++ [p.asWhole e]) :: rest⟩))))
  | lastArgument {p : Pending} (ht : t.kind = .rightParen) :
      Takes limit t d (.factor ⟨pos, slot, .argument outer f before :: rest⟩ p e) (.ok (.more
        (d.goto (.factor ⟨pos, slot, rest⟩ outer (.call f (before ++ [p.asWhole e]))))))
  | nextStatementArgument {p : Pending} (ht : t.kind = .comma) :
      Takes limit t d (.factor ⟨pos, .argument f before, []⟩ p e) (.ok (.more
        (d.goto (.expression ⟨pos, .argument f (before ++ [p.asWhole e]), []⟩))))
  | lastStatementArgument {p : Pending} (ht : t.kind = .rightParen) :
      Takes limit t d (.factor ⟨pos, .argument f before, []⟩ p e)
        (.ok (.more (d.add (.call pos f (before ++ [p.asWhole e])))))

/-- All that a draft can make of the token `t`. -/
inductive Steps (limit : Option Nat) (t : Token) : Draft → Except SyntaxError Progress → Prop
  | takes {d : Draft} {phase : Phase} (h : d.Takes limit t phase r) : Steps limit t (d.goto phase) r
  | passes {d d' : Draft} {phase : Phase} (hd : d.Passes limit t phase d')
      (h : Steps limit t d' r) : Steps limit t (d.goto phase) r

section
variable {limit : Option Nat} {t : Token} {r : Except SyntaxError Progress} {site : Site}
  {p : Pending} {e : Expression} (d : Draft)

theorem steps_betweenStatements : Steps limit t (d.goto .statement) (d.betweenStatements t) := by
  have hopening (hc : ¬ t.Closes (closersIn d.blocks)) :
      Steps limit t (d.goto .statement) (d.opening t) := by
    by_cases hi : t.kind = .identifier
    · cases hk : Keyword.ofName? t.lexeme with
      | some k =>
        have ht := Token.isKeyword_word_iff.2 ⟨hi, hk⟩
        rw [opening_keyword ht]
        exact .takes (.keyword ht hc)
      | none =>
        have ht := Token.isPlainName_iff.2 ⟨hi, hk⟩
        rw [opening_plain ht]
        exact .takes (.plainName ht hc)
    · rw [opening, if_pos hi]
      exact .takes (.noStatement hi)
  unfold betweenStatements
  split
  · exact .takes (.separator ‹_›)
  cases hb : d.blocks with
  | nil =>
    dsimp only
    split
    · exact .takes (.finish ‹_› hb)
    · apply hopening
      rintro ⟨w, hw, -⟩
      rw [hb] at hw
      cases hw
  | cons b outer =>
    obtain ⟨pos, header, body⟩ := b
    dsimp only
    split
    · exact .takes (.unclosed ‹_› hb)
    split
    · exact .takes (.blockEnd ‹_› hb)
    rename_i hend
    cases header with
    | ifThen c =>
      dsimp only
      split
      · exact .takes (.otherwise ‹_› hb)
      · rename_i helse
        apply hopening
        rintro ⟨w, hw, hk⟩
        rw [hb] at hw
        rcases List.mem_cons.1 hw with rfl | hw
        · exact hend hk
        · rw [List.mem_singleton.1 hw] at hk
          exact helse hk
    | _ =>
      apply hopening
      rintro ⟨w, hw, hk⟩
      rw [hb] at hw
      rw [List.mem_singleton.1 hw] at hk
      exact hend hk

theorem steps_add (s : Statement) : Steps limit t (d.add s) ((d.add s).step limit t) := by
  rw [step_add]
  have h : Steps limit t ((d.add s).goto .statement) ((d.add s).betweenStatements t) :=
    (d.add s).steps_betweenStatements
  rwa [goto_add] at h

theorem Steps.checkDepth {phase : Phase}
    (hpass : Allows limit ((d.goto phase).levels + 1) → Steps limit t (d.goto phase) r) :
    Steps limit t (d.goto phase)
      (Draft.checkDepth limit (d.goto phase).levels t >>= fun _ => r) := by
  cases limit with
  | none => exact hpass fun N hN => by cases hN
  | some N =>
    by_cases hN : N ≤ (d.goto phase).levels
    · rw [Draft.checkDepth, if_pos hN]
      exact .takes (.tooDeep rfl hN)
    · rw [Draft.checkDepth, if_neg hN]
      apply hpass
      intro N' hN'
      cases hN'
      exact Nat.lt_of_not_le hN

theorem steps_block (pos : Position) (header : Header) :
    Steps limit t (d.goto (.block pos header)) (d.inBlock limit pos header t) :=
  Steps.checkDepth d fun h => .passes (.block h) (d.openBlock pos header).steps_betweenStatements

theorem steps_operand (site : Site) (p : Pending) :
    Steps limit t (d.goto (.operand site p)) (d.operand site p t) := by
  unfold operand
  split
  · exact .takes (.parens ‹_›)
  · exact .takes (.string ‹_›)
  · exact .takes (.numeral ‹_›)
  · exact .takes (.name ‹_›)
  · exact .takes .unexpected

theorem steps_expression (site : Site) :
    Steps limit t (d.goto (.expression site)) (d.inExpression limit site t) :=
  Steps.checkDepth d fun h => .passes (.expression h) (d.steps_operand site .empty)

theorem steps_content (pos : Position) (mode : WriteMode) (path : Expression) :
    Steps limit t (d.goto (.content pos mode path)) (d.inContent limit pos mode path t) := by
  unfold inContent
  split
  · exact .takes (.contentSeparator ‹_›)
  · exact .passes (.content ‹_›) (d.steps_expression _)

theorem steps_target (pos : Position) (path : Expression) :
    Steps limit t (d.goto (.target pos path)) (d.inTarget pos path t) := by
  unfold inTarget
  split
  · exact .takes (.targetSeparator ‹_›)
  split
  · exact .takes (.target ‹_›)
  · exact .takes .unexpected

theorem steps_fill? {slot : Slot} (hf : d.fill? pos e slot = some d') :
    Steps limit t d' (d.fillSlot limit pos slot e t) := by
  have hadd (s : Statement) : Steps limit t (d.add s) ((d.add s).betweenStatements t) := by
    rw [← step_add limit]
    exact d.steps_add s
  cases slot <;> cases hf
  case ifCondition => exact d.steps_block pos _
  case loopCondition => exact d.steps_block pos _
  case writePath mode => exact d.steps_content pos mode e
  case readPath => exact d.steps_target pos e
  all_goals exact hadd _

theorem steps_factor (site : Site) (p : Pending) (e : Expression) :
    Steps limit t (d.goto (.factor site p e)) (d.afterFactor limit site p e t) := by
  unfold afterFactor
  cases hx : p.extend? e t with
  | some q => exact .takes (.operator hx)
  | none =>
    obtain ⟨pos, slot, enclosures⟩ := site
    unfold closeExpression
    dsimp only
    split
    · cases hf : d.fill? pos (p.asWhole e) slot with
      | some d' => exact .passes (.filled hx hf) (d.steps_fill? hf)
      | none =>
        cases slot <;> cases hf
        unfold fillSlot
        dsimp only
        split
        · exact .takes (.nextStatementArgument ‹_›)
        · exact .takes (.lastStatementArgument ‹_›)
        · exact .takes .unexpected
    · split
      · exact .takes (.parensEnd ‹_›)
      · exact .takes .unexpected
    · split
      · exact .takes (.nextArgument ‹_›)
      · exact .takes (.lastArgument ‹_›)
      · exact .takes .unexpected

/-- Each step is one of those that a draft can make of the token. -/
theorem steps_step (limit : Option Nat) (t : Token) : Steps limit t d (d.step limit t) := by
  have hname {expected : String} {phase : Phase} (next : String → Phase)
      (h : t.kind = .identifier →
        Steps limit t (d.goto phase) (.ok (.more (d.goto (next t.lexeme))))) :
      Steps limit t (d.goto phase) (d.name expected t next) := by
    unfold Draft.name
    split
    · exact h ‹_›
    · exact .takes .unexpected
  have hpunctuation {kind : TokenKind} {expected : String} {phase next : Phase}
      (h : t.kind = kind → Steps limit t (d.goto phase) (.ok (.more (d.goto next)))) :
      Steps limit t (d.goto phase) (d.punctuation kind expected t next) := by
    unfold punctuation
    split
    · exact h ‹_›
    · exact .takes .unexpected
  -- With the phase apart from the rest of the draft, each case meets the rules for one phase.
  have hgoto : d = d.goto d.phase := rfl
  generalize d.phase = phase at hgoto
  rw [hgoto]
  unfold step
  cases phase with
  | statement => exact d.steps_betweenStatements
  | callee start =>
    dsimp only [goto]
    split
    · exact .takes (.callee ‹_›)
    · exact .takes (.noCall ‹_›)
  | firstStatementArgument pos f =>
    dsimp only [goto]
    split
    · exact .takes (.noStatementArgument ‹_›)
    · exact .passes (.firstStatementArgument ‹_›) (d.steps_expression _)
  | assignName pos => exact hname (.assignEqual pos) fun ht => .takes (.assignName ht)
  | assignEqual pos x => exact hpunctuation fun ht => .takes (.assignEqual ht)
  | functionName pos => exact hname (.functionParen pos) fun ht => .takes (.functionName ht)
  | functionParen pos f => exact hpunctuation fun ht => .takes (.functionParen ht)
  | firstParameter pos f =>
    dsimp only [goto]
    split
    · exact .takes (.noParameter ‹_›)
    · exact hname (fun x => .parameterEnd pos f [x]) fun ht => .takes (.firstParameter ht)
  | parameter pos f before =>
    exact hname (fun x => .parameterEnd pos f (before ++ [x])) fun ht => .takes (.parameter ht)
  | parameterEnd pos f parameters =>
    dsimp only [goto]
    split
    · exact .takes (.nextParameter ‹_›)
    · exact hpunctuation fun ht => .takes (.lastParameter ht)
  | block pos header => exact d.steps_block pos header
  | content pos mode path => exact d.steps_content pos mode path
  | target pos path => exact d.steps_target pos path
  | expression site => exact d.steps_expression site
  | operand site p => exact d.steps_operand site p
  | name site p x =>
    dsimp only [goto]
    split
    · exact .takes (.call ‹_›)
    · exact .passes (.name ‹_›) (d.steps_factor site p _)
  | firstArgument site p f =>
    dsimp only [goto]
    split
    · exact .takes (.noArgument ‹_›)
    · exact .passes (.firstArgument ‹_›) (d.steps_expression _)
  | numeral site p n =>
    dsimp only [goto]
    split
    · exact .passes (.numeral ‹_›) (d.steps_factor site p _)
    · exact .takes (.outOfRange ‹_›)
  | factor site p e => exact d.steps_factor site p e

end

end Draft

end Scriptlet
