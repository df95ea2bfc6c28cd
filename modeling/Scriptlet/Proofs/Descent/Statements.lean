import Scriptlet.Proofs.Descent.Expressions

namespace Scriptlet
set_option autoImplicit true

/-- Whether the word `else` ends a block, with another branch behind it. -/
def Header.allowsElse : Header → Bool
  | .ifThen _ => true
  | _ => false

namespace Draft

def between (d : Draft) : Reader :=
  ⟨d.betweenStatements, fun _ => none⟩

theorem reader_add (limit : Nat) (d : Draft) (s : Statement) :
    (d.add s).reader limit = (d.add s).between := by
  unfold reader between opens?
  rw [step_add, phase_add]

theorem between_separator (limit : Nat) (d : Draft) {t : Token} (ht : t.kind = .semicolon) :
    ∃ d', d.between.step t = .ok (.more d') ∧ d.between.opens t = none ∧
      d'.reader limit = d.between :=
  ⟨d.goto .statement, if_pos ht, rfl, rfl⟩

def starting (d : Draft) : Reader :=
  ⟨d.opening, fun _ => none⟩

def within (d : Draft) (pos : Position) (header : Header) (body : List Statement) : Draft :=
  ⟨d.reversed, ⟨pos, header, body.reverse⟩ :: d.blocks, .statement⟩

theorem within_add (d : Draft) (pos : Position) (header : Header) (body : List Statement)
    (s : Statement) : (d.within pos header body).add s = d.within pos header (body ++ [s]) := by
  simp [within, add, OpenBlock.add]

theorem within_opening (d : Draft) (pos : Position) (header : Header) (body : List Statement)
    {t : Token} (hsemicolon : t.kind ≠ .semicolon) (hstop : t.kind ≠ .endOfInput)
    (hend : ¬ t.isKeyword "end") (helse : ¬ (header.allowsElse ∧ t.isKeyword "else")) :
    (d.within pos header body).betweenStatements t = (d.within pos header body).opening t := by
  unfold betweenStatements
  rw [if_neg hsemicolon]
  simp only [within, if_neg hstop, if_neg hend]
  cases header with
  | ifThen condition => exact if_neg fun h => helse ⟨rfl, h⟩
  | _ => rfl

end Draft

namespace Descent

/-- What was read of a block, and why it stops there, is what the draft makes of it: an error where
the input ends first, else the statement that the block completes, or the other branch of a test. -/
def BlockEnds (limit : Nat) (out : Reading × List Opening) (d : Draft) (pos : Position)
    (header : Header) : List Statement × Option Terminator → Cursor → Prop
  | (_, none), c => (⟨.error (.structural (header.unclosed pos)), c.unread⟩, c.openings) = out
  | (body, some .finish), c => c.outcome limit (d.add (header.complete pos body)).between = out
  | (body, some .otherwise), c => ∃ condition, header = .ifThen condition ∧
      c.outcome limit ((d.goto (.block pos (.ifElse condition body))).reader limit) = out

/-- The descent `x` reads the blocks that are due in a draft, if `n` levels at most can open beyond
those that are counted. -/
def ReadsBlocks (limit n : Nat) (x : Bool → Descent (List Statement × Option Terminator)) : Prop :=
  ∀ (out : Reading × List Opening) (d : Draft) (pos : Position) (header : Header) (c : Cursor),
    c.depth = d.blocks.length → limit ≤ c.depth + n →
    c.outcome limit ((d.goto (.block pos header)).reader limit) = out →
    (x header.allowsElse).Yields out c (BlockEnds limit out d pos header)

theorem BlockEnds.finished {header : Header} {terminator : Terminator}
    (h : BlockEnds limit out d pos header (body, some terminator) c)
    (hheader : header.allowsElse = false) :
    c.outcome limit (d.add (header.complete pos body)).between = out := by
  cases terminator with
  | finish => exact h
  | otherwise =>
    obtain ⟨condition, rfl, -⟩ := h
    cases hheader

section
variable {limit n : Nat} {block : Bool → Descent (List Statement × Option Terminator)}
  {out : Reading × List Opening} {d : Draft} {pos : Position} {c : Cursor} {r : Reader}

theorem expression_reads (hd : c.depth = d.blocks.length) (slot : Slot)
    (h : c.outcome limit ((d.goto (.expression ⟨pos, slot, []⟩)).reader limit) = out) :
    (expression limit).Yields out c fun e c' =>
      c'.outcome limit (d.closing limit ⟨pos, slot, []⟩ e) = out :=
  expressionIn_reads limit limit out d ⟨pos, slot, []⟩ c hd (Nat.le_add_left _ _) h

theorem filled_yields (hd : c.depth = d.blocks.length) (slot : Slot) (make : Expression → Statement)
    (hslot : ∀ e, d.closing limit ⟨pos, slot, []⟩ e = (d.add (make e)).between)
    (h : c.outcome limit ((d.goto (.expression ⟨pos, slot, []⟩)).reader limit) = out) :
    (do return make (← expression limit)).Yields out c fun s c' =>
      c'.outcome limit (d.add s).between = out := by
  refine (expression_reads hd slot h).bind fun e c' _ _ h' => ?_
  rw [hslot] at h'
  exact h'

theorem test_yields (hblock : ReadsBlocks limit n block) (hd : c.depth = d.blocks.length)
    (hn : limit ≤ c.depth + n)
    (h : c.outcome limit ((d.goto (.expression ⟨pos, .ifCondition, []⟩)).reader limit) = out) :
    (test limit block pos).Yields out c fun s c' => c'.outcome limit (d.add s).between = out := by
  refine (expression_reads hd .ifCondition h).bind fun e c₁ hd₁ _ h₁ => ?_
  refine (hblock out d pos (.ifThen e) c₁ (hd₁.trans hd) (hd₁ ▸ hn) h₁).bind ?_
  rintro ⟨body, _ | _ | _⟩ c₂ hd₂ - h₂
  · exact h₂
  · obtain ⟨condition, hheader, h₂⟩ := h₂
    cases hheader
    have hd₂ := hd₂.trans hd₁
    refine (hblock out d pos (.ifElse e body) c₂ (hd₂.trans hd) (hd₂ ▸ hn) h₂).bind ?_
    rintro ⟨otherwise, _ | terminator⟩ c₃ _ _ h₃
    · exact h₃
    · exact h₃.finished rfl
  · exact h₂

theorem whileLoop_yields (hblock : ReadsBlocks limit n block) (hd : c.depth = d.blocks.length)
    (hn : limit ≤ c.depth + n)
    (h : c.outcome limit ((d.goto (.expression ⟨pos, .loopCondition, []⟩)).reader limit) = out) :
    (whileLoop limit block pos).Yields out c fun s c' =>
      c'.outcome limit (d.add s).between = out := by
  refine (expression_reads hd .loopCondition h).bind fun e c₁ hd₁ _ h₁ => ?_
  refine (hblock out d pos (.loop e) c₁ (hd₁.trans hd) (hd₁ ▸ hn) h₁).bind ?_
  rintro ⟨body, _ | terminator⟩ c₂ _ _ h₂
  · exact h₂
  · exact h₂.finished rfl

theorem write_yields (mode : WriteMode) (hd : c.depth = d.blocks.length)
    (h : c.outcome limit ((d.goto (.expression ⟨pos, .writePath mode, []⟩)).reader limit) = out) :
    (write limit pos mode).Yields out c fun s c' => c'.outcome limit (d.add s).between = out := by
  refine (expression_reads hd (.writePath mode) h).bind fun path c₁ hd₁ _ h₁ => ?_
  -- The content is due at once, with or without separators in front of it.
  have hsame : d.closing limit ⟨pos, .writePath mode, []⟩ path =
      (d.goto (.content pos mode path)).reader limit := rfl
  rw [hsame] at h₁
  refine (Yields.skipSeparators h₁ fun t ht => ?_).bind fun _ c₂ hd₂ _ h₂ => ?_
  · exact ⟨_, if_pos ht, if_pos ht, rfl⟩
  · obtain ⟨hk, h₂⟩ := h₂
    have hd₂ := hd₂.trans hd₁
    have h₃ : c₂.outcome limit
        ((d.goto (.expression ⟨pos, .writeContent mode path, []⟩)).reader limit) = out := by
      refine Eq.trans (Cursor.outcome_congr ?_ ?_ limit) h₂
      · exact (if_neg hk).symm
      · exact (if_neg hk).symm
    exact filled_yields (hd₂.trans hd) _ (.write pos mode path) (fun _ => rfl) h₃

theorem read_yields (hd : c.depth = d.blocks.length)
    (h : c.outcome limit ((d.goto (.expression ⟨pos, .readPath, []⟩)).reader limit) = out) :
    (read limit pos).Yields out c fun s c' => c'.outcome limit (d.add s).between = out := by
  refine (expression_reads hd .readPath h).bind fun path c₁ hd₁ _ h₁ => ?_
  have hsame : d.closing limit ⟨pos, .readPath, []⟩ path =
      (d.goto (.target pos path)).reader limit := rfl
  rw [hsame] at h₁
  refine (Yields.skipSeparators h₁ fun t ht => ?_).bind fun _ c₂ hd₂ _ h₂ => ?_
  · exact ⟨_, if_pos ht, rfl, rfl⟩
  · obtain ⟨hk, h₂⟩ := h₂
    refine (Yields.expect h₂ (by decide) (if_neg hk) rfl).next fun c₃ _ _ h₃ => ?_
    rw [Draft.reader_add] at h₃
    exact h₃

theorem function_yields (hblock : ReadsBlocks limit n block) (hd : c.depth = d.blocks.length)
    (hn : limit ≤ c.depth + n)
    (h : c.outcome limit ((d.goto (.functionName pos)).reader limit) = out) :
    (function block pos).Yields out c fun s c' => c'.outcome limit (d.add s).between = out := by
  let f := c.current.lexeme
  refine (Yields.expect h (by decide) rfl rfl).next fun c₁ hd₁ _ h₁ => ?_
  refine (Yields.expect h₁ (by decide) rfl rfl).next fun c₂ hd₂ _ h₂ => ?_
  let due (xs : List String) : Reader := (d.goto (.parameter pos f xs)).reader limit
  let behind (xs : List String) : Reader := (d.goto (.parameterEnd pos f xs)).reader limit
  refine (Yields.list limit due behind ?_ ?_ ?_ ?_).bind fun xs c₃ hd₃ _ h₃ => ?_
  · intro hk
    refine Eq.trans (Cursor.outcome_congr ?_ ?_ limit) h₂
    · simp [behind, f, Draft.reader, Draft.step, Draft.goto, Draft.punctuation, hk]
    · rfl
  · intro hk
    refine Eq.trans (Cursor.outcome_congr ?_ ?_ limit) h₂
    · exact (if_neg hk).symm
    · rfl
  · intro before c₃ _ h₃
    refine (Yields.expect h₃ (by decide) rfl rfl).next fun c₄ _ _ h₄ => ?_
    exact h₄
  · intro before t ht
    exact ⟨_, if_pos ht, rfl, rfl⟩
  · obtain ⟨hcomma, h₃⟩ := h₃
    have hd₃ := hd₃.trans (hd₂.trans hd₁)
    refine (Yields.expect h₃ (by decide) (if_neg hcomma) rfl).next fun c₄ hd₄ _ h₄ => ?_
    have hd₄ := hd₄.trans hd₃
    refine (hblock out d pos (.function f xs) c₄ (hd₄.trans hd) (hd₄ ▸ hn) h₄).bind ?_
    rintro ⟨body, _ | terminator⟩ c₅ _ _ h₅
    · exact h₅
    · exact h₅.finished rfl

theorem call_yields (start : Token) (hd : c.depth = d.blocks.length)
    (h : c.outcome limit ((d.goto (.callee start)).reader limit) = out) :
    (call limit start).Yields out c fun s c' => c'.outcome limit (d.add s).between = out := by
  apply Yields.peek
  split
  · rename_i hk
    exact .fail h (if_neg hk) rfl
  · rename_i hk
    have hk := Decidable.not_not.1 hk
    let pos := start.position
    let f := start.lexeme
    let place (es : List Expression) : Site := ⟨pos, .argument f es, []⟩
    refine (callArguments_yields (expressionIn_reads limit limit) d
      (d.goto (.firstStatementArgument pos f)) place (fun es => d.add (.call pos f es))
      (fun _ => hd) (Nat.le_add_left _ _) (fun _ _ => rfl) ?_ ?_ hk h (if_pos hk) rfl).bind
      fun es c₁ _ _ h₁ => ?_
    · intro t ht
      exact ⟨if_pos ht, if_pos ht⟩
    · intro t ht
      exact ⟨if_neg ht, if_neg ht⟩
    · rw [Draft.reader_add] at h₁
      exact h₁

theorem statement_yields (hblock : ReadsBlocks limit n block) (hd : c.depth = d.blocks.length)
    (hn : limit ≤ c.depth + n) (h : c.outcome limit d.starting = out) :
    (statement limit block).Yields out c fun s c' =>
      c'.size < c.size ∧ c'.outcome limit (d.add s).between = out := by
  apply Yields.peek
  dsimp only
  split
  · rename_i hk
    exact .fail h (if_pos hk) rfl
  · rename_i hk
    have hk := Decidable.not_not.1 hk
    cases hword : Keyword.ofName? c.current.lexeme with
    | none =>
      have hs := Draft.opening_plain (Token.isPlainName_iff.2 ⟨hk, hword⟩) d
      refine (Yields.take h (by simp [hk]) hs rfl).next fun c₁ hd₁ hlt h₁ => ?_
      exact (call_yields c.current (hd₁.trans hd) h₁).smaller hlt
    | some k =>
      have hs := Draft.opening_keyword (Token.isKeyword_word_iff.2 ⟨hk, hword⟩) d
      refine (Yields.take h (by simp [hk]) hs rfl).next fun c₁ hd₁ hlt h₁ => ?_
      have hd' := hd₁.trans hd
      apply Yields.smaller hlt
      cases k with
      | assign =>
        refine (Yields.expect h₁ (by decide) rfl rfl).next fun c₂ hd₂ _ h₂ => ?_
        refine (Yields.expect h₂ (by decide) rfl rfl).next fun c₃ hd₃ _ h₃ => ?_
        exact filled_yields (hd₃.trans (hd₂.trans hd')) _ (.assign _ _) (fun _ => rfl) h₃
      | print => exact filled_yields hd' _ (.print _) (fun _ => rfl) h₁
      | log => exact filled_yields hd' _ (.log _) (fun _ => rfl) h₁
      | test => exact test_yields hblock hd' (hd₁ ▸ hn) h₁
      | loop => exact whileLoop_yields hblock hd' (hd₁ ▸ hn) h₁
      | write => exact write_yields .replace hd' h₁
      | append => exact write_yields .extend hd' h₁
      | read => exact read_yields hd' h₁
      | delete => exact filled_yields hd' _ (.delete _) (fun _ => rfl) h₁
      | function => exact function_yields hblock hd' (hd₁ ▸ hn) h₁
      | giveBack => exact filled_yields hd' _ (.giveBack _) (fun _ => rfl) h₁

/-- Statements are read up to where they stop, if every other token but a separator starts one. -/
theorem statementsUntil_yields (hblock : ReadsBlocks limit n block) (stops : Token → Bool)
    (place : List Statement → Draft) (hd : ∀ body, c.depth = (place body).blocks.length)
    (hn : limit ≤ c.depth + n) (hadd : ∀ body s, (place body).add s = place (body ++ [s]))
    (hopening : ∀ body t, t.kind ≠ .semicolon → ¬ stops t →
      (place body).betweenStatements t = (place body).opening t)
    (h : c.outcome limit (place []).between = out) :
    (statementsUntil stops (statement limit block)).Yields out c fun body c' =>
      c'.current.kind ≠ .semicolon ∧ stops c'.current ∧
        c'.outcome limit (place body).between = out := by
  refine Yields.repeated (fun body c => c.outcome limit (place body).between = out) h
    fun body c₁ hd₁ h₁ => ?_
  refine (Yields.skipSeparators h₁ fun t ht => Draft.between_separator limit _ ht).bind
    fun _ c₂ hd₂ hle h₂ => ?_
  obtain ⟨hk, h₂⟩ := h₂
  apply Yields.peek
  split
  · rename_i hstop
    exact ⟨hk, hstop, h₂⟩
  · rename_i hstop
    have hd₂ := hd₂.trans hd₁
    have hs : (place body).between.step c₂.current = (place body).starting.step c₂.current :=
      hopening body c₂.current hk hstop
    have h₃ : c₂.outcome limit (place body).starting = out :=
      (Cursor.outcome_congr hs rfl limit).symm.trans h₂
    refine (statement_yields hblock (hd₂.trans (hd body)) (hd₂ ▸ hn) h₃).bind
      fun s c₃ _ _ h₄ => ?_
    exact ⟨hadd body s ▸ h₄.2, Nat.lt_of_lt_of_le h₄.1 hle⟩

theorem blockBody_yields (hblock : ReadsBlocks limit n block) (header : Header)
    (hd : c.depth = d.blocks.length + 1) (hn : limit ≤ c.depth + n)
    (h : c.outcome limit (d.within pos header []).between = out) :
    (blockBody (statement limit block) header.allowsElse).Yields out c
      (BlockEnds limit out d pos header) := by
  refine (statementsUntil_yields hblock _ (d.within pos header) (fun _ => hd) hn
    (d.within_add pos header) (fun body t hk hstop => ?_) h).bind
    fun body c₁ _ _ h₁ => ?_
  · simp only [Bool.or_eq_true, Bool.and_eq_true, decide_eq_true_eq, not_or] at hstop
    exact d.within_opening pos header body hk hstop.1.1 hstop.1.2 hstop.2
  obtain ⟨hk, hstop, h₁⟩ := h₁
  apply Yields.peek
  split
  · rename_i hk
    refine .pure ((Cursor.outcome_error ?_ rfl limit).symm.trans h₁)
    simp [Draft.between, Draft.betweenStatements, Draft.within, hk]
  · rename_i hinput
    have hbody : body.reverse.reverse = body := List.reverse_reverse body
    by_cases hend : c₁.current.isKeyword "end"
    · have hs := Draft.step_end hend (some limit) d ⟨pos, header, body.reverse⟩
      refine (Yields.take h₁ hinput hs rfl).next fun c₂ _ _ h₂ => ?_
      rw [if_pos hend]
      rw [Draft.reader_add, OpenBlock.complete, hbody] at h₂
      exact h₂
    · simp only [hinput, hend, decide_false, Bool.false_or, Bool.and_eq_true] at hstop
      obtain ⟨helse, hword⟩ := hstop
      cases header with
      | ifThen condition =>
        have hs := Draft.step_else hword (some limit) d pos condition body.reverse
        refine (Yields.take h₁ hinput hs rfl).next fun c₂ _ _ h₂ => ?_
        rw [if_neg hend]
        rw [hbody] at h₂
        exact ⟨condition, rfl, h₂⟩
      | _ => cases helse

theorem nested_block_yields {inner : Descent (List Statement × Option Terminator)}
    (header : Header) (hd : c.depth = d.blocks.length)
    (h : c.outcome limit ((d.goto (.block pos header)).reader limit) = out)
    (hinner : ∀ c', c'.depth = c.depth + 1 → c.depth < limit →
      c'.outcome limit (d.within pos header []).between = out →
      inner.Yields out c' (BlockEnds limit out d pos header)) :
    (nested limit inner).Yields out c (BlockEnds limit out d pos header) := by
  have hinside : c.outcome limit ⟨fun t => Draft.checkDepth (some limit) c.depth t >>= fun _ =>
      (d.within pos header []).between.step t, fun _ => some c.depth⟩ = out := by
    rw [hd]
    exact h
  refine Yields.nested (d.within pos header []).between hinside rfl fun c' hd' _ h' hlt => ?_
  refine (hinner c' hd' hlt h').imp fun result c'' h'' => ?_
  obtain ⟨body, _ | _ | _⟩ := result
  · exact h''
  · exact h''
  · exact h''

/-- The blocks of the descent are those of the drafts, with a level counted for each that is open
there. -/
theorem blockIn_reads (limit n : Nat) : ReadsBlocks limit n (blockIn limit n) := by
  induction n with
  | zero =>
    intro out d pos header c hd hn h
    exact nested_block_yields header hd h fun c' _ hlt _ => absurd hn (Nat.not_le_of_lt hlt)
  | succ n ih =>
    intro out d pos header c hd hn h
    refine nested_block_yields header hd h fun c' hd' _ h' => ?_
    exact blockBody_yields ih header (hd'.trans (congrArg (· + 1) hd)) (by omega) h'

theorem program_yields (limit : Nat) (hd : c.depth = 0)
    (h : c.outcome limit Draft.empty.between = out) :
    (program limit).Yields out c fun p c' => (⟨.ok p, c'.unread⟩, c'.openings) = out := by
  let place (body : List Statement) : Draft := ⟨body.reverse, [], .statement⟩
  refine (statementsUntil_yields (blockIn_reads limit limit) _ place (fun _ => hd)
    (Nat.le_add_left _ _) (fun body s => ?_) (fun body t hk hstop => ?_) h).imp
    fun p c' h' => ?_
  · simp [place, Draft.add]
  · have hstop : t.kind ≠ .endOfInput := by simpa using hstop
    simp [place, Draft.betweenStatements, hk, hstop]
  · obtain ⟨hk, hstop, h'⟩ := h'
    have hstop : c'.current.kind = .endOfInput := by simpa using hstop
    rw [← h']
    simp [place, Cursor.outcome, Draft.between, Draft.betweenStatements, hstop, Draft.program]

/-- The descent reads what the drafts read and sees the same levels open. -/
theorem whole_reads (limit : Nat) (items : List Item) :
    (⟨(whole limit items).1, (whole limit items).2.unread⟩, (whole limit items).2.openings) =
      (Draft.empty.read (some limit) items, Draft.empty.openings (some limit) items) := by
  have hprogram (c : Cursor) (hd : c.depth = 0) (ho : c.openings = []) :
      (⟨((program limit).run c).1, ((program limit).run c).2.unread⟩,
        ((program limit).run c).2.openings) = c.outcome limit (Draft.empty.reader limit) := by
    have h := program_yields limit hd (rfl : c.outcome limit Draft.empty.between = _)
    unfold Yields at h
    generalize (program limit).run c = q at h ⊢
    obtain ⟨e | p, c'⟩ := q
    · exact h
    · exact h
  cases items with
  | nil => exact (hprogram _ rfl rfl).trans (Cursor.outcome_dry limit .empty 0 [])
  | cons item rest =>
    cases item with
    | error e => rfl
    | ok t => exact (hprogram _ rfl rfl).trans (Cursor.outcome_reader limit .empty t rest 0 [])

end

end Descent

end Scriptlet
