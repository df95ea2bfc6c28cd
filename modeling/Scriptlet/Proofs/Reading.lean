import Scriptlet.Program.Reading
import Scriptlet.Proofs.Keyword

namespace Scriptlet
set_option autoImplicit true

/-- A reader that meets the end of the input either finishes a program there or fails. -/
def Stops (f : Token → Except SyntaxError Progress) : Prop :=
  (∃ p, ∀ t, t.kind = .endOfInput → f t = .ok (.finished p)) ∨
    ∀ t, t.kind = .endOfInput → ∃ e, f t = .error e

theorem Stops.congr {f g : Token → Except SyntaxError Progress} (hf : Stops f)
    (h : ∀ t, t.kind = .endOfInput → g t = f t) : Stops g := by
  rcases hf with ⟨p, hp⟩ | he
  · exact .inl ⟨p, fun t ht => (h t ht).trans (hp t ht)⟩
  · exact .inr fun t ht => by
      rw [h t ht]
      exact he t ht

namespace Draft

theorem betweenStatements_stops (d : Draft) : Stops d.betweenStatements := by
  cases hb : d.blocks with
  | nil =>
    refine .inl ⟨d.program, fun t ht => ?_⟩
    simp [betweenStatements, hb, ht]
  | cons b outer =>
    refine .inr fun t ht => ⟨b.header.unclosed b.pos, ?_⟩
    simp [betweenStatements, hb, ht]

theorem operand_stops (d : Draft) (site : Site) (pending : Pending) :
    Stops (d.operand site pending) := by
  refine .inr fun t ht => ⟨.unexpectedToken "an expression" t, ?_⟩
  simp [operand, ht]

theorem name_stops (d : Draft) (expected : String) (next : String → Phase) :
    Stops (d.name expected · next) := by
  refine .inr fun t ht => ⟨.unexpectedToken expected t, ?_⟩
  simp [name, ht]

theorem punctuation_stops (d : Draft) (expected : String) (next : Phase)
    (hk : kind ≠ .endOfInput) : Stops (d.punctuation kind expected · next) := by
  refine .inr fun t ht => ⟨.unexpectedToken expected t, ?_⟩
  simp [punctuation, ht, hk.symm]

theorem checkDepth_stops {f : Token → Except SyntaxError Progress} (hf : Stops f) :
    Stops fun t => checkDepth limit depth t >>= fun _ => f t := by
  cases limit with
  | none => exact hf
  | some n =>
    by_cases hn : n ≤ depth
    · refine .inr fun t ht => ⟨.nestingTooDeep n t.position, ?_⟩
      simp [checkDepth, hn, bind, Except.bind]
    · simpa [checkDepth, hn, bind, Except.bind] using hf

theorem inExpression_stops (limit : Option Nat) (d : Draft) (site : Site) :
    Stops (d.inExpression limit site) :=
  checkDepth_stops (d.operand_stops site .empty)

theorem inBlock_stops (limit : Option Nat) (d : Draft) (pos : Position) (header : Header) :
    Stops (d.inBlock limit pos header) :=
  checkDepth_stops (betweenStatements_stops _)

theorem inContent_stops (limit : Option Nat) (d : Draft) (pos : Position) (mode : WriteMode)
    (path : Expression) : Stops (d.inContent limit pos mode path) :=
  (d.inExpression_stops limit ⟨pos, .writeContent mode path, []⟩).congr fun t ht => by
    simp [inContent, ht]

theorem inTarget_stops (d : Draft) (pos : Position) (path : Expression) :
    Stops (d.inTarget pos path) := by
  refine .inr fun t ht => ⟨.unexpectedToken "variable name" t, ?_⟩
  simp [inTarget, ht]

theorem fillSlot_stops (limit : Option Nat) (d : Draft) (pos : Position) (slot : Slot)
    (e : Expression) : Stops (d.fillSlot limit pos slot e) := by
  cases slot with
  | ifCondition => exact d.inBlock_stops limit pos _
  | loopCondition => exact d.inBlock_stops limit pos _
  | writePath mode => exact d.inContent_stops limit pos mode e
  | readPath => exact d.inTarget_stops pos e
  | argument name before =>
    refine .inr fun t ht => ⟨.unexpectedToken "')' or ','" t, ?_⟩
    simp [fillSlot, ht]
  | _ => exact betweenStatements_stops _

theorem closeExpression_stops (limit : Option Nat) (d : Draft) (site : Site) (e : Expression) :
    Stops (d.closeExpression limit site e) := by
  unfold closeExpression
  cases site.enclosures with
  | nil => exact d.fillSlot_stops limit site.pos site.slot e
  | cons enclosure rest =>
    cases enclosure with
    | parens outer =>
      refine .inr fun t ht => ⟨.unexpectedToken "')'" t, ?_⟩
      simp [ht]
    | argument outer name before =>
      refine .inr fun t ht => ⟨.unexpectedToken "')' or ','" t, ?_⟩
      simp [ht]

theorem afterFactor_stops (limit : Option Nat) (d : Draft) (site : Site) (pending : Pending)
    (e : Expression) : Stops (d.afterFactor limit site pending e) :=
  (d.closeExpression_stops limit site (pending.asWhole e)).congr fun t ht => by
    simp [afterFactor, Pending.extend?, ht, Token.not_isKeyword]

theorem step_stops (limit : Option Nat) (d : Draft) : Stops (d.step limit) := by
  unfold step
  cases d.phase with
  | statement => exact d.betweenStatements_stops
  | callee start =>
    refine .inr fun t ht => ⟨.invalidStatement start, ?_⟩
    simp [ht]
  | firstStatementArgument pos f =>
    exact (d.inExpression_stops limit ⟨pos, .argument f [], []⟩).congr fun t ht => by simp [ht]
  | assignName pos => exact d.name_stops "variable name" _
  | assignEqual pos x => exact d.punctuation_stops "'='" _ (by decide)
  | functionName pos => exact d.name_stops "function name" _
  | functionParen pos f => exact d.punctuation_stops "'('" _ (by decide)
  | firstParameter pos f =>
    exact (d.name_stops "parameter name" fun x => .parameterEnd pos f [x]).congr
      fun t ht => by simp [ht]
  | parameter pos f before => exact d.name_stops "parameter name" _
  | parameterEnd pos f parameters =>
    exact (d.punctuation_stops "')'" (.block pos (.function f parameters))
      (show TokenKind.rightParen ≠ .endOfInput by decide)).congr fun t ht => by simp [ht]
  | block pos header => exact d.inBlock_stops limit pos header
  | content pos mode path => exact d.inContent_stops limit pos mode path
  | target pos path => exact d.inTarget_stops pos path
  | expression site => exact d.inExpression_stops limit site
  | operand site pending => exact d.operand_stops site pending
  | name site pending x =>
    exact (d.afterFactor_stops limit site pending (.var x)).congr fun t ht => by simp [ht]
  | firstArgument site pending f =>
    exact (d.inExpression_stops limit
      { site with enclosures := .argument pending f [] :: site.enclosures }).congr
      fun t ht => by simp [ht]
  | numeral site pending n =>
    cases hn : Integer.ofNumeral? n.lexeme with
    | none => exact .inr fun t _ => ⟨.numberOutOfRange n, by simp [hn]⟩
    | some v =>
      exact (d.afterFactor_stops limit site pending (.number v)).congr fun t ht => by simp [hn]
  | factor site pending e => exact d.afterFactor_stops limit site pending e

/-- What becomes of a draft when the tokens of `ts` follow and the input ends at `stop`. -/
def outcome (limit : Option Nat) (stop : Token) (d : Draft) :
    List Token → Except SyntaxError Program
  | [] => (d.step limit stop).map Progress.program
  | t :: ts =>
    match d.step limit t with
    | .error e => .error e
    | .ok (.finished p) => .ok p
    | .ok (.more d) => d.outcome limit stop ts

@[simp] theorem outcome_nil (limit : Option Nat) (stop : Token) (d : Draft) :
    d.outcome limit stop [] = (d.step limit stop).map Progress.program := rfl

theorem outcome_cons {d d' : Draft} (h : d.step limit t = .ok (.more d')) (ts : List Token) :
    d.outcome limit stop (t :: ts) = d'.outcome limit stop ts := by
  rw [outcome, h]

/-- Drafts that read the next token alike have the same outcome. -/
theorem outcome_congr {d d' : Draft} {ts : List Token}
    (h : d.step limit (ts.headD stop) = d'.step limit (ts.headD stop)) :
    d.outcome limit stop ts = d'.outcome limit stop ts := by
  cases ts with
  | nil => exact congrArg (Except.map Progress.program) h
  | cons t ts =>
    rw [List.headD_cons] at h
    rw [outcome, outcome, h]

end Draft

def beforeEnd (ts : List Token) : List Token :=
  ts.takeWhile (·.kind ≠ .endOfInput)

theorem beforeEnd_kind (ts : List Token) : ∀ t ∈ beforeEnd ts, t.kind ≠ .endOfInput := by
  intro t ht
  have hall : (beforeEnd ts).all (·.kind ≠ .endOfInput) := List.all_takeWhile
  simpa using List.all_eq_true.1 hall t ht

theorem beforeEnd_front {front rest : List Token} (hfront : ∀ t ∈ front, t.kind ≠ .endOfInput)
    (hrest : ∀ t ∈ rest.head?, t.kind = .endOfInput) : beforeEnd (front ++ rest) = front := by
  rw [beforeEnd, List.takeWhile_append_of_pos (by simpa using hfront)]
  cases rest with
  | nil => exact List.append_nil front
  | cons t rest => simp [hrest t rfl]

/-- A stream of tokens is read up to its first end token, or its end. -/
theorem Draft.read_ok_iff (limit : Option Nat) (d : Draft) (ts : List Token) (p : Program) :
    (d.read limit (ts.map .ok)).result = .ok p ↔
      d.outcome limit .missingEnd (beforeEnd ts) = .ok p := by
  induction ts generalizing d with
  | nil =>
    simp only [List.map_nil, read, beforeEnd, List.takeWhile_nil, outcome_nil]
    cases d.step limit .missingEnd with
    | error e => exact ⟨nofun, nofun⟩
    | ok q => exact ⟨fun | rfl => rfl, fun | rfl => rfl⟩
  | cons t ts ih =>
    by_cases ht : t.kind = .endOfInput
    · have hb : beforeEnd (t :: ts) = [] := by simp [beforeEnd, ht]
      rw [hb, outcome_nil, List.map_cons, read]
      -- The end token in the stream stands elsewhere than the missing one.
      rcases d.step_stops limit with ⟨q, hq⟩ | he
      · rw [hq t ht, hq _ rfl]
        simp [Except.map, Progress.program]
      · obtain ⟨e, he'⟩ := he t ht
        obtain ⟨e', he''⟩ := he .missingEnd rfl
        simp [he', he'', Except.map]
    · have hb : beforeEnd (t :: ts) = t :: beforeEnd ts := by simp [beforeEnd, ht]
      rw [hb, List.map_cons, read, outcome]
      cases hs : d.step limit t with
      | error e => simp
      | ok q =>
        cases q with
        | more d' => exact ih d'
        | finished q => simp

end Scriptlet
