import Scriptlet.Program.Reading
import Scriptlet.Proofs.Transition

namespace Scriptlet
set_option autoImplicit true

variable {P : Token → Prop}

/-- One of the tokens that `P` holds of spells the keyword and stands at the place. -/
def Keyword.StandsAt (P : Token → Prop) (k : Keyword) (pos : Position) : Prop :=
  ∃ t, P t ∧ t.isKeyword k.word ∧ t.position = pos

def Construct.keyword : Construct → Keyword
  | .test => .test
  | .loop => .loop

/-- The error tells of tokens that `P` holds of. -/
inductive SyntaxError.Refers (P : Token → Prop) : SyntaxError → Prop
  | unexpectedToken (ht : P t) : Refers P (.unexpectedToken expected t)
  | invalidStatement (ht : P t) : Refers P (.invalidStatement t)
  | missingEnd (h : construct.keyword.StandsAt P pos) : Refers P (.missingEnd construct pos)
  | missingFunctionEnd (h : Keyword.function.StandsAt P pos) :
      Refers P (.missingFunctionEnd name pos)
  | nestingTooDeep (ht : P t) : Refers P (.nestingTooDeep limit t.position)
  | numberOutOfRange (ht : P t) : Refers P (.numberOutOfRange t)

theorem SyntaxError.Refers.position {e : SyntaxError} (h : e.Refers P) :
    ∃ t, P t ∧ t.position = e.position := by
  cases h with
  | unexpectedToken ht => exact ⟨_, ht, rfl⟩
  | invalidStatement ht => exact ⟨_, ht, rfl⟩
  | missingEnd h =>
    obtain ⟨t, ht, -, hp⟩ := h
    exact ⟨t, ht, hp⟩
  | missingFunctionEnd h =>
    obtain ⟨t, ht, -, hp⟩ := h
    exact ⟨t, ht, hp⟩
  | nestingTooDeep ht => exact ⟨_, ht, rfl⟩
  | numberOutOfRange ht => exact ⟨_, ht, rfl⟩

def Header.keyword : Header → Keyword
  | .ifThen _ | .ifElse _ _ => .test
  | .loop _ => .loop
  | .function _ _ => .function

/-- Where the expression in a slot has a block behind it, the place is that of the block's word. -/
def Slot.Recalls (P : Token → Prop) (pos : Position) : Slot → Prop
  | .ifCondition => Keyword.test.StandsAt P pos
  | .loopCondition => Keyword.loop.StandsAt P pos
  | _ => True

/-- What a phase keeps for errors to tell of comes from tokens that `P` holds of. -/
def Phase.Recalls (P : Token → Prop) : Phase → Prop
  | .callee start => P start
  | .functionName pos | .functionParen pos _ | .firstParameter pos _ | .parameter pos _ _
  | .parameterEnd pos _ _ => Keyword.function.StandsAt P pos
  | .block pos header => header.keyword.StandsAt P pos
  | .numeral site _ n => P n ∧ site.slot.Recalls P site.pos
  | .expression site | .operand site _ | .name site _ _ | .firstArgument site _ _
  | .factor site _ _ => site.slot.Recalls P site.pos
  | _ => True

def OpenedBy (P : Token → Prop) (blocks : List OpenBlock) : Prop :=
  ∀ b ∈ blocks, b.header.keyword.StandsAt P b.pos

/-- What a draft keeps for errors to tell of comes from tokens that `P` holds of. -/
structure Draft.Recalls (P : Token → Prop) (d : Draft) : Prop where
  blocks : OpenedBy P d.blocks
  phase : d.phase.Recalls P

/-- What came of the token `t` tells of tokens that `P` holds of, and is a program only if `t` ends
the input. -/
def Recounts (P : Token → Prop) (t : Token) : Except SyntaxError Progress → Prop
  | .error e => e.Refers P
  | .ok (.more d) => d.Recalls P
  | .ok (.finished _) => t.kind = .endOfInput

theorem Header.unclosed_refers {header : Header} (h : header.keyword.StandsAt P pos) :
    (header.unclosed pos).Refers P := by
  cases header with
  | ifThen c => exact .missingEnd h
  | ifElse c body => exact .missingEnd h
  | loop c => exact .missingEnd h
  | function f xs => exact .missingFunctionEnd h

theorem Keyword.phase_recalls (h : Keyword.StandsAt P k pos) : (k.phase pos).Recalls P := by
  cases k with
  | test => exact h
  | loop => exact h
  | function => exact h
  | _ => trivial

theorem OpenedBy.add {d : Draft} (h : OpenedBy P d.blocks) (s : Statement) :
    OpenedBy P (d.add s).blocks := by
  unfold Draft.add
  cases hb : d.blocks with
  | nil => exact fun b hb => absurd hb List.not_mem_nil
  | cons b outer =>
    rw [hb] at h
    exact List.forall_mem_cons.2 (List.forall_mem_cons.1 h)

namespace Draft

variable {d d' : Draft} {t : Token} {phase : Phase}

theorem recalls_add (h : OpenedBy P d.blocks) (s : Statement) : (d.add s).Recalls P := by
  refine ⟨h.add s, ?_⟩
  rw [phase_add]
  trivial

theorem Passes.recalls (h : d.Passes limit t phase d') (hd : (d.goto phase).Recalls P) :
    d'.Recalls P := by
  have hb : OpenedBy P d.blocks := hd.blocks
  have hp : phase.Recalls P := hd.phase
  cases h with
  | block => exact ⟨List.forall_mem_cons.2 ⟨hp, hb⟩, trivial⟩
  | content | firstStatementArgument => exact ⟨hb, trivial⟩
  | numeral => exact ⟨hb, hp.2⟩
  | @filled _ _ slot _ _ _ hf =>
    cases slot <;> cases hf <;> first | exact recalls_add hb _ | exact ⟨hb, hp⟩
  | _ => exact ⟨hb, hp⟩

theorem Takes.recounts (h : d.Takes limit t phase r) (hd : (d.goto phase).Recalls P) (ht : P t) :
    Recounts P t r := by
  have hb : OpenedBy P d.blocks := hd.blocks
  have hp : phase.Recalls P := hd.phase
  cases h with
  | tooDeep => exact .nestingTooDeep ht
  | unexpected => exact .unexpectedToken ht
  | noStatement => exact .invalidStatement ht
  | noCall => exact .invalidStatement hp
  | outOfRange => exact .numberOutOfRange hp.1
  | unclosed _ hblocks =>
    rw [hblocks] at hb
    exact Header.unclosed_refers (List.forall_mem_cons.1 hb).1
  | finish hk => exact hk
  | blockEnd _ hblocks =>
    rw [hblocks] at hb
    exact recalls_add (d := ⟨d.reversed, _, .statement⟩) (List.forall_mem_cons.1 hb).2 _
  | otherwise _ hblocks =>
    rw [hblocks] at hb
    obtain ⟨hword, houter⟩ := List.forall_mem_cons.1 hb
    exact ⟨houter, hword⟩
  | keyword hword => exact ⟨hb, Keyword.phase_recalls ⟨t, ht, hword, rfl⟩⟩
  | plainName => exact ⟨hb, ht⟩
  | numeral => exact ⟨hb, ht, hp⟩
  | noStatementArgument | target | lastStatementArgument => exact recalls_add hb _
  | callee | assignName | assignEqual => exact ⟨hb, trivial⟩
  | _ => exact ⟨hb, hp⟩

theorem Steps.recounts (h : Steps limit t d r) (hd : d.Recalls P) (ht : P t) : Recounts P t r := by
  induction h with
  | takes h => exact h.recounts hd ht
  | passes h _ ih => exact ih (h.recalls hd)

/-- One token more is all that the next draft, or the error, can tell of beyond the draft. -/
theorem Recalls.step (h : d.Recalls P) (ht : P t) (limit : Option Nat) :
    Recounts P t (d.step limit t) :=
  (d.steps_step limit t).recounts h ht

end Draft

end Scriptlet
