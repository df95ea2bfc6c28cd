import Scriptlet.Proofs.Frames
import Scriptlet.Proofs.Moment

namespace Scriptlet
set_option autoImplicit true

section
variable {ω : Type} {host : Host ω} {fuel : Nat} {p : Program} {m : Machine} {w : ω}
  {e : RuntimeError} {fault : Fault}

/-- In a run of the program a fault is met in the course of the statement, and no other statement
that began in its course is open then. -/
def Statement.MeetsIn (host : Host ω) (fuel : Nat) (p : Program) (m : Machine) (w : ω)
    (s : Statement) (fault : Fault) : Prop :=
  ∃ c b : Moment ω, c.Reached host fuel p m w ∧ c.activity = .statement s ∧ c.Evaluates host b ∧
    b.Meets host fault

/-- All the statements were executed, and then what was written could not be flushed. -/
def FlushRefused (host : Host ω) (fuel : Nat) (p : Program) (m : Machine) (w : ω)
    (reason : Refusal) : Prop :=
  ∃ n v, (runStatements fuel p).Yields host m w () n v ∧ (host .flush v).1 = .error reason

theorem runProgram_fails_of_statements (h : (runStatements fuel p).Fails host m w e) :
    (runProgram fuel p).Fails host m w e :=
  Eval.fails_bind_iff.2 (.inl h)

theorem runProgram_fails_cases (h : (runProgram fuel p).Fails host m w e) :
    (runStatements fuel p).Fails host m w e ∨
      ∃ reason, FlushRefused host fuel p m w reason ∧ e = ⟨.output reason, none⟩ := by
  rcases Eval.fails_bind_iff.1 h with h | ⟨_, n, v, hp, h⟩
  · exact .inl h
  · refine .inr ?_
    obtain ⟨n', v', h⟩ := h
    change (Eval.accept .output (host .flush v).1 n).run host (host .flush v).2 = _ at h
    cases hflush : (host .flush v).1 with
    | error reason =>
      rw [hflush] at h
      cases h
      exact ⟨reason, ⟨n, v, hp, hflush⟩, rfl⟩
    | ok a =>
      rw [hflush] at h
      cases h

theorem runProgram_fails_of_begins
    (hgets : (Plan.block .done p).Gets host (Activity.run fuel) m w (.begins a) n v)
    (ha : (Moment.mk fuel a n v).Fails host e) : (runProgram fuel p).Fails host m w e := by
  obtain ⟨s, -, hs⟩ := (Plan.gets_block_cases hgets).resolve_left Point.noConfusion
  cases hs
  have hblock := block_fails_iff.2 ⟨s, n, v, hgets, ha⟩
  exact runProgram_fails_of_statements (runStatements_fails_of_block hblock)

theorem Statement.MeetsIn.fails {s : Statement} (h : s.MeetsIn host fuel p m w fault) :
    (runProgram fuel p).Fails host m w ⟨fault, some s.position⟩ := by
  obtain ⟨c, b, ⟨a, n, v, hgets, hreaches⟩, hs, hb, hmeets⟩ := h
  have hfails := Moment.fails_of_evaluates hb hmeets
  rw [hs] at hfails
  exact runProgram_fails_of_begins hgets (Moment.fails_of_opens hreaches hfails)

theorem runProgram_fails_innermost (h : (runProgram fuel p).Fails host m w e)
    (hf : e.fault ≠ .returnOutsideFunction) :
    (∃ reason, FlushRefused host fuel p m w reason ∧ e = ⟨.output reason, none⟩) ∨
      ∃ s : Statement, s.MeetsIn host fuel p m w e.fault ∧ e.position = some s.position := by
  rcases runProgram_fails_cases h with h | h
  · refine .inr ?_
    obtain ⟨t, n, v, hgets, ht⟩ := block_fails_iff.1 (block_fails_of_runStatements h hf)
    obtain ⟨c, b, hc, hb, hmeets, hposition, hinner⟩ := ht.innermost
    -- The activity is a statement: the run started with one, and nothing else has a place.
    have hs : ∃ s, c.activity = .statement s := by
      rcases hinner with rfl | hplace
      · exact ⟨t, rfl⟩
      · cases ha : c.activity with
        | statement s => exact ⟨s, rfl⟩
        | _ =>
          rw [ha] at hplace
          exact absurd rfl hplace
    obtain ⟨s, hs⟩ := hs
    rw [hs] at hposition
    exact ⟨s, ⟨c, b, ⟨_, n, v, hgets, hc⟩, hs, hb, hmeets⟩, hposition⟩
  · exact .inl h

end

/-- An error that carries its places as wrappers around the fault, the outermost first. -/
inductive WrappedError
  | bare (fault : Fault)
  | inside (pos : Position) (source : WrappedError)

namespace WrappedError

/-- Wraps an error in the place of a statement, unless one further inside has done so. -/
def locate (pos : Position) : WrappedError → WrappedError
  | bare fault => inside pos (bare fault)
  | inside pos' source => inside pos' source

def root : WrappedError → Fault
  | bare fault => fault
  | inside _ source => source.root

def position : WrappedError → Option Position
  | bare _ => none
  | inside pos _ => some pos

def message : WrappedError → String
  | bare fault => fault.message
  | inside pos source => s!"{pos.text}: {source.message}"

def depth : WrappedError → Nat
  | bare _ => 0
  | inside _ source => source.depth + 1

/-- Errors as runs make them: a fault that is met, and an error that is wrapped. -/
inductive Arises : WrappedError → Prop
  | met (fault : Fault) : Arises (bare fault)
  | located (h : Arises e) (pos : Position) : Arises (e.locate pos)

end WrappedError

namespace RuntimeError

/-- The error with its place as a wrapper. -/
def wrapped (e : RuntimeError) : WrappedError :=
  e.position.elim (.bare e.fault) fun pos => .inside pos (.bare e.fault)

variable (e : RuntimeError)

theorem wrapped_locate (pos : Position) : (e.locate pos).wrapped = e.wrapped.locate pos := by
  obtain ⟨fault, _ | pos'⟩ := e <;> rfl

theorem wrapped_root : e.wrapped.root = e.fault := by
  obtain ⟨fault, _ | pos⟩ := e <;> rfl

theorem wrapped_position : e.wrapped.position = e.position := by
  obtain ⟨fault, _ | pos⟩ := e <;> rfl

theorem wrapped_message : e.wrapped.message = e.message := by
  obtain ⟨fault, _ | pos⟩ := e <;> rfl

theorem wrapped_depth : e.wrapped.depth ≤ 1 := by
  obtain ⟨fault, _ | pos⟩ := e
  · exact Nat.zero_le 1
  · exact Nat.le_refl 1

end RuntimeError

/-- The errors that arise by wrapping have one wrapper at most: they are a fault and perhaps a
place. -/
theorem WrappedError.arises_iff (e : WrappedError) :
    e.Arises ↔ ∃ e' : RuntimeError, e'.wrapped = e := by
  constructor
  · intro h
    induction h with
    | met fault => exact ⟨⟨fault, none⟩, rfl⟩
    | located _ pos ih =>
      obtain ⟨e', rfl⟩ := ih
      exact ⟨e'.locate pos, e'.wrapped_locate pos⟩
  · rintro ⟨⟨fault, _ | pos⟩, rfl⟩
    · exact .met fault
    · exact .located (.met fault) pos

theorem RuntimeError.eq_of_wrapped {e e' : RuntimeError} (h : e.wrapped = e'.wrapped) : e = e' := by
  have hroot := congrArg WrappedError.root h
  have hposition := congrArg WrappedError.position h
  rw [wrapped_root, wrapped_root] at hroot
  rw [wrapped_position, wrapped_position] at hposition
  cases e
  cases e'
  cases hroot
  cases hposition
  rfl

theorem Eval.fails_locate_wrapped {ω : Type} {host : Host ω} {w : ω} {x : Eval α} :
    (x.locate pos).Fails host m w e ↔
      ∃ e', x.Fails host m w e' ∧ e.wrapped = e'.wrapped.locate pos := by
  have hlocate : (x.locate pos).Fails host m w e ↔
      ∃ e', x.Fails host m w e' ∧ e = e'.locate pos := by
    change (locate? (some pos) x).Fails host m w e ↔ _
    exact fails_locate_iff
  rw [hlocate]
  constructor
  · rintro ⟨e', hfails, rfl⟩
    exact ⟨e', hfails, e'.wrapped_locate pos⟩
  · rintro ⟨e', hfails, he⟩
    exact ⟨e', hfails, RuntimeError.eq_of_wrapped (he.trans (e'.wrapped_locate pos).symm)⟩

/-- Errors point at the innermost failing statement. A run that fails, and not since it returns
outside all functions, either was refused its last flush, and its error has no place, or it met
its fault in the course of a statement within which no other one was open, and its error has the
place of that statement. Conversely a run that meets a fault so ends with that error. -/
theorem runProgram_blames_innermost {ω : Type} (host : Host ω) (fuel : Nat) (p : Program)
    (m : Machine) (w : ω) :
    (∀ e, (runProgram fuel p).Fails host m w e → e.fault ≠ .returnOutsideFunction →
      (∃ reason, FlushRefused host fuel p m w reason ∧ e = ⟨.output reason, none⟩) ∨
        ∃ s : Statement, s.MeetsIn host fuel p m w e.fault ∧ e.position = some s.position) ∧
    ∀ (s : Statement) (fault : Fault), s.MeetsIn host fuel p m w fault →
      (runProgram fuel p).Fails host m w ⟨fault, some s.position⟩ :=
  ⟨fun _ h hf => runProgram_fails_innermost h hf, fun _ _ h => h.fails⟩

/-- A loop whose condition cannot be evaluated after its first round. -/
def vanishingDivisor : Program :=
  [.assign ⟨1, 1⟩ "x" (.number 1),
    .loop ⟨2, 1⟩ (.binary (.arithmetic .divide) (.number 1) (.var "x"))
      [.assign ⟨3, 3⟩ "x" (.number 0)]]

theorem runProgram_blames_innermost_vanishingDivisor :
    ∃ s : Statement, s.position = ⟨2, 1⟩ ∧
      s.MeetsIn .willing 9 vanishingDivisor (.fresh 5) () .divisionByZero ∧
      (runProgram 9 vanishingDivisor).Fails .willing (.fresh 5) ()
        ⟨.divisionByZero, some s.position⟩ := by
  have hfails : (runProgram 9 vanishingDivisor).Fails .willing (.fresh 5) ()
      ⟨.divisionByZero, some ⟨2, 1⟩⟩ := ⟨_, _, rfl⟩
  obtain ⟨hblames, hends⟩ :=
    runProgram_blames_innermost .willing 9 vanishingDivisor (.fresh 5) ()
  rcases hblames _ hfails (by decide) with ⟨reason, ⟨n, v, -, hflush⟩, -⟩ | ⟨s, hs, hposition⟩
  · cases hflush
  · exact ⟨s, (Option.some.inj hposition).symm, hs, hends s _ hs⟩

end Scriptlet
