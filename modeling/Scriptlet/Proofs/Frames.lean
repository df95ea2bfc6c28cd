import Scriptlet.Proofs.Lockstep

namespace Scriptlet
set_option autoImplicit true

namespace Machine

/-- The scopes of all activations, the running one first. -/
def frames (m : Machine) : List Scope :=
  m.current :: m.callers

theorem Alike.refl (m : Machine) : m.Alike m :=
  ⟨rfl, rfl, rfl, rfl⟩

theorem Beside.refl (m : Machine) : Beside m.callLimit m.callers m.callers m m :=
  ⟨.refl m, rfl, rfl, rfl⟩

end Machine

section
variable {ω : Type} {host : Host ω} {m m' : Machine} {w w' : ω}

theorem Eval.Lockstep.ends {x : Eval α} (hx : x.Lockstep R) (hm : R m m)
    (hr : (x m).run host w = (some (r, m'), w')) : R m' m' := by
  obtain ⟨hrel, -⟩ := (hx m m hm).run host w
  rw [hr] at hrel
  cases hrel with
  | some h => exact h.2

theorem evaluate_frames (h : (evaluate fuel e m).run host w = (some (r, m'), w')) :
    m'.frames = m.frames := by
  have hx := (steady fuel).evaluate e m.current m.callLimit m.callers m.callers
  obtain ⟨hcallers, hcurrent⟩ := hx.ends ⟨.refl m, rfl⟩ h
  rw [Machine.frames, hcurrent, hcallers.left]
  rfl

theorem execute_callers (h : (execute fuel s m).run host w = (some (r, m'), w')) :
    m'.callers = m.callers :=
  (((steady fuel).execute s m.callLimit m.callers m.callers).ends (.refl m) h).left

theorem block_callers (h : (Eval.block (execute fuel) ss m).run host w = (some (r, m'), w')) :
    m'.callers = m.callers :=
  (((steady fuel).block ss).ends (Machine.Beside.refl m) h).left

theorem lockstep_runStatements (fuel : Nat) (ss : List Statement) :
    (runStatements fuel ss).Lockstep (Machine.Beside limit cs cs') := by
  induction ss with
  | nil => exact Eval.lockstep_pure ()
  | cons s rest ih =>
    apply ((steady fuel).execute s limit cs cs').bind
    intro flow
    cases flow with
    | normal => exact ih
    | giveBack v => exact (Eval.lockstep_fail _).locate s.position

theorem lockstep_runProgram (fuel : Nat) (p : Program) :
    (runProgram fuel p).Lockstep (Machine.Beside limit cs cs') := by
  apply (lockstep_runStatements fuel p).bind
  intro _
  apply (Eval.lockstep_talk (Dialogue.request .flush)).bind
  exact Eval.lockstep_accept .output

theorem runProgram_callers (h : (runProgram fuel p m).run host w = (some (r, m'), w')) :
    m'.callers = m.callers :=
  ((lockstep_runProgram fuel p).ends (.refl m) h).left

end

/-- A machine on which programs were run one after the other, each to its end or to an error, and
each in any surroundings. -/
inductive Machine.AfterRuns (limit : Nat) : Machine → Prop
  | fresh : AfterRuns limit (.fresh limit)
  | run {ω : Type} {host : Host ω} {w w' : ω} {m m' : Machine} (h : AfterRuns limit m)
      (hr : (runProgram fuel p m).run host w = (some (r, m'), w')) : AfterRuns limit m'

theorem Machine.AfterRuns.callers {m : Machine} (h : m.AfterRuns limit) : m.callers = [] := by
  induction h with
  | fresh => rfl
  | run h hr ih => rw [runProgram_callers hr, ih]

/-- The frames of all activations survive every evaluation as they are, and those below the running
one every statement, whichever way these end; an activation that ends has the frames below it that
it was started on. Between runs the globals are the only frame. -/
theorem frames_isolated {ω : Type} (host : Host ω) (fuel : Nat) (m : Machine) (w : ω) :
    (∀ e r m' w', (evaluate fuel e m).run host w = (some (r, m'), w') → m'.frames = m.frames) ∧
    (∀ s r m' w', (execute fuel s m).run host w = (some (r, m'), w') →
      m'.frames.length = m.frames.length ∧ m'.frames.tail = m.frames.tail) ∧
    (∀ ss r m' w', (Eval.block (execute fuel) ss m).run host w = (some (r, m'), w') →
      m'.frames.length = m.frames.length ∧ m'.frames.tail = m.frames.tail) ∧
    (∀ body scope r m' w',
      (Eval.block (execute fuel) body (m.enter scope)).run host w = (some (r, m'), w') →
      m'.frames.tail = m.frames ∧ m'.leave.frames = m.frames) ∧
    ∀ limit, m.AfterRuns limit → m.frames = [m.globals] := by
  refine ⟨?_, ?_, ?_, ?_, ?_⟩
  · intro e r m' w' h
    exact evaluate_frames h
  · intro s r m' w' h
    have hc := execute_callers h
    exact ⟨congrArg (·.length + 1) hc, hc⟩
  · intro ss r m' w' h
    have hc := block_callers h
    exact ⟨congrArg (·.length + 1) hc, hc⟩
  · intro body scope r m' w' h
    have hc := block_callers h
    refine ⟨hc, ?_⟩
    rw [Eval.leave_eq hc]
    rfl
  · intro limit h
    have hc := h.callers
    rw [Machine.frames, Machine.globals, hc]
    rfl

def Host.willing : Host Unit
  | .readFile _, w => (.error .noEntry, w)
  | .readLine, w => (.ok none, w)
  | .complain _, w | .note _, w => ((), w)
  | .write _, w | .flush, w | .record _, w | .openLog _, w | .writeFile .., w
  | .appendFile .., w | .removeFile _, w | .createDirectories _, w => (.ok (), w)

/-- A program whose function binds a variable of its own and then meets a fault, and a call. -/
def faultyProgram : Program :=
  [.function ⟨1, 1⟩ "f" [] [.assign ⟨1, 14⟩ "x" (.number 2), .print ⟨1, 23⟩ (.var "y")],
    .print ⟨2, 1⟩ (.call "f" [])]

def faultyMachine : Machine :=
  ⟨.empty, [], Table.empty.insert "f"
    ⟨[], [.assign ⟨1, 14⟩ "x" (.number 2), .print ⟨1, 23⟩ (.var "y")]⟩, 5⟩

theorem frames_isolated_faulty_call :
    (∃ m', (evaluate 9 (.call "f" []) faultyMachine).run .willing () =
        (some (.error ⟨.undefinedVariable "y", some ⟨1, 23⟩⟩, m'), ()) ∧
      m'.frames = faultyMachine.frames) ∧
    ∃ m', (runProgram 9 faultyProgram (.fresh 5)).run .willing () =
        (some (.error ⟨.undefinedVariable "y", some ⟨1, 23⟩⟩, m'), ()) ∧
      m'.frames = [m'.globals] := by
  have hcall : (evaluate 9 (.call "f" []) faultyMachine).run Host.willing () =
      (some (.error ⟨.undefinedVariable "y", some ⟨1, 23⟩⟩, faultyMachine), ()) := rfl
  have hrun : (runProgram 9 faultyProgram (.fresh 5)).run Host.willing () =
      (some (.error ⟨.undefinedVariable "y", some ⟨1, 23⟩⟩, faultyMachine), ()) := rfl
  obtain ⟨hevaluate, -, -, -, hbetween⟩ := frames_isolated Host.willing 9 faultyMachine ()
  refine ⟨⟨faultyMachine, hcall, ?_⟩, faultyMachine, hrun, ?_⟩
  · exact hevaluate _ _ faultyMachine () hcall
  · exact hbetween 5 (.run .fresh hrun)

end Scriptlet
