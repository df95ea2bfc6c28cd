import Mathlib
import Scriptlet.Proofs.Activation
import Scriptlet.Proofs.CallDepth
import Scriptlet.Proofs.Chronicle.Members

namespace Scriptlet
set_option autoImplicit true

def Deed.value? (x : String) : Deed → Option Value
  | .binds 0 y v => if y = x then some v else none
  | _ => none

def Deed.function? (name : String) : Deed → Option Function
  | .defines g f => if g = name then some f else none
  | _ => none

theorem Deed.value?_eq_some_iff {d : Deed} : d.value? x = some v ↔ d = .binds 0 x v := by
  constructor
  · intro h
    cases d with
    | binds level y u =>
      cases level with
      | zero =>
        obtain ⟨rfl, hv⟩ := Option.ite_none_right_eq_some.1 h
        cases hv
        rfl
      | succ level => cases h
    | defines name f => cases h
  · rintro rfl
    exact if_pos rfl

theorem Deed.function?_eq_some_iff {d : Deed} : d.function? name = some f ↔ d = .defines name f := by
  constructor
  · intro h
    cases d with
    | binds level y u => cases h
    | defines g f' =>
      obtain ⟨rfl, hf⟩ := Option.ite_none_right_eq_some.1 h
      cases hf
      rfl
  · rintro rfl
    exact if_pos rfl

/-- What the latest of the deeds put, of those that put anything. -/
def latest? (put? : Deed → Option β) (ds : List Deed) : Option β :=
  (ds.filterMap put?).getLast?

theorem latest?_eq_none_iff {put? : Deed → Option β} {ds : List Deed} :
    latest? put? ds = none ↔ ∀ d ∈ ds, put? d = none := by
  rw [latest?, List.getLast?_eq_none_iff, List.filterMap_eq_nil_iff]

theorem latest?_eq_none_of_iff {put? : Deed → Option β} {deed : β → Deed}
    (h : ∀ {d b}, put? d = some b ↔ d = deed b) {ds : List Deed} :
    latest? put? ds = none ↔ ∀ b, deed b ∉ ds := by
  rw [latest?_eq_none_iff]
  constructor
  · intro hnone b hb
    cases (hnone _ hb).symm.trans (h.2 rfl)
  · exact fun hall d hd => Option.eq_none_iff_forall_ne_some.2 fun b hb => hall b (h.1 hb ▸ hd)

theorem latest?_append_ne_none {put? : Deed → Option β} {ds : List Deed}
    (h : latest? put? ds ≠ none) (ds' : List Deed) : latest? put? (ds ++ ds') ≠ none := by
  rw [Ne, latest?_eq_none_iff] at h ⊢
  exact fun hall => h fun d hd => hall d (List.mem_append_left _ hd)

theorem latest?_value_eq_none_iff {x : String} {ds : List Deed} :
    latest? (Deed.value? x) ds = none ↔ ∀ v, .binds 0 x v ∉ ds :=
  latest?_eq_none_of_iff Deed.value?_eq_some_iff

theorem latest?_function_eq_none_iff {name : String} {ds : List Deed} :
    latest? (Deed.function? name) ds = none ↔ ∀ f, .defines name f ∉ ds :=
  latest?_eq_none_of_iff Deed.function?_eq_some_iff

namespace Memory

/-- What is looked up in memory is what the latest deed put there, if each deed puts there what it
is told to. -/
theorem look_after (look : Memory → Option β) (put? : Deed → Option β)
    (h : ∀ r d, look (r.add d) = (put? d).or (look r)) (r : Memory) (ds : List Deed) :
    look (r.after ds) = (latest? put? ds).or (look r) := by
  unfold latest?
  induction ds generalizing r with
  | nil => rfl
  | cons d ds ih =>
    have hadd : look (r.after (d :: ds)) = look ((r.add d).after ds) := rfl
    rw [hadd, ih, h, List.filterMap_cons]
    cases put? d with
    | none => rfl
    | some b =>
      rw [List.getLast?_cons]
      cases (ds.filterMap put?).getLast? <;> rfl

theorem find?_globals_after (r : Memory) (ds : List Deed) (x : String) :
    (r.after ds).globals.find? x = (latest? (Deed.value? x) ds).or (r.globals.find? x) := by
  have hadd (r : Memory) (d : Deed) :
      (r.add d).globals.find? x = (d.value? x).or (r.globals.find? x) := by
    cases d with
    | binds level y v =>
      cases level with
      | zero =>
        rw [add, Table.find?_insert, Deed.value?]
        split <;> rfl
      | succ level => rfl
    | defines g f => rfl
  exact look_after (fun r => r.globals.find? x) (Deed.value? x) hadd r ds

theorem find?_functions_after (r : Memory) (ds : List Deed) (name : String) :
    (r.after ds).functions.find? name =
      (latest? (Deed.function? name) ds).or (r.functions.find? name) := by
  have hadd (r : Memory) (d : Deed) :
      (r.add d).functions.find? name = (d.function? name).or (r.functions.find? name) := by
    cases d with
    | binds level y v => cases level <;> rfl
    | defines g f =>
      rw [add, Table.find?_insert, Deed.function?]
      split <;> rfl
  exact look_after (fun r => r.functions.find? name) (Deed.function? name) hadd r ds

end Memory

/-- Programs were run on the machine one after the other, each to its end or to an error and each
in any surroundings, and these are the deeds of all of them. -/
inductive Machine.Had (limit : Nat) : Machine → List Deed → Prop
  | fresh : Had limit (.fresh limit) []
  | run {ω : Type} {host : Host ω} {w w' : ω} {m m' : Machine} (h : Had limit m ds)
      (hr : (runProgram fuel p m).run host w = (some (r, m'), w')) :
      Had limit m' (ds ++ deeds (Program.chronicle host fuel p m w))

section
variable {ω : Type} {host : Host ω} {c : Moment ω} {m : Machine}

theorem Machine.Had.memory (h : m.Had limit ds) : m.memory = Memory.after ⟨.empty, .empty⟩ ds := by
  induction h with
  | fresh => rfl
  | run h hr ih => rw [((told_runProgram _ _ _).ends hr).2, ih, Memory.after_append]

theorem Machine.find?_globals (h : m.memory = Memory.after ⟨.empty, .empty⟩ ds) (x : String) :
    m.globals.find? x = latest? (Deed.value? x) ds := by
  have hfind := Memory.find?_globals_after ⟨.empty, .empty⟩ ds x
  rw [← h, Table.find?_empty, Option.or_none] at hfind
  exact hfind

theorem Machine.find?_functions (h : m.memory = Memory.after ⟨.empty, .empty⟩ ds) (name : String) :
    m.functions.find? name = latest? (Deed.function? name) ds := by
  have hfind := Memory.find?_functions_after ⟨.empty, .empty⟩ ds name
  rw [← h, Table.find?_empty, Option.or_none] at hfind
  exact hfind

theorem Machine.globals_of_active (h : m.active = 0) : m.globals = m.current := by
  rw [globals, List.length_eq_zero_iff.1 h]
  rfl

theorem Primitive.CanMeet.eq_lookup {q : Primitive} (h : q.CanMeet (.undefinedVariable x)) :
    q = .lookup x := by
  cases q with
  | lookup y =>
    cases h
    rfl
  | operate op a b => rcases Value.binary_error_cases h with h | ⟨_, h⟩ | h <;> cases h
  | _ => simp [CanMeet] at h

theorem Activity.Does.eq_value {a : Activity} (h : a.Does (.lookup x)) : a = .value (.var x) := by
  cases a with
  | value e =>
    cases e with
    | var y =>
      cases h
      rfl
    | _ => simp [Does] at h
  | act s => cases s <;> simp [Does] at h
  | _ => simp [Does] at h

theorem Activity.Does.eq_call {a : Activity} (h : a.Does (.callee name count)) :
    ∃ es, a = .call name es := by
  cases a with
  | call f es =>
    rcases h with h | ⟨_, _, h⟩
    · cases h
      exact ⟨es, rfl⟩
    · cases h
  | value e => cases e <;> simp [Does] at h
  | act s => cases s <;> simp [Does] at h
  | statement s => simp [Does] at h

theorem Eval.variableValue_eq (x : String) (m : Machine) : variableValue x m =
    (m.current.find? x).elim (Eval.fail (.undefinedVariable x)) Eval.pure m := by
  have hget (f : Machine → Eval Value) : (get >>= f) m = f m m := rfl
  rw [variableValue, hget]
  cases m.current.find? x <;> rfl

theorem Eval.fails_variableValue {w : ω} (h : (variableValue x).Fails host m w e) :
    m.current.find? x = none := by
  obtain ⟨n, v, h⟩ := h
  rw [variableValue_eq] at h
  cases hfind : m.current.find? x with
  | none => rfl
  | some u =>
    rw [hfind] at h
    cases h

theorem Eval.fails_callee_undefined {w : ω}
    (h : (callee name count).Fails host m w ⟨.undefinedFunction g, none⟩) :
    m.functions.find? name = none := by
  rw [callee_eq] at h
  have herror : m.callee name count = .error (.undefinedFunction g) := fails_ofExcept_iff.1 h
  rcases m.callee_cases name count with
    ⟨hnone, -⟩ | ⟨f, -, -, he⟩ | ⟨f, -, -, -, he⟩ | ⟨f, -, -, -, he⟩
  · exact hnone
  · cases he.symm.trans herror
  · cases he.symm.trans herror
  · cases he.symm.trans herror

theorem Moment.Meets.undefinedVariable (h : c.Meets host (.undefinedVariable x)) :
    c.machine.current.find? x = none := by
  obtain ⟨q, n, v, hgets, hq⟩ := h
  obtain rfl := (q.failsOnly host n v _ hq).2.eq_lookup
  have hactivity := hgets.does.eq_value
  obtain ⟨hgets⟩ := hgets
  obtain rfl := hactivity
  change (Plan.step (.lookup x) .done).Gets _ _ _ _ _ _ _ at hgets
  cases hgets with
  | does => exact Eval.fails_variableValue hq
  | step hlookup hgets => cases hgets

theorem Moment.Meets.undefinedFunction (h : c.Meets host (.undefinedFunction name)) :
    c.machine.functions.find? name = none := by
  obtain ⟨q, n, v, hgets, hq⟩ := h
  obtain ⟨count, rfl⟩ := (q.failsOnly host n v _ hq).2.eq_callee_of (.inl rfl)
  obtain ⟨es, hactivity⟩ := hgets.does.eq_call
  obtain ⟨hgets⟩ := hgets
  obtain rfl := hactivity
  change (Plan.step (.callee name es.length) _).Gets _ _ _ _ _ _ _ at hgets
  cases hgets with
  | does => exact Eval.fails_callee_undefined hq
  | step hcallee hgets =>
    -- Behind the lookup a call itself only tells that the body begins.
    have hnote : ∃ f values, Primitive.callee name count = .note (.enter name f values) := by
      refine hgets.does_of_all (A := fun q => ∃ f values, q = .note (.enter name f values)) ?_ rfl
      refine Plan.all_each (fun values => ?_) es
      refine ⟨⟨_, values, rfl⟩, fun _ => ⟨Plan.all_block_done _, fun flow => ?_⟩⟩
      cases flow <;> trivial
    obtain ⟨_, _, hnote⟩ := hnote
    cases hnote

/-- What a call comes to once the function is found, whatever is defined from then on. -/
def Function.applied (k : Nat) (name : String) (es : List Expression) (f : Function) : Eval Value :=
  Eval.bind (Eval.each (evaluate k) es) fun values =>
  Eval.bind (Eval.note (.enter name f values)) fun _ =>
  Eval.bind (Eval.within name (f.scope values) (Eval.block (execute k) f.body)) fun flow =>
  Eval.pure flow.value

/-- A call of the function, for which there have to be as many arguments as it has parameters, and
fewer active calls than may be. -/
def Function.called (k : Nat) (name : String) (es : List Expression) (f : Function) : Eval Value :=
  fun m =>
    if es.length ≠ f.parameters.length then
      Eval.fail (.arityMismatch name f.parameters.length es.length) m
    else if m.callLimit ≤ m.active then Eval.fail (.callDepthExceeded name m.callLimit) m
    else f.applied k name es m

theorem invoke_eq_applied (k : Nat) (name : String) (es : List Expression) :
    invoke (k + 1) name es = (Eval.callee name es.length).bind (Function.applied k name es) := by
  refine Eval.bind_congr fun f => Eval.bind_congr fun values => Eval.bind_congr fun _ => ?_
  refine Eval.bind_congr fun flow => ?_
  cases flow <;> rfl

theorem invoke_eq (k : Nat) (name : String) (es : List Expression) (m : Machine) :
    invoke (k + 1) name es m =
      (m.functions.find? name).elim (Eval.fail (.undefinedFunction name))
        (Function.called k name es) m := by
  have hcallee : Eval.callee name es.length m = Eval.ofExcept (m.callee name es.length) m := by
    rw [Eval.callee_eq]
    rfl
  rw [invoke_eq_applied]
  unfold Eval.bind
  rw [hcallee]
  rcases m.callee_cases name es.length with
    ⟨hnone, he⟩ | ⟨f, hf, hcount, he⟩ | ⟨f, hf, hcount, hlimit, he⟩ | ⟨f, hf, hcount, hlimit, he⟩
  · rw [hnone, he]
    rfl
  · rw [hf, he]
    exact (if_pos hcount).symm
  · rw [hf, he]
    exact ((if_neg (not_not_intro hcount)).trans (if_pos hlimit)).symm
  · rw [hf, he]
    exact ((if_neg (not_not_intro hcount)).trans (if_neg (Nat.not_le_of_lt hlimit))).symm

/-- At the moment the machine remembers what the deeds put there and nothing else, and a call that
begins then is one of the function that was defined last. -/
structure Moment.Remembers (host : Host ω) (ds : List Deed) (c : Moment ω) : Prop where
  globals : ∀ x, c.machine.globals.find? x = latest? (Deed.value? x) ds
  functions : ∀ name, c.machine.functions.find? name = latest? (Deed.function? name) ds
  calls : ∀ k name es, invoke (k + 1) name es c.machine =
    (latest? (Deed.function? name) ds).elim (Eval.fail (.undefinedFunction name))
      (Function.called k name es) c.machine
  lookups : c.machine.active = 0 → ∀ k x, evaluate (k + 1) (.var x) c.machine =
    (latest? (Deed.value? x) ds).elim (Eval.fail (.undefinedVariable x)) Eval.pure c.machine
  undefinedVariable : ∀ x, c.Meets host (.undefinedVariable x) → c.machine.active = 0 →
    ∀ v, .binds 0 x v ∉ ds
  undefinedFunction : ∀ name, c.Meets host (.undefinedFunction name) → ∀ f, .defines name f ∉ ds

theorem Moment.remembers (h : c.machine.memory = Memory.after ⟨.empty, .empty⟩ ds) :
    c.Remembers host ds where
  globals := Machine.find?_globals h
  functions := Machine.find?_functions h
  calls k name es := by rw [invoke_eq, Machine.find?_functions h]
  lookups hactive k x := by
    rw [← Machine.find?_globals h, Machine.globals_of_active hactive]
    exact Eval.variableValue_eq x c.machine
  undefinedVariable x hmeets hactive := by
    have hnone := hmeets.undefinedVariable
    rw [← Machine.globals_of_active hactive, Machine.find?_globals h] at hnone
    exact latest?_value_eq_none_iff.1 hnone
  undefinedFunction name hmeets := by
    have hnone := hmeets.undefinedFunction
    rw [Machine.find?_functions h] at hnone
    exact latest?_function_eq_none_iff.1 hnone

/-- A run that fails for want of a variable or a function does so where that is looked up. -/
theorem runProgram_fails_undefined {fuel : Nat} {p : Program} {w : ω}
    (h : (runProgram fuel p).Fails host m w e)
    (hfault : ∃ x, e.fault = .undefinedVariable x ∨ e.fault = .undefinedFunction x) :
    ∃ c : Moment ω, c.Reached host fuel p m w ∧ c.Meets host e.fault := by
  obtain ⟨x, hfault⟩ := hfault
  have hstray : e.fault ≠ .returnOutsideFunction := by
    rcases hfault with hfault | hfault <;> rw [hfault] <;> exact Fault.noConfusion
  rcases runProgram_fails_innermost h hstray with
    ⟨reason, -, rfl⟩ | ⟨s, ⟨c, b, hc, -, hb, hmeets⟩, -⟩
  · rcases hfault with hfault | hfault <;> cases hfault
  · exact ⟨b, hc.trans hb.reaches, hmeets⟩

end

/-- What is defined matches the history of all runs and never gets lost. Between runs and whenever
an activity begins in a run, a global variable holds what was bound to it last by a statement
outside all calls, and a function is what was defined last under its name, however deep in calls and
whatever became of these. A name is unbound outside all calls only if it never was bound there, and
undefined only if it never was defined. -/
theorem memory_matches_history {m : Machine} (h : m.Had limit ds) :
    (∀ x, m.globals.find? x = latest? (Deed.value? x) ds) ∧
    (∀ name, m.functions.find? name = latest? (Deed.function? name) ds) ∧
    (∀ x, m.globals.find? x = none ↔ ∀ v, .binds 0 x v ∉ ds) ∧
    (∀ name, m.functions.find? name = none ↔ ∀ f, .defines name f ∉ ds) ∧
    ∀ {ω : Type} (host : Host ω) (fuel : Nat) (p : Program) (w : ω),
      (∀ d, d ∈ deeds (Program.chronicle host fuel p m w) ↔
        ∃ c : Moment ω, c.Reached host fuel p m w ∧ c.deed? host = some d) ∧
      (∀ c : Moment ω, .begins c ∈ Program.chronicle host fuel p m w ↔
        c.Reached host fuel p m w) ∧
      (∀ (before : List (Incident ω)) (c : Moment ω) after,
        Program.chronicle host fuel p m w = before ++ .begins c :: after →
        c.Remembers host (ds ++ deeds before)) ∧
      (∀ r m' w', (runProgram fuel p m).run host w = (some (r, m'), w') →
        m'.Had limit (ds ++ deeds (Program.chronicle host fuel p m w)) ∧
        (∀ x, m.globals.find? x ≠ none → m'.globals.find? x ≠ none) ∧
        ∀ name, m.functions.find? name ≠ none → m'.functions.find? name ≠ none) ∧
      ∀ e, (runProgram fuel p).Fails host m w e →
        (∃ x, e.fault = .undefinedVariable x ∨ e.fault = .undefinedFunction x) →
        ∃ c, .begins c ∈ Program.chronicle host fuel p m w ∧ c.Meets host e.fault := by
  have hmemory := h.memory
  have hglobals := Machine.find?_globals hmemory
  have hfunctions := Machine.find?_functions hmemory
  refine ⟨hglobals, hfunctions, ?_, ?_, fun host fuel p w =>
    ⟨fun d => Program.mem_deeds_chronicle_iff, fun c => Program.begins_mem_chronicle_iff,
      ?_, ?_, ?_⟩⟩
  · intro x
    rw [hglobals, latest?_value_eq_none_iff]
  · intro name
    rw [hfunctions, latest?_function_eq_none_iff]
  · intro before c after hsplit
    apply Moment.remembers
    have hfaithful := (told_runProgram host fuel p).faithful m w
    rw [hsplit] at hfaithful
    rw [hfaithful.begins, hmemory, Memory.after_append]
  · intro r m' w' hr
    have hhad : m'.Had limit (ds ++ deeds (Program.chronicle host fuel p m w)) := h.run hr
    refine ⟨hhad, fun x hx => ?_, fun name hname => ?_⟩
    · rw [Machine.find?_globals hhad.memory]
      exact latest?_append_ne_none (hglobals x ▸ hx) _
    · rw [Machine.find?_functions hhad.memory]
      exact latest?_append_ne_none (hfunctions name ▸ hname) _
  · intro e he hfault
    obtain ⟨c, hc, hmeets⟩ := runProgram_fails_undefined he hfault
    exact ⟨c, Program.begins_mem_chronicle_iff.2 hc, hmeets⟩

def innerFunction : Function :=
  ⟨[], [.giveBack ⟨2, 17⟩ (.number 1)]⟩

def failingDefiner : Program :=
  [.function ⟨1, 1⟩ "f" [] [.function ⟨2, 3⟩ "g" innerFunction.parameters innerFunction.body,
    .print ⟨3, 3⟩ (.var "y")], .call ⟨4, 1⟩ "f" []]

/-- What the failing call defined is there in the next run. -/
theorem memory_matches_history_failingDefiner : ∃ m' : Machine,
    (runProgram 9 failingDefiner (.fresh 5)).run .willing () =
      (some (.error ⟨.undefinedVariable "y", some ⟨3, 3⟩⟩, m'), ()) ∧
    m'.functions.find? "g" = some innerFunction ∧ m'.globals.find? "y" = none := by
  obtain ⟨m', hrun⟩ : ∃ m', (runProgram 9 failingDefiner (.fresh 5)).run Host.willing () =
      (some (.error ⟨.undefinedVariable "y", some ⟨3, 3⟩⟩, m'), ()) := ⟨_, rfl⟩
  obtain ⟨hglobals, hfunctions, -⟩ := memory_matches_history (.run .fresh hrun)
  have hdeeds : deeds (Program.chronicle Host.willing 9 failingDefiner (.fresh 5) ()) =
      [.defines "f" ⟨[], [.function ⟨2, 3⟩ "g" innerFunction.parameters innerFunction.body,
        .print ⟨3, 3⟩ (.var "y")]⟩, .defines "g" innerFunction] := rfl
  rw [hdeeds] at hglobals hfunctions
  exact ⟨m', hrun, (hfunctions "g").trans rfl, (hglobals "y").trans rfl⟩

end Scriptlet
