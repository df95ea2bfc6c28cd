import Scriptlet.Proofs.Plan

namespace Scriptlet
set_option autoImplicit true

section
variable {ω : Type} {host : Host ω} {m n : Machine} {w v : ω} {e : RuntimeError}

/-- Started on a machine and in a system as they are, a computation ends with a result, and leaves
the machine and the system as given. -/
def Eval.Yields (x : Eval α) (host : Host ω) (m : Machine) (w : ω) (a : α) (n : Machine) (v : ω) :
    Prop :=
  (x m).run host w = (some (.ok a, n), v)

/-- A computation ends with an error. -/
def Eval.Fails (x : Eval α) (host : Host ω) (m : Machine) (w : ω) (e : RuntimeError) : Prop :=
  ∃ n v, (x m).run host w = (some (.error e, n), v)

theorem Eval.fails_bind_iff {x : Eval α} {f : α → Eval β} :
    (x.bind f).Fails host m w e ↔ x.Fails host m w e ∨
      ∃ a n v, x.Yields host m w a n v ∧ (f a).Fails host n v e := by
  unfold Fails Yields
  rw [Eval.run_bind]
  rcases (x m).run host w with ⟨_ | ⟨e' | a, n⟩, v⟩
  · simp
  · simp
  · simp only [Prod.mk.injEq, Option.some.injEq, Except.ok.injEq, reduceCtorEq, false_and,
      exists_false, false_or]
    constructor
    · exact fun h => ⟨a, n, v, ⟨⟨rfl, rfl⟩, rfl⟩, h⟩
    · rintro ⟨_, _, _, ⟨⟨rfl, rfl⟩, rfl⟩, h⟩
      exact h

theorem Eval.yields_bind_iff {x : Eval α} {f : α → Eval β} :
    (x.bind f).Yields host m w b n v ↔
      ∃ a n' v', x.Yields host m w a n' v' ∧ (f a).Yields host n' v' b n v := by
  unfold Yields
  rw [Eval.run_bind]
  rcases (x m).run host w with ⟨_ | ⟨e | a, n'⟩, v'⟩
  · simp
  · simp
  · constructor
    · exact fun h => ⟨a, n', v', rfl, h⟩
    · rintro ⟨_, _, _, h', h⟩
      cases h'
      exact h

theorem Eval.yields_bind_of {x : Eval α} {f : α → Eval β} (hx : x.Yields host m w a n v) :
    (x.bind f).Yields host m w b k u ↔ (f a).Yields host n v b k u := by
  unfold Yields
  rw [Eval.run_bind, hx]

theorem Eval.fails_within_iff {x : Eval Flow} :
    (Eval.within name scope x).Fails host m w e ↔ x.Fails host (m.enter scope) w e := by
  unfold Fails Eval.within
  rw [Dialogue.run_bind]
  rcases (x (m.enter scope)).run host w with ⟨_ | ⟨r, n⟩, v⟩
  · simp
  · constructor
    · rintro ⟨n', v', h⟩
      cases h
      exact ⟨n, v, rfl⟩
    · rintro ⟨n', v', h⟩
      cases h
      exact ⟨_, _, rfl⟩

theorem Eval.yields_within_iff {x : Eval Flow} :
    (Eval.within name scope x).Yields host m w flow n v ↔ ∃ n' v',
      x.Yields host (m.enter scope) w flow n' v' ∧ n = n'.leave ∧
        v = (host (.note (.leave name)) v').2 := by
  unfold Yields Eval.within
  rw [Dialogue.run_bind]
  rcases (x (m.enter scope)).run host w with ⟨_ | ⟨r, n'⟩, v'⟩
  · simp
  · constructor
    · intro h
      cases h
      exact ⟨n', v', rfl, rfl, rfl⟩
    · rintro ⟨_, _, h, rfl, rfl⟩
      cases h
      rfl

theorem Eval.fails_locate_iff {x : Eval α} {place : Option Position} :
    (Eval.locate? place x).Fails host m w e ↔ ∃ e', x.Fails host m w e' ∧
      e = { e' with position := e'.position <|> place } := by
  cases place with
  | none => simp [locate?]
  | some pos =>
    unfold Fails locate? Eval.locate
    rw [Dialogue.run_bind]
    rcases (x m).run host w with ⟨_ | ⟨e' | a, n⟩, v⟩
    · simp
    · constructor
      · rintro ⟨n', v', h⟩
        cases h
        exact ⟨e', ⟨n, v, rfl⟩, rfl⟩
      · rintro ⟨e'', ⟨n', v', h⟩, rfl⟩
        cases h
        exact ⟨n, v, rfl⟩
    · constructor
      · rintro ⟨n', v', h⟩
        cases h
      · rintro ⟨e'', ⟨n', v', h⟩, rfl⟩
        cases h

theorem Eval.yields_locate_iff {x : Eval α} {place : Option Position} :
    (Eval.locate? place x).Yields host m w a n v ↔ x.Yields host m w a n v := by
  cases place with
  | none => exact Iff.rfl
  | some pos =>
    unfold Yields locate? Eval.locate
    rw [Dialogue.run_bind]
    rcases (x m).run host w with ⟨_ | ⟨e | a, n⟩, v⟩
    · simp
    · constructor
      · intro h
        cases h
      · intro h
        cases h
    · exact Iff.rfl

theorem Eval.fails_ofExcept_iff {r : Except Fault α} :
    (Eval.ofExcept r).Fails host m w ⟨fault, none⟩ ↔ r = .error fault := by
  cases r with
  | ok a =>
    constructor
    · rintro ⟨n, v, h⟩
      cases h
    · intro h
      cases h
  | error fault' =>
    constructor
    · rintro ⟨n, v, h⟩
      cases h
      rfl
    · intro h
      cases h
      exact ⟨m, w, rfl⟩

end

/-- What a call is answered on a machine: the function of its name, if there is one, it takes so
many arguments, and fewer calls are active than may be. -/
def Machine.callee (m : Machine) (name : String) (count : Nat) : Except Fault Function :=
  match m.functions.find? name with
  | none => .error (.undefinedFunction name)
  | some f =>
    if count ≠ f.parameters.length then .error (.arityMismatch name f.parameters.length count)
    else if m.callLimit ≤ m.active then .error (.callDepthExceeded name m.callLimit)
    else .ok f

theorem Machine.callee_cases (m : Machine) (name : String) (count : Nat) :
    (m.functions.find? name = none ∧ m.callee name count = .error (.undefinedFunction name)) ∨
    (∃ f, m.functions.find? name = some f ∧ count ≠ f.parameters.length ∧
      m.callee name count = .error (.arityMismatch name f.parameters.length count)) ∨
    (∃ f, m.functions.find? name = some f ∧ count = f.parameters.length ∧
      m.callLimit ≤ m.active ∧ m.callee name count = .error (.callDepthExceeded name m.callLimit)) ∨
    ∃ f, m.functions.find? name = some f ∧ count = f.parameters.length ∧
      m.active < m.callLimit ∧ m.callee name count = .ok f := by
  rw [callee]
  cases m.functions.find? name with
  | none => exact .inl ⟨rfl, rfl⟩
  | some f =>
    dsimp only
    by_cases hcount : count = f.parameters.length
    · rw [if_neg (not_not_intro hcount)]
      by_cases hlimit : m.callLimit ≤ m.active
      · exact .inr (.inr (.inl ⟨f, rfl, hcount, hlimit, if_pos hlimit⟩))
      · exact .inr (.inr (.inr ⟨f, rfl, hcount, Nat.lt_of_not_le hlimit, if_neg hlimit⟩))
    · exact .inr (.inl ⟨f, rfl, hcount, if_pos hcount⟩)

namespace Eval

/-- Whenever a computation fails, the error has no place yet and the fault is one of those given. -/
def FailsOnly (x : Eval α) (T : Fault → Prop) : Prop :=
  ∀ ⦃ω : Type⦄ (host : Host ω) m w e, x.Fails host m w e → e.position = none ∧ T e.fault

variable {T : Fault → Prop}

theorem FailsOnly.bind {x : Eval α} {f : α → Eval β} (hx : x.FailsOnly T)
    (hf : ∀ a, (f a).FailsOnly T) : (x.bind f).FailsOnly T := by
  intro ω host m w e h
  rcases fails_bind_iff.1 h with h | ⟨a, n, v, -, h⟩
  · exact hx host m w e h
  · exact hf a host n v e h

theorem failsOnly_pure (a : α) : (Eval.pure a).FailsOnly T := by
  rintro ω host m w e ⟨n, v, h⟩
  cases h

theorem failsOnly_fail (h : T fault) : (fail fault : Eval α).FailsOnly T := by
  rintro ω host m w e ⟨n, v, h'⟩
  cases h'
  exact ⟨rfl, h⟩

theorem failsOnly_modify (f : Machine → Machine) : (modify f).FailsOnly T := by
  rintro ω host m w e ⟨n, v, h⟩
  cases h

theorem failsOnly_talk (d : Dialogue α) : (talk d).FailsOnly T := by
  rintro ω host m w e ⟨n, v, h⟩
  unfold talk at h
  rw [Dialogue.run_bind] at h
  split at h
  · cases h
  · cases h

theorem failsOnly_accept {fault : Refusal → Fault} (h : ∀ reason, T (fault reason))
    (r : Except Refusal α) : (accept fault r).FailsOnly T := by
  cases r with
  | ok a => exact failsOnly_pure a
  | error reason => exact failsOnly_fail (h reason)

theorem failsOnly_record (h : ∀ reason, T (.diagnostic reason)) (line : String) :
    (record line).FailsOnly T :=
  (failsOnly_talk (Dialogue.request (.record line))).bind (failsOnly_accept h)

theorem failsOnly_output (h : ∀ reason, T (.output reason)) (text : String) :
    (output text).FailsOnly T := by
  unfold output
  split
  · exact (failsOnly_talk (Dialogue.request (.write text))).bind (failsOnly_accept h)
  · exact failsOnly_pure ()

theorem failsOnly_ofExcept {r : Except Fault α} (h : ∀ fault, r = .error fault → T fault) :
    (ofExcept r).FailsOnly T := by
  cases r with
  | ok a => exact failsOnly_pure a
  | error fault => exact failsOnly_fail (h fault rfl)

theorem failsOnly_get {f : Machine → Eval α} (h : ∀ m, (f m).FailsOnly T) :
    (get >>= f).FailsOnly T :=
  fun _ host m => h m host m

theorem callee_eq (name : String) (count : Nat) :
    callee name count = get >>= fun m => ofExcept (m.callee name count) := by
  unfold callee Machine.callee
  apply bind_congr
  intro m
  cases m.functions.find? name with
  | none => rfl
  | some f =>
    dsimp only
    split
    · rfl
    split
    · rfl
    · rfl

theorem failsOnly_variableValue (h : T (.undefinedVariable x)) :
    (variableValue x).FailsOnly T := by
  apply failsOnly_get
  intro m
  cases m.current.find? x with
  | none => exact failsOnly_fail h
  | some v => exact failsOnly_pure v

theorem failsOnly_callee (hname : T (.undefinedFunction name))
    (hcount : ∀ expected, T (.arityMismatch name expected count))
    (hlimit : ∀ limit, T (.callDepthExceeded name limit)) : (callee name count).FailsOnly T := by
  rw [callee_eq]
  apply failsOnly_get
  intro m
  apply failsOnly_ofExcept
  intro fault h
  rcases m.callee_cases name count with
    ⟨-, he⟩ | ⟨f, -, -, he⟩ | ⟨f, -, -, -, he⟩ | ⟨f, -, -, -, hok⟩
  · cases he.symm.trans h
    exact hname
  · cases he.symm.trans h
    exact hcount _
  · cases he.symm.trans h
    exact hlimit _
  · cases hok.symm.trans h

theorem failsOnly_writeFile (hio : ∀ reason, T (.io path reason))
    (hlog : ∀ reason, T (.diagnostic reason)) (mode : WriteMode) (text : String) :
    (writeFile mode path text).FailsOnly T := by
  apply (failsOnly_talk (Dialogue.prepareParent path)).bind
  intro r
  apply (failsOnly_accept hio r).bind
  intro _
  cases mode with
  | replace =>
    apply (failsOnly_talk (Dialogue.request (.writeFile path text))).bind
    intro r
    exact (failsOnly_accept hio r).bind fun _ => failsOnly_record hlog _
  | extend =>
    apply (failsOnly_talk (Dialogue.request (.appendFile path text))).bind
    intro r
    exact (failsOnly_accept hio r).bind fun _ => failsOnly_record hlog _

theorem failsOnly_assign (x : String) (v : Value) : (assign x v).FailsOnly T :=
  (failsOnly_modify _).bind fun _ => failsOnly_talk _

theorem failsOnly_readFile (hmissing : T (.fileNotFound path)) (hio : ∀ reason, T (.io path reason))
    (hlog : ∀ reason, T (.diagnostic reason)) (target : String) :
    (readFile path target).FailsOnly T := by
  apply (failsOnly_talk (Dialogue.request (.readFile path))).bind
  rintro (reason | text)
  · cases reason with
    | noEntry => exact failsOnly_fail hmissing
    | _ => exact failsOnly_fail (hio _)
  · exact (failsOnly_assign target _).bind fun _ => failsOnly_record hlog _

theorem failsOnly_deleteFile (hio : ∀ reason, T (.io path reason))
    (hlog : ∀ reason, T (.diagnostic reason)) : (deleteFile path).FailsOnly T := by
  apply (failsOnly_talk (Dialogue.request (.removeFile path))).bind
  rintro (reason | _)
  · cases reason with
    | noEntry => exact failsOnly_pure ()
    | _ => exact failsOnly_fail (hio _)
  · exact failsOnly_record hlog _

end Eval

theorem Value.compute_error_cases {a b : Int64} (h : compute op a b = .error fault) :
    fault = .divisionByZero ∨ fault = .overflow op := by
  unfold compute at h
  split at h
  · cases h
    exact .inl rfl
  · split at h
    · cases h
    · cases h
      exact .inr rfl

/-- An operator meets a fault since a divisor is zero, a number gets out of range, or the types of
its operands are not what it takes. -/
theorem Value.binary_error_cases {a b : Value} (h : a.binary op b = .error fault) :
    fault = .divisionByZero ∨ (∃ op, fault = .overflow op) ∨
      fault = .unsupportedOperands op a.type b.type := by
  unfold binary at h
  split at h
  · unfold arithmetic at h
    split at h
    · rcases compute_error_cases h with rfl | rfl
      · exact .inl rfl
      · exact .inr (.inl ⟨_, rfl⟩)
    · cases h
    · cases h
    · cases h
      exact .inr (.inr rfl)
  · split at h
    · cases h
    · cases h
      exact .inr (.inr rfl)

/-- The faults that a primitive can meet. -/
def Primitive.CanMeet : Primitive → Fault → Prop
  | lookup x, f => f = .undefinedVariable x
  | callee name count, f => f = .undefinedFunction name ∨
      (∃ expected, f = .arityMismatch name expected count) ∨
      ∃ limit, f = .callDepthExceeded name limit
  | operate op a b, f => a.binary op b = .error f
  | record _, f => ∃ reason, f = .diagnostic reason
  | output _, f => ∃ reason, f = .output reason
  | write _ path _, f | delete path, f =>
    (∃ reason, f = .io path reason) ∨ ∃ reason, f = .diagnostic reason
  | read path _, f => f = .fileNotFound path ∨ (∃ reason, f = .io path reason) ∨
      ∃ reason, f = .diagnostic reason
  | assign .., _ | define .., _ | note _, _ => False

theorem Primitive.failsOnly (p : Primitive) : p.eval.FailsOnly p.CanMeet := by
  cases p with
  | lookup x => exact Eval.failsOnly_variableValue rfl
  | callee name count =>
    exact Eval.failsOnly_callee (.inl rfl) (fun expected => .inr (.inl ⟨expected, rfl⟩))
      fun limit => .inr (.inr ⟨limit, rfl⟩)
  | operate op a b => exact Eval.failsOnly_ofExcept fun fault h => h
  | record line => exact Eval.failsOnly_record (fun reason => ⟨reason, rfl⟩) line
  | output text => exact Eval.failsOnly_output (fun reason => ⟨reason, rfl⟩) text
  | assign x v => exact Eval.failsOnly_assign x v
  | define name f => exact (Eval.failsOnly_modify _).bind fun _ => Eval.failsOnly_talk _
  | write mode path text =>
    exact Eval.failsOnly_writeFile (fun reason => .inl ⟨reason, rfl⟩)
      (fun reason => .inr ⟨reason, rfl⟩) mode text
  | read path target =>
    exact Eval.failsOnly_readFile (.inl rfl) (fun reason => .inr (.inl ⟨reason, rfl⟩))
      (fun reason => .inr (.inr ⟨reason, rfl⟩)) target
  | delete path =>
    exact Eval.failsOnly_deleteFile (fun reason => .inl ⟨reason, rfl⟩)
      fun reason => .inr ⟨reason, rfl⟩
  | note event => exact Eval.failsOnly_talk _

end Scriptlet
