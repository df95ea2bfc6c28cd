import Scriptlet.Proofs.Blame

namespace Scriptlet
set_option autoImplicit true

/-- Primitives other than calls see of a machine no more than its variables and do no more to it
than bind and define. -/
theorem Primitive.lockstep {R : Machine → Machine → Prop}
    (hcurrent : ∀ m m', R m m' → m.current = m'.current)
    (hbind : ∀ x v m m', R m m' → R (m.bind x v) (m'.bind x v))
    (p : Primitive)
    (hdefine : ∀ name f, p = define name f →
      ∀ m m', R m m' → R (m.define name f) (m'.define name f))
    (hcallee : ∀ name count, p = callee name count → (Eval.callee name count).Lockstep R) :
    p.eval.Lockstep R := by
  cases p with
  | lookup x => exact Eval.lockstep_variableValue hcurrent x
  | callee name count => exact hcallee name count rfl
  | operate op a b => exact Eval.lockstep_ofExcept _
  | record line => exact Eval.lockstep_record line
  | output text => exact Eval.lockstep_output text
  | assign x v => exact Eval.lockstep_assign (hbind x v)
  | define name f => exact Eval.lockstep_define (hdefine name f rfl)
  | write mode path text => exact Eval.lockstep_writeFile mode path text
  | read path target => exact Eval.lockstep_readFile (hbind target) path
  | delete path => exact Eval.lockstep_deleteFile path
  | note event => exact Eval.lockstep_note event

namespace Eval

/-- The callers of a machine play no part in a computation. -/
def IgnoresCallers (x : Eval α) : Prop :=
  ∀ limit cs cs', x.Lockstep (Machine.Beside limit cs cs')

theorem closed_ignoresCallers : Closed @IgnoresCallers where
  pure a _ _ _ := lockstep_pure a
  unfinished _ _ _ := lockstep_unfinished
  bind hx hf limit cs cs' := (hx limit cs cs').bind fun a => hf a limit cs cs'
  locate pos hx limit cs cs' := (hx limit cs cs').locate pos
  within name scope hx _ _ _ := .forget fun outer => .within hx name scope outer

theorem ignoresCallers_primitive (p : Primitive) : p.eval.IgnoresCallers := by
  intro limit cs cs'
  apply p.lockstep
  · exact fun m m' h => h.alike.current
  · exact fun x v => Machine.Beside.bind x v
  · exact fun name f _ => Machine.Beside.define name f
  · exact fun name count _ => lockstep_callee (fun m m' h => h.alike) name count

theorem ignoresCallers_run (fuel : Nat) (a : Activity) : (a.run fuel).IgnoresCallers :=
  closed_ignoresCallers.run ignoresCallers_primitive fuel a

theorem ignoresCallers_within (fuel : Nat) (name : String) (scope : Scope) (body : Plan Flow) :
    (within name scope (body.eval (Activity.run fuel))).IgnoresCallers := by
  apply closed_ignoresCallers.within
  exact closed_ignoresCallers.plan ignoresCallers_primitive (ignoresCallers_run fuel) body

theorem IgnoresCallers.level {ω : Type} {host : Host ω} {m n : Machine} {w v : ω} {x : Eval α}
    (hx : x.IgnoresCallers) (h : x.Yields host m w a n v) :
    n.active = m.active ∧ n.callLimit = m.callLimit := by
  have hend := (hx m.callLimit m.callers m.callers).ends (.refl m) h
  exact ⟨congrArg List.length hend.left, hend.limit⟩

end Eval

/-- What is known when a primitive has gone well: a call is granted only when fewer calls are active
than may be. -/
def Primitive.Grants (limit active : Nat) : Primitive → Prop
  | callee .. => active < limit
  | _ => True

/-- Carried out where so many calls are active, a plan starts activations only where fewer are than
may be. -/
def Plan.Bounded (limit : Nat) : {α : Type} → Nat → Plan α → Prop
  | _, _, .done _ => True
  | _, active, .step p next => ∀ b, p.Grants limit active → (next b).Bounded limit active
  | _, active, .sub _ next => ∀ b, (next b).Bounded limit active
  | _, active, .within _ _ body next => active < limit ∧ body.Bounded limit (active + 1) ∧
    ∀ flow, (next flow).Bounded limit active

namespace Plan

theorem bounded_each {next : List Value → Plan α} (h : ∀ vs, (next vs).Bounded limit active)
    (es : List Expression) : (each next es).Bounded limit active := by
  induction es generalizing next with
  | nil => exact h []
  | cons e rest ih => exact fun v => ih fun vs => h (v :: vs)

theorem bounded_block {next : Flow → Plan α} (h : ∀ flow, (next flow).Bounded limit active)
    (ss : List Statement) : (block next ss).Bounded limit active := by
  induction ss with
  | nil => exact h .normal
  | cons s rest ih =>
    intro flow
    cases flow with
    | normal => exact ih
    | giveBack v => exact h (.giveBack v)

theorem bounded_block_done (limit active : Nat) (ss : List Statement) :
    (block done ss).Bounded limit active := by
  apply bounded_block
  exact fun _ => trivial

end Plan

theorem Expression.bounded (e : Expression) (limit active : Nat) :
    e.plan.Bounded limit active := by
  cases e with
  | string s => trivial
  | number n => trivial
  | var x => exact fun _ _ => trivial
  | binary op left right => exact fun _ _ _ _ => trivial
  | logical op left right =>
    intro a
    dsimp only
    split
    · trivial
    · exact fun _ => trivial
  | call name es => exact fun _ => trivial

theorem Statement.bounded (s : Statement) (limit active : Nat) :
    s.plan.Bounded limit active := by
  cases s with
  | ifThen pos condition body =>
    intro _ _ v
    dsimp only
    split
    · exact Plan.bounded_block_done limit active body
    · trivial
  | ifElse pos condition body otherwise =>
    exact fun _ _ v => Plan.bounded_block_done limit active _
  | loop pos condition body =>
    intro _ _ v
    dsimp only
    split
    · apply Plan.bounded_block
      intro flow
      cases flow with
      | normal => exact fun _ => trivial
      | giveBack v => trivial
    · trivial
  | assign pos x e => exact fun _ _ _ _ _ => trivial
  | print pos e => exact fun _ _ _ _ _ _ _ => trivial
  | log pos e => exact fun _ _ _ => trivial
  | write pos mode path content => exact fun _ _ _ _ => trivial
  | read pos path target => exact fun _ _ _ => trivial
  | delete pos path => exact fun _ _ _ => trivial
  | function pos name parameters body => exact fun _ _ => trivial
  | call pos name es => exact fun _ => trivial
  | giveBack pos e => exact fun _ => trivial

/-- An activation starts only behind the check of its call. -/
theorem Activity.bounded (a : Activity) (limit active : Nat) : a.plan.Bounded limit active := by
  cases a with
  | value e => exact e.bounded limit active
  | act s => exact s.bounded limit active
  | statement s => exact fun _ _ _ _ _ => trivial
  | call name es =>
    intro f hgranted
    apply Plan.bounded_each
    intro values _ _
    refine ⟨hgranted, Plan.bounded_block_done limit _ f.body, fun flow => ?_⟩
    cases flow <;> trivial

section
variable {ω : Type} {host : Host ω} {m n : Machine} {w v : ω}

theorem callee_yields (h : (Eval.callee name count).Yields host m w f n v) :
    m.active < m.callLimit := by
  rw [Eval.callee_eq] at h
  replace h : (Eval.ofExcept (m.callee name count)).Yields host m w f n v := h
  rcases m.callee_cases name count with
    ⟨-, he⟩ | ⟨g, -, -, he⟩ | ⟨g, -, -, -, he⟩ | ⟨g, -, -, hlimit, -⟩
  · rw [he] at h
    cases h
  · rw [he] at h
    cases h
  · rw [he] at h
    cases h
  · exact hlimit

theorem callee_exceeds_iff :
    (Eval.callee name count).Fails host m w ⟨.callDepthExceeded name' limit, none⟩ ↔
      name' = name ∧ limit = m.callLimit ∧ m.callLimit ≤ m.active ∧
        ∃ f, m.functions.find? name = some f ∧ count = f.parameters.length := by
  have hcallee : (Eval.callee name count).Fails host m w ⟨.callDepthExceeded name' limit, none⟩ ↔
      m.callee name count = .error (.callDepthExceeded name' limit) := by
    rw [Eval.callee_eq]
    exact Eval.fails_ofExcept_iff
  rw [hcallee]
  constructor
  · intro h
    rcases m.callee_cases name count with
      ⟨-, he⟩ | ⟨f, -, -, he⟩ | ⟨f, hf, hcount, hlimit, he⟩ | ⟨f, -, -, -, hok⟩
    · cases he.symm.trans h
    · cases he.symm.trans h
    · cases he.symm.trans h
      exact ⟨rfl, rfl, hlimit, f, hf, hcount⟩
    · cases hok.symm.trans h
  · rintro ⟨rfl, rfl, hlimit, f, hf, hcount⟩
    rw [Machine.callee, hf]
    dsimp only
    rw [if_neg (not_not_intro hcount), if_pos hlimit]

theorem Primitive.grants_of_yields {p : Primitive} {b : p.Answer}
    (h : p.eval.Yields host m w b n v) : p.Grants m.callLimit m.active := by
  cases p with
  | callee name count => exact callee_yields h
  | _ => trivial

theorem Plan.Gets.active_le {p : Plan α} (h : p.Gets host (Activity.run k) m w q n v)
    (hp : p.Bounded m.callLimit m.active) (hm : m.active ≤ m.callLimit) :
    n.active ≤ m.callLimit ∧ n.callLimit = m.callLimit := by
  induction h with
  | ends => exact ⟨hm, rfl⟩
  | does => exact ⟨hm, rfl⟩
  | begins => exact ⟨hm, rfl⟩
  | step hb h ih =>
    obtain ⟨ha, hl⟩ := (Eval.ignoresCallers_primitive _).level hb
    rw [ha, hl] at ih
    exact ih (hp _ (Primitive.grants_of_yields hb)) hm
  | sub hb h ih =>
    obtain ⟨ha, hl⟩ := (Eval.ignoresCallers_run _ _).level hb
    rw [ha, hl] at ih
    exact ih (hp _) hm
  | inside h ih => exact ih hp.2.1 hp.1
  | within hb h ih =>
    obtain ⟨ha, hl⟩ := (Eval.ignoresCallers_within k _ _ _).level hb
    rw [ha, hl] at ih
    exact ih (hp.2.2 _) hm

theorem Primitive.CanMeet.eq_callee_of {p : Primitive} (h : p.CanMeet fault)
    (hfault : fault = .undefinedFunction name ∨ ∃ limit, fault = .callDepthExceeded name limit) :
    ∃ count, p = .callee name count := by
  cases p with
  | callee f count =>
    refine ⟨count, congrArg (Primitive.callee · count) ?_⟩
    rcases hfault with rfl | ⟨limit, rfl⟩ <;> rcases h with h | ⟨_, h⟩ | ⟨_, h⟩ <;> cases h <;> rfl
  | operate op a b =>
    rcases hfault with rfl | ⟨limit, rfl⟩ <;>
      rcases Value.binary_error_cases h with h | ⟨_, h⟩ | h <;> cases h
  | _ => rcases hfault with rfl | ⟨limit, rfl⟩ <;> simp [CanMeet] at h

theorem Primitive.CanMeet.eq_callee {p : Primitive}
    (h : p.CanMeet (.callDepthExceeded name limit)) : ∃ count, p = .callee name count :=
  h.eq_callee_of (.inr ⟨limit, rfl⟩)

end

namespace Moment

variable {ω : Type} {host : Host ω} {c d : Moment ω} {fuel : Nat} {p : Program} {m n : Machine}
  {w v : ω} {fault : Fault}

theorem Gets.active_le (h : c.Gets host q n v) (hc : c.machine.active ≤ c.machine.callLimit) :
    n.active ≤ c.machine.callLimit ∧ n.callLimit = c.machine.callLimit := by
  obtain ⟨hgets⟩ := h
  exact hgets.active_le (Activity.bounded _ _ _) hc

theorem Reaches.active_le (h : c.Reaches host d) (hc : c.machine.active ≤ c.machine.callLimit) :
    d.machine.active ≤ c.machine.callLimit ∧ d.machine.callLimit = c.machine.callLimit := by
  induction h with
  | refl => exact ⟨hc, rfl⟩
  | head h _ ih =>
    obtain ⟨hgets⟩ := h
    obtain ⟨ha, hl⟩ := hgets.active_le (Activity.bounded _ _ _) hc
    dsimp only at ih ⊢
    rw [hl] at ih
    exact ih ha

/-- No more calls are active, whatever begins in a run, than may be. -/
theorem Reached.active_le (h : c.Reached host fuel p m w) (hm : m.active ≤ m.callLimit) :
    c.machine.active ≤ m.callLimit ∧ c.machine.callLimit = m.callLimit := by
  obtain ⟨a, n, v, hgets, hreaches⟩ := h
  obtain ⟨ha, hl⟩ := hgets.active_le (Plan.bounded_block_done _ _ p) hm
  have hc := hreaches.active_le (hl ▸ ha)
  rwa [hl] at hc

theorem Reached.trans (h : c.Reached host fuel p m w) (hd : c.Reaches host d) :
    d.Reached host fuel p m w := by
  obtain ⟨a, n, v, hgets, hreaches⟩ := h
  exact ⟨a, n, v, hgets, hreaches.trans hd⟩

theorem Reached.fails (h : c.Reached host fuel p m w) (hc : c.Meets host fault) :
    ∃ e, (runProgram fuel p).Fails host m w e ∧ e.fault = fault := by
  obtain ⟨a, n, v, hgets, hreaches⟩ := h
  obtain ⟨e, he, hfault⟩ := fails_of_reaches hreaches hc
  exact ⟨e, runProgram_fails_of_begins hgets he, hfault⟩

end Moment

/-- A run exceeds the limit of calls if and only if it comes to a call of a function that is there,
with as many arguments as that takes, while as many calls are active as may be. -/
theorem runProgram_exceeds_iff {ω : Type} {host : Host ω} {fuel : Nat} {p : Program} {m : Machine}
    {w : ω} (hm : m.active ≤ m.callLimit) :
    (∃ e, (runProgram fuel p).Fails host m w e ∧ e.fault = .callDepthExceeded name limit) ↔
      limit = m.callLimit ∧ ∃ (c : Moment ω) (count : Nat) (n : Machine) (v : ω) (f : Function),
        c.Reached host fuel p m w ∧ c.Gets host (.does (.callee name count)) n v ∧
        n.functions.find? name = some f ∧ count = f.parameters.length ∧
        n.active = m.callLimit := by
  constructor
  · rintro ⟨e, he, hfault⟩
    have hstray : e.fault ≠ .returnOutsideFunction := by simp [hfault]
    rcases runProgram_fails_innermost he hstray with
      ⟨reason, -, rfl⟩ | ⟨s, ⟨c, b, hc, -, hb, q, n, v, hgets, hq⟩, -⟩
    · cases hfault
    · rw [hfault] at hq
      obtain ⟨-, hcan⟩ := q.failsOnly host n v _ hq
      obtain ⟨count, rfl⟩ := hcan.eq_callee
      obtain ⟨-, rfl, hlimit, f, hf, hcount⟩ := callee_exceeds_iff.1 hq
      have hreached := hc.trans hb.reaches
      -- No more calls are active than may be, so as many are as may be.
      obtain ⟨hactive, hl⟩ := hreached.active_le hm
      obtain ⟨ha, hl'⟩ := hgets.active_le (hl ▸ hactive)
      refine ⟨hl'.trans hl, b, count, n, v, f, hreached, hgets, hf, hcount, ?_⟩
      omega
  · rintro ⟨rfl, c, count, n, v, f, hc, hgets, hf, hcount, ha⟩
    obtain ⟨hactive, hl⟩ := hc.active_le hm
    obtain ⟨-, hl'⟩ := hgets.active_le (hl ▸ hactive)
    refine hc.fails ⟨.callee name count, n, v, hgets, ?_⟩
    exact callee_exceeds_iff.2 ⟨rfl, (hl'.trans hl).symm, by omega, f, hf, hcount⟩

end Scriptlet
