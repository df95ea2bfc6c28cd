import Scriptlet.Proofs.CallDepth
import Scriptlet.Proofs.Height

namespace Scriptlet
set_option autoImplicit true

/-- No tree in the body is higher. -/
def Function.Low (H : Nat) (f : Function) : Prop :=
  ∀ e ∈ expressionsIn f.body, e.height ≤ H

def Machine.Low (H : Nat) (m : Machine) : Prop :=
  ∀ name f, m.functions.find? name = some f → f.Low H

/-- So many expressions at most are evaluated at once in the course of the activity, itself included
and calls left out; where statements are executed, no tree in them is higher than `H`. -/
def Activity.Low (H k : Nat) : Activity → Prop
  | .value e => e.height ≤ k
  | .call _ es => heightEach es ≤ k
  | .statement s | .act s => H ≤ k ∧ ∀ e ∈ s.expressions, e.height ≤ H

def Primitive.DefinesLow (H : Nat) : Primitive → Prop
  | define _ f => f.Low H
  | _ => True

def Primitive.FindsLow (H : Nat) : (p : Primitive) → p.Answer → Prop
  | callee .., f => Function.Low H f
  | _, _ => True

/-- So many expressions at most are evaluated at once in what the plan begins. -/
def Plan.Low (H : Nat) : {α : Type} → Nat → Plan α → Prop
  | _, _, .done _ => True
  | _, k, .step p next => p.DefinesLow H ∧ ∀ b, p.FindsLow H b → (next b).Low H k
  | _, k, .sub a next => a.Low H k ∧ ∀ b, (next b).Low H k
  | _, k, .within _ _ body next => body.Low H H ∧ ∀ flow, (next flow).Low H k

theorem heightEach_le_of {es : List Expression} (h : ∀ e ∈ es, e.height ≤ k) :
    heightEach es ≤ k := by
  induction es with
  | nil => exact Nat.zero_le k
  | cons e es ih =>
    obtain ⟨he, hes⟩ := List.forall_mem_cons.1 h
    exact Nat.max_le.2 ⟨he, ih hes⟩

namespace Plan

variable {H k : Nat}

theorem low_each {next : List Value → Plan α} (h : ∀ vs, (next vs).Low H k)
    {es : List Expression} (hes : heightEach es ≤ k) : (each next es).Low H k := by
  induction es generalizing next with
  | nil => exact h []
  | cons e es ih =>
    obtain ⟨he, hes⟩ := Nat.max_le.1 hes
    exact ⟨he, fun v => ih (fun vs => h (v :: vs)) hes⟩

theorem low_block {next : Flow → Plan α} (h : ∀ flow, (next flow).Low H k) (hk : H ≤ k)
    {ss : List Statement} (hss : ∀ e ∈ expressionsIn ss, e.height ≤ H) :
    (block next ss).Low H k := by
  induction ss with
  | nil => exact h .normal
  | cons s ss ih =>
    obtain ⟨hs, hss⟩ := List.forall_mem_append.1 hss
    refine ⟨⟨hk, hs⟩, fun flow => ?_⟩
    cases flow with
    | normal => exact ih hss
    | giveBack v => exact h (.giveBack v)

theorem low_block_done (hk : H ≤ k) {ss : List Statement}
    (hss : ∀ e ∈ expressionsIn ss, e.height ≤ H) : (block done ss).Low H k := by
  apply low_block _ hk hss
  exact fun _ => trivial

end Plan

/-- What an activity counts among the expressions that are evaluated at once. -/
def Activity.weight : Activity → Nat
  | .value _ => 1
  | _ => 0

theorem Expression.low {e : Expression} (h : e.height ≤ k + 1) (H : Nat) : e.plan.Low H k := by
  cases e with
  | string s => trivial
  | number n => trivial
  | var x => exact ⟨trivial, fun _ _ => trivial⟩
  | binary op left right =>
    obtain ⟨hl, hr⟩ := Nat.max_le.1 (Nat.le_of_succ_le_succ h)
    exact ⟨hl, fun _ => ⟨hr, fun _ => ⟨trivial, fun _ _ => trivial⟩⟩⟩
  | logical op left right =>
    obtain ⟨hl, hr⟩ := Nat.max_le.1 (Nat.le_of_succ_le_succ h)
    refine ⟨hl, fun a => ?_⟩
    dsimp only
    split
    · trivial
    · exact ⟨hr, fun _ => trivial⟩
  | call name es => exact ⟨Nat.le_of_succ_le_succ h, fun _ => trivial⟩

theorem Statement.low {s : Statement} (hk : H ≤ k) (hs : ∀ e ∈ s.expressions, e.height ≤ H) :
    s.plan.Low H k := by
  have hfirst {e : Expression} {es : List Expression} (hes : ∀ e' ∈ e :: es, e'.height ≤ H) :
      e.height ≤ k := (hes e List.mem_cons_self).trans hk
  have hdone {p : Primitive} {next : p.Answer → Plan Flow} (hp : p.DefinesLow H)
      (h : ∀ b, (next b).Low H k) : (Plan.step p next).Low H k := ⟨hp, fun b _ => h b⟩
  cases s with
  | assign pos x e =>
    exact ⟨hfirst hs, fun _ => hdone trivial fun _ => hdone trivial fun _ => trivial⟩
  | print pos e =>
    exact ⟨hfirst hs, fun _ => hdone trivial fun _ => hdone trivial fun _ => hdone trivial fun _ =>
      trivial⟩
  | log pos e => exact ⟨hfirst hs, fun _ => hdone trivial fun _ => trivial⟩
  | ifThen pos c body =>
    refine ⟨trivial, fun _ _ => ⟨hfirst hs, fun v => ?_⟩⟩
    dsimp only
    split
    · exact Plan.low_block_done hk (List.forall_mem_cons.1 hs).2
    · trivial
  | ifElse pos c body otherwise =>
    obtain ⟨hbody, hotherwise⟩ := List.forall_mem_append.1 (List.forall_mem_cons.1 hs).2
    refine ⟨trivial, fun _ _ => ⟨hfirst hs, fun v => Plan.low_block_done hk ?_⟩⟩
    split
    · exact hbody
    · exact hotherwise
  | loop pos c body =>
    refine ⟨trivial, fun _ _ => ⟨hfirst hs, fun v => ?_⟩⟩
    dsimp only
    split
    · apply Plan.low_block _ hk (List.forall_mem_cons.1 hs).2
      intro flow
      cases flow with
      | normal => exact ⟨⟨hk, hs⟩, fun _ => trivial⟩
      | giveBack v => trivial
    · trivial
  | write pos mode path content =>
    exact ⟨hfirst hs, fun _ => ⟨hfirst (List.forall_mem_cons.1 hs).2, fun _ =>
      hdone trivial fun _ => trivial⟩⟩
  | read pos path x => exact ⟨hfirst hs, fun _ => hdone trivial fun _ => trivial⟩
  | delete pos path => exact ⟨hfirst hs, fun _ => hdone trivial fun _ => trivial⟩
  | function pos name xs body => exact hdone hs fun _ => trivial
  | call pos name es => exact ⟨heightEach_le_of fun e he => (hs e he).trans hk, fun _ => trivial⟩
  | giveBack pos e => exact ⟨hfirst hs, fun _ => trivial⟩

/-- What an activity begins may evaluate as many expressions at once as the activity may beside its
own. -/
theorem Activity.low {a : Activity} (h : a.Low H (k + a.weight)) : a.plan.Low H k := by
  cases a with
  | value e => exact Expression.low h H
  | call name es =>
    refine ⟨trivial, fun f hf => Plan.low_each (fun values => ?_) h⟩
    refine ⟨trivial, fun _ _ => ⟨Plan.low_block_done (Nat.le_refl H) hf, fun flow => ?_⟩⟩
    cases flow <;> trivial
  | statement s => exact ⟨trivial, fun _ _ => ⟨h, fun _ => ⟨trivial, fun _ _ => trivial⟩⟩⟩
  | act s => exact Statement.low h.1 h.2

theorem Activity.weight_le {a : Activity} (h : a.Low H k) : a.weight ≤ k := by
  cases a with
  | value e =>
    have hpos : 1 ≤ e.height := by cases e <;> exact Nat.le_add_left ..
    exact hpos.trans h
  | _ => exact Nat.zero_le k

section
variable {ω : Type} {host : Host ω} {m n : Machine} {w v : ω} {H k : Nat}

theorem Machine.Low.leave (h : m.Low H) : m.leave.Low H := by
  unfold Machine.leave
  split <;> exact h

theorem Machine.Low.define (h : m.Low H) {f : Function} (hf : f.Low H) (name : String) :
    (m.define name f).Low H := by
  intro name' f' hf'
  rw [Machine.define, Table.find?_insert] at hf'
  split at hf'
  · cases hf'
    exact hf
  · exact h name' f' hf'

theorem Primitive.low_of_yields {p : Primitive} {b : p.Answer} (hp : p.DefinesLow H) (hm : m.Low H)
    (h : p.eval.Yields host m w b n v) : n.Low H ∧ p.FindsLow H b := by
  have hkeeps : p.eval.Lockstep fun m m' => m = m' ∧ m.Low H := by
    apply p.lockstep
    · rintro m _ ⟨rfl, -⟩
      rfl
    · rintro x v m _ ⟨rfl, hm⟩
      exact ⟨rfl, hm⟩
    · rintro name f rfl m _ ⟨rfl, hm⟩
      exact ⟨rfl, hm.define hp name⟩
    · rintro name count rfl
      apply Eval.lockstep_callee
      rintro m _ ⟨rfl, -⟩
      exact .refl m
  refine ⟨(hkeeps.ends ⟨rfl, hm⟩ h).2, ?_⟩
  cases p with
  | callee name count =>
    rw [Primitive.eval, Eval.callee_eq] at h
    replace h : (Eval.ofExcept (m.callee name count)).Yields host m w b n v := h
    rcases m.callee_cases name count with
      ⟨-, he⟩ | ⟨g, -, -, he⟩ | ⟨g, -, -, -, he⟩ | ⟨g, hg, -, -, hok⟩
    · rw [he] at h
      cases h
    · rw [he] at h
      cases h
    · rw [he] at h
      cases h
    · rw [hok] at h
      cases h
      exact hm name _ hg
  | _ => trivial

theorem Plan.Low.machine {run : (a : Activity) → Eval a.Answer}
    (hrun : ∀ {a : Activity} {k m w b n v}, a.Low H k → m.Low H →
      (run a).Yields host m w b n v → n.Low H)
    {p : Plan α} (hp : p.Low H k) (hm : m.Low H) (h : (p.eval run).Yields host m w a n v) :
    n.Low H := by
  induction p generalizing k m w n v with
  | done b =>
    cases h
    exact hm
  | step q next ih =>
    obtain ⟨b, n', v', hq, h⟩ := Eval.yields_bind_iff.1 h
    obtain ⟨hn', hb⟩ := Primitive.low_of_yields hp.1 hm hq
    exact ih b (hp.2 b hb) hn' h
  | sub c next ih =>
    obtain ⟨b, n', v', hc, h⟩ := Eval.yields_bind_iff.1 h
    exact ih b (hp.2 b) (hrun hp.1 hm hc) h
  | within name scope body next ihb ih =>
    obtain ⟨flow, n', v', hwithin, h⟩ := Eval.yields_bind_iff.1 h
    obtain ⟨n'', v'', hbody, rfl, -⟩ := Eval.yields_within_iff.1 hwithin
    have henter : (m.enter scope).Low H := hm
    exact ih flow (hp.2 flow) (ihb hp.1 henter hbody).leave h

theorem Activity.Low.plan {a : Activity} (h : a.Low H k) :
    ∃ j, k = j + a.weight ∧ a.plan.Low H j := by
  have hk : k = k - a.weight + a.weight := (Nat.sub_add_cancel (weight_le h)).symm
  exact ⟨_, hk, Activity.low (hk ▸ h)⟩

theorem Activity.Low.machine {a : Activity} {b : a.Answer} (ha : a.Low H k) (hm : m.Low H)
    (h : (a.run fuel).Yields host m w b n v) : n.Low H := by
  induction fuel generalizing a k m w n v with
  | zero =>
    rw [a.run_zero] at h
    cases h
  | succ fuel ih =>
    rw [a.run_succ, Eval.yields_locate_iff] at h
    obtain ⟨j, -, hplan⟩ := ha.plan
    exact hplan.machine ih hm h

theorem Machine.Low.within {body : Plan Flow} (hb : body.Low H H) (hm : m.Low H)
    (h : (Eval.within name scope (body.eval (Activity.run fuel))).Yields host m w flow n v) :
    n.Low H := by
  obtain ⟨n', v', hbody, rfl, -⟩ := Eval.yields_within_iff.1 h
  have henter : (m.enter scope).Low H := hm
  exact (hb.machine Activity.Low.machine henter hbody).leave

/-- What a plan begins is begun either where the plan is or in a call, in which all trees are
low. -/
theorem Plan.Gets.low {p : Plan α} (h : p.Gets host (Activity.run fuel) m w (.begins a) n v)
    (hp : p.Low H k) (hm : m.Low H) :
    n.Low H ∧ (n.active = m.active ∧ a.Low H k ∨ m.active < n.active ∧ a.Low H H) := by
  generalize hq : Point.begins a = q at h
  induction h generalizing k with
  | ends => cases hq
  | does => cases hq
  | begins =>
    cases hq
    exact ⟨hm, .inl ⟨rfl, hp.1⟩⟩
  | step hb h ih =>
    obtain ⟨hn, hfinds⟩ := Primitive.low_of_yields hp.1 hm hb
    obtain ⟨ha, -⟩ := (Eval.ignoresCallers_primitive _).level hb
    rw [ha] at ih
    exact ih (hp.2 _ hfinds) hn hq
  | sub hb h ih =>
    obtain ⟨ha, -⟩ := (Eval.ignoresCallers_run _ _).level hb
    rw [ha] at ih
    exact ih (hp.2 _) (hp.1.machine hm hb) hq
  | inside h ih =>
    obtain ⟨hn, hplace⟩ := ih hp.1 hm hq
    refine ⟨hn, .inr ?_⟩
    rcases hplace with ⟨ha, hlow⟩ | ⟨ha, hlow⟩
    · exact ⟨ha ▸ Nat.lt_succ_self _, hlow⟩
    · exact ⟨(Nat.lt_succ_self _).trans ha, hlow⟩
  | within hb h ih =>
    obtain ⟨ha, -⟩ := (Eval.ignoresCallers_within _ _ _ _).level hb
    rw [ha] at ih
    exact ih (hp.2 _) (hm.within hp.1 hb) hq

end

namespace Moment

variable {ω : Type}

/-- In the course of the activity, or as it begins, another one begins while so many expressions are
evaluated, those of the two included. -/
inductive Stacks (host : Host ω) : Moment ω → Nat → Moment ω → Prop
  | refl : Stacks host c c.activity.weight c
  | head (h : c.Opens host d) (hd : Stacks host d k b) : Stacks host c (k + c.activity.weight) b

variable {host : Host ω} {c d : Moment ω} {H j k : Nat}

/-- Each call that may still be active makes room for one tree. -/
theorem Stacks.le (h : c.Stacks host k d) (hc : c.activity.Low H j) (hm : c.machine.Low H)
    (hactive : c.machine.active ≤ c.machine.callLimit) :
    k ≤ (c.machine.callLimit - c.machine.active) * H + j := by
  induction h generalizing j with
  | refl => exact (Activity.weight_le hc).trans (Nat.le_add_left ..)
  | head h hd ih =>
    obtain ⟨hgets⟩ := h
    obtain ⟨j', rfl, hplan⟩ := hc.plan
    obtain ⟨ha, hl⟩ := hgets.active_le (Activity.bounded _ _ _) hactive
    obtain ⟨hn, hplace⟩ := hgets.low hplan hm
    dsimp only at ih ⊢
    rw [hl] at ih
    rcases hplace with ⟨hsame, hlow⟩ | ⟨hmore, hlow⟩
    · have hle := ih hlow hn ha
      rw [hsame] at hle
      omega
    · have hle := ih hlow hn ha
      have hfewer := Nat.mul_le_mul_right H (Nat.sub_lt_sub_left (hmore.trans_le ha) hmore)
      rw [Nat.succ_mul] at hfewer
      omega

/-- In the course of a run of the statements the activity begins while so many expressions are
evaluated, its own included. -/
def Stacked (host : Host ω) (fuel : Nat) (p : Program) (m : Machine) (w : ω) (k : Nat)
    (c : Moment ω) : Prop :=
  ∃ a n v, (Plan.block .done p).Gets host (Activity.run fuel) m w (.begins a) n v ∧
    (Moment.mk fuel a n v).Stacks host k c

theorem Stacked.le {fuel limit : Nat} {p : Program} {w : ω}
    (h : Stacked host fuel p (.fresh limit) w k c) (hp : ∀ e ∈ expressionsIn p, e.height ≤ H) :
    k ≤ (limit + 1) * H := by
  obtain ⟨a, n, v, hgets, hstacks⟩ := h
  have hfresh : (Machine.fresh limit).Low H := by
    intro name f hf
    cases hf
  obtain ⟨hactive, hl⟩ := hgets.active_le (Plan.bounded_block_done _ _ p) (Nat.zero_le _)
  obtain ⟨hn, hplace⟩ := hgets.low (Plan.low_block_done (Nat.le_refl H) hp) hfresh
  have ha : a.Low H H := by
    rcases hplace with ⟨-, hlow⟩ | ⟨-, hlow⟩
    · exact hlow
    · exact hlow
  have hle := hstacks.le ha hn (hl ▸ hactive)
  have hroom : (n.callLimit - n.active) * H ≤ limit * H := by
    apply Nat.mul_le_mul_right
    rw [hl]
    exact Nat.sub_le ..
  rw [Nat.succ_mul]
  exact hle.trans (Nat.add_le_add_right hroom H)

end Moment

end Scriptlet
