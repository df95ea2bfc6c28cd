import Scriptlet.Proofs.Blame

namespace Scriptlet
set_option autoImplicit true

/-- The activity is one of statements and ended with a return of the value. -/
def Activity.Back : (a : Activity) → Value → a.Answer → Prop
  | .statement _, u, flow => flow = Flow.giveBack u
  | .act _, u, flow => flow = Flow.giveBack u
  | _, _, _ => False

/-- A plan ends with `back` of a value only since an activity that it comes to ended with a return
of that value, and always if one did. -/
def Plan.Passes : {α : Type} → (Value → α) → Plan α → Prop
  | _, back, .done a => ∀ u, a ≠ back u
  | _, back, .step _ next => ∀ b, (next b).Passes back
  | _, back, .sub a next => ∀ b, (∀ u, a.Back u b → next b = .done (back u)) ∧
      ((∀ u, ¬ a.Back u b) → (next b).Passes back)
  | _, _, .within .. => False

namespace Plan

theorem passes_value {back : Value → α} {next : Value → Plan α}
    (h : ∀ v, (next v).Passes back) : (sub (.value e) next).Passes back := by
  intro v
  constructor
  · intro u hu
    cases hu
  · exact fun _ => h v

theorem passes_call {back : Value → α} {next : Value → Plan α}
    (h : ∀ v, (next v).Passes back) : (sub (.call name es) next).Passes back := by
  intro v
  constructor
  · intro u hu
    cases hu
  · exact fun _ => h v

theorem passes_normal : (done .normal).Passes Flow.giveBack := by
  intro u h
  cases h

theorem passes_act : (sub (.act s) done).Passes Flow.giveBack := by
  intro flow
  constructor
  · intro u hu
    exact congrArg done hu
  · exact fun h u hu => h u hu

theorem passes_block {back : Value → α} {next : Flow → Plan α}
    (hnormal : (next .normal).Passes back) (hback : ∀ u, next (.giveBack u) = .done (back u))
    (ss : List Statement) : (block next ss).Passes back := by
  induction ss with
  | nil => exact hnormal
  | cons s rest ih =>
    intro flow
    constructor
    · intro u hu
      cases hu
      exact hback u
    · intro h
      cases flow with
      | normal => exact ih
      | giveBack u => exact absurd rfl (h u)

theorem passes_block_done (ss : List Statement) : (block done ss).Passes Flow.giveBack :=
  passes_block passes_normal (fun _ => rfl) ss

end Plan

theorem Statement.passes {s : Statement} (h : ∀ pos e, s ≠ .giveBack pos e) :
    s.plan.Passes Flow.giveBack := by
  cases s with
  | assign pos x e =>
    apply Plan.passes_value
    exact fun _ _ _ => Plan.passes_normal
  | print pos e =>
    apply Plan.passes_value
    exact fun _ _ _ _ => Plan.passes_normal
  | log pos e =>
    apply Plan.passes_value
    exact fun _ _ => Plan.passes_normal
  | ifThen pos condition body =>
    intro _
    apply Plan.passes_value
    intro v
    split
    · exact Plan.passes_block_done body
    · exact Plan.passes_normal
  | ifElse pos condition body otherwise =>
    intro _
    apply Plan.passes_value
    exact fun _ => Plan.passes_block_done _
  | loop pos condition body =>
    intro _
    apply Plan.passes_value
    intro v
    split
    · apply Plan.passes_block
      · exact Plan.passes_act
      · exact fun _ => rfl
    · exact Plan.passes_normal
  | write pos mode path content =>
    apply Plan.passes_value
    intro _
    apply Plan.passes_value
    exact fun _ _ => Plan.passes_normal
  | read pos path target =>
    apply Plan.passes_value
    exact fun _ _ => Plan.passes_normal
  | delete pos path =>
    apply Plan.passes_value
    exact fun _ _ => Plan.passes_normal
  | function pos name parameters body => exact fun _ => Plan.passes_normal
  | call pos name es =>
    apply Plan.passes_call
    exact fun _ => Plan.passes_normal
  | giveBack pos e => exact absurd rfl (h pos e)

/-- The system is told of one event after the other. -/
def Host.told {ω : Type} (host : Host ω) (events : List Event) (w : ω) : ω :=
  events.foldl (fun w event => (host (.note event) w).2) w

theorem Host.told_append {ω : Type} (host : Host ω) (events events' : List Event) (w : ω) :
    host.told (events ++ events') w = host.told events' (host.told events w) :=
  List.foldl_append ..

/-- Statements end one after the other with a return of the value. -/
def finishes (u : Value) (ss : List Statement) : List Event :=
  ss.map fun s => .finish s (.giveBack u)

/-- In the course of the activity, which is one of statements, a `return` is executed, and not
within a call; by the time when its expression has the value `u`, the machine and the system are as
given. -/
inductive Moment.Gives {ω : Type} (host : Host ω) : Moment ω → Value → Machine → ω → Prop
  | back (h : (evaluate k e).Yields host m w u n v) :
      Gives host ⟨k + 1, .act (.giveBack pos e), m, w⟩ u n v
  | statement (h : Opens host ⟨k, .statement s, m, w⟩ d) (hd : Gives host d u n v) :
      Gives host ⟨k, .statement s, m, w⟩ u n v
  | act (h : Opens host ⟨k, .act s, m, w⟩ d) (hd : Gives host d u n v) :
      Gives host ⟨k, .act s, m, w⟩ u n v

section
variable {ω : Type} {host : Host ω} {m n : Machine} {w v : ω} {k fuel : Nat} {u : Value}

theorem Plan.Passes.begins {back : Value → α} {p : Plan α} (hp : p.Passes back)
    (h : (p.eval (Activity.run k)).Yields host m w (back u) n v) :
    ∃ a u' b n' v', p.Gets host (Activity.run k) m w (.begins a) n' v' ∧ back u' = back u ∧
      a.Back u' b ∧ (a.run k).Yields host n' v' b n v := by
  induction p generalizing m w with
  | done a =>
    cases h
    exact absurd rfl (hp u)
  | step q next ih =>
    obtain ⟨b, m', w', hq, h⟩ := Eval.yields_bind_iff.1 h
    obtain ⟨a, u', b', n', v', hgets, ha⟩ := ih b (hp b) h
    exact ⟨a, u', b', n', v', .step hq hgets, ha⟩
  | sub a next ih =>
    obtain ⟨b, m', w', ha, h⟩ := Eval.yields_bind_iff.1 h
    by_cases hb : ∃ u', a.Back u' b
    · obtain ⟨u', hu⟩ := hb
      rw [(hp b).1 u' hu] at h
      generalize back u = x at h ⊢
      cases h
      exact ⟨a, u', b, m, w, .begins, rfl, hu, ha⟩
    · have hnext := (hp b).2 fun u' hu => hb ⟨u', hu⟩
      obtain ⟨c, u', b', n', v', hgets, hc⟩ := ih b hnext h
      exact ⟨c, u', b', n', v', .sub ha hgets, hc⟩
  | within name scope body next => cases hp

theorem Plan.Passes.yields {back : Value → α} {p : Plan α} {b : a.Answer} (hp : p.Passes back)
    (hgets : p.Gets host (Activity.run k) m w (.begins a) n v) (hb : a.Back u b)
    (ha : (a.run k).Yields host n v b n' v') :
    (p.eval (Activity.run k)).Yields host m w (back u) n' v' := by
  induction p generalizing m w with
  | done b => cases hgets
  | step q next ih =>
    cases hgets with
    | step hq hgets => exact Eval.yields_bind_iff.2 ⟨_, _, _, hq, ih _ (hp _) hgets⟩
  | sub c next ih =>
    cases hgets with
    | begins =>
      have hdone : ((next b).eval (Activity.run k)).Yields host n' v' (back u) n' v' := by
        rw [(hp b).1 u hb]
        rfl
      exact Eval.yields_bind_iff.2 ⟨b, n', v', ha, hdone⟩
    | @sub _ _ _ _ _ _ _ _ _ d _ hd hgets =>
      have hnext : (next d).Passes back := by
        apply (hp d).2
        -- After a return the plan has no more to do, and nothing begins.
        intro u hu
        rw [(hp d).1 u hu] at hgets
        cases hgets
      exact Eval.yields_bind_iff.2 ⟨d, _, _, hd, ih d hnext hgets⟩
  | within name scope body next => cases hp

/-- The activity is one of statements and ends with a return of the value. -/
def Moment.EndsWith (host : Host ω) (c : Moment ω) (u : Value) (n : Machine) (v : ω) : Prop :=
  ∃ b, c.activity.Back u b ∧ (c.activity.run c.fuel).Yields host c.machine c.world b n v

namespace Moment

variable {c d : Moment ω}

theorem opens_statement_iff {k : Nat} {s : Statement} {m : Machine} {w : ω} :
    Opens host ⟨k + 1, .statement s, m, w⟩ d ↔
      d = ⟨k, .act s, m, (host (.note (.execute s)) w).2⟩ := by
  constructor
  · rintro ⟨hgets⟩
    cases hgets with
    | step hnote hgets =>
      cases hnote
      cases hgets with
      | begins => rfl
      | sub hact hgets =>
        cases hgets with
        | step hnote hgets => cases hgets
  · rintro rfl
    exact .intro (.step rfl .begins)

theorem endsWith_succ_iff {a : Activity} : (Moment.mk (k + 1) a m w).EndsWith host u n v ↔
    ∃ b, a.Back u b ∧ (a.plan.eval (Activity.run k)).Yields host m w b n v := by
  unfold EndsWith
  dsimp only
  rw [Activity.run_succ]
  simp only [Eval.yields_locate_iff]

theorem not_endsWith_zero {a : Activity} : ¬ (Moment.mk 0 a m w).EndsWith host u n v := by
  rintro ⟨b, -, h⟩
  rw [Activity.run_zero] at h
  cases h

/-- A statement ends with a return if and only if what it says does, and then tells so. -/
theorem statement_endsWith_iff {s : Statement} :
    (Moment.mk (k + 1) (.statement s) m w).EndsWith host u n v ↔ ∃ v',
      (Moment.mk k (.act s) m (host (.note (.execute s)) w).2).EndsWith host u n v' ∧
        v = host.told (finishes u [s]) v' := by
  rw [endsWith_succ_iff]
  constructor
  · rintro ⟨_, rfl, h⟩
    obtain ⟨_, m', w', hnote, h⟩ := Eval.yields_bind_iff.1 h
    cases hnote
    obtain ⟨flow, n', v', hact, h⟩ := Eval.yields_bind_iff.1 h
    cases h
    exact ⟨v', ⟨_, rfl, hact⟩, rfl⟩
  · rintro ⟨v', ⟨_, rfl, h⟩, rfl⟩
    refine ⟨_, rfl, Eval.yields_bind_iff.2 ⟨(), m, _, rfl, ?_⟩⟩
    exact Eval.yields_bind_iff.2 ⟨_, n, v', h, rfl⟩

theorem Gives.endsWith (h : c.Gives host u n v) :
    ∃ ss, c.EndsWith host u n (host.told (finishes u ss) v) := by
  induction h with
  | @back k e m w u n v pos h =>
    refine ⟨[], _, rfl, ?_⟩
    exact Eval.yields_bind_iff.2 ⟨u, n, v, h, rfl⟩
  | @statement k s m w d u n v h hd ih =>
    obtain ⟨hgets⟩ := id h
    obtain ⟨ss, hss⟩ := ih
    cases opens_statement_iff.1 h
    refine ⟨ss ++ [s], statement_endsWith_iff.2 ⟨_, hss, ?_⟩⟩
    rw [finishes, List.map_append, Host.told_append]
    rfl
  | @act k s m w d u n v h hd ih =>
    obtain ⟨hgets⟩ := h
    obtain ⟨ss, b, hb, hyields⟩ := ih
    have hpasses : s.plan.Passes Flow.giveBack := by
      apply Statement.passes
      -- All that begins in the course of a return is its expression.
      rintro pos e rfl
      cases hgets with
      | begins => cases hb
      | sub hv hgets => cases hgets
    exact ⟨ss, endsWith_succ_iff.2 ⟨_, rfl, hpasses.yields hgets hb hyields⟩⟩

theorem EndsWith.gives (h : c.EndsWith host u n v) :
    ∃ ss v', c.Gives host u n v' ∧ v = host.told (finishes u ss) v' := by
  obtain ⟨fuel, a, m, w⟩ := c
  -- What begins in the course of an activity has less fuel than that.
  induction fuel generalizing a m w v with
  | zero => exact absurd h not_endsWith_zero
  | succ k ih =>
    cases a with
    | statement s =>
      obtain ⟨v', hact, rfl⟩ := statement_endsWith_iff.1 h
      obtain ⟨ss, v'', hgives, rfl⟩ := ih _ _ _ hact
      refine ⟨ss ++ [s], v'', .statement (opens_statement_iff.2 rfl) hgives, ?_⟩
      rw [finishes, finishes, finishes, List.map_append, Host.told_append]
    | act s =>
      by_cases hs : ∃ pos e, s = .giveBack pos e
      · obtain ⟨pos, e, rfl⟩ := hs
        obtain ⟨_, rfl, h⟩ := endsWith_succ_iff.1 h
        obtain ⟨u', n', v', he, h⟩ := Eval.yields_bind_iff.1 h
        cases h
        exact ⟨[], v, .back he, rfl⟩
      · have hpasses := Statement.passes fun pos e he => hs ⟨pos, e, he⟩
        obtain ⟨_, rfl, h⟩ := endsWith_succ_iff.1 h
        obtain ⟨a, u', b, n', v', hgets, hu, hb, ha⟩ := hpasses.begins h
        cases hu
        obtain ⟨ss, v'', hgives, rfl⟩ := ih _ _ _ ⟨b, hb, ha⟩
        exact ⟨ss, v'', .act (.intro hgets) hgives, rfl⟩
    | value e =>
      obtain ⟨b, hu, -⟩ := h
      cases hu
    | call name es =>
      obtain ⟨b, hu, -⟩ := h
      cases hu

end Moment

end

end Scriptlet
