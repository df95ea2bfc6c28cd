import Scriptlet.Proofs.Plan.Faults

namespace Scriptlet
set_option autoImplicit true

inductive Point
  | does (p : Primitive)
  | begins (a : Activity)
  | ends

/-- Carried out on a machine and in a system as they are, a plan gets to a point, with the machine
and the system as they are by then. -/
inductive Plan.Gets {ω : Type} (host : Host ω) (run : (a : Activity) → Eval a.Answer) :
    {α : Type} → Plan α → Machine → ω → Point → Machine → ω → Prop
  | ends {a : α} : Gets host run (.done a) m w .ends m w
  | does {next : p.Answer → Plan α} : Gets host run (.step p next) m w (.does p) m w
  | begins {next : a.Answer → Plan α} : Gets host run (.sub a next) m w (.begins a) m w
  | step {b : p.Answer} {next : p.Answer → Plan α} (hp : p.eval.Yields host m w b n v)
      (h : Gets host run (next b) n v q m' w') : Gets host run (.step p next) m w q m' w'
  | sub {b : a.Answer} {next : a.Answer → Plan α} (ha : (run a).Yields host m w b n v)
      (h : Gets host run (next b) n v q m' w') : Gets host run (.sub a next) m w q m' w'
  | inside {body : Plan Flow} {next : Flow → Plan α}
      (h : Gets host run body (m.enter scope) w q m' w') :
      Gets host run (.within name scope body next) m w q m' w'
  | within {body : Plan Flow} {next : Flow → Plan α}
      (hb : (Eval.within name scope (body.eval run)).Yields host m w flow n v)
      (h : Gets host run (next flow) n v q m' w') :
      Gets host run (.within name scope body next) m w q m' w'

section
variable {ω : Type} {host : Host ω} {run : (a : Activity) → Eval a.Answer} {m : Machine} {w : ω}
  {e : RuntimeError}

def Point.Fails (host : Host ω) (run : (a : Activity) → Eval a.Answer) :
    Point → Machine → ω → RuntimeError → Prop
  | .does p, m, w, e => p.eval.Fails host m w e
  | .begins a, m, w, e => (run a).Fails host m w e
  | .ends, _, _, _ => False

theorem Plan.Gets.fails {p : Plan α} {q : Point} (h : p.Gets host run m w q m' w')
    (hq : q.Fails host run m' w' e) : (p.eval run).Fails host m w e := by
  induction h with
  | ends => cases hq
  | does => exact Eval.fails_bind_iff.2 (.inl hq)
  | begins => exact Eval.fails_bind_iff.2 (.inl hq)
  | step hp h ih => exact Eval.fails_bind_iff.2 (.inr ⟨_, _, _, hp, ih hq⟩)
  | sub ha h ih => exact Eval.fails_bind_iff.2 (.inr ⟨_, _, _, ha, ih hq⟩)
  | inside h ih => exact Eval.fails_bind_iff.2 (.inl (Eval.fails_within_iff.2 (ih hq)))
  | within hb h ih => exact Eval.fails_bind_iff.2 (.inr ⟨_, _, _, hb, ih hq⟩)

theorem Plan.gets_of_fails {p : Plan α} (h : (p.eval run).Fails host m w e) :
    ∃ q m' w', p.Gets host run m w q m' w' ∧ q.Fails host run m' w' e := by
  induction p generalizing m w with
  | done a =>
    obtain ⟨n, v, h⟩ := h
    cases h
  | step p next ih =>
    rcases Eval.fails_bind_iff.1 h with h | ⟨b, n, v, hp, h⟩
    · exact ⟨.does p, m, w, .does, h⟩
    · obtain ⟨q, m', w', hgets, hq⟩ := ih b h
      exact ⟨q, m', w', .step hp hgets, hq⟩
  | sub a next ih =>
    rcases Eval.fails_bind_iff.1 h with h | ⟨b, n, v, ha, h⟩
    · exact ⟨.begins a, m, w, .begins, h⟩
    · obtain ⟨q, m', w', hgets, hq⟩ := ih b h
      exact ⟨q, m', w', .sub ha hgets, hq⟩
  | within name scope body next ihb ih =>
    rcases Eval.fails_bind_iff.1 h with h | ⟨flow, n, v, hb, h⟩
    · obtain ⟨q, m', w', hgets, hq⟩ := ihb (Eval.fails_within_iff.1 h)
      exact ⟨q, m', w', .inside hgets, hq⟩
    · obtain ⟨q, m', w', hgets, hq⟩ := ih flow h
      exact ⟨q, m', w', .within hb hgets, hq⟩

end

/-- An activity that begins, with so much fuel, on a machine and in a system as they are then. -/
structure Moment (ω : Type) where
  fuel : Nat
  activity : Activity
  machine : Machine
  world : ω

namespace Moment

variable {ω : Type}

def Fails (host : Host ω) (c : Moment ω) (e : RuntimeError) : Prop :=
  (c.activity.run c.fuel).Fails host c.machine c.world e

/-- The activity gets to a point without the help of another one. -/
inductive Gets (host : Host ω) : Moment ω → Point → Machine → ω → Prop
  | intro (h : a.plan.Gets host (Activity.run k) m w q n v) : Gets host ⟨k + 1, a, m, w⟩ q n v

/-- In the course of the activity another one begins. -/
inductive Opens (host : Host ω) : Moment ω → Moment ω → Prop
  | intro (h : a.plan.Gets host (Activity.run k) m w (.begins b) n v) :
      Opens host ⟨k + 1, a, m, w⟩ ⟨k, b, n, v⟩

/-- In the course of the activity, or of others that begin in its course, the other one begins. -/
inductive Reaches (host : Host ω) : Moment ω → Moment ω → Prop
  | refl : Reaches host c c
  | head (h : c.Opens host d) (hd : Reaches host d b) : Reaches host c b

inductive Evaluates (host : Host ω) : Moment ω → Moment ω → Prop
  | refl : Evaluates host c c
  | head (h : c.Opens host d) (hplace : d.activity.place? = none) (hd : Evaluates host d b) :
      Evaluates host c b

variable {host : Host ω} {c d b : Moment ω} {e : RuntimeError} {fault : Fault}

theorem Reaches.trans (h : c.Reaches host d) (hd : d.Reaches host b) : c.Reaches host b := by
  induction h with
  | refl => exact hd
  | head h _ ih => exact .head h (ih hd)

theorem Evaluates.reaches (h : c.Evaluates host d) : c.Reaches host d := by
  induction h with
  | refl => exact .refl
  | head h _ _ ih => exact .head h ih

/-- A primitive of the activity itself meets a fault. -/
def Meets (host : Host ω) (c : Moment ω) (fault : Fault) : Prop :=
  ∃ p n v, c.Gets host (.does p) n v ∧ p.eval.Fails host n v ⟨fault, none⟩

theorem fails_succ_iff {k : Nat} {a : Activity} {m : Machine} {w : ω} :
    (Moment.mk (k + 1) a m w).Fails host e ↔
      ∃ e', (a.plan.eval (Activity.run k)).Fails host m w e' ∧
        e = { e' with position := e'.position <|> a.place? } := by
  unfold Fails
  rw [Activity.run_succ]
  exact Eval.fails_locate_iff

theorem Meets.fails (h : c.Meets host fault) : ∃ e, c.Fails host e ∧ e.fault = fault := by
  obtain ⟨p, n, v, ⟨hgets⟩, hp⟩ := h
  exact ⟨_, fails_succ_iff.2 ⟨_, hgets.fails hp, rfl⟩, rfl⟩

theorem Opens.fails (h : c.Opens host d) (hd : d.Fails host e) :
    ∃ e', c.Fails host e' ∧ e'.fault = e.fault := by
  obtain ⟨hgets⟩ := h
  exact ⟨_, fails_succ_iff.2 ⟨_, hgets.fails hd, rfl⟩, rfl⟩

theorem fails_of_reaches (h : c.Reaches host d)
    (hd : d.Meets host fault) : ∃ e, c.Fails host e ∧ e.fault = fault := by
  induction h with
  | refl => exact hd.fails
  | head h _ ih =>
    obtain ⟨e, he, hfault⟩ := ih hd
    obtain ⟨e', he', hfault'⟩ := h.fails he
    exact ⟨e', he', hfault'.trans hfault⟩

/-- An activity fails by a primitive of its own, or since another one does that begins in its
course. -/
theorem Fails.meets_or_opens (h : c.Fails host e) :
    (c.Meets host e.fault ∧ e.position = c.activity.place?) ∨
      ∃ d e', c.Opens host d ∧ d.Fails host e' ∧
        e = { e' with position := e'.position <|> c.activity.place? } := by
  obtain ⟨fuel, a, m, w⟩ := c
  cases fuel with
  | zero =>
    obtain ⟨n, v, h⟩ := h
    rw [Activity.run_zero] at h
    cases h
  | succ k =>
    obtain ⟨⟨fault, position⟩, hplan, rfl⟩ := fails_succ_iff.1 h
    obtain ⟨q, n, v, hgets, hq⟩ := Plan.gets_of_fails hplan
    cases q with
    | does p =>
      obtain ⟨hposition, -⟩ := p.failsOnly host n v _ hq
      obtain rfl : position = none := hposition
      exact .inl ⟨⟨p, n, v, .intro hgets, hq⟩, rfl⟩
    | begins b => exact .inr ⟨⟨k, b, n, v⟩, _, .intro hgets, hq, rfl⟩
    | ends => cases hq

/-- An error has the place of the innermost statement that is open when its fault is met, or no
place if none is. -/
theorem Fails.innermost (h : c.Fails host e) : ∃ d b,
    c.Reaches host d ∧ d.Evaluates host b ∧
      b.Meets host e.fault ∧ e.position = d.activity.place? ∧
      (d = c ∨ d.activity.place? ≠ none) := by
  obtain ⟨fuel, a, m, w⟩ := c
  -- What begins in the course of an activity has less fuel than that.
  induction fuel generalizing a m w e with
  | zero =>
    obtain ⟨n, v, h⟩ := h
    rw [Activity.run_zero] at h
    cases h
  | succ k ih =>
    rcases h.meets_or_opens with ⟨hmeets, hposition⟩ | ⟨⟨k', b, n, v⟩, e', hopens, hfails, rfl⟩
    · exact ⟨_, _, .refl, .refl, hmeets, hposition, .inl rfl⟩
    · obtain ⟨hgets⟩ := id hopens
      obtain ⟨d, i, hd, hi, hmeets, hposition, hinner⟩ := ih _ _ _ hfails
      cases hplace : d.activity.place? with
      | some pos =>
        refine ⟨d, i, .head hopens hd, hi, hmeets, ?_, .inr (by simp [hplace])⟩
        rw [hposition, hplace]
        rfl
      | none =>
        -- The error comes without a place from an activity that is no statement.
        obtain rfl := hinner.resolve_right (by simp [hplace])
        refine ⟨_, i, .refl, .head hopens hplace hi, hmeets, ?_, .inl rfl⟩
        rw [hposition, hplace]
        rfl

theorem fails_of_evaluates (h : c.Evaluates host d)
    (hd : d.Meets host fault) : c.Fails host ⟨fault, c.activity.place?⟩ := by
  induction h with
  | refl =>
    obtain ⟨p, n, v, ⟨hgets⟩, hp⟩ := hd
    exact fails_succ_iff.2 ⟨_, hgets.fails hp, rfl⟩
  | head h hplace _ ih =>
    obtain ⟨hgets⟩ := h
    replace ih := ih hd
    rw [hplace] at ih
    exact fails_succ_iff.2 ⟨_, hgets.fails ih, rfl⟩

/-- An error that has a place keeps it on its way out. -/
theorem fails_of_opens (h : c.Reaches host d)
    (hd : d.Fails host ⟨fault, some pos⟩) : c.Fails host ⟨fault, some pos⟩ := by
  induction h with
  | refl => exact hd
  | head h _ ih =>
    obtain ⟨hgets⟩ := h
    exact fails_succ_iff.2 ⟨_, hgets.fails (ih hd), rfl⟩

/-- In the course of a run of the statements the activity begins. -/
def Reached (host : Host ω) (fuel : Nat) (p : Program) (m : Machine) (w : ω) (c : Moment ω) :
    Prop :=
  ∃ a n v, (Plan.block .done p).Gets host (Activity.run fuel) m w (.begins a) n v ∧
    (Moment.mk fuel a n v).Reaches host c

end Moment

section
variable {ω : Type} {host : Host ω} {fuel : Nat} {m : Machine} {w : ω} {e : RuntimeError}

theorem Plan.gets_block_cases {ss : List Statement}
    (h : (Plan.block .done ss).Gets host (Activity.run fuel) m w q n v) :
    q = .ends ∨ ∃ s ∈ ss, q = .begins (.statement s) := by
  induction ss generalizing m w with
  | nil =>
    cases h
    exact .inl rfl
  | cons s rest ih =>
    cases h with
    | begins => exact .inr ⟨s, .head _, rfl⟩
    | @sub _ _ _ _ _ _ _ _ _ flow _ ha h =>
      cases flow with
      | normal =>
        rcases ih h with he | ⟨t, ht, he⟩
        · exact .inl he
        · exact .inr ⟨t, .tail _ ht, he⟩
      | giveBack v =>
        cases h
        exact .inl rfl

theorem runStatements_fails_of_block {ss : List Statement}
    (h : (Eval.block (execute fuel) ss).Fails host m w e) :
    (runStatements fuel ss).Fails host m w e := by
  induction ss generalizing m w with
  | nil =>
    obtain ⟨n, v, h⟩ := h
    cases h
  | cons s rest ih =>
    rcases Eval.fails_bind_iff.1 h with h | ⟨flow, n, v, hs, h⟩
    · exact Eval.fails_bind_iff.2 (.inl h)
    · refine Eval.fails_bind_iff.2 (.inr ⟨flow, n, v, hs, ?_⟩)
      cases flow with
      | normal => exact ih h
      | giveBack a =>
        obtain ⟨n', v', h⟩ := h
        cases h

theorem block_fails_of_runStatements {ss : List Statement}
    (h : (runStatements fuel ss).Fails host m w e) (hf : e.fault ≠ .returnOutsideFunction) :
    (Eval.block (execute fuel) ss).Fails host m w e := by
  induction ss generalizing m w with
  | nil =>
    obtain ⟨n, v, h⟩ := h
    cases h
  | cons s rest ih =>
    rcases Eval.fails_bind_iff.1 h with h | ⟨flow, n, v, hs, h⟩
    · exact Eval.fails_bind_iff.2 (.inl h)
    · refine Eval.fails_bind_iff.2 (.inr ⟨flow, n, v, hs, ?_⟩)
      cases flow with
      | normal => exact ih h
      | giveBack a =>
        obtain ⟨n', v', h⟩ := h
        cases h
        exact absurd rfl hf

theorem block_fails_iff {ss : List Statement} : (Eval.block (execute fuel) ss).Fails host m w e ↔
    ∃ s n v, (Plan.block .done ss).Gets host (Activity.run fuel) m w (.begins (.statement s)) n v ∧
      (Moment.mk fuel (.statement s) n v).Fails host e := by
  have heval := Plan.eval_block_done (Activity.run fuel) ss
  constructor
  · intro h
    obtain ⟨q, n, v, hgets, hq⟩ := Plan.gets_of_fails (heval ▸ h)
    rcases Plan.gets_block_cases hgets with rfl | ⟨s, -, rfl⟩
    · cases hq
    · exact ⟨s, n, v, hgets, hq⟩
  · rintro ⟨s, n, v, hgets, hs⟩
    exact heval ▸ hgets.fails hs

end

end Scriptlet
