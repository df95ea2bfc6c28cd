import Scriptlet.Proofs.Places
import Scriptlet.Proofs.Plan

namespace Scriptlet
set_option autoImplicit true

/-- Ways to move places, each with the places that it may move. -/
abbrev Movers := (Position → Position) → Position → Prop

section
variable (G : Movers)

/-- The same statement, all of it moved in one way. -/
def Statement.Carried (s s' : Statement) : Prop :=
  ∃ f, (∀ pos ∈ s.places, G f pos) ∧ s' = s.moved f

def CarriedAll (ss ss' : List Statement) : Prop :=
  ∃ f, (∀ pos ∈ placesAll ss, G f pos) ∧ ss' = movedAll f ss

structure Function.Carried (f f' : Function) : Prop where
  parameters : f'.parameters = f.parameters
  body : CarriedAll G f.body f'.body

structure RuntimeError.Carried (e e' : RuntimeError) : Prop where
  fault : e'.fault = e.fault
  position : Option.Rel (fun pos pos' => ∃ f, G f pos ∧ pos' = f pos) e.position e'.position

/-- The same machine, its functions moved, each in its way. -/
structure Machine.Carried (m m' : Machine) : Prop where
  current : m'.current = m.current
  callers : m'.callers = m.callers
  functions : ∀ name,
    Option.Rel (Function.Carried G) (m.functions.find? name) (m'.functions.find? name)
  callLimit : m'.callLimit = m.callLimit

def Primitive.Plain : Primitive → Prop
  | callee .. | define .. => False
  | _ => True

/-- The same plan, for code that was moved and an observer who is told of it. -/
inductive Plan.Carried : {α : Type} → Plan α → Plan α → Prop
  | done (a : α) : Carried (.done a) (.done a)
  | plain {p : Primitive} {next next' : p.Answer → Plan α} (hp : p.Plain)
      (h : ∀ b, Carried (next b) (next' b)) : Carried (.step p next) (.step p next')
  | note {next next' : Unit → Plan α} (h : ∀ b, Carried (next b) (next' b)) :
      Carried (.step (.note event) next) (.step (.note event') next')
  | define {next next' : Unit → Plan α} (hf : Function.Carried G f f')
      (h : ∀ b, Carried (next b) (next' b)) :
      Carried (.step (.define name f) next) (.step (.define name f') next')
  | callee {next next' : Function → Plan α}
      (h : ∀ f f', Function.Carried G f f' → Carried (next f) (next' f')) :
      Carried (.step (.callee name count) next) (.step (.callee name count) next')
  | value {next next' : Value → Plan α} (h : ∀ v, Carried (next v) (next' v)) :
      Carried (.sub (.value e) next) (.sub (.value e) next')
  | call {next next' : Value → Plan α} (h : ∀ v, Carried (next v) (next' v)) :
      Carried (.sub (.call name es) next) (.sub (.call name es) next')
  | statement {next next' : Flow → Plan α} (hs : Statement.Carried G s s')
      (h : ∀ flow, Carried (next flow) (next' flow)) :
      Carried (.sub (.statement s) next) (.sub (.statement s') next')
  | act {next next' : Flow → Plan α} (hs : Statement.Carried G s s')
      (h : ∀ flow, Carried (next flow) (next' flow)) :
      Carried (.sub (.act s) next) (.sub (.act s') next')
  | within {next next' : Flow → Plan α} (hbody : Carried body body')
      (h : ∀ flow, Carried (next flow) (next' flow)) :
      Carried (.within name scope body next) (.within name scope body' next')

end

variable {G : Movers}

theorem Function.Carried.scope {f f' : Function} (h : f.Carried G f') (values : List Value) :
    f'.scope values = f.scope values := by
  rw [Function.scope, Function.scope, h.parameters]

namespace Plan.Carried

theorem ite {c : Prop} [Decidable c] {p p' q q' : Plan α} (hp : p.Carried G p')
    (hq : q.Carried G q') :
    Plan.Carried G (if c then p else q) (if c then p' else q') := by
  split
  · exact hp
  · exact hq

theorem each {next next' : List Value → Plan α} (h : ∀ vs, (next vs).Carried G (next' vs))
    (es : List Expression) : (Plan.each next es).Carried G (Plan.each next' es) := by
  induction es generalizing next next' with
  | nil => exact h []
  | cons e rest ih => exact .value fun v => ih fun vs => h (v :: vs)

theorem block {next next' : Flow → Plan α} (hs : CarriedAll G ss ss')
    (h : ∀ flow, (next flow).Carried G (next' flow)) :
    (Plan.block next ss).Carried G (Plan.block next' ss') := by
  obtain ⟨f, hf, rfl⟩ := hs
  induction ss with
  | nil => exact h .normal
  | cons s rest ih =>
    obtain ⟨hs, hrest⟩ := List.forall_mem_append.1 hf
    apply Plan.Carried.statement ⟨f, hs, rfl⟩
    intro flow
    cases flow with
    | normal => exact ih hrest
    | giveBack v => exact h (.giveBack v)

theorem expression (e : Expression) : e.plan.Carried G e.plan := by
  cases e with
  | string s => exact .done _
  | number n => exact .done _
  | var x => exact .plain trivial .done
  | binary op left right => exact .value fun a => .value fun b => .plain trivial .done
  | logical op left right =>
    apply Plan.Carried.value
    intro a
    exact .ite (.done _) (.value fun b => .done _)
  | call name es => exact .call .done

theorem call_plan (name : String) (es : List Expression) :
    (Activity.call name es).plan.Carried G (Activity.call name es).plan := by
  apply Plan.Carried.callee
  intro f f' hf
  apply Plan.Carried.each
  intro values
  rw [hf.scope values]
  apply Plan.Carried.note
  intro _
  apply Plan.Carried.within (.block hf.body .done)
  intro flow
  cases flow with
  | normal => exact .done _
  | giveBack v => exact .done _

end Plan.Carried

theorem Statement.Carried.plan {s s' : Statement} (h : s.Carried G s') :
    s.plan.Carried G s'.plan := by
  have hs := h
  obtain ⟨f, hf, rfl⟩ := h
  cases s with
  | assign pos x e => exact .value fun v => .plain trivial fun _ => .plain trivial fun _ => .done _
  | print pos e =>
    exact .value fun v => .plain trivial fun _ => .plain trivial fun _ => .plain trivial fun _ =>
      .done _
  | log pos e => exact .value fun v => .plain trivial fun _ => .done _
  | ifThen pos c body =>
    have hbody : CarriedAll G body (movedAll f body) := ⟨f, (List.forall_mem_cons.1 hf).2, rfl⟩
    exact .note fun _ => .value fun v => .ite (.block hbody .done) (.done _)
  | ifElse pos c body otherwise =>
    obtain ⟨hb, ho⟩ := List.forall_mem_append.1 (List.forall_mem_cons.1 hf).2
    apply Plan.Carried.note
    intro _
    apply Plan.Carried.value
    intro v
    apply Plan.Carried.block _ .done
    split
    · exact ⟨f, hb, rfl⟩
    · exact ⟨f, ho, rfl⟩
  | loop pos c body =>
    have hbody : CarriedAll G body (movedAll f body) := ⟨f, (List.forall_mem_cons.1 hf).2, rfl⟩
    apply Plan.Carried.note
    intro _
    apply Plan.Carried.value
    intro v
    apply Plan.Carried.ite _ (.done _)
    apply Plan.Carried.block hbody
    intro flow
    cases flow with
    | normal => exact .act hs .done
    | giveBack v => exact .done _
  | write pos mode path content =>
    exact .value fun p => .value fun v => .plain trivial fun _ => .done _
  | read pos path x => exact .value fun p => .plain trivial fun _ => .done _
  | delete pos path => exact .value fun p => .plain trivial fun _ => .done _
  | function pos name xs body =>
    have hbody : CarriedAll G body (movedAll f body) := ⟨f, (List.forall_mem_cons.1 hf).2, rfl⟩
    exact .define ⟨rfl, hbody⟩ fun _ => .done _
  | call pos name es => exact .call fun _ => .done _
  | giveBack pos e => exact .value fun v => .done _

end Scriptlet
