import Scriptlet.Proofs.Moment

namespace Scriptlet
set_option autoImplicit true

/-- What an activity does itself, without the help of another one. -/
def Activity.Does : Activity → Primitive → Prop
  | .value (.var x), q => q = .lookup x
  | .value (.binary op _ _), q => ∃ a b, q = .operate op a b
  | .value _, _ => False
  | .call name es, q => q = .callee name es.length ∨ ∃ f values, q = .note (.enter name f values)
  | .statement s, q => q = .note (.execute s) ∨ ∃ flow, q = .note (.finish s flow)
  | .act (.assign _ x _), q =>
    ∃ v : Value, q = .record s!"[SET] {x} = {v.display}" ∨ q = .assign x v
  | .act (.print ..), q =>
    ∃ v : Value, q = .output v.display ∨ q = .output "\n" ∨ q = .record s!"[PRINT] {v.display}"
  | .act (.log ..), q => ∃ v : Value, q = .record s!"[LOG] {v.display}"
  | .act s@(.ifThen ..), q | .act s@(.ifElse ..), q | .act s@(.loop ..), q => q = .note (.test s)
  | .act (.write _ mode ..), q => ∃ p v : Value, q = .write mode p.display v.display
  | .act (.read _ _ target), q => ∃ p : Value, q = .read p.display target
  | .act (.delete ..), q => ∃ p : Value, q = .delete p.display
  | .act (.function _ name parameters body), q => q = .define name ⟨parameters, body⟩
  | .act (.call ..), _ | .act (.giveBack ..), _ => False

namespace Plan

variable {A B : Primitive → Prop}

theorem All.mono {p : Plan α} (h : p.All A) (hab : ∀ q, A q → B q) : p.All B := by
  induction p with
  | done a => trivial
  | step q next ih => exact ⟨hab q h.1, fun b => ih b (h.2 b)⟩
  | sub a next ih => exact fun b => ih b (h b)
  | within name scope body next ihb ih => exact ⟨ihb h.1, fun flow => ih flow (h.2 flow)⟩

theorem all_each {next : List Value → Plan α} (h : ∀ vs, (next vs).All A)
    (es : List Expression) : (each next es).All A := by
  induction es generalizing next with
  | nil => exact h []
  | cons e rest ih => exact fun v => ih fun vs => h (v :: vs)

theorem all_block {next : Flow → Plan α} (h : ∀ flow, (next flow).All A)
    (ss : List Statement) : (block next ss).All A := by
  induction ss with
  | nil => exact h .normal
  | cons s rest ih =>
    intro flow
    cases flow with
    | normal => exact ih
    | giveBack v => exact h (.giveBack v)

theorem all_block_done (ss : List Statement) : (block done ss).All A := by
  apply all_block
  exact fun _ => trivial

theorem Gets.does_of_all {ω : Type} {host : Host ω} {w v : ω} {run : (a : Activity) → Eval a.Answer}
    {p : Plan α} {r : Point} (h : p.Gets host run m w r n v) (hp : p.All A)
    (hr : r = .does q) : A q := by
  induction h with
  | ends => cases hr
  | does =>
    cases hr
    exact hp.1
  | begins => cases hr
  | step hq h ih => exact ih (hp.2 _) hr
  | sub ha h ih => exact ih (hp _) hr
  | inside h ih => exact ih hp.1 hr
  | within hb h ih => exact ih (hp.2 _) hr

end Plan

theorem Expression.does (e : Expression) : e.plan.All (Activity.value e).Does := by
  cases e with
  | string s => trivial
  | number n => trivial
  | var x => exact ⟨rfl, fun _ => trivial⟩
  | binary op left right => exact fun a b => ⟨⟨a, b, rfl⟩, fun _ => trivial⟩
  | logical op left right =>
    intro a
    dsimp only
    split
    · trivial
    · exact fun _ => trivial
  | call name es => exact fun _ => trivial

theorem Statement.does (s : Statement) : s.plan.All (Activity.act s).Does := by
  cases s with
  | assign pos x e => exact fun v => ⟨⟨v, .inl rfl⟩, fun _ => ⟨⟨v, .inr rfl⟩, fun _ => trivial⟩⟩
  | print pos e =>
    intro v
    refine ⟨⟨v, .inl rfl⟩, fun _ => ⟨⟨v, .inr (.inl rfl)⟩, fun _ => ?_⟩⟩
    exact ⟨⟨v, .inr (.inr rfl)⟩, fun _ => trivial⟩
  | log pos e => exact fun v => ⟨⟨v, rfl⟩, fun _ => trivial⟩
  | ifThen pos condition body =>
    refine ⟨rfl, fun _ v => ?_⟩
    dsimp only
    split
    · exact Plan.all_block_done body
    · trivial
  | ifElse pos condition body otherwise =>
    exact ⟨rfl, fun _ v => Plan.all_block_done _⟩
  | loop pos condition body =>
    refine ⟨rfl, fun _ v => ?_⟩
    dsimp only
    split
    · apply Plan.all_block
      intro flow
      cases flow with
      | normal => exact fun _ => trivial
      | giveBack v => trivial
    · trivial
  | write pos mode path content => exact fun p v => ⟨⟨p, v, rfl⟩, fun _ => trivial⟩
  | read pos path target => exact fun p => ⟨⟨p, rfl⟩, fun _ => trivial⟩
  | delete pos path => exact fun p => ⟨⟨p, rfl⟩, fun _ => trivial⟩
  | function pos name parameters body => exact ⟨rfl, fun _ => trivial⟩
  | call pos name es => exact fun _ => trivial
  | giveBack pos e => exact fun _ => trivial

/-- An activity comes to no other primitives than those it is known to do. -/
theorem Activity.does (a : Activity) : a.plan.All a.Does := by
  cases a with
  | value e => exact e.does
  | act s => exact s.does
  | statement s => exact ⟨.inl rfl, fun _ flow => ⟨.inr ⟨flow, rfl⟩, fun _ => trivial⟩⟩
  | call name es =>
    refine ⟨.inl rfl, fun f => Plan.all_each (fun values => ?_) es⟩
    refine ⟨.inr ⟨f, values, rfl⟩, fun _ => ⟨Plan.all_block_done f.body, fun flow => ?_⟩⟩
    cases flow <;> trivial

theorem Moment.Gets.does {ω : Type} {host : Host ω} {v : ω} {c : Moment ω}
    (h : c.Gets host (.does q) n v) : c.activity.Does q := by
  obtain ⟨hgets⟩ := h
  exact hgets.does_of_all (Activity.does _) rfl

end Scriptlet
