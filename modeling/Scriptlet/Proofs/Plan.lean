import Scriptlet.Machine.Run

namespace Scriptlet
set_option autoImplicit true

/-- What a run does without going into another expression or statement. -/
inductive Primitive
  | lookup (x : String)
  | callee (name : String) (count : Nat)
  | operate (op : Operator) (a b : Value)
  | record (line : String)
  | output (text : String)
  | assign (x : String) (v : Value)
  | define (name : String) (f : Function)
  | write (mode : WriteMode) (path text : String)
  | read (path target : String)
  | delete (path : String)
  | note (event : Event)

@[reducible] def Primitive.Answer : Primitive → Type
  | lookup _ | operate .. => Value
  | callee .. => Function
  | _ => Unit

def Primitive.eval : (p : Primitive) → Eval p.Answer
  | lookup x => Eval.variableValue x
  | callee name count => Eval.callee name count
  | operate op a b => Eval.ofExcept (a.binary op b)
  | record line => Eval.record line
  | output text => Eval.output text
  | assign x v => Eval.assign x v
  | define name f => Eval.define name f
  | write mode path text => Eval.writeFile mode path text
  | read path target => Eval.readFile path target
  | delete path => Eval.deleteFile path
  | note event => Eval.note event

/-- What a run is in the midst of: an expression, a call, a statement, or what a statement says,
which a loop says again before each of its rounds. -/
inductive Activity
  | value (e : Expression)
  | call (name : String) (arguments : List Expression)
  | statement (s : Statement)
  | act (s : Statement)

@[reducible] def Activity.Answer : Activity → Type
  | value _ | call .. => Value
  | statement _ | act _ => Flow

/-- An activity taken apart, down to where another activity begins. -/
inductive Plan : Type → Type 1
  | done (a : α) : Plan α
  | step (p : Primitive) (next : p.Answer → Plan α) : Plan α
  | sub (a : Activity) (next : a.Answer → Plan α) : Plan α
  | within (name : String) (scope : Scope) (body : Plan Flow) (next : Flow → Plan α) : Plan α

namespace Plan

/-- Carries out a plan when it is known how activities are. -/
def eval (run : (a : Activity) → Eval a.Answer) : Plan α → Eval α
  | done a => Eval.pure a
  | step p next => p.eval.bind fun b => (next b).eval run
  | sub a next => (run a).bind fun b => (next b).eval run
  | within name scope body next =>
    (Eval.within name scope (body.eval run)).bind fun flow => (next flow).eval run

def each (next : List Value → Plan α) : List Expression → Plan α
  | [] => next []
  | e :: rest => sub (.value e) fun v => each (fun vs => next (v :: vs)) rest

def block (next : Flow → Plan α) : List Statement → Plan α
  | [] => next .normal
  | s :: rest => sub (.statement s) fun
    | .normal => block next rest
    | .giveBack v => next (.giveBack v)

end Plan

def Statement.plan : Statement → Plan Flow
  | .assign _ x e =>
    .sub (.value e) fun (v : Value) =>
    .step (.record s!"[SET] {x} = {v.display}") fun _ =>
    .step (.assign x v) fun _ => .done .normal
  | .print _ e =>
    .sub (.value e) fun (v : Value) =>
    .step (.output v.display) fun _ =>
    .step (.output "\n") fun _ =>
    .step (.record s!"[PRINT] {v.display}") fun _ => .done .normal
  | .log _ e =>
    .sub (.value e) fun (v : Value) =>
    .step (.record s!"[LOG] {v.display}") fun _ => .done .normal
  | s@(.ifThen _ condition body) =>
    .step (.note (.test s)) fun _ =>
    .sub (.value condition) fun (v : Value) =>
    if v.truthy then .block .done body else .done .normal
  | s@(.ifElse _ condition body otherwise) =>
    .step (.note (.test s)) fun _ =>
    .sub (.value condition) fun (v : Value) =>
    .block .done (if v.truthy then body else otherwise)
  | s@(.loop _ condition body) =>
    .step (.note (.test s)) fun _ =>
    .sub (.value condition) fun (v : Value) =>
    if v.truthy then
      .block (fun
        | .normal => .sub (.act s) .done
        | .giveBack v => .done (.giveBack v)) body
    else .done .normal
  | .write _ mode path content =>
    .sub (.value path) fun (p : Value) =>
    .sub (.value content) fun (v : Value) =>
    .step (.write mode p.display v.display) fun _ => .done .normal
  | .read _ path target =>
    .sub (.value path) fun (p : Value) =>
    .step (.read p.display target) fun _ => .done .normal
  | .delete _ path =>
    .sub (.value path) fun (p : Value) =>
    .step (.delete p.display) fun _ => .done .normal
  | .function _ name parameters body =>
    .step (.define name ⟨parameters, body⟩) fun _ => .done .normal
  | .call _ name arguments => .sub (.call name arguments) fun _ => .done .normal
  | .giveBack _ e => .sub (.value e) fun v => .done (.giveBack v)

def Expression.plan : Expression → Plan Value
  | .string s => .done (.string s)
  | .number n => .done (.integer n)
  | .var x => .step (.lookup x) .done
  | .binary op left right =>
    .sub (.value left) fun a =>
    .sub (.value right) fun b =>
    .step (.operate op a b) .done
  | .logical op left right =>
    .sub (.value left) fun (a : Value) =>
    if a.truthy = op.decisive then .done (.boolean a.truthy)
    else .sub (.value right) fun (b : Value) => .done (.boolean b.truthy)
  | .call name arguments => .sub (.call name arguments) .done

def Activity.plan : (a : Activity) → Plan a.Answer
  | .value e => e.plan
  | .call name arguments =>
    .step (.callee name arguments.length) fun (f : Function) =>
    .each (fun values =>
      .step (.note (.enter name f values)) fun _ =>
      .within name (f.scope values) (.block .done f.body) fun
        | .giveBack v => .done v
        | .normal => .done .none) arguments
  | .statement s =>
    .step (.note (.execute s)) fun _ =>
    .sub (.act s) fun flow =>
    .step (.note (.finish s flow)) fun _ => .done flow
  | .act s => s.plan

/-- Carries out an activity; recursion goes `fuel` deep. -/
def Activity.run (fuel : Nat) : (a : Activity) → Eval a.Answer
  | .value e => evaluate fuel e
  | .call name arguments => invoke fuel name arguments
  | .statement s => execute fuel s
  | .act s => perform fuel s

/-- The place that an activity gives to errors that have none yet. -/
def Activity.place? : Activity → Option Position
  | .statement s => some s.position
  | _ => none

namespace Eval

def locate? : Option Position → Eval α → Eval α
  | some pos, x => x.locate pos
  | none, x => x

end Eval

namespace Plan

variable {run : (a : Activity) → Eval a.Answer}

theorem eval_each (next : List Value → Plan α) (es : List Expression) :
    (each next es).eval run =
      (Eval.each (fun e => run (.value e)) es).bind fun vs => (next vs).eval run := by
  induction es generalizing next with
  | nil => rfl
  | cons e rest ih =>
    rw [each, eval, Eval.each_cons, Eval.bind_assoc]
    apply congrArg (run (.value e)).bind
    funext v
    rw [ih, Eval.bind_assoc]
    rfl

theorem eval_block (next : Flow → Plan α) (ss : List Statement) :
    (block next ss).eval run =
      (Eval.block (fun s => run (.statement s)) ss).bind fun flow => (next flow).eval run := by
  induction ss with
  | nil => rfl
  | cons s rest ih =>
    rw [block, eval, Eval.block_cons, Eval.bind_assoc]
    apply congrArg (run (.statement s)).bind
    funext flow
    cases flow with
    | normal => exact ih
    | giveBack v => rfl

theorem eval_block_done (run : (a : Activity) → Eval a.Answer) (ss : List Statement) :
    (block done ss).eval run = Eval.block (fun s => run (.statement s)) ss :=
  (eval_block done ss).trans (Eval.bind_pure _)

end Plan

section
variable (fuel : Nat)

theorem evaluate_succ (e : Expression) :
    evaluate (fuel + 1) e = e.plan.eval (Activity.run fuel) := by
  cases e with
  | string s => rfl
  | number n => rfl
  | var x => exact (Eval.bind_pure _).symm
  | binary op left right =>
    refine Eval.bind_congr fun a => ?_
    refine Eval.bind_congr fun b => ?_
    exact (Eval.bind_pure _).symm
  | logical op left right =>
    refine Eval.bind_congr fun a => ?_
    dsimp only
    split
    · rfl
    · rfl
  | call name es => exact (Eval.bind_pure _).symm

theorem invoke_succ (name : String) (es : List Expression) :
    invoke (fuel + 1) name es = (Activity.call name es).plan.eval (Activity.run fuel) := by
  refine Eval.bind_congr fun f => ?_
  rw [Plan.eval_each]
  refine Eval.bind_congr fun values => ?_
  refine Eval.bind_congr fun _ => ?_
  rw [Plan.eval, Plan.eval_block_done]
  refine Eval.bind_congr fun flow => ?_
  cases flow with
  | normal => rfl
  | giveBack v => rfl

theorem execute_succ (s : Statement) : execute (fuel + 1) s =
    ((Activity.statement s).plan.eval (Activity.run fuel)).locate s.position := by
  rw [Activity.plan, Plan.eval, Eval.locate_bind]
  refine Eval.bind_congr fun _ => ?_
  rw [Plan.eval, Eval.locate_bind]
  rfl

theorem perform_succ (s : Statement) :
    perform (fuel + 1) s = s.plan.eval (Activity.run fuel) := by
  cases s with
  | assign pos x e => rfl
  | print pos e => rfl
  | log pos e => rfl
  | ifThen pos condition body =>
    refine Eval.bind_congr fun _ => ?_
    refine Eval.bind_congr fun v => ?_
    dsimp only
    split
    · exact (Plan.eval_block_done (Activity.run fuel) body).symm
    · rfl
  | ifElse pos condition body otherwise =>
    refine Eval.bind_congr fun _ => ?_
    refine Eval.bind_congr fun v => ?_
    exact (Plan.eval_block_done (Activity.run fuel) _).symm
  | loop pos condition body =>
    refine Eval.bind_congr fun _ => ?_
    refine Eval.bind_congr fun v => ?_
    dsimp only
    split
    · rw [Plan.eval_block]
      refine Eval.bind_congr fun flow => ?_
      cases flow with
      | normal => exact (Eval.bind_pure _).symm
      | giveBack v => rfl
    · rfl
  | write pos mode path content => rfl
  | read pos path target => rfl
  | delete pos path => rfl
  | function pos name parameters body => rfl
  | call pos name es => rfl
  | giveBack pos e => rfl

/-- An activity is its plan, at one level of recursion less; only statements locate errors. -/
theorem Activity.run_succ (a : Activity) :
    a.run (fuel + 1) = Eval.locate? a.place? (a.plan.eval (Activity.run fuel)) := by
  cases a with
  | value e => exact evaluate_succ fuel e
  | call name es => exact invoke_succ fuel name es
  | statement s => exact execute_succ fuel s
  | act s => exact perform_succ fuel s

end

theorem Activity.run_zero (a : Activity) : a.run 0 = Eval.unfinished := by
  cases a <;> rfl

/-- A property of computations that they keep when they are put together. -/
structure Eval.Closed (Φ : {α : Type} → Eval α → Prop) : Prop where
  pure : ∀ {α : Type} (a : α), Φ (Eval.pure a)
  unfinished : ∀ {α : Type}, Φ (Eval.unfinished : Eval α)
  bind : ∀ {α β : Type} {x : Eval α} {f : α → Eval β}, Φ x → (∀ a, Φ (f a)) → Φ (x.bind f)
  locate : ∀ {α : Type} {x : Eval α} (pos : Position), Φ x → Φ (x.locate pos)
  within : ∀ {x : Eval Flow} (name : String) (scope : Scope), Φ x → Φ (Eval.within name scope x)

/-- Every primitive that a plan can come to has the property. -/
def Plan.All (A : Primitive → Prop) : {α : Type} → Plan α → Prop
  | _, .done _ => True
  | _, .step q next => A q ∧ ∀ b, (next b).All A
  | _, .sub _ next => ∀ b, (next b).All A
  | _, .within _ _ body next => body.All A ∧ ∀ flow, (next flow).All A

theorem Plan.all_of {A : Primitive → Prop} (h : ∀ q, A q) (p : Plan α) : p.All A := by
  induction p with
  | done a => trivial
  | step q next ih => exact ⟨h q, ih⟩
  | sub a next ih => exact ih
  | within name scope body next ihb ih => exact ⟨ihb, ih⟩

namespace Eval.Closed

variable {Φ : {α : Type} → Eval α → Prop}

theorem plan_of_all (h : Closed Φ) {run : (a : Activity) → Eval a.Answer}
    (hrun : ∀ a, Φ (run a)) {p : Plan α} (hp : p.All fun q => Φ q.eval) : Φ (p.eval run) := by
  induction p with
  | done a => exact h.pure a
  | step q next ih => exact h.bind hp.1 fun b => ih b (hp.2 b)
  | sub a next ih => exact h.bind (hrun a) fun b => ih b (hp b)
  | within name scope body next ihb ih =>
    exact h.bind (h.within name scope (ihb hp.1)) fun flow => ih flow (hp.2 flow)

theorem run_of_plan (h : Closed Φ) (hplan : ∀ fuel (a : Activity),
    (∀ b : Activity, Φ (b.run fuel)) → Φ (a.plan.eval (Activity.run fuel)))
    (fuel : Nat) (a : Activity) : Φ (a.run fuel) := by
  induction fuel generalizing a with
  | zero =>
    rw [a.run_zero]
    exact h.unfinished
  | succ fuel ih =>
    rw [a.run_succ]
    cases a.place? with
    | none => exact hplan fuel a ih
    | some pos => exact h.locate pos (hplan fuel a ih)

theorem plan (h : Closed Φ) (hprimitive : ∀ p : Primitive, Φ p.eval)
    {run : (a : Activity) → Eval a.Answer} (hrun : ∀ a, Φ (run a)) (p : Plan α) :
    Φ (p.eval run) :=
  h.plan_of_all hrun (p.all_of hprimitive)

/-- A property that all primitives have is one of all activities. -/
theorem run (h : Closed Φ) (hprimitive : ∀ p : Primitive, Φ p.eval) (fuel : Nat) (a : Activity) :
    Φ (a.run fuel) :=
  h.run_of_plan (fun _ a hrun => h.plan hprimitive hrun a.plan) fuel a

end Eval.Closed

end Scriptlet
