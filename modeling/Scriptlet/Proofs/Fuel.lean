import Scriptlet.Proofs.Plan

namespace Scriptlet
set_option autoImplicit true

/-- Two dialogues are the same talk, but the first may break off where its budget runs out. -/
inductive Dialogue.Below : Dialogue α → Dialogue α → Prop
  | done : Below (done a) (done a)
  | unfinished : Below unfinished d
  | ask (h : ∀ answer : Request.Answer q, Below (next answer) (next' answer)) :
      Below (ask q next) (ask q next')

namespace Dialogue.Below

theorem refl (d : Dialogue α) : d.Below d := by
  induction d with
  | done a => exact .done
  | unfinished => exact .unfinished
  | ask q next ih => exact .ask ih

theorem bind {d d' : Dialogue α} {f g : α → Dialogue β} (h : d.Below d')
    (hf : ∀ a, (f a).Below (g a)) : (d.bind f).Below (d'.bind g) := by
  induction h with
  | done => exact hf _
  | unfinished => exact .unfinished
  | ask h ih => exact .ask ih

theorem run {ω : Type} {host : Host ω} {v w : ω} {d d' : Dialogue α} {a : α} (h : d.Below d')
    (hd : d.run host w = (some a, v)) : d'.run host w = (some a, v) := by
  induction h generalizing w with
  | done => exact hd
  | unfinished => cases hd
  | ask h ih => exact ih _ hd

end Dialogue.Below

namespace Eval

/-- A computation is another one with a budget that is not larger. -/
def Below (x y : Eval α) : Prop :=
  ∀ m, (x m).Below (y m)

namespace Below

theorem refl (x : Eval α) : x.Below x :=
  fun m => .refl (x m)

theorem bind {x y : Eval α} {f g : α → Eval β} (h : x.Below y) (hf : ∀ a, (f a).Below (g a)) :
    (x.bind f).Below (y.bind g) := by
  intro m
  apply (h m).bind
  rintro ⟨r, n⟩
  cases r with
  | error e => exact .done
  | ok a => exact hf a n

theorem locate {x y : Eval α} (h : x.Below y) (pos : Position) :
    (x.locate pos).Below (y.locate pos) :=
  fun m => (h m).bind fun _ => .done

theorem within {x y : Eval α} (h : x.Below y) (name : String) (scope : Scope) :
    (Eval.within name scope x).Below (Eval.within name scope y) :=
  fun m => (h (m.enter scope)).bind fun _ => .refl _

end Below

end Eval

/-- A plan gets no further than the activities it goes into. -/
theorem Plan.eval_below {run run' : (a : Activity) → Eval a.Answer}
    (hrun : ∀ a, (run a).Below (run' a)) (p : Plan α) : (p.eval run).Below (p.eval run') := by
  induction p with
  | done a => exact .refl _
  | step q next ih => exact (Eval.Below.refl q.eval).bind ih
  | sub a next ih => exact (hrun a).bind ih
  | within name scope body next ihb ih => exact (ihb.within name scope).bind ih

section
variable {fuel fuel' : Nat}

theorem Activity.run_below (h : fuel ≤ fuel') (a : Activity) :
    (a.run fuel).Below (a.run fuel') := by
  -- The induction is on the smaller fuel: a plan goes into activities with one less of either.
  induction fuel generalizing fuel' a with
  | zero =>
    rw [a.run_zero]
    exact fun _ => .unfinished
  | succ fuel ih =>
    cases fuel' with
    | zero => omega
    | succ fuel' =>
      have hplan := Plan.eval_below (ih (Nat.le_of_succ_le_succ h)) a.plan
      rw [a.run_succ, a.run_succ]
      cases a.place? with
      | none => exact hplan
      | some pos => exact hplan.locate pos

theorem runStatements_below (h : fuel ≤ fuel') (ss : List Statement) :
    (runStatements fuel ss).Below (runStatements fuel' ss) := by
  induction ss with
  | nil => exact .refl _
  | cons s rest ih =>
    apply ((Activity.statement s).run_below h).bind
    intro flow
    cases flow with
    | normal => exact ih
    | giveBack v => exact .refl _

/-- A program that ran to its end runs the same with more fuel. -/
theorem runProgram_below (h : fuel ≤ fuel') (p : Program) :
    (runProgram fuel p).Below (runProgram fuel' p) :=
  (runStatements_below h p).bind fun _ => .refl _

end

end Scriptlet
