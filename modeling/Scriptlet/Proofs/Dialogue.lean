import Scriptlet.Host.Dialogue

namespace Scriptlet.Dialogue
set_option autoImplicit true

variable {α β ω : Type}

/-- Two dialogues make the same requests as long as these are answered alike, and come to results
that `P` relates, or neither comes to one. -/
inductive InStep (P : α → β → Prop) : Dialogue α → Dialogue β → Prop
  | done (h : P a b) : InStep P (done a) (done b)
  | unfinished : InStep P unfinished unfinished
  | ask (h : ∀ answer : Request.Answer q, InStep P (next answer) (next' answer)) :
      InStep P (ask q next) (ask q next')

theorem InStep.refl {P : α → α → Prop} (hP : ∀ a, P a a) (d : Dialogue α) : d.InStep P d := by
  induction d with
  | done a => exact .done (hP a)
  | unfinished => exact .unfinished
  | ask q next ih => exact .ask ih

theorem InStep.bind {γ δ : Type} {f : α → Dialogue γ} {g : β → Dialogue δ}
    {d : Dialogue α} {d' : Dialogue β} {P : α → β → Prop} {Q : γ → δ → Prop}
    (h : d.InStep P d') (hf : ∀ a b, P a b → (f a).InStep Q (g b)) :
    (d.bind f).InStep Q (d'.bind g) := by
  induction h with
  | done h => exact hf _ _ h
  | unfinished => exact .unfinished
  | ask h ih => exact .ask ih

theorem InStep.mono {d : Dialogue α} {d' : Dialogue β} {P Q : α → β → Prop}
    (h : d.InStep P d') (hpq : ∀ a b, P a b → Q a b) : d.InStep Q d' := by
  induction h with
  | done h => exact .done (hpq _ _ h)
  | unfinished => exact .unfinished
  | ask h ih => exact .ask ih

/-- One system leads dialogues that are in step to the same state and to related results. -/
theorem InStep.run {d : Dialogue α} {d' : Dialogue β} {P : α → β → Prop} (h : d.InStep P d')
    (host : Host ω) (w : ω) :
    Option.Rel P (d.run host w).1 (d'.run host w).1 ∧ (d.run host w).2 = (d'.run host w).2 := by
  induction h generalizing w with
  | done h => exact ⟨.some h, rfl⟩
  | unfinished => exact ⟨.none, rfl⟩
  | ask h ih => exact ih _ _

end Scriptlet.Dialogue
