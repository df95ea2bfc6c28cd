import Scriptlet.Proofs.Transition

namespace Scriptlet
set_option autoImplicit true

/-- What came of the token `t` complains of no other token than `t`, where one is unexpected, and of
an open block only at the end of the input. -/
def Offends (t : Token) : Except SyntaxError Progress → Prop
  | .error (.unexpectedToken _ u) => u = t
  | .error (.missingEnd _ _) | .error (.missingFunctionEnd _ _) => t.kind = .endOfInput
  | _ => True

namespace Draft

variable {d : Draft} {t : Token} {phase : Phase}

theorem Takes.offends (h : d.Takes limit t phase r) : Offends t r := by
  cases h with
  | unexpected => rfl
  | @unclosed _ b ht => cases b.header <;> exact ht
  | _ => trivial

theorem Steps.offends (h : Steps limit t d r) : Offends t r := by
  induction h with
  | takes h => exact h.offends
  | passes _ _ ih => exact ih

end Draft

end Scriptlet
