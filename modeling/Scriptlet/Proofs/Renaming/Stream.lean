import Scriptlet.Proofs.Renaming.Steps
import Scriptlet.Proofs.Transition

namespace Scriptlet
set_option autoImplicit true

variable {ρ : String → String} {limit : Option Nat} {t : Token}

namespace Draft

variable {d d' : Draft}

theorem callsName_add (d : Draft) (s : Statement) : (d.add s).CallsName := by
  intro start h
  rw [phase_add] at h
  cases h

theorem Takes.callsName {phase : Phase} (h : d.Takes limit t phase (.ok (.more d'))) :
    d'.CallsName := by
  cases h with
  | plainName ht =>
    intro start h
    cases h
    exact ht.1
  | @keyword k =>
    intro start h
    cases k <;> cases h
  | blockEnd | noStatementArgument | target | lastStatementArgument => exact callsName_add _ _
  | _ =>
    intro start h
    cases h

theorem step_callsName (h : d.step limit t = .ok (.more d')) : d'.CallsName := by
  have hsteps := d.steps_step limit t
  generalize d.step limit t = r at h hsteps
  induction hsteps with
  | takes htakes =>
    subst h
    exact htakes.callsName
  | passes _ _ ih => exact ih h

theorem read_renamed (hρ : Respells ρ) (hd : d.CallsName) (items : List Item) :
    ((d.renamed ρ).read limit (items.map (Item.renamed ρ))).result =
      renamedResult ρ (d.read limit items).result := by
  induction items generalizing d with
  | nil =>
    have hend : Token.missingEnd.renamed ρ = .missingEnd := Token.renamed_eq_self ρ (by decide)
    have hstep : (d.renamed ρ).step limit .missingEnd = renamedStep ρ (d.step limit .missingEnd) :=
      hend ▸ step_renamed hρ hd .missingEnd
    rw [List.map_nil, read, read, hstep]
    cases d.step limit .missingEnd with
    | error e => rfl
    | ok q =>
      cases q with
      | more d' => exact congrArg Except.ok d'.program_renamed
      | finished p => rfl
  | cons item rest ih =>
    cases item with
    | error e => rfl
    | ok t =>
      rw [List.map_cons, Item.renamed, read, read, step_renamed hρ hd]
      cases hstep : d.step limit t with
      | error e => rfl
      | ok q =>
        cases q with
        | more d' => exact ih (step_callsName hstep)
        | finished p => rfl

end Draft

end Scriptlet
