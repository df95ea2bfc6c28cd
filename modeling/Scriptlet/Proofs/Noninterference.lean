import Scriptlet.Proofs.Frames

namespace Scriptlet
set_option autoImplicit true

/-- Two runs end alike, or neither ends: the system is left in the same state, and the results are
the same, on machines that `R` relates. -/
def SameEnd (R : Machine → Machine → Prop) (a b : Option (Except RuntimeError α × Machine) × ω) :
    Prop :=
  Option.Rel (fun x y => x.1 = y.1 ∧ R x.2 y.2) a.1 b.1 ∧ a.2 = b.2

theorem SameEnd.mono {R S : Machine → Machine → Prop}
    {a b : Option (Except RuntimeError α × Machine) × ω} (h : SameEnd R a b)
    (hrs : ∀ m m', R m m' → S m m') : SameEnd S a b := by
  obtain ⟨hrel, hw⟩ := h
  refine ⟨?_, hw⟩
  revert hrel
  generalize a.1 = x
  generalize b.1 = y
  intro hrel
  cases hrel with
  | none => exact .none
  | some h => exact .some ⟨h.1, hrs _ _ h.2⟩

theorem Eval.Lockstep.sameEnd {x : Eval α} (hx : x.Lockstep R) (hm : R m m') (host : Host ω)
    (w : ω) : SameEnd R ((x m).run host w) ((x m').run host w) :=
  (hx m m' hm).run host w

theorem SameEnd.bind {R S : Machine → Machine → Prop} {x y : Eval α} {f g : α → Eval β}
    {host : Host ω} (h : SameEnd R ((x m).run host w) ((y m').run host w))
    (herror : ∀ n n', R n n' → S n n')
    (hf : ∀ a n n' w', (x m).run host w = (some (.ok a, n), w') →
      (y m').run host w = (some (.ok a, n'), w') → R n n' →
      SameEnd S ((f a n).run host w') ((g a n').run host w')) :
    SameEnd S (((x >>= f) m).run host w) (((y >>= g) m').run host w) := by
  change SameEnd S ((Eval.bind x f m).run host w) ((Eval.bind y g m').run host w)
  rw [Eval.run_bind, Eval.run_bind]
  generalize hx : (x m).run host w = a at h
  generalize hy : (y m').run host w = b at h
  obtain ⟨a, v⟩ := a
  obtain ⟨b, v'⟩ := b
  obtain ⟨hrel, hw⟩ := h
  obtain rfl : v = v' := hw
  cases hrel with
  | none => exact ⟨.none, rfl⟩
  | @some c d h =>
    obtain ⟨r, n⟩ := c
    obtain ⟨r', n'⟩ := d
    obtain ⟨hr, hn⟩ := h
    obtain rfl : r = r' := hr
    cases r with
    | error e => exact ⟨.some ⟨rfl, herror n n' hn⟩, rfl⟩
    | ok a => exact hf a n n' v hx hy hn

section
variable {m m' : Machine}

theorem Machine.Alike.beside (h : m.Alike m') :
    Machine.Beside m.callLimit m.callers m'.callers m m' :=
  ⟨h, rfl, rfl, rfl⟩

theorem block_alike (h : m.Alike m') (fuel : Nat) (ss : List Statement) (host : Host ω) (w : ω) :
    SameEnd Machine.Alike ((Eval.block (execute fuel) ss m).run host w)
      ((Eval.block (execute fuel) ss m').run host w) :=
  (((steady fuel).block ss).sameEnd h.beside host w).mono fun _ _ hn => hn.alike

theorem evaluate_alike (h : m.Alike m') (fuel : Nat) (e : Expression) (host : Host ω) (w : ω) :
    SameEnd Machine.Alike ((evaluate fuel e m).run host w) ((evaluate fuel e m').run host w) :=
  (((steady fuel).value e).sameEnd h.beside host w).mono fun _ _ hn => hn.alike

/-- An activation sees of where it was started from only what calls make use of. -/
theorem within_akin (h : m.Akin m') (fuel : Nat) (name : String) (scope : Scope)
    (body : List Statement) (host : Host ω) (w : ω) :
    SameEnd Machine.Akin ((Eval.within name scope (Eval.block (execute fuel) body) m).run host w)
      ((Eval.within name scope (Eval.block (execute fuel) body) m').run host w) := by
  have hx := Eval.Lockstep.within_inStep (fun _ _ _ => (steady fuel).block body) h name scope
  apply Dialogue.InStep.run
  apply hx.mono
  rintro ⟨r, n⟩ ⟨r', n'⟩ ⟨hr, functions, rfl, rfl⟩
  exact ⟨hr, rfl, h.callLimit, h.active⟩

theorem callee_akin (h : m.Akin m') (name : String) (count : Nat) :
    ∃ r, Eval.callee name count m = .done (r, m) ∧ Eval.callee name count m' = .done (r, m') := by
  simp only [Eval.callee, bind, Eval.bind, Eval.get, Dialogue.bind, h.functions, h.callLimit,
    h.active]
  cases m'.functions.find? name with
  | none => exact ⟨_, rfl, rfl⟩
  | some f =>
    dsimp only
    split
    · exact ⟨_, rfl, rfl⟩
    split
    · exact ⟨_, rfl, rfl⟩
    · exact ⟨_, rfl, rfl⟩

theorem arguments_kept (h : (Eval.each (evaluate fuel) es m).run host w = (some (r, m'), w')) :
    m'.callLimit = m.callLimit ∧ m'.active = m.active := by
  have hx : (Eval.each (evaluate fuel) es).Lockstep
      (Machine.Beside m.callLimit m.callers m.callers) :=
    .each (fun e => (steady fuel).value e) es
  have hend := hx.ends (Machine.Beside.refl m) h
  exact ⟨hend.limit, congrArg List.length hend.left⟩

/-- A call depends on the place where it stands only through the values of its arguments. -/
theorem invoke_akin (h : m.Akin m') (fuel : Nat) (name : String) (es es' : List Expression)
    (hlength : es.length = es'.length) (host : Host ω) (w : ω)
    (hes : SameEnd (fun n n' => n.functions = n'.functions)
      ((Eval.each (evaluate fuel) es m).run host w)
      ((Eval.each (evaluate fuel) es' m').run host w)) :
    SameEnd (fun n n' => n.functions = n'.functions)
      ((invoke (fuel + 1) name es m).run host w) ((invoke (fuel + 1) name es' m').run host w) := by
  obtain ⟨r, hr, hr'⟩ := callee_akin h name es.length
  have hcallee : SameEnd (fun n n' => n = m ∧ n' = m')
      ((Eval.callee name es.length m).run host w)
      ((Eval.callee name es'.length m').run host w) := by
    rw [← hlength, hr, hr']
    exact ⟨.some ⟨rfl, rfl, rfl⟩, rfl⟩
  apply hcallee.bind
  · rintro n n' ⟨rfl, rfl⟩
    exact h.functions
  · rintro f _ _ v hv - ⟨rfl, rfl⟩
    rw [hr] at hv
    obtain rfl : w = v := congrArg Prod.snd hv
    -- What the arguments leave running is not related, but nothing else of it is used from here on.
    apply hes.bind (fun _ _ hn => hn)
    intro values n n' v hv hv' hn
    obtain ⟨hl, ha⟩ := arguments_kept hv
    obtain ⟨hl', ha'⟩ := arguments_kept hv'
    have hakin : n.Akin n' := ⟨hn, by rw [hl, hl', h.callLimit], by rw [ha, ha', h.active]⟩
    have hnote := (Eval.lockstep_note (.enter name f values)).sameEnd hakin host v
    apply hnote.bind (fun _ _ hn => hn.functions)
    intro _ n n' v _ _ hakin
    apply (within_akin hakin fuel name (f.scope values) f.body host v).bind
      (fun _ _ hn => hn.functions)
    intro flow n n' v _ _ hakin
    cases flow <;> exact ⟨.some ⟨rfl, hakin.functions⟩, rfl⟩

end

/-- The bindings of the callers do not interfere. Machines that agree on the running activation, the
functions, the limit of calls and how many are active run every block and expression alike in every
system: both end or neither does, with the same result, the system in the same state, and machines
that agree again. A call ends alike on machines that need not agree on the running activation, which
plays no part in it but in the values of the arguments. -/
theorem callers_do_not_interfere {ω : Type} (host : Host ω) (fuel : Nat) (m m' : Machine) (w : ω) :
    (m.Alike m' →
      (∀ ss, SameEnd Machine.Alike ((Eval.block (execute fuel) ss m).run host w)
        ((Eval.block (execute fuel) ss m').run host w)) ∧
      ∀ e, SameEnd Machine.Alike ((evaluate fuel e m).run host w)
        ((evaluate fuel e m').run host w)) ∧
    (m.Akin m' → ∀ name es es', es.length = es'.length →
      SameEnd (fun n n' => n.functions = n'.functions)
        ((Eval.each (evaluate fuel) es m).run host w)
        ((Eval.each (evaluate fuel) es' m').run host w) →
      SameEnd (fun n n' => n.functions = n'.functions)
        ((invoke (fuel + 1) name es m).run host w)
        ((invoke (fuel + 1) name es' m').run host w)) := by
  refine ⟨?_, ?_⟩
  · intro h
    exact ⟨fun ss => block_alike h fuel ss host w, fun e => evaluate_alike h fuel e host w⟩
  · intro h name es es' hlength hes
    exact invoke_akin h fuel name es es' hlength host w hes

def activation (current outer : Scope) : Machine :=
  ⟨current, [outer], Table.empty.insert "f" ⟨["y"], [.giveBack ⟨1, 15⟩ (.var "y")]⟩, 5⟩

theorem callers_do_not_interfere_activation :
    SameEnd Machine.Alike
      ((evaluate 9 (.call "f" [.number 1]) (activation .empty .empty)).run .willing ())
      ((evaluate 9 (.call "f" [.number 1]) (activation .empty ⟨[("y", .none)]⟩)).run .willing ()) ∧
    SameEnd (fun n n' => n.functions = n'.functions)
      ((invoke 9 "f" [.number 1] (activation .empty .empty)).run .willing ())
      ((invoke 9 "f" [.var "x"] (activation ⟨[("x", .integer 1)]⟩ .empty)).run .willing ()) := by
  have hvalues : SameEnd (fun n n' => n.functions = n'.functions)
      ((Eval.each (evaluate 8) [.number 1] (activation .empty .empty)).run .willing ())
      ((Eval.each (evaluate 8) [.var "x"] (activation ⟨[("x", .integer 1)]⟩ .empty)).run
        .willing ()) := ⟨.some ⟨rfl, rfl⟩, rfl⟩
  have heval := callers_do_not_interfere .willing 9 (activation .empty .empty)
    (activation .empty ⟨[("y", .none)]⟩) ()
  have hcall := callers_do_not_interfere .willing 8 (activation .empty .empty)
    (activation ⟨[("x", .integer 1)]⟩ .empty) ()
  refine ⟨?_, ?_⟩
  · exact (heval.1 ⟨rfl, rfl, rfl, rfl⟩).2 (.call "f" [.number 1])
  · exact hcall.2 ⟨rfl, rfl, rfl⟩ "f" [.number 1] [.var "x"] rfl hvalues

end Scriptlet
