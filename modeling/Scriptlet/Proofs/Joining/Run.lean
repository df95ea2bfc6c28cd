import Scriptlet.Proofs.CallDepth
import Scriptlet.Proofs.Joining.Carried

namespace Scriptlet
set_option autoImplicit true

/-- What `S` compares of two states of a system decides its answers and keeps nothing of what an
observer is told. Flushing succeeds and changes nothing of it. -/
structure Host.Overlooks {ω : Type} (host : Host ω) (S : ω → ω → Prop) : Prop where
  answer : ∀ q w w', S w w' → (host q w').1 = (host q w).1 ∧ S (host q w).2 (host q w').2
  note : ∀ event event' w w', S w w' → S (host (.note event) w).2 (host (.note event') w').2
  flush : ∀ w w', S w w' → (host .flush w).1 = .ok () ∧ S (host .flush w).2 w'

/-- Two ends of a run are the same, but for what `V` and `S` compare in them and for places. -/
inductive Agree {ω α β : Type} (G : Movers) (S : ω → ω → Prop) (V : α → β → Prop) :
    Option (Except RuntimeError α × Machine) × ω → Option (Except RuntimeError β × Machine) × ω →
      Prop
  | ok (hv : V a b) (hm : m.Carried G m') (hw : S w w') :
      Agree G S V (some (.ok a, m), w) (some (.ok b, m'), w')
  | error (he : e.Carried G e') (hm : m.Carried G m') (hw : S w w') :
      Agree G S V (some (.error e, m), w) (some (.error e', m'), w')
  | unfinished (hw : S w w') : Agree G S V (none, w) (none, w')

section
variable {ω : Type} {host : Host ω} {S : ω → ω → Prop}

theorem Host.Overlooks.inStep (hS : host.Overlooks S) {d : Dialogue α} {d' : Dialogue β}
    {P : α → β → Prop} (h : d.InStep P d') (hw : S w w') :
    Option.Rel P (d.run host w).1 (d'.run host w').1 ∧ S (d.run host w).2 (d'.run host w').2 := by
  induction h generalizing w w' with
  | done h => exact ⟨.some h, hw⟩
  | unfinished => exact ⟨.none, hw⟩
  | @ask q next next' h ih =>
    obtain ⟨hanswer, hw'⟩ := hS.answer q w w' hw
    rw [Dialogue.run, Dialogue.run, hanswer]
    exact ih _ hw'

end

theorem RuntimeError.Carried.locate {G : Movers} {e e' : RuntimeError} (h : e.Carried G e')
    (hpos : G f pos) : (e.locate pos).Carried G (e'.locate (f pos)) := by
  obtain ⟨fault, position⟩ := e
  obtain ⟨fault', position'⟩ := e'
  obtain ⟨hfault, hposition⟩ := h
  refine ⟨hfault, ?_⟩
  cases hposition with
  | none => exact .some ⟨f, hpos, rfl⟩
  | some h => exact .some h

namespace Machine.Carried

variable {G : Movers} {m m' : Machine}

theorem active (h : m.Carried G m') : m'.active = m.active :=
  congrArg List.length h.callers

theorem bind (x : String) (v : Value) (h : m.Carried G m') :
    (m.bind x v).Carried G (m'.bind x v) :=
  ⟨congrArg (Table.insert · x v) h.current, h.callers, h.functions, h.callLimit⟩

theorem define {f f' : Function} (h : m.Carried G m') (name : String) (hf : f.Carried G f') :
    (m.define name f).Carried G (m'.define name f') := by
  refine ⟨h.current, h.callers, fun name' => ?_, h.callLimit⟩
  rw [Machine.define, Machine.define, Table.find?_insert, Table.find?_insert]
  split
  · exact .some hf
  · exact h.functions name'

theorem enter (h : m.Carried G m') (scope : Scope) : (m.enter scope).Carried G (m'.enter scope) :=
  ⟨rfl, by rw [Machine.enter, Machine.enter, h.current, h.callers], h.functions, h.callLimit⟩

theorem leave (h : m.Carried G m') : m.leave.Carried G m'.leave := by
  have hcallers := h.callers
  unfold Machine.leave
  cases hm : m.callers with
  | nil =>
    rw [hcallers, hm]
    exact h
  | cons scope outer =>
    rw [hcallers, hm]
    exact ⟨rfl, rfl, h.functions, h.callLimit⟩

theorem callee (h : m.Carried G m') (name : String) (count : Nat) :
    (∃ fault, m.callee name count = .error fault ∧ m'.callee name count = .error fault) ∨
      ∃ f f', f.Carried G f' ∧ m.callee name count = .ok f ∧ m'.callee name count = .ok f' := by
  have hf := h.functions name
  rw [Machine.callee, Machine.callee, h.active, h.callLimit]
  generalize m.functions.find? name = found at hf
  generalize m'.functions.find? name = found' at hf
  cases hf with
  | none => exact .inl ⟨_, rfl, rfl⟩
  | @some f f' hf =>
    dsimp only
    rw [hf.parameters]
    split
    · exact .inl ⟨_, rfl, rfl⟩
    split
    · exact .inl ⟨_, rfl, rfl⟩
    · exact .inr ⟨f, f', hf, rfl, rfl⟩

end Machine.Carried

namespace Eval

section
variable {ω : Type} (host : Host ω) (S : ω → ω → Prop) (G : Movers)

/-- On machines whose functions were moved and in states that `S` does not tell apart, the
computations end alike. -/
def Parallels (V : α → β → Prop) (x : Eval α) (y : Eval β) : Prop :=
  ∀ m m' w w', m.Carried G m' → S w w' →
    Agree G S V ((x m).run host w) ((y m').run host w')

end

variable {ω : Type} {host : Host ω} {S : ω → ω → Prop} {G : Movers}

theorem parallels_unfinished {V : α → α → Prop} :
    Parallels host S G V (unfinished : Eval α) unfinished :=
  fun _ _ _ _ _ hw => .unfinished hw

theorem parallels_pure {V : α → β → Prop} (h : V a b) :
    Parallels host S G V (Eval.pure a) (Eval.pure b) :=
  fun _ _ _ _ hm hw => .ok h hm hw

theorem parallels_fail {V : α → β → Prop} (fault : Fault) :
    Parallels host S G V (fail fault) (fail fault) :=
  fun _ _ _ _ hm hw => .error ⟨rfl, .none⟩ hm hw

theorem Parallels.bind {x : Eval α} {y : Eval β} {f : α → Eval γ} {g : β → Eval δ}
    {V : α → β → Prop} {W : γ → δ → Prop} (hx : Parallels host S G V x y)
    (hf : ∀ a b, V a b → Parallels host S G W (f a) (g b)) :
    Parallels host S G W (x.bind f) (y.bind g) := by
  intro m m' w w' hm hw
  have hfirst := hx m m' w w' hm hw
  rw [run_bind, run_bind]
  generalize (x m).run host w = first at hfirst
  generalize (y m').run host w' = first' at hfirst
  cases hfirst with
  | ok hv hm hw => exact hf _ _ hv _ _ _ _ hm hw
  | error he hm hw => exact .error he hm hw
  | unfinished hw => exact .unfinished hw

theorem Parallels.locate {x : Eval α} {y : Eval β} {V : α → β → Prop}
    (hx : Parallels host S G V x y) (hpos : G f pos) :
    Parallels host S G V (x.locate pos) (y.locate (f pos)) := by
  intro m m' w w' hm hw
  have hfirst := hx m m' w w' hm hw
  unfold Eval.locate
  rw [Dialogue.run_bind, Dialogue.run_bind]
  generalize (x m).run host w = first at hfirst
  generalize (y m').run host w' = first' at hfirst
  cases hfirst with
  | ok hv hm hw => exact .ok hv hm hw
  | error he hm hw => exact .error (he.locate hpos) hm hw
  | unfinished hw => exact .unfinished hw

theorem Parallels.within {x y : Eval Flow} (hS : host.Overlooks S)
    (hx : Parallels host S G Eq x y) (name : String) (scope : Scope) :
    Parallels host S G Eq (within name scope x) (within name scope y) := by
  intro m m' w w' hm hw
  have hbody := hx _ _ w w' (hm.enter scope) hw
  unfold Eval.within
  rw [Dialogue.run_bind, Dialogue.run_bind]
  generalize (x (m.enter scope)).run host w = first at hbody
  generalize (y (m'.enter scope)).run host w' = first' at hbody
  cases hbody with
  | ok hv hm hw => exact .ok hv hm.leave (hS.note _ _ _ _ hw)
  | error he hm hw => exact .error he hm.leave (hS.note _ _ _ _ hw)
  | unfinished hw => exact .unfinished hw

/-- What sees nothing of the functions and leaves its errors without a place ends alike. -/
theorem Lockstep.parallels {x : Eval α} (hS : host.Overlooks S)
    (hx : x.Lockstep (Machine.Carried G)) (hfails : x.FailsOnly T) :
    Parallels host S G Eq x x := by
  intro m m' w w' hm hw
  obtain ⟨hrel, hworlds⟩ := hS.inStep (hx m m' hm) hw
  have hposition := hfails host m w
  unfold Fails at hposition
  generalize (x m).run host w = first at hrel hworlds hposition
  generalize (x m').run host w' = first' at hrel hworlds
  obtain ⟨r, v⟩ := first
  obtain ⟨r', v'⟩ := first'
  cases hrel with
  | none => exact .unfinished hworlds
  | @some a b h =>
    obtain ⟨r, n⟩ := a
    obtain ⟨r', n'⟩ := b
    obtain ⟨rfl, hn⟩ := h
    cases r with
    | ok a => exact .ok rfl hn hworlds
    | error e =>
      obtain ⟨hnone, -⟩ := hposition e ⟨n, v, rfl⟩
      refine .error ⟨rfl, ?_⟩ hn hworlds
      rw [hnone]
      exact .none

theorem parallels_talk (hS : host.Overlooks S) (d : Dialogue α) :
    Parallels host S G Eq (talk d) (talk d) :=
  (lockstep_talk d).parallels hS (failsOnly_talk (T := fun _ => True) d)

theorem parallels_note (hS : host.Overlooks S) (event event' : Event) :
    Parallels host S G Eq (note event) (note event') :=
  fun _ _ _ _ hm hw => .ok rfl hm (hS.note event event' _ _ hw)

theorem parallels_define {f f' : Function} (hS : host.Overlooks S) (name : String)
    (hf : f.Carried G f') : Parallels host S G Eq (define name f) (define name f') :=
  fun _ _ _ _ hm hw => .ok rfl (hm.define name hf) (hS.note _ _ _ _ hw)

theorem parallels_callee (name : String) (count : Nat) :
    Parallels host S G (Function.Carried G) (callee name count) (callee name count) := by
  intro m m' w w' hm hw
  rw [callee_eq]
  change Agree G S _ ((ofExcept (m.callee name count) m).run host w)
    ((ofExcept (m'.callee name count) m').run host w')
  rcases hm.callee name count with ⟨fault, h, h'⟩ | ⟨f, f', hf, h, h'⟩
  · rw [h, h']
    exact parallels_fail fault m m' w w' hm hw
  · rw [h, h']
    exact .ok hf hm hw

theorem parallels_plain (hS : host.Overlooks S) {p : Primitive} (hp : p.Plain) :
    Parallels host S G Eq p.eval p.eval := by
  apply (p.lockstep _ _ _ _).parallels hS p.failsOnly
  · exact fun m m' h => h.current.symm
  · exact fun x v m m' h => h.bind x v
  · rintro name f rfl
    cases hp
  · rintro name count rfl
    cases hp

end Eval

section
variable {ω : Type} (host : Host ω) (S : ω → ω → Prop) (G : Movers)

structure Parallel (run : (a : Activity) → Eval a.Answer) : Prop where
  value : ∀ e, Eval.Parallels host S G Eq (run (.value e)) (run (.value e))
  call : ∀ name es, Eval.Parallels host S G Eq (run (.call name es)) (run (.call name es))
  statement : ∀ s s' : Statement, s.Carried G s' →
    Eval.Parallels host S G Eq (run (.statement s)) (run (.statement s'))
  act : ∀ s s' : Statement, s.Carried G s' →
    Eval.Parallels host S G Eq (run (.act s)) (run (.act s'))

end

section
variable {ω : Type} {host : Host ω} {S : ω → ω → Prop} {G : Movers}

theorem Parallel.plan {run : (a : Activity) → Eval a.Answer} (hS : host.Overlooks S)
    (hrun : Parallel host S G run) {p p' : Plan α} (h : p.Carried G p') :
    Eval.Parallels host S G Eq (p.eval run) (p'.eval run) := by
  induction h with
  | done a => exact Eval.parallels_pure rfl
  | plain hp h ih =>
    apply (Eval.parallels_plain hS hp).bind
    rintro b _ rfl
    exact ih b
  | note h ih =>
    apply (Eval.parallels_note hS _ _).bind
    rintro b _ rfl
    exact ih b
  | define hf h ih =>
    apply (Eval.parallels_define hS _ hf).bind
    rintro b _ rfl
    exact ih b
  | callee h ih => exact (Eval.parallels_callee _ _).bind ih
  | value h ih =>
    apply (hrun.value _).bind
    rintro v _ rfl
    exact ih v
  | call h ih =>
    apply (hrun.call _ _).bind
    rintro v _ rfl
    exact ih v
  | statement hs h ih =>
    apply (hrun.statement _ _ hs).bind
    rintro flow _ rfl
    exact ih flow
  | act hs h ih =>
    apply (hrun.act _ _ hs).bind
    rintro flow _ rfl
    exact ih flow
  | within hbody h ihbody ih =>
    apply (Eval.Parallels.within hS ihbody _ _).bind
    rintro flow _ rfl
    exact ih flow

theorem parallel_run (hS : host.Overlooks S) (fuel : Nat) :
    Parallel host S G (Activity.run fuel) := by
  -- Only a statement locates errors, so only there the way in which it was moved is opened.
  induction fuel with
  | zero =>
    have h {α : Type} : Eval.Parallels host S G Eq (Eval.unfinished : Eval α) Eval.unfinished :=
      Eval.parallels_unfinished
    exact ⟨fun _ => h, fun _ _ => h, fun _ _ _ => h, fun _ _ _ => h⟩
  | succ fuel ih =>
    refine ⟨fun e => ?_, fun name es => ?_, fun s s' hs => ?_, fun s s' hs => ?_⟩
    · rw [Activity.run_succ]
      exact ih.plan hS (.expression e)
    · rw [Activity.run_succ]
      exact ih.plan hS (.call_plan name es)
    · have hplan : (Activity.statement s).plan.Carried G (Activity.statement s').plan :=
        .note fun _ => .act hs fun flow => .note fun _ => .done flow
      have hbody := ih.plan hS hplan
      obtain ⟨f, hf, rfl⟩ := hs
      rw [Activity.run_succ, Activity.run_succ]
      change Eval.Parallels host S G Eq (Eval.locate s.position _) (Eval.locate _ _)
      rw [s.position_moved]
      exact hbody.locate (hf _ s.position_mem_places)
    · rw [Activity.run_succ, Activity.run_succ]
      exact ih.plan hS hs.plan

theorem parallels_runStatements (hS : host.Overlooks S) (fuel : Nat) (hss : CarriedAll G ss ss') :
    Eval.Parallels host S G Eq (runStatements fuel ss) (runStatements fuel ss') := by
  obtain ⟨f, hf, rfl⟩ := hss
  induction ss with
  | nil => exact Eval.parallels_pure rfl
  | cons s rest ih =>
    obtain ⟨hs, hrest⟩ := List.forall_mem_append.1 hf
    have hstatement := (parallel_run hS fuel).statement s (s.moved f) ⟨f, hs, rfl⟩
    apply hstatement.bind
    rintro flow _ rfl
    cases flow with
    | normal => exact ih hrest
    | giveBack v =>
      dsimp only
      rw [s.position_moved]
      exact (Eval.parallels_fail .returnOutsideFunction).locate (hs _ s.position_mem_places)

theorem parallels_runProgram (hS : host.Overlooks S) (fuel : Nat) (hp : CarriedAll G p p') :
    Eval.Parallels host S G Eq (runProgram fuel p) (runProgram fuel p') := by
  apply (parallels_runStatements hS fuel hp).bind
  intro _ _ _
  apply (Eval.parallels_talk hS (Dialogue.request .flush)).bind
  rintro r _ rfl
  cases r with
  | ok => exact Eval.parallels_pure rfl
  | error reason => exact Eval.parallels_fail _

end

theorem runStatements_append (fuel : Nat) (ss ss' : List Statement) :
    runStatements fuel (ss ++ ss') =
      (runStatements fuel ss).bind fun _ => runStatements fuel ss' := by
  induction ss with
  | nil => rfl
  | cons s rest ih =>
    refine Eq.trans (Eval.bind_congr fun flow => ?_) (Eval.bind_assoc (execute fuel s) _ _).symm
    cases flow with
    | normal => exact ih
    | giveBack v => rfl

theorem runProgram_append (fuel : Nat) (p q : Program) :
    runProgram fuel (p ++ q) = (runStatements fuel p).bind fun _ => runProgram fuel q := by
  unfold runProgram
  rw [runStatements_append]
  exact Eval.bind_assoc _ _ _

end Scriptlet
