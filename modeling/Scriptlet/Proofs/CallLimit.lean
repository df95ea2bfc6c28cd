import Scriptlet.Proofs.CallDepth

namespace Scriptlet
set_option autoImplicit true

def Machine.withLimit (m : Machine) (limit : Nat) : Machine :=
  { m with callLimit := limit }

/-- The second machine is the first one but for its limit, which is as given and no lower. -/
def Machine.Roomier (m : Machine) (limit : Nat) (m' : Machine) : Prop :=
  m.callLimit ≤ limit ∧ m' = m.withLimit limit

theorem Machine.leave_withLimit (m : Machine) (limit : Nat) :
    (m.withLimit limit).leave = m.leave.withLimit limit := by
  obtain ⟨current, callers, functions, callLimit⟩ := m
  cases callers <;> rfl

theorem Machine.Roomier.enter {m m' : Machine} (h : m.Roomier limit m') (scope : Scope) :
    (m.enter scope).Roomier limit (m'.enter scope) := by
  obtain ⟨hl, rfl⟩ := h
  exact ⟨hl, rfl⟩

theorem Machine.Roomier.leave {m m' : Machine} (h : m.Roomier limit m') :
    m.leave.Roomier limit m'.leave := by
  obtain ⟨hl, rfl⟩ := h
  refine ⟨?_, m.leave_withLimit limit⟩
  obtain ⟨current, callers, functions, callLimit⟩ := m
  cases callers <;> exact hl

/-- A higher limit changes the answer to a call only where the limit was exceeded. -/
theorem Machine.callee_withLimit {m : Machine} (hl : m.callLimit ≤ limit)
    (h : ∀ limit', m.callee name count ≠ .error (.callDepthExceeded name limit')) :
    (m.withLimit limit).callee name count = m.callee name count := by
  have hfunctions : (m.withLimit limit).functions.find? name = m.functions.find? name := rfl
  rcases m.callee_cases name count with
    ⟨hf, he⟩ | ⟨f, hf, hcount, he⟩ | ⟨f, -, -, -, he⟩ | ⟨f, hf, hcount, hactive, hok⟩
  · rw [he, callee, hfunctions, hf]
  · rw [he, callee, hfunctions, hf]
    exact if_pos hcount
  · exact absurd he (h _)
  · have hroom : ¬ (m.withLimit limit).callLimit ≤ (m.withLimit limit).active :=
      Nat.not_le_of_lt (Nat.lt_of_lt_of_le hactive hl)
    rw [hok, callee, hfunctions, hf]
    dsimp only
    rw [if_neg (not_not_intro hcount), if_neg hroom]

def WithinLimit : Except RuntimeError α → Prop
  | .ok _ => True
  | .error e => ∀ name limit, e.fault ≠ .callDepthExceeded name limit

namespace Eval

/-- What a computation comes to within a limit of calls it comes to within a higher one. -/
def Extends (limit : Nat) (x : Eval α) : Prop :=
  ∀ ⦃ω : Type⦄ (host : Host ω) m m' w r n v, m.Roomier limit m' → WithinLimit r →
    (x m).run host w = (some (r, n), v) →
    ∃ n', n.Roomier limit n' ∧ (x m').run host w = (some (r, n'), v)

variable {limit : Nat}

theorem Lockstep.extends {x : Eval α} (hx : x.Lockstep (Machine.Roomier · limit)) :
    x.Extends limit := by
  intro ω host m m' w r n v hm hr h
  obtain ⟨hrel, hw⟩ := (hx m m' hm).run host w
  rw [h] at hrel hw
  generalize hend : (x m').run host w = b at hrel hw
  obtain ⟨b, v'⟩ := b
  cases hrel with
  | @some _ b h =>
    obtain ⟨r', n'⟩ := b
    obtain ⟨rfl, hn⟩ := h
    obtain rfl : v = v' := hw
    exact ⟨n', hn, rfl⟩

theorem Extends.bind {x : Eval α} {f : α → Eval β} (hx : x.Extends limit)
    (hf : ∀ a, (f a).Extends limit) : (x.bind f).Extends limit := by
  intro ω host m m' w r n v hm hr h
  rw [run_bind] at h
  generalize hfirst : (x m).run host w = first at h
  obtain ⟨_ | ⟨e | a, n₁⟩, v₁⟩ := first
  · cases h
  · cases h
    obtain ⟨n', hn, hrun⟩ := hx host m m' w _ n v hm hr hfirst
    exact ⟨n', hn, by rw [run_bind, hrun]⟩
  · obtain ⟨n₁', hn₁, hrun⟩ := hx host m m' w (.ok a) n₁ v₁ hm trivial hfirst
    obtain ⟨n', hn, hrest⟩ := hf a host n₁ n₁' v₁ r n v hn₁ hr h
    exact ⟨n', hn, by rw [run_bind, hrun]; exact hrest⟩

theorem Extends.locate {x : Eval α} (hx : x.Extends limit) (pos : Position) :
    (x.locate pos).Extends limit := by
  intro ω host m m' w r n v hm hr h
  unfold Eval.locate at h ⊢
  rw [Dialogue.run_bind] at h ⊢
  generalize hfirst : (x m).run host w = first at h
  obtain ⟨_ | ⟨r₁, n₁⟩, v₁⟩ := first
  · cases h
  · cases h
    have hr₁ : WithinLimit r₁ := by
      cases r₁ with
      | ok a => trivial
      | error e => exact hr
    obtain ⟨n', hn, hrun⟩ := hx host m m' w r₁ n v hm hr₁ hfirst
    exact ⟨n', hn, by rw [hrun]; rfl⟩

theorem Extends.within {x : Eval Flow} (hx : x.Extends limit) (name : String) (scope : Scope) :
    (within name scope x).Extends limit := by
  intro ω host m m' w r n v hm hr h
  unfold Eval.within at h ⊢
  rw [Dialogue.run_bind] at h ⊢
  generalize hfirst : (x (m.enter scope)).run host w = first at h
  obtain ⟨_ | ⟨r₁, n₁⟩, v₁⟩ := first
  · cases h
  · cases h
    obtain ⟨n', hn, hrun⟩ := hx host _ _ w r n₁ v₁ (hm.enter scope) hr hfirst
    exact ⟨n'.leave, hn.leave, by rw [hrun]; rfl⟩

theorem extends_callee (name : String) (count : Nat) : (callee name count).Extends limit := by
  rintro ω host m _ w r n v ⟨hl, rfl⟩ hr h
  rw [callee_eq] at h ⊢
  change (ofExcept (m.callee name count) m).run host w = _ at h
  let m' := m.withLimit limit
  change ∃ n', _ ∧ (ofExcept (m'.callee name count) m').run host w = _
  have hsame : m'.callee name count = m.callee name count := by
    apply Machine.callee_withLimit hl
    intro limit' he
    rw [he] at h
    cases h
    exact hr name limit' rfl
  rw [hsame]
  exact (lockstep_ofExcept (m.callee name count)).extends host m _ w r n v ⟨hl, rfl⟩ hr h

theorem extends_primitive (p : Primitive) : p.eval.Extends limit := by
  by_cases hp : ∃ name count, p = .callee name count
  · obtain ⟨name, count, rfl⟩ := hp
    exact extends_callee name count
  · apply Lockstep.extends
    apply p.lockstep
    · rintro m _ ⟨-, rfl⟩
      rfl
    · rintro x v m _ ⟨hl, rfl⟩
      exact ⟨hl, rfl⟩
    · rintro name f - m _ ⟨hl, rfl⟩
      exact ⟨hl, rfl⟩
    · exact fun name count h => absurd ⟨name, count, h⟩ hp

theorem closed_extends : Closed fun x => x.Extends limit where
  pure a := (lockstep_pure a).extends
  unfinished := @fun _ => lockstep_unfinished.extends
  bind := Extends.bind
  locate pos hx := hx.locate pos
  within name scope hx := hx.within name scope

end Eval

theorem extends_runStatements (limit fuel : Nat) (ss : List Statement) :
    (runStatements fuel ss).Extends limit := by
  induction ss with
  | nil => exact (Eval.lockstep_pure ()).extends
  | cons s rest ih =>
    have hs : (execute fuel s).Extends limit :=
      Eval.closed_extends.run Eval.extends_primitive fuel (.statement s)
    apply hs.bind
    intro flow
    cases flow with
    | normal => exact ih
    | giveBack v => exact ((Eval.lockstep_fail _).locate s.position).extends

theorem extends_runProgram (limit fuel : Nat) (p : Program) :
    (runProgram fuel p).Extends limit := by
  apply (extends_runStatements limit fuel p).bind
  intro _
  apply (Eval.lockstep_talk (Dialogue.request .flush)).extends.bind
  exact fun r => (Eval.lockstep_accept .output r).extends

/-- The limit of calls bounds a run and does no more. Wherever a run gets that starts with no more
calls active than may be, no more are. It exceeds the limit if and only if it comes to a call of a
function that is there, with as many arguments as that takes, while as many calls are active as may
be. And what it comes to otherwise, it comes to in the same way under every higher limit. -/
theorem callLimit_bounds_only {ω : Type} (host : Host ω) (fuel : Nat) (p : Program) (m : Machine)
    (w : ω) :
    (m.active ≤ m.callLimit →
      (∀ c : Moment ω, c.Reached host fuel p m w → c.machine.active ≤ m.callLimit ∧
        ∀ q n v, c.Gets host q n v → n.active ≤ m.callLimit) ∧
      ∀ name limit,
        (∃ e, (runProgram fuel p).Fails host m w e ∧ e.fault = .callDepthExceeded name limit) ↔
          limit = m.callLimit ∧ ∃ (c : Moment ω) (count : Nat) (n : Machine) (v : ω) (f : Function),
            c.Reached host fuel p m w ∧ c.Gets host (.does (.callee name count)) n v ∧
            n.functions.find? name = some f ∧ count = f.parameters.length ∧
            n.active = m.callLimit) ∧
    ∀ limit r n v, m.callLimit ≤ limit → WithinLimit r →
      (runProgram fuel p m).run host w = (some (r, n), v) →
      (runProgram fuel p (m.withLimit limit)).run host w = (some (r, n.withLimit limit), v) := by
  refine ⟨fun hm => ⟨fun c hc => ?_, fun name limit => runProgram_exceeds_iff hm⟩, ?_⟩
  · obtain ⟨hactive, hlimit⟩ := hc.active_le hm
    refine ⟨hactive, fun q n v hgets => ?_⟩
    exact hlimit ▸ (hgets.active_le (hlimit ▸ hactive)).1
  · intro limit r n v hlimit hr h
    obtain ⟨_, ⟨-, rfl⟩, hrun⟩ :=
      extends_runProgram limit fuel p host m _ w r n v ⟨hlimit, rfl⟩ hr h
    exact hrun

/-- A function that calls itself without end, and a call of it. -/
def endlessCalls : Program :=
  [.function ⟨1, 1⟩ "f" [] [.call ⟨1, 14⟩ "f" []], .call ⟨2, 1⟩ "f" []]

/-- A function, and a call of it with the value of another call. -/
def nestedCalls : Program :=
  [.function ⟨1, 1⟩ "f" ["x"] [.giveBack ⟨1, 15⟩ (.var "x")],
    .print ⟨2, 1⟩ (.call "f" [.call "f" [.number 1]])]

theorem callLimit_bounds_only_calls :
    (∃ (c : Moment Unit) (count : Nat) (n : Machine) (v : Unit),
      c.Reached .willing 9 endlessCalls (.fresh 1) () ∧
      c.Gets .willing (.does (.callee "f" count)) n v ∧ n.active = 1) ∧
    ∃ n, (runProgram 9 nestedCalls (.fresh 7)).run .willing () = (some (.ok (), n), ()) := by
  have hendless : (runProgram 9 endlessCalls).Fails .willing (.fresh 1) ()
      ⟨.callDepthExceeded "f" 1, some ⟨1, 14⟩⟩ := ⟨_, _, rfl⟩
  have hnested : ∃ n, (runProgram 9 nestedCalls (.fresh 1)).run .willing () =
      (some (.ok (), n), ()) := ⟨_, rfl⟩
  obtain ⟨n, hnested⟩ := hnested
  obtain ⟨-, hexceeds⟩ :=
    (callLimit_bounds_only .willing 9 endlessCalls (.fresh 1) ()).1 (Nat.zero_le 1)
  obtain ⟨-, hextends⟩ := callLimit_bounds_only .willing 9 nestedCalls (.fresh 1) ()
  obtain ⟨-, c, count, n', v, f, hc, hgets, -, -, hactive⟩ :=
    (hexceeds "f" 1).1 ⟨_, hendless, rfl⟩
  refine ⟨⟨c, count, n', v, hc, hgets, hactive⟩, n.withLimit 7, ?_⟩
  exact hextends 7 (.ok ()) n () (by decide) trivial hnested

end Scriptlet
