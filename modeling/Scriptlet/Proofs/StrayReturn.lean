import Scriptlet.Proofs.Returning

namespace Scriptlet
set_option autoImplicit true

/-- The activity is one of statements and ends with a return. -/
def Moment.GivesBack {ω : Type} (host : Host ω) (c : Moment ω) : Prop :=
  ∃ u b n v, c.activity.Back u b ∧ (c.activity.run c.fuel).Yields host c.machine c.world b n v

namespace Moment

/-- In the course of the activity, which is one of statements, the `return` statement is executed,
and not within a call. -/
inductive Returns {ω : Type} (host : Host ω) : Moment ω → Statement → Prop
  | back (h : (perform k (.giveBack pos e)).Yields host m w (.giveBack u) n v) :
      Returns host ⟨k, .act (.giveBack pos e), m, w⟩ (.giveBack pos e)
  | statement (h : Opens host ⟨k, .statement s, m, w⟩ d) (hd : Returns host d r) :
      Returns host ⟨k, .statement s, m, w⟩ r
  | act (h : Opens host ⟨k, .act s, m, w⟩ d) (hd : Returns host d r) :
      Returns host ⟨k, .act s, m, w⟩ r

variable {ω : Type} {host : Host ω} {c d : Moment ω} {r : Statement} {n : Machine} {v : ω}
  {u : Value}

theorem perform_giveBack_yields_iff {k : Nat} {m : Machine} {w : ω} :
    (perform (k + 1) (.giveBack pos e)).Yields host m w (.giveBack u) n v ↔
      (evaluate k e).Yields host m w u n v := by
  constructor
  · intro h
    obtain ⟨u', n', v', he, h⟩ := Eval.yields_bind_iff.1 h
    cases h
    exact he
  · exact fun h => Eval.yields_bind_iff.2 ⟨u, n, v, h, rfl⟩

theorem Gives.returns (h : c.Gives host u n v) : ∃ r, c.Returns host r := by
  induction h with
  | back h => exact ⟨_, .back (perform_giveBack_yields_iff.2 h)⟩
  | statement h _ ih =>
    obtain ⟨r, hr⟩ := ih
    exact ⟨r, .statement h hr⟩
  | act h _ ih =>
    obtain ⟨r, hr⟩ := ih
    exact ⟨r, .act h hr⟩

theorem Returns.gives (h : c.Returns host r) : ∃ u n v, c.Gives host u n v := by
  induction h with
  | @back k pos e m w u n v h =>
    cases k with
    | zero => cases h
    | succ k => exact ⟨u, n, v, .back (perform_giveBack_yields_iff.1 h)⟩
  | statement h _ ih =>
    obtain ⟨u, n, v, hd⟩ := ih
    exact ⟨u, n, v, .statement h hd⟩
  | act h _ ih =>
    obtain ⟨u, n, v, hd⟩ := ih
    exact ⟨u, n, v, .act h hd⟩

theorem GivesBack.returns (h : c.GivesBack host) : ∃ r, c.Returns host r := by
  obtain ⟨u, b, n, v, hb, h⟩ := h
  have hends : c.EndsWith host u n v := ⟨b, hb, h⟩
  obtain ⟨ss, v', hgives, -⟩ := hends.gives
  exact hgives.returns

theorem Returns.givesBack (h : c.Returns host r) : c.GivesBack host := by
  obtain ⟨u, n, v, hgives⟩ := h.gives
  obtain ⟨ss, b, hb, h⟩ := hgives.endsWith
  exact ⟨u, b, n, _, hb, h⟩

theorem Returns.eq_giveBack (h : c.Returns host r) : ∃ pos e, r = .giveBack pos e := by
  induction h with
  | back h => exact ⟨_, _, rfl⟩
  | statement h hd ih => exact ih
  | act h hd ih => exact ih

theorem Fails.ne_returnOutsideFunction {e : RuntimeError} (h : c.Fails host e) :
    e.fault ≠ .returnOutsideFunction := by
  obtain ⟨d, b, -, -, ⟨q, n, v, -, hq⟩, -⟩ := h.innermost
  obtain ⟨-, hcan⟩ := q.failsOnly host n v _ hq
  intro he
  dsimp only at hcan
  rw [he] at hcan
  cases q with
  | operate op a b =>
    rcases Value.binary_error_cases hcan with h | ⟨_, h⟩ | h
    · cases h
    · cases h
    · cases h
  | _ => simp [Primitive.CanMeet] at hcan

end Moment

section
variable {ω : Type} {host : Host ω} {fuel : Nat} {p : Program} {m : Machine} {w : ω}
  {e : RuntimeError} {s r : Statement}

/-- In a run of the program its statement `s` begins, and in the course of that, outside all calls,
the `return` statement `r` is executed. -/
def Statement.StraysIn (host : Host ω) (fuel : Nat) (p : Program) (m : Machine) (w : ω)
    (s r : Statement) : Prop :=
  ∃ n v, (Plan.block .done p).Gets host (Activity.run fuel) m w (.begins (.statement s)) n v ∧
    (Moment.mk fuel (.statement s) n v).Returns host r

theorem Statement.StraysIn.mem (h : s.StraysIn host fuel p m w r) : s ∈ p := by
  obtain ⟨n, v, hgets, -⟩ := h
  obtain ⟨t, ht, he⟩ := (Plan.gets_block_cases hgets).resolve_left Point.noConfusion
  cases he
  exact ht

theorem Statement.StraysIn.eq_giveBack (h : s.StraysIn host fuel p m w r) :
    ∃ pos value, r = .giveBack pos value := by
  obtain ⟨n, v, -, hr⟩ := h
  exact hr.eq_giveBack

theorem strays_of_runStatements (h : (runStatements fuel p).Fails host m w e)
    (hf : e.fault = .returnOutsideFunction) :
    ∃ s r : Statement, s.StraysIn host fuel p m w r ∧
      e = ⟨.returnOutsideFunction, some s.position⟩ := by
  induction p generalizing m w with
  | nil =>
    obtain ⟨n, v, h⟩ := h
    cases h
  | cons s rest ih =>
    rcases Eval.fails_bind_iff.1 h with h | ⟨flow, n, v, hs, h⟩
    · have hmoment : (Moment.mk fuel (.statement s) m w).Fails host e := h
      exact absurd hf hmoment.ne_returnOutsideFunction
    · cases flow with
      | normal =>
        obtain ⟨t, r, ⟨n', v', hgets, hr⟩, he⟩ := ih h
        exact ⟨t, r, ⟨n', v', .sub hs hgets, hr⟩, he⟩
      | giveBack u =>
        have hback : (Moment.mk fuel (.statement s) m w).GivesBack host := ⟨u, _, n, v, rfl, hs⟩
        obtain ⟨r, hr⟩ := hback.returns
        obtain ⟨n', v', h⟩ := h
        cases h
        exact ⟨s, r, ⟨m, w, .begins, hr⟩, rfl⟩

theorem Statement.StraysIn.fails (h : s.StraysIn host fuel p m w r) :
    (runStatements fuel p).Fails host m w ⟨.returnOutsideFunction, some s.position⟩ := by
  obtain ⟨n, v, hgets, hr⟩ := h
  have hback := hr.givesBack
  induction p generalizing m w with
  | nil => cases hgets
  | cons t rest ih =>
    apply Eval.fails_bind_iff.2
    cases hgets with
    | begins =>
      obtain ⟨u, _, n', v', rfl, h⟩ := hback
      exact .inr ⟨_, n', v', h, n', v', rfl⟩
    | @sub _ _ _ _ _ _ _ _ _ flow _ ht hgets =>
      cases flow with
      | normal => exact .inr ⟨_, _, _, ht, ih hgets⟩
      | giveBack u => cases hgets

end

/-- A return outside all functions is reported at the statement of the program in the course of
which it is executed, not at the `return` statement itself: a run fails for such a return if and
only if one is executed so, and the error has the place of the outermost statement. -/
theorem runProgram_strays_iff {ω : Type} (host : Host ω) (fuel : Nat) (p : Program) (m : Machine)
    (w : ω) (e : RuntimeError) :
    (runProgram fuel p).Fails host m w e ∧ e.fault = .returnOutsideFunction ↔
      ∃ s r : Statement, s ∈ p ∧ (∃ pos value, r = .giveBack pos value) ∧
        s.StraysIn host fuel p m w r ∧ e = ⟨.returnOutsideFunction, some s.position⟩ := by
  constructor
  · rintro ⟨h, hf⟩
    rcases runProgram_fails_cases h with h | ⟨reason, -, rfl⟩
    · obtain ⟨s, r, hstrays, he⟩ := strays_of_runStatements h hf
      exact ⟨s, r, hstrays.mem, hstrays.eq_giveBack, hstrays, he⟩
    · cases hf
  · rintro ⟨s, r, -, -, hstrays, rfl⟩
    exact ⟨runProgram_fails_of_statements hstrays.fails, rfl⟩

def conditionalReturn : Program :=
  [.ifThen ⟨1, 1⟩ (.number 1) [.giveBack ⟨2, 3⟩ (.number 2)]]

theorem runProgram_strays_conditionalReturn :
    ¬ ∀ (fuel : Nat) (p : Program) (m : Machine) (e : RuntimeError) (s r : Statement),
      (runProgram fuel p).Fails .willing m () e → e.fault = .returnOutsideFunction →
      s.StraysIn .willing fuel p m () r → e.position = some r.position := by
  intro h
  have hfails : (runProgram 9 conditionalReturn).Fails .willing (.fresh 5) ()
      ⟨.returnOutsideFunction, some ⟨1, 1⟩⟩ := ⟨_, _, rfl⟩
  have hact : Moment.Returns .willing
      ⟨6, .act (.giveBack ⟨2, 3⟩ (.number 2)), .fresh 5, ()⟩ (.giveBack ⟨2, 3⟩ (.number 2)) :=
    .back rfl
  have hbody := Moment.Returns.statement (Moment.opens_statement_iff.2 rfl) hact
  have hbranch : Moment.Opens .willing
      ⟨8, .act (.ifThen ⟨1, 1⟩ (.number 1) [.giveBack ⟨2, 3⟩ (.number 2)]), .fresh 5, ()⟩
      ⟨7, .statement (.giveBack ⟨2, 3⟩ (.number 2)), .fresh 5, ()⟩ :=
    .intro (.step rfl (.sub rfl .begins))
  have houter := Moment.Returns.statement (Moment.opens_statement_iff.2 rfl) (.act hbranch hbody)
  have hstrays : Statement.StraysIn .willing 9 conditionalReturn (.fresh 5) ()
      (.ifThen ⟨1, 1⟩ (.number 1) [.giveBack ⟨2, 3⟩ (.number 2)])
      (.giveBack ⟨2, 3⟩ (.number 2)) := ⟨_, _, .begins, houter⟩
  cases h _ _ _ _ _ _ hfails rfl hstrays

end Scriptlet
