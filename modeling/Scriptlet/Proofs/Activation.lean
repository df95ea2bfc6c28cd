import Scriptlet.Proofs.Returning

namespace Scriptlet
set_option autoImplicit true

namespace Host

variable {ω : Type}

/-- The system, which keeps a list of all that it was asked. -/
def logged (host : Host ω) : Host (ω × List Request) :=
  fun q (w, log) => ((host q w).1, (host q w).2, log ++ [q])

theorem told_logged (host : Host ω) (events : List Event) (w : ω) (log : List Request) :
    host.logged.told events (w, log) = (host.told events w, log ++ events.map .note) := by
  induction events generalizing w log with
  | nil => exact congrArg (w, ·) (List.append_nil log).symm
  | cons event events ih =>
    have h := ih (host (.note event) w).2 (log ++ [.note event])
    rw [List.append_assoc] at h
    exact h

end Host

section
variable {ω : Type} {host : Host ω} {m n : Machine} {w v : ω} {k fuel : Nat} {u : Value}

/-- While the body of the function is executed, from the machine and the system as they are when it
starts, a `return` of the body itself is executed; by the time when its expression has the value
`u`, the machine and the system are as given. -/
def Function.Gives (host : Host ω) (k : Nat) (f : Function) (m : Machine) (w : ω) (u : Value)
    (n : Machine) (v : ω) : Prop :=
  ∃ s m' w',
    (Plan.block .done f.body).Gets host (Activity.run k) m w (.begins (.statement s)) m' w' ∧
      (Moment.mk k (.statement s) m' w').Gives host u n v

theorem Function.Gives.block {f : Function} (h : f.Gives host k m w u n v) :
    ∃ ss, (Eval.block (execute k) f.body).Yields host m w (.giveBack u) n
      (host.told (finishes u ss) v) := by
  obtain ⟨s, m', w', hgets, hs⟩ := h
  obtain ⟨ss, b, hb, hyields⟩ := hs.endsWith
  have heval := Plan.eval_block_done (Activity.run k) f.body
  exact ⟨ss, heval ▸ (Plan.passes_block_done f.body).yields hgets hb hyields⟩

theorem Function.gives_of_block {f : Function}
    (h : (Eval.block (execute k) f.body).Yields host m w (.giveBack u) n v) :
    ∃ ss v', f.Gives host k m w u n v' ∧ v = host.told (finishes u ss) v' := by
  have heval := Plan.eval_block_done (Activity.run k) f.body
  obtain ⟨a, u', b, m', w', hgets, hu, hb, hyields⟩ :=
    (Plan.passes_block_done f.body).begins (heval ▸ h)
  cases hu
  obtain ⟨s, -, hs⟩ := (Plan.gets_block_cases hgets).resolve_left Point.noConfusion
  cases hs
  have hends : (Moment.mk k (.statement s) m' w').EndsWith host u n v := ⟨b, hb, hyields⟩
  obtain ⟨ss, v', hgives, hv⟩ := hends.gives
  exact ⟨ss, v', ⟨s, m', w', hgets, hgives⟩, hv⟩

/-- A call of the function named so, with arguments that have values, starts its body on a machine
and in a system as given. -/
inductive Activates (host : Host ω) (k : Nat) (name : String) (es : List Expression) (m : Machine)
    (w : ω) : Function → Machine → ω → Prop
  | intro {n : Machine} {v : ω} (hf : (Eval.callee name es.length).Yields host m w f m' w')
      (hes : (Eval.each (evaluate k) es).Yields host m' w' values n v) :
      Activates host k name es m w f (n.enter (f.scope values))
        (host (.note (.enter name f values)) v).2

def Flow.value : Flow → Value
  | .giveBack u => u
  | .normal => .none

theorem Activates.yields {f : Function} {n' : Machine} {v' : ω}
    (h : Activates host k name es m w f n v)
    (hbody : (Eval.block (execute k) f.body).Yields host n v flow n' v') :
    (invoke (k + 1) name es).Yields host m w flow.value n'.leave
      (host.told [.leave name] v') := by
  obtain ⟨hf, hes⟩ := h
  refine Eval.yields_bind_iff.2 ⟨f, _, _, hf, ?_⟩
  refine Eval.yields_bind_iff.2 ⟨_, _, _, hes, ?_⟩
  refine Eval.yields_bind_iff.2 ⟨(), _, _, rfl, ?_⟩
  refine Eval.yields_bind_iff.2 ⟨flow, _, _, Eval.yields_within_iff.2 ⟨n', v', hbody, rfl, rfl⟩, ?_⟩
  cases flow <;> rfl

end

/-- A call whose body executes a `return` of its own has the value of the return, and behind the
return nothing is asked of the system but to take note that the statements around the return and the
call have ended: no statement begins and no condition is evaluated. A body that ends ends so, or
without a return of its own, and then the call has no value; returns within calls are none of its
own. -/
theorem invoke_gives {ω : Type} (host : Host ω) (k : Nat) (name : String) (es : List Expression)
    (m : Machine) (w : ω × List Request) (f : Function) (n : Machine) (v : ω × List Request)
    (h : Activates host.logged k name es m w f n v) :
    (∀ u n' v', f.Gives host.logged k n v u n' v' → ∃ (ss : List Statement) (v'' : ω),
      (invoke (k + 1) name es).Yields host.logged m w u n'.leave
        (v'', v'.2 ++ (ss.map fun s => .note (.finish s (.giveBack u))) ++
          [.note (.leave name)])) ∧
    ∀ flow n' v', (Eval.block (execute k) f.body).Yields host.logged n v flow n' v' →
      (∃ u v'', flow = .giveBack u ∧ f.Gives host.logged k n v u n' v'') ∨
        flow = .normal ∧ (¬ ∃ u n'' v'', f.Gives host.logged k n v u n'' v'') ∧ ∃ v'',
          (invoke (k + 1) name es).Yields host.logged m w .none n'.leave
            (v'', v'.2 ++ [.note (.leave name)]) := by
  constructor
  · rintro u n' ⟨v', log⟩ hgives
    obtain ⟨ss, hblock⟩ := hgives.block
    have hcall := h.yields hblock
    rw [Host.told_logged, Host.told_logged, finishes, List.map_map] at hcall
    exact ⟨ss, _, hcall⟩
  · rintro flow n' ⟨v', log⟩ hblock
    cases flow with
    | giveBack u =>
      obtain ⟨ss, v'', hgives, -⟩ := Function.gives_of_block hblock
      exact .inl ⟨u, v'', rfl, hgives⟩
    | normal =>
      have hcall := h.yields hblock
      rw [Host.told_logged] at hcall
      refine .inr ⟨rfl, ?_, _, hcall⟩
      rintro ⟨u, n'', v'', hgives⟩
      obtain ⟨ss, hback⟩ := hgives.block
      cases hblock.symm.trans hback

def innerReturn : Statement :=
  .giveBack ⟨2, 27⟩ (.call "g" [])

def outerConditional : Statement :=
  .ifThen ⟨2, 22⟩ (.number 1) [innerReturn, .print ⟨2, 38⟩ (.number 2)]

def outerLoop : Statement :=
  .loop ⟨2, 14⟩ (.number 1) [outerConditional]

/-- A function that returns from a conditional within a loop. -/
def nestedReturn : Function :=
  ⟨[], [outerLoop, .print ⟨2, 54⟩ (.number 3)]⟩

def nestedMachine : Machine :=
  ⟨.empty, [], (Table.empty.insert "g" ⟨[], [.giveBack ⟨1, 14⟩ (.number 7)]⟩).insert "f"
    nestedReturn, 5⟩

/-- What the system is asked when the return begins. -/
def returnRequests : List Request :=
  [.note (.enter "f" nestedReturn []), .note (.execute outerLoop), .note (.test outerLoop),
    .note (.execute outerConditional), .note (.test outerConditional), .note (.execute innerReturn)]

theorem invoke_gives_nestedReturn : ∃ n v n' v' v'', ∃ ss : List Statement,
    Activates Host.willing.logged 12 "f" [] nestedMachine ((), []) nestedReturn n v ∧
      nestedReturn.Gives Host.willing.logged 12 n v (.integer 7) n' v' ∧
      (invoke 13 "f" []).Yields Host.willing.logged nestedMachine ((), []) (.integer 7) n'.leave
        (v'', v'.2 ++ (ss.map fun s => .note (.finish s (.giveBack (.integer 7)))) ++
          [.note (.leave "f")]) := by
  have hf : (Eval.callee "f" 0).Yields Host.willing.logged nestedMachine ((), []) nestedReturn
      nestedMachine ((), []) := rfl
  have hes : (Eval.each (evaluate 12) []).Yields Host.willing.logged nestedMachine ((), []) []
      nestedMachine ((), []) := rfl
  have hactivates := Activates.intro hf hes
  have hopens {k : Nat} {s : Statement} {m : Machine} {w : Unit × List Request} :
      Moment.Opens Host.willing.logged ⟨k + 1, .statement s, m, w⟩
        ⟨k, .act s, m, (Host.willing.logged (.note (.execute s)) w).2⟩ :=
    Moment.opens_statement_iff.2 rfl
  obtain ⟨n', v', hback⟩ : ∃ n' v', (Moment.mk 7 (.act innerReturn) (nestedMachine.enter .empty)
      ((), returnRequests)).Gives Host.willing.logged (.integer 7) n' v' :=
    ⟨_, _, .back rfl⟩
  have hinner : (Moment.mk 8 (.statement innerReturn) (nestedMachine.enter .empty)
      ((), returnRequests.take 5)).Gives Host.willing.logged (.integer 7) n' v' :=
    .statement hopens hback
  have hact : (Moment.mk 9 (.act outerConditional) (nestedMachine.enter .empty)
      ((), returnRequests.take 4)).Gives Host.willing.logged (.integer 7) n' v' :=
    .act (.intro (.step rfl (.sub rfl .begins))) hinner
  have hconditional : (Moment.mk 10 (.statement outerConditional) (nestedMachine.enter .empty)
      ((), returnRequests.take 3)).Gives Host.willing.logged (.integer 7) n' v' :=
    .statement hopens hact
  have hbody : (Moment.mk 11 (.act outerLoop) (nestedMachine.enter .empty)
      ((), returnRequests.take 2)).Gives Host.willing.logged (.integer 7) n' v' :=
    .act (.intro (.step rfl (.sub rfl .begins))) hconditional
  have hloop : (Moment.mk 12 (.statement outerLoop) (nestedMachine.enter .empty)
      ((), returnRequests.take 1)).Gives Host.willing.logged (.integer 7) n' v' :=
    .statement hopens hbody
  have hgives : nestedReturn.Gives Host.willing.logged 12 (nestedMachine.enter .empty)
      ((), returnRequests.take 1) (.integer 7) n' v' :=
    ⟨outerLoop, _, _, .begins, hloop⟩
  obtain ⟨hown, -⟩ := invoke_gives _ _ _ _ _ _ _ _ _ hactivates
  obtain ⟨ss, v'', hcall⟩ := hown _ _ _ hgives
  exact ⟨_, _, n', v', v'', ss, hactivates, hgives, hcall⟩

end Scriptlet
