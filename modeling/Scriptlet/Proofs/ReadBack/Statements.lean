import Scriptlet.Proofs.Plan.Faults

namespace Scriptlet
set_option autoImplicit true

def operands (fuel : Nat) (path content : Expression) : Eval (Value × Value) :=
  (evaluate fuel path).bind fun p => (evaluate fuel content).bind fun v => Eval.pure (p, v)

section
variable {ω : Type} {host : Host ω} {m n : Machine} {u v w : ω}

/-- What is done with what was read, or with the refusal to read. -/
def Eval.receive (path y : String) : Except Refusal String → Eval Unit
  | .ok text => (assign y (.string text)).bind fun _ => Eval.record s!"[READFILE] {path} -> {y}"
  | .error .noEntry => fail (.fileNotFound path)
  | .error reason => fail (.io path reason)

theorem Eval.readFile_eq (path y : String) (m : Machine) : readFile path y m =
    .ask (.readFile path) fun answer => receive path y answer m := by
  apply congrArg (Dialogue.ask (.readFile path))
  funext answer
  rcases answer with reason | text
  · cases reason <;> rfl
  · rfl

theorem Eval.run_record (host : Host ω) (line : String) (m : Machine) (w : ω) : ∃ r v,
    (Eval.record line m).run host w = (some (r, m), v) ∧
      (r = .ok () ∨ ∃ reason, r = .error ⟨.diagnostic reason, none⟩) := by
  change ∃ r v, (accept .diagnostic (host (.record line) w).1 m).run host
    (host (.record line) w).2 = (some (r, m), v) ∧ _
  rcases (host (.record line) w).1 with reason | _
  · exact ⟨_, _, rfl, .inr ⟨reason, rfl⟩⟩
  · exact ⟨_, _, rfl, .inl rfl⟩

def Statement.conclude (s : Statement) :
    Except RuntimeError Unit × Machine → Dialogue (Except RuntimeError Flow × Machine)
  | (.error e, n) => .done (.error (e.locate s.position), n)
  | (.ok (), n) => .ask (.note (.finish s .normal)) fun _ => .done (.ok .normal, n)

theorem execute_eq_conclude {x : Eval Unit}
    (hx : perform (fuel + 1) s = x.bind fun _ => Eval.pure .normal) (m : Machine) :
    execute (fuel + 2) s m =
      .ask (.note (.execute s)) fun _ => (x m).bind s.conclude := by
  change Dialogue.ask _ (fun _ => Eval.bind (Eval.locate s.position (perform (fuel + 1) s)) _ m) = _
  rw [hx]
  apply congrArg (Dialogue.ask _)
  funext _
  refine (Dialogue.bind_assoc _ _ _).trans ((Dialogue.bind_assoc (x m) _ _).trans ?_)
  apply congrArg (x m).bind
  funext ⟨r, n⟩
  cases r <;> rfl

theorem execute_yields_cases {x : Eval Unit}
    (hx : perform (fuel + 1) s = x.bind fun _ => Eval.pure .normal)
    (h : (execute (fuel + 2) s).Yields host m w flow n v) : ∃ u,
      x.Yields host m (host (.note (.execute s)) w).2 () n u ∧
        v = (host (.note (.finish s .normal)) u).2 := by
  unfold Eval.Yields at h ⊢
  rw [execute_eq_conclude hx] at h
  change ((x m).bind s.conclude).run host (host (.note (.execute s)) w).2 = _ at h
  rw [Dialogue.run_bind] at h
  rcases hr : (x m).run host (host (.note (.execute s)) w).2 with ⟨_ | ⟨e | _, k⟩, u⟩
  · rw [hr] at h
    cases h
  · rw [hr] at h
    cases h
  · rw [hr] at h
    cases h
    exact ⟨u, rfl, rfl⟩

theorem execute_run {x : Eval Unit}
    (hx : perform (fuel + 1) s = x.bind fun _ => Eval.pure .normal)
    (h : (x m).run host (host (.note (.execute s)) w).2 = (some (r, n), u)) : ∃ v,
      (execute (fuel + 2) s m).run host w =
        (some ((r.map fun _ => .normal).mapError (·.locate s.position), n), v) := by
  rw [execute_eq_conclude hx]
  change ∃ v, ((x m).bind s.conclude).run host (host (.note (.execute s)) w).2 = _
  rw [Dialogue.run_bind, h]
  cases r with
  | error e => exact ⟨_, rfl⟩
  | ok => exact ⟨_, rfl⟩

theorem perform_write (fuel : Nat) (pos : Position) (mode : WriteMode) (pe ce : Expression) :
    perform (fuel + 1) (.write pos mode pe ce) =
      ((operands fuel pe ce).bind fun x => Eval.writeFile mode x.1.display x.2.display).bind
        fun _ => Eval.pure .normal := by
  simp only [operands, Eval.bind_assoc]
  rfl

theorem perform_read (fuel : Nat) (pos : Position) (pe : Expression) (y : String) :
    perform (fuel + 1) (.read pos pe y) =
      ((evaluate fuel pe).bind fun p => Eval.readFile p.display y).bind
        fun _ => Eval.pure .normal :=
  (Eval.bind_assoc ..).symm

theorem perform_delete (fuel : Nat) (pos : Position) (pe : Expression) :
    perform (fuel + 1) (.delete pos pe) =
      ((evaluate fuel pe).bind fun p => Eval.deleteFile p.display).bind
        fun _ => Eval.pure .normal :=
  (Eval.bind_assoc ..).symm

theorem execute_read (hp : (evaluate fuel pe).Yields host m
      (host (.note (.execute (.read pos pe y))) w).2 p n u)
    (h : (Eval.readFile p.display y n).run host u = (some (r, n'), v)) : ∃ w',
      (execute (fuel + 2) (.read pos pe y) m).run host w =
        (some ((r.map fun _ => .normal).mapError (·.locate pos), n'), w') := by
  apply execute_run (perform_read fuel pos pe y)
  rw [Eval.run_bind, hp]
  exact h

end

end Scriptlet
