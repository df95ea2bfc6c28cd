import Scriptlet.Proofs.Plan.Faults

namespace Scriptlet
set_option autoImplicit true

/-- What a primitive may ask of the surrounding system. -/
def Primitive.Asks : Primitive → Request → Prop
  | record line, q => q = .record line
  | output text, q => q = .write text
  | assign x v, q => q = .note (.bind x v)
  | define name f, q => q = .note (.define name f)
  | write mode path text, q =>
    (∃ directory, q = .createDirectories directory) ∨ match mode with
      | .replace => q = .writeFile path text ∨ q = .record s!"[WRITEFILE] {path}"
      | .extend => q = .appendFile path text ∨ q = .record s!"[APPENDFILE] {path}"
  | read path target, q =>
    q = .readFile path ∨ (∃ v, q = .note (.bind target v)) ∨
      q = .record s!"[READFILE] {path} -> {target}"
  | delete path, q => q = .removeFile path ∨ q = .record s!"[DELETEFILE] {path}"
  | note event, q => q = .note event
  | lookup _, _ | callee .., _ | operate .., _ => False

/-- A property of computations that is about what they ask of the surrounding system, so that the
machine plays no part in it. -/
structure Eval.Outward (Φ : {α : Type} → Eval α → Prop) : Prop where
  pure : ∀ {α : Type} (a : α), Φ (Eval.pure a)
  fail : ∀ {α : Type} (fault : Fault), Φ (Eval.fail fault : Eval α)
  look : ∀ {α : Type} {f : Machine → Eval α}, (∀ m, Φ (f m)) → Φ (Eval.get >>= f)
  modify : ∀ f : Machine → Machine, Φ (Eval.modify f)
  bind : ∀ {α β : Type} {x : Eval α} {f : α → Eval β}, Φ x → (∀ a, Φ (f a)) → Φ (x.bind f)

namespace Eval.Outward

variable {Φ : {α : Type} → Eval α → Prop}

theorem ofExcept (h : Outward Φ) (r : Except Fault α) : Φ (Eval.ofExcept r) := by
  cases r with
  | ok a => exact h.pure a
  | error fault => exact h.fail fault

theorem accept (h : Outward Φ) (fault : Refusal → Fault) (r : Except Refusal α) :
    Φ (Eval.accept fault r) := by
  cases r with
  | ok a => exact h.pure a
  | error reason => exact h.fail _

theorem record (h : Outward Φ) (hask : Φ (Eval.ask (.record line))) : Φ (Eval.record line) :=
  h.bind hask (h.accept .diagnostic)

theorem output (h : Outward Φ) (hask : Φ (Eval.ask (.write text))) : Φ (Eval.output text) := by
  unfold Eval.output
  split
  · exact h.bind hask (h.accept .output)
  · exact h.pure ()

theorem assign (h : Outward Φ) (hask : Φ (Eval.ask (.note (.bind x v)))) :
    Φ (Eval.assign x v) :=
  h.bind (h.modify _) fun _ => hask

theorem prepareParent (h : Outward Φ)
    (hask : ∀ directory, Φ (Eval.ask (.createDirectories directory))) (path : String) :
    Φ (Eval.talk (Dialogue.prepareParent path)) := by
  fun_cases Dialogue.prepareParent path with
  | case1 => exact h.pure _
  | case2 => exact h.pure _
  | case3 directory => exact hask directory

theorem writeFile (h : Outward Φ)
    (hask : ∀ q, Primitive.Asks (.write mode path text) q → Φ (Eval.ask q)) :
    Φ (Eval.writeFile mode path text) := by
  apply h.bind (h.prepareParent (fun _ => hask _ (.inl ⟨_, rfl⟩)) path)
  intro r
  apply h.bind (h.accept (.io path) r)
  intro _
  cases mode with
  | replace =>
    apply h.bind (hask _ (.inr (.inl rfl)))
    intro r
    apply h.bind (h.accept (.io path) r)
    exact fun _ => h.record (hask _ (.inr (.inr rfl)))
  | extend =>
    apply h.bind (hask _ (.inr (.inl rfl)))
    intro r
    apply h.bind (h.accept (.io path) r)
    exact fun _ => h.record (hask _ (.inr (.inr rfl)))

theorem readFile (h : Outward Φ)
    (hask : ∀ q, Primitive.Asks (.read path target) q → Φ (Eval.ask q)) :
    Φ (Eval.readFile path target) := by
  apply h.bind (hask _ (.inl rfl))
  rintro (reason | text)
  · cases reason <;> exact h.fail _
  · apply h.bind (h.assign (hask _ (.inr (.inl ⟨_, rfl⟩))))
    exact fun _ => h.record (hask _ (.inr (.inr rfl)))

theorem deleteFile (h : Outward Φ)
    (hask : ∀ q, Primitive.Asks (.delete path) q → Φ (Eval.ask q)) : Φ (Eval.deleteFile path) := by
  apply h.bind (hask _ (.inl rfl))
  rintro (reason | _)
  · cases reason with
    | noEntry => exact h.pure ()
    | _ => exact h.fail _
  · exact h.record (hask _ (.inr rfl))

theorem variableValue (h : Outward Φ) (x : String) : Φ (Eval.variableValue x) := by
  apply h.look
  intro m
  cases m.current.find? x with
  | none => exact h.fail _
  | some v => exact h.pure v

theorem callee (h : Outward Φ) (name : String) (count : Nat) : Φ (Eval.callee name count) := by
  rw [Eval.callee_eq]
  apply h.look
  exact fun m => h.ofExcept _

theorem primitive (h : Outward Φ) {p : Primitive} (hask : ∀ q, p.Asks q → Φ (Eval.ask q)) :
    Φ p.eval := by
  cases p with
  | lookup x => exact h.variableValue x
  | callee name count => exact h.callee name count
  | operate op a b => exact h.ofExcept _
  | record line => exact h.record (hask _ rfl)
  | output text => exact h.output (hask _ rfl)
  | assign x v => exact h.assign (hask _ rfl)
  | define name f => exact h.bind (h.modify _) fun _ => hask _ rfl
  | write mode path text => exact h.writeFile hask
  | read path target => exact h.readFile hask
  | delete path => exact h.deleteFile hask
  | note event => exact hask _ rfl

end Eval.Outward

namespace Eval.Closed

variable {Φ : {α : Type} → Eval α → Prop}

theorem runStatements (h : Closed Φ) (hfail : ∀ fault, Φ (Eval.fail fault : Eval Unit))
    (hrun : ∀ a : Activity, Φ (a.run fuel)) (ss : List Statement) : Φ (runStatements fuel ss) := by
  induction ss with
  | nil => exact h.pure ()
  | cons s rest ih =>
    apply h.bind (hrun (.statement s))
    intro flow
    cases flow with
    | normal => exact ih
    | giveBack v => exact h.locate s.position (hfail _)

theorem runProgram (h : Closed Φ) (hfail : ∀ fault, Φ (Eval.fail fault : Eval Unit))
    (hrun : ∀ a : Activity, Φ (a.run fuel))
    (hflush : Φ ((Eval.ask .flush).bind (Eval.accept .output))) (p : Program) :
    Φ (runProgram fuel p) :=
  h.bind (h.runStatements hfail hrun p) fun _ => hflush

end Eval.Closed

end Scriptlet
