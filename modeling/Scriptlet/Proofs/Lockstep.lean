import Scriptlet.Machine.Run
import Scriptlet.Proofs.Dialogue

namespace Scriptlet
set_option autoImplicit true

/-- What statements can see of a machine is the same for both: all but the scopes of the callers,
of which they see only how many there are. -/
structure Machine.Alike (m m' : Machine) : Prop where
  current : m.current = m'.current
  functions : m.functions = m'.functions
  callLimit : m.callLimit = m'.callLimit
  active : m.active = m'.active

/-- What calls make use of besides their arguments is the same for both machines. -/
structure Machine.Akin (m m' : Machine) : Prop where
  functions : m.functions = m'.functions
  callLimit : m.callLimit = m'.callLimit
  active : m.active = m'.active

namespace Eval

/-- On machines that `R` relates, a computation makes the same requests and ends alike, and leaves
machines that `R` relates. -/
def Lockstep (R : Machine → Machine → Prop) (x : Eval α) : Prop :=
  ∀ m m', R m m' → (x m).InStep (fun a b => a.1 = b.1 ∧ R a.2 b.2) (x m')

section
variable {R : Machine → Machine → Prop} {α β : Type}

theorem Lockstep.bind {x : Eval α} {f : α → Eval β} (hx : x.Lockstep R)
    (hf : ∀ a, (f a).Lockstep R) : (x >>= f).Lockstep R := by
  intro m m' hm
  apply (hx m m' hm).bind
  rintro ⟨r, n⟩ ⟨r', n'⟩ ⟨hr, hn⟩
  obtain rfl : r = r' := hr
  cases r with
  | error e => exact .done ⟨rfl, hn⟩
  | ok a => exact hf a n n' hn

theorem lockstep_pure (a : α) : (Eval.pure a).Lockstep R :=
  fun _ _ hm => .done ⟨rfl, hm⟩

theorem lockstep_fail (fault : Fault) : (fail fault : Eval α).Lockstep R :=
  fun _ _ hm => .done ⟨rfl, hm⟩

theorem lockstep_unfinished : (unfinished : Eval α).Lockstep R :=
  fun _ _ _ => .unfinished

theorem lockstep_talk (d : Dialogue α) : (talk d).Lockstep R := by
  intro m m' hm
  apply (Dialogue.InStep.refl (fun _ => rfl) d).bind
  rintro a _ rfl
  exact .done ⟨rfl, hm⟩

theorem lockstep_modify {f : Machine → Machine} (hf : ∀ m m', R m m' → R (f m) (f m')) :
    (modify f).Lockstep R :=
  fun m m' hm => .done ⟨rfl, hf m m' hm⟩

theorem lockstep_ofExcept (r : Except Fault α) : (ofExcept r).Lockstep R := by
  cases r with
  | ok a => exact lockstep_pure a
  | error fault => exact lockstep_fail fault

theorem lockstep_accept (fault : Refusal → Fault) (r : Except Refusal α) :
    (accept fault r).Lockstep R := by
  cases r with
  | ok a => exact lockstep_pure a
  | error reason => exact lockstep_fail _

theorem Lockstep.locate {x : Eval α} (hx : x.Lockstep R) (pos : Position) :
    (x.locate pos).Lockstep R := by
  intro m m' hm
  apply (hx m m' hm).bind
  rintro ⟨r, n⟩ ⟨r', n'⟩ ⟨hr, hn⟩
  obtain rfl : r = r' := hr
  exact .done ⟨rfl, hn⟩

theorem Lockstep.each {f : α → Eval β} (hf : ∀ a, (f a).Lockstep R) (as : List α) :
    (each f as).Lockstep R := by
  induction as with
  | nil => exact lockstep_pure []
  | cons a rest ih =>
    apply (hf a).bind
    intro b
    exact ih.bind fun bs => lockstep_pure (b :: bs)

theorem Lockstep.block {execute : Statement → Eval Flow} (he : ∀ s, (execute s).Lockstep R)
    (ss : List Statement) : (block execute ss).Lockstep R := by
  induction ss with
  | nil => exact lockstep_pure Flow.normal
  | cons s rest ih =>
    apply (he s).bind
    intro flow
    cases flow with
    | normal => exact ih
    | giveBack v => exact lockstep_pure (Flow.giveBack v)

theorem lockstep_note (event : Event) : (note event).Lockstep R :=
  lockstep_talk (Dialogue.request (.note event))

theorem lockstep_record (line : String) : (record line).Lockstep R := by
  apply (lockstep_talk (Dialogue.request (.record line))).bind
  exact lockstep_accept .diagnostic

theorem lockstep_output (text : String) : (output text).Lockstep R := by
  unfold output
  split
  · apply (lockstep_talk (Dialogue.request (.write text))).bind
    exact lockstep_accept .output
  · exact lockstep_pure ()

theorem lockstep_writeFile (mode : WriteMode) (path text : String) :
    (writeFile mode path text).Lockstep R := by
  apply (lockstep_talk (Dialogue.prepareParent path)).bind
  intro r
  apply (lockstep_accept (.io path) r).bind
  intro _
  cases mode with
  | replace =>
    apply (lockstep_talk (Dialogue.request (.writeFile path text))).bind
    intro r
    exact (lockstep_accept (.io path) r).bind fun _ => lockstep_record _
  | extend =>
    apply (lockstep_talk (Dialogue.request (.appendFile path text))).bind
    intro r
    exact (lockstep_accept (.io path) r).bind fun _ => lockstep_record _

theorem lockstep_deleteFile (path : String) : (deleteFile path).Lockstep R := by
  apply (lockstep_talk (Dialogue.request (.removeFile path))).bind
  rintro (reason | _)
  · cases reason with
    | noEntry => exact lockstep_pure ()
    | _ => exact lockstep_fail _
  · exact lockstep_record _

theorem lockstep_get {f : Machine → Eval α} (hf : ∀ m, (f m).Lockstep R)
    (hm : ∀ m m', R m m' → f m = f m') : (get >>= f).Lockstep R := by
  intro m m' h
  change (f m m).InStep _ (f m' m')
  rw [hm m m' h]
  exact hf m' m m' h

theorem lockstep_variableValue (hR : ∀ m m', R m m' → m.current = m'.current) (x : String) :
    (variableValue x).Lockstep R := by
  apply lockstep_get
  · intro m
    cases m.current.find? x with
    | none => exact lockstep_fail _
    | some v => exact lockstep_pure v
  · intro m m' h
    rw [hR m m' h]

theorem lockstep_callee (hR : ∀ m m', R m m' → m.Alike m') (name : String) (count : Nat) :
    (callee name count).Lockstep R := by
  apply lockstep_get
  · intro m
    cases m.functions.find? name with
    | none => exact lockstep_fail _
    | some f =>
      dsimp only
      split
      · exact lockstep_fail _
      split
      · exact lockstep_fail _
      · exact lockstep_pure f
  · intro m m' h
    obtain ⟨-, hf, hl, ha⟩ := hR m m' h
    rw [hf, hl, ha]

theorem lockstep_assign (hR : ∀ m m', R m m' → R (m.bind x v) (m'.bind x v)) :
    (assign x v).Lockstep R :=
  (lockstep_modify hR).bind fun _ => lockstep_note _

theorem lockstep_define (hR : ∀ m m', R m m' → R (m.define name f) (m'.define name f)) :
    (define name f).Lockstep R :=
  (lockstep_modify hR).bind fun _ => lockstep_note _

theorem lockstep_readFile (hR : ∀ v m m', R m m' → R (m.bind target v) (m'.bind target v))
    (path : String) : (readFile path target).Lockstep R := by
  apply (lockstep_talk (Dialogue.request (.readFile path))).bind
  rintro (reason | text)
  · cases reason <;> exact lockstep_fail _
  · exact (lockstep_assign (hR _)).bind fun _ => lockstep_record _

end

end Eval

/-- Two machines that differ only in their callers, which hold what is given, as does the limit of
calls. -/
structure Machine.Beside (limit : Nat) (cs cs' : List Scope) (m m' : Machine) : Prop where
  alike : m.Alike m'
  limit : m.callLimit = limit
  left : m.callers = cs
  right : m'.callers = cs'

theorem Machine.Beside.bind (x : String) (v : Value) (m m' : Machine)
    (h : Beside n cs cs' m m') : Beside n cs cs' (m.bind x v) (m'.bind x v) :=
  ⟨⟨congrArg (Table.insert · x v) h.alike.current, h.alike.functions, h.alike.callLimit,
    h.alike.active⟩, h.limit, h.left, h.right⟩

theorem Machine.Beside.define (name : String) (f : Function) (m m' : Machine)
    (h : Beside n cs cs' m m') : Beside n cs cs' (m.define name f) (m'.define name f) :=
  ⟨⟨h.alike.current, congrArg (Table.insert · name f) h.alike.functions, h.alike.callLimit,
    h.alike.active⟩, h.limit, h.left, h.right⟩

/-- The same with the running activation given too. -/
def Machine.BesideAt (scope : Scope) (limit : Nat) (cs cs' : List Scope) (m m' : Machine) : Prop :=
  Beside limit cs cs' m m' ∧ m.current = scope

namespace Eval

variable {limit : Nat} {cs cs' : List Scope} {m m' : Machine}

theorem leave_eq {m : Machine} (h : m.callers = scope :: outer) :
    m.leave = { m with current := scope, callers := outer } := by
  unfold Machine.leave
  rw [h]

/-- What keeps the running activation, whatever it holds, keeps two of them in step. -/
theorem Lockstep.forget {x : Eval α}
    (h : ∀ scope, x.Lockstep (Machine.BesideAt scope limit cs cs')) :
    x.Lockstep (Machine.Beside limit cs cs') := by
  intro m m' hm
  apply (h m.current m m' ⟨hm, rfl⟩).mono
  rintro ⟨r, n⟩ ⟨r', n'⟩ ⟨hr, hn, -⟩
  exact ⟨hr, hn⟩

/-- An activation sees of where it is started from only what calls make use of, and leaves nothing
behind but functions. -/
theorem Lockstep.within_inStep {x : Eval α}
    (hx : ∀ limit cs cs', x.Lockstep (Machine.Beside limit cs cs')) (h : m.Akin m')
    (name : String) (scope : Scope) :
    (within name scope x m).InStep (fun a b => a.1 = b.1 ∧ ∃ functions,
      a.2 = { m with functions } ∧ b.2 = { m' with functions }) (within name scope x m') := by
  have henter : Machine.Beside m.callLimit (m.current :: m.callers) (m'.current :: m'.callers)
      (m.enter scope) (m'.enter scope) :=
    ⟨⟨rfl, h.functions, h.callLimit, congrArg (· + 1) h.active⟩, rfl, rfl, rfl⟩
  apply (hx _ _ _ _ _ henter).bind
  rintro ⟨r, n⟩ ⟨r', n'⟩ ⟨hr, hn⟩
  obtain rfl : r = r' := hr
  refine .ask fun _ => .done ⟨rfl, n.functions, ?_, ?_⟩
  · rw [leave_eq hn.left, ← hn.limit]
  · rw [leave_eq hn.right, h.callLimit.symm, ← hn.limit, hn.alike.callLimit, hn.alike.functions]

theorem Lockstep.within {x : Eval α}
    (hx : ∀ limit cs cs', x.Lockstep (Machine.Beside limit cs cs')) (name : String)
    (scope outer : Scope) :
    (within name scope x).Lockstep (Machine.BesideAt outer limit cs cs') := by
  rintro m m' ⟨⟨⟨hc, hf, hl, ha⟩, hlimit, hcs, hcs'⟩, hcurrent⟩
  apply (Lockstep.within_inStep hx ⟨hf, hl, ha⟩ name scope).mono
  rintro ⟨r, n⟩ ⟨r', n'⟩ ⟨hr, functions, rfl, rfl⟩
  exact ⟨hr, ⟨⟨hc, rfl, hl, ha⟩, hlimit, hcs, hcs'⟩, hcurrent⟩

end Eval

/-- With so much fuel, evaluation keeps the running activation, and neither it nor execution tells
callers apart. -/
structure Steady (fuel : Nat) : Prop where
  evaluate : ∀ e scope limit cs cs',
    (evaluate fuel e).Lockstep (Machine.BesideAt scope limit cs cs')
  invoke : ∀ f es scope limit cs cs',
    (invoke fuel f es).Lockstep (Machine.BesideAt scope limit cs cs')
  execute : ∀ s limit cs cs', (execute fuel s).Lockstep (Machine.Beside limit cs cs')
  perform : ∀ s limit cs cs', (perform fuel s).Lockstep (Machine.Beside limit cs cs')

namespace Steady

variable {fuel limit : Nat} {scope : Scope} {cs cs' : List Scope}

theorem block (h : Steady fuel) (ss : List Statement) :
    (Eval.block (Scriptlet.execute fuel) ss).Lockstep (Machine.Beside limit cs cs') :=
  .block (fun s => h.execute s limit cs cs') ss

theorem value (h : Steady fuel) (e : Expression) :
    (Scriptlet.evaluate fuel e).Lockstep (Machine.Beside limit cs cs') :=
  .forget fun scope => h.evaluate e scope limit cs cs'

theorem evaluate_succ (h : Steady fuel) (e : Expression) :
    (Scriptlet.evaluate (fuel + 1) e).Lockstep (Machine.BesideAt scope limit cs cs') := by
  cases e with
  | string s => exact Eval.lockstep_pure _
  | number n => exact Eval.lockstep_pure _
  | var x => exact Eval.lockstep_variableValue (fun m m' hm => hm.1.alike.current) x
  | binary op left right =>
    apply (h.evaluate left scope limit cs cs').bind
    intro a
    apply (h.evaluate right scope limit cs cs').bind
    intro b
    exact Eval.lockstep_ofExcept _
  | logical op left right =>
    apply (h.evaluate left scope limit cs cs').bind
    intro a
    split
    · exact Eval.lockstep_pure _
    · apply (h.evaluate right scope limit cs cs').bind
      exact fun b => Eval.lockstep_pure _
  | call f es => exact h.invoke f es scope limit cs cs'

theorem invoke_succ (h : Steady fuel) (f : String) (es : List Expression) :
    (Scriptlet.invoke (fuel + 1) f es).Lockstep (Machine.BesideAt scope limit cs cs') := by
  apply (Eval.lockstep_callee (fun m m' hm => hm.1.alike) f es.length).bind
  intro callee
  apply (Eval.Lockstep.each (fun e => h.evaluate e scope limit cs cs') es).bind
  intro values
  apply (Eval.lockstep_note (.enter f callee values)).bind
  intro _
  apply (Eval.Lockstep.within (fun _ _ _ => h.block callee.body) f _ scope).bind
  intro flow
  cases flow <;> exact Eval.lockstep_pure _

theorem execute_succ (h : Steady fuel) (s : Statement) :
    (Scriptlet.execute (fuel + 1) s).Lockstep (Machine.Beside limit cs cs') := by
  apply (Eval.lockstep_note (.execute s)).bind
  intro _
  apply ((h.perform s limit cs cs').locate s.position).bind
  intro flow
  apply (Eval.lockstep_note (.finish s flow)).bind
  exact fun _ => Eval.lockstep_pure flow

theorem perform_succ (h : Steady fuel) (s : Statement) :
    (Scriptlet.perform (fuel + 1) s).Lockstep (Machine.Beside limit cs cs') := by
  cases s with
  | assign pos x e =>
    apply (h.value e).bind
    intro v
    apply (Eval.lockstep_record _).bind
    intro _
    apply (Eval.lockstep_assign (Machine.Beside.bind x v)).bind
    exact fun _ => Eval.lockstep_pure _
  | print pos e =>
    apply (h.value e).bind
    intro v
    apply (Eval.lockstep_output _).bind
    intro _
    apply (Eval.lockstep_output _).bind
    intro _
    apply (Eval.lockstep_record _).bind
    exact fun _ => Eval.lockstep_pure _
  | log pos e =>
    apply (h.value e).bind
    intro v
    apply (Eval.lockstep_record _).bind
    exact fun _ => Eval.lockstep_pure _
  | ifThen pos condition body =>
    apply (Eval.lockstep_note _).bind
    intro _
    apply (h.value condition).bind
    intro v
    split
    · exact h.block body
    · exact Eval.lockstep_pure _
  | ifElse pos condition body otherwise =>
    apply (Eval.lockstep_note _).bind
    intro _
    apply (h.value condition).bind
    exact fun v => h.block _
  | loop pos condition body =>
    apply (Eval.lockstep_note _).bind
    intro _
    apply (h.value condition).bind
    intro v
    split
    · apply (h.block body).bind
      intro flow
      cases flow with
      | normal => exact h.perform _ limit cs cs'
      | giveBack v => exact Eval.lockstep_pure _
    · exact Eval.lockstep_pure _
  | write pos mode path content =>
    apply (h.value path).bind
    intro p
    apply (h.value content).bind
    intro v
    apply (Eval.lockstep_writeFile mode _ _).bind
    exact fun _ => Eval.lockstep_pure _
  | read pos path target =>
    apply (h.value path).bind
    intro p
    apply (Eval.lockstep_readFile (Machine.Beside.bind target) _).bind
    exact fun _ => Eval.lockstep_pure _
  | delete pos path =>
    apply (h.value path).bind
    intro p
    apply (Eval.lockstep_deleteFile _).bind
    exact fun _ => Eval.lockstep_pure _
  | function pos name parameters body =>
    apply (Eval.lockstep_define (Machine.Beside.define name _)).bind
    exact fun _ => Eval.lockstep_pure _
  | call pos f es =>
    apply (Eval.Lockstep.forget fun scope => h.invoke f es scope limit cs cs').bind
    exact fun _ => Eval.lockstep_pure _
  | giveBack pos e =>
    apply (h.value e).bind
    exact fun v => Eval.lockstep_pure _

end Steady

theorem steady (fuel : Nat) : Steady fuel := by
  -- A body runs on top of one caller more, so the callers are general in what less fuel gives.
  induction fuel with
  | zero =>
    have h {α : Type} {R} : (Eval.unfinished : Eval α).Lockstep R := Eval.lockstep_unfinished
    exact ⟨fun _ _ _ _ _ => h, fun _ _ _ _ _ _ => h, fun _ _ _ _ => h, fun _ _ _ _ => h⟩
  | succ fuel ih =>
    exact ⟨fun e _ _ _ _ => ih.evaluate_succ e, fun f es _ _ _ _ => ih.invoke_succ f es,
      fun s _ _ _ => ih.execute_succ s, fun s _ _ _ => ih.perform_succ s⟩

end Scriptlet
