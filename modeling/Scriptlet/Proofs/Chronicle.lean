import Mathlib
import Scriptlet.Proofs.Frames
import Scriptlet.Proofs.Plan.Repertoire
import Scriptlet.Proofs.ReadBack.Statements

namespace Scriptlet
set_option autoImplicit true

/-- What a statement leaves behind: a variable that it bound while so many calls were active, or a
function that it defined. -/
inductive Deed
  | binds (level : Nat) (x : String) (v : Value)
  | defines (name : String) (f : Function)

structure Memory where
  globals : Scope
  functions : Table String Function

namespace Memory

/-- Bindings within calls are forgotten, all else replaces what was there under its name. -/
def add (r : Memory) : Deed → Memory
  | .binds 0 x v => { r with globals := r.globals.insert x v }
  | .binds (_ + 1) _ _ => r
  | .defines name f => { r with functions := r.functions.insert name f }

def after (r : Memory) (ds : List Deed) : Memory :=
  ds.foldl add r

theorem after_append (r : Memory) (ds es : List Deed) :
    r.after (ds ++ es) = (r.after ds).after es :=
  List.foldl_append

end Memory

namespace Machine

def memory (m : Machine) : Memory :=
  ⟨m.globals, m.functions⟩

theorem memory_bind (m : Machine) (x : String) (v : Value) :
    (m.bind x v).memory = m.memory.add (.binds m.active x v) := by
  obtain ⟨current, callers, functions, callLimit⟩ := m
  cases callers <;> rfl

theorem memory_define (m : Machine) (name : String) (f : Function) :
    (m.define name f).memory = m.memory.add (.defines name f) := rfl

theorem memory_enter (m : Machine) (scope : Scope) : (m.enter scope).memory = m.memory := by
  obtain ⟨current, callers, functions, callLimit⟩ := m
  cases callers with
  | nil => rfl
  | cons scope outer => simp [memory, globals, enter, List.getLast?_cons]

theorem memory_leave {m : Machine} (h : m.callers = scope :: outer) : m.leave.memory = m.memory := by
  rw [Eval.leave_eq h]
  obtain ⟨current, callers, functions, callLimit⟩ := m
  obtain rfl : callers = scope :: outer := h
  cases outer with
  | nil => rfl
  | cons scope outer => simp [memory, globals, List.getLast?_cons]

end Machine

/-- What happens in a run, for a chronicle to tell of. -/
inductive Incident (ω : Type)
  | begins (c : Moment ω)
  | does (d : Deed)

section
variable {ω : Type}

def Incident.deed? : Incident ω → Option Deed
  | .begins _ => none
  | .does d => some d

def deeds (tale : List (Incident ω)) : List Deed :=
  tale.filterMap Incident.deed?

@[simp] theorem deeds_append (tale tale' : List (Incident ω)) :
    deeds (tale ++ tale') = deeds tale ++ deeds tale' :=
  List.filterMap_append

/-- Whatever begins finds in memory what the deeds that come before it in the tale left there. -/
def Faithful : Memory → List (Incident ω) → Prop
  | _, [] => True
  | r, .begins c :: tale => c.machine.memory = r ∧ Faithful r tale
  | r, .does d :: tale => Faithful (r.add d) tale

theorem faithful_append_iff {r : Memory} {tale tale' : List (Incident ω)} :
    Faithful r (tale ++ tale') ↔ Faithful r tale ∧ Faithful (r.after (deeds tale)) tale' := by
  induction tale generalizing r with
  | nil => exact (iff_of_eq (true_and _)).symm
  | cons i tale ih =>
    cases i with
    | begins c => exact (and_congr_right fun _ => ih).trans and_assoc.symm
    | does d => exact ih

theorem Faithful.begins {r : Memory} {before after : List (Incident ω)} {c : Moment ω}
    (h : Faithful r (before ++ .begins c :: after)) :
    c.machine.memory = r.after (deeds before) :=
  (faithful_append_iff.1 h).2.1

/-- What a computation results in, if it ends with a result, and the system as it is by then. -/
def Eval.result? (host : Host ω) (x : Eval α) (m : Machine) (w : ω) : Option (α × ω) :=
  match (x m).run host w with
  | (some (.ok a, _), v) => some (a, v)
  | _ => none

def granted? (answer : Except Refusal α) (d : α → Deed) : Option Deed :=
  match answer with
  | .ok a => some (d a)
  | .error _ => none

/-- What the activity itself leaves behind. A variable is bound to a value when that was recorded,
and to what a file holds when that was read. -/
def Moment.deed? (host : Host ω) : Moment ω → Option Deed
  | ⟨k + 1, .act (.assign _ x e), m, w⟩ => do
    let (v, w) ← (evaluate k e).result? host m w
    granted? (host (.record s!"[SET] {x} = {v.display}") w).1 fun _ => .binds m.active x v
  | ⟨k + 1, .act (.read _ path target), m, w⟩ => do
    let (p, w) ← (evaluate k path).result? host m w
    granted? (host (.readFile p.display) w).1 fun text => .binds m.active target (.string text)
  | ⟨_ + 1, .act (.function _ name parameters body), _, _⟩ =>
    some (.defines name ⟨parameters, body⟩)
  | _ => none

def told? (d : Option Deed) : List (Incident ω) :=
  d.toList.map .does

/-- What is told of what comes behind a computation, if that ends with a result. -/
def Eval.follow (host : Host ω) (x : Eval α) (tell : α → Machine → ω → List (Incident ω))
    (m : Machine) (w : ω) : List (Incident ω) :=
  match (x m).run host w with
  | (some (.ok a, n), v) => tell a n v
  | _ => []

/-- The tale of a plan, when it is known how activities are carried out and what is told of them. -/
def Plan.chronicle (host : Host ω) (run : (a : Activity) → Eval a.Answer)
    (tell : Activity → Machine → ω → List (Incident ω)) :
    Plan α → Machine → ω → List (Incident ω)
  | .done _, _, _ => []
  | .step p next, m, w => p.eval.follow host (fun b => (next b).chronicle host run tell) m w
  | .sub a next, m, w =>
    tell a m w ++ (run a).follow host (fun b => (next b).chronicle host run tell) m w
  | .within name scope body next, m, w =>
    body.chronicle host run tell (m.enter scope) w ++
      (Eval.within name scope (body.eval run)).follow host
        (fun flow => (next flow).chronicle host run tell) m w

/-- All that happens in the course of an activity, in the order of time; what it leaves behind
itself it does last. -/
def Activity.chronicle (host : Host ω) : Nat → Activity → Machine → ω → List (Incident ω)
  | 0, a, m, w => [.begins ⟨0, a, m, w⟩]
  | k + 1, a, m, w =>
    .begins ⟨k + 1, a, m, w⟩ ::
      (a.plan.chronicle host (Activity.run k) (chronicle host k) m w ++
        told? ((Moment.mk (k + 1) a m w).deed? host))

def Program.chronicle (host : Host ω) (fuel : Nat) (p : Program) (m : Machine) (w : ω) :
    List (Incident ω) :=
  (Plan.block .done p).chronicle host (Activity.run fuel) (Activity.chronicle host fuel) m w

/-- The tale of a computation: whatever begins finds in memory what was left there before, and so
does what comes behind the computation, on the same callers. -/
structure Eval.Told (host : Host ω) (x : Eval α) (tell : Machine → ω → List (Incident ω)) :
    Prop where
  faithful : ∀ m w, Faithful m.memory (tell m w)
  ends : ∀ {m w r n v}, (x m).run host w = (some (r, n), v) →
    n.callers = m.callers ∧ n.memory = m.memory.after (deeds (tell m w))

namespace Eval

variable {host : Host ω} {x : Eval α} {tell : Machine → ω → List (Incident ω)}

theorem told_pure (a : α) : (pure a).Told host fun _ _ => [] := by
  refine ⟨fun _ _ => trivial, fun h => ?_⟩
  cases h
  exact ⟨rfl, rfl⟩

theorem Lockstep.told (h : ∀ m, x.Lockstep fun n n' => n = m ∧ n' = m) :
    x.Told host fun _ _ => [] := by
  refine ⟨fun _ _ => trivial, fun {m w r n v} hr => ?_⟩
  obtain ⟨rfl, -⟩ := (h m).ends ⟨rfl, rfl⟩ hr
  exact ⟨rfl, rfl⟩

theorem Told.bind (hx : x.Told host tell) {f : α → Eval β}
    {next : α → Machine → ω → List (Incident ω)} (hf : ∀ a, (f a).Told host (next a)) :
    (x.bind f).Told host fun m w => tell m w ++ x.follow host next m w := by
  constructor
  · intro m w
    refine faithful_append_iff.2 ⟨hx.faithful m w, ?_⟩
    unfold follow
    split
    · rename_i hr
      rw [← (hx.ends hr).2]
      exact (hf _).faithful _ _
    · trivial
  · intro m w r n v h
    rw [run_bind] at h
    unfold follow
    cases hr : (x m).run host w with
    | mk out w' =>
      rw [hr] at h
      rcases out with _ | ⟨e | a, n'⟩
      · cases h
      · cases h
        simpa using hx.ends hr
      · obtain ⟨hcallers, hmemory⟩ := hx.ends hr
        obtain ⟨hcallers', hmemory'⟩ := (hf a).ends h
        refine ⟨hcallers'.trans hcallers, ?_⟩
        rw [deeds_append, Memory.after_append, ← hmemory]
        exact hmemory'

theorem Told.locate? (hx : x.Told host tell) (place : Option Position) :
    (Eval.locate? place x).Told host tell := by
  cases place with
  | none => exact hx
  | some pos =>
    refine ⟨hx.faithful, fun {m w r n v} h => ?_⟩
    unfold Eval.locate? Eval.locate at h
    rw [Dialogue.run_bind] at h
    cases hr : (x m).run host w with
    | mk out w' =>
      rw [hr] at h
      rcases out with _ | ⟨r', n'⟩
      · cases h
      · cases h
        exact hx.ends hr

/-- What is done in an activation of its own starts and ends on the memory that is there. -/
theorem Told.within {x : Eval Flow} (hx : x.Told host tell) (name : String) (scope : Scope) :
    (within name scope x).Told host fun m w => tell (m.enter scope) w := by
  constructor
  · intro m w
    rw [← m.memory_enter scope]
    exact hx.faithful _ _
  · intro m w r n v h
    unfold Eval.within at h
    rw [Dialogue.run_bind] at h
    cases hr : (x (m.enter scope)).run host w with
    | mk out w' =>
      rw [hr] at h
      rcases out with _ | ⟨r', n'⟩
      · cases h
      · cases h
        obtain ⟨hcallers, hmemory⟩ := hx.ends hr
        rw [m.memory_enter] at hmemory
        exact ⟨by rw [leave_eq hcallers], (Machine.memory_leave hcallers).trans hmemory⟩

end Eval

/-- What neither binds a variable nor defines a function. -/
def Primitive.Traceless : Primitive → Prop
  | assign .. | define .. | read .. => False
  | _ => True

theorem Primitive.Traceless.told {q : Primitive} (hq : q.Traceless) (host : Host ω) :
    q.eval.Told host fun _ _ => [] := by
  apply Eval.Lockstep.told
  intro m
  have hsame {n n' : Machine} (h : n = m ∧ n' = m) : n = n' := h.1.trans h.2.symm
  cases q with
  | lookup x => exact Eval.lockstep_variableValue (fun n n' h => by rw [hsame h]) x
  | callee name count =>
    refine Eval.lockstep_callee (fun n n' h => ?_) name count
    obtain rfl := hsame h
    exact .refl n
  | operate op a b => exact Eval.lockstep_ofExcept _
  | record line => exact Eval.lockstep_record line
  | output text => exact Eval.lockstep_output text
  | assign x v => exact hq.elim
  | define name f => exact hq.elim
  | write mode path text => exact Eval.lockstep_writeFile mode path text
  | read path target => exact hq.elim
  | delete path => exact Eval.lockstep_deleteFile path
  | note event => exact Eval.lockstep_note event

/-- The tale of a plan is true if those of activities are and the plan itself leaves nothing
behind. -/
theorem Plan.told {host : Host ω} {run : (a : Activity) → Eval a.Answer}
    {tell : Activity → Machine → ω → List (Incident ω)}
    (hrun : ∀ a, (run a).Told host (tell a)) {p : Plan α} (hp : p.All Primitive.Traceless) :
    (p.eval run).Told host (p.chronicle host run tell) := by
  induction p with
  | done a => exact Eval.told_pure a
  | step q next ih => exact (hp.1.told host).bind fun b => ih b (hp.2 b)
  | sub a next ih => exact (hrun a).bind fun b => ih b (hp b)
  | within name scope body next ihb ih =>
    exact ((ihb hp.1).within name scope).bind fun flow => ih flow (hp.2 flow)

/-- All activities but those that bind a variable or define a function. -/
def Activity.Passing : Activity → Prop
  | .act (.assign ..) | .act (.read ..) | .act (.function ..) => False
  | _ => True

theorem Activity.Does.traceless {a : Activity} {q : Primitive} (h : a.Does q) (ha : a.Passing) :
    q.Traceless := by
  cases a with
  | value e =>
    cases e with
    | var x =>
      cases h
      trivial
    | binary op left right =>
      obtain ⟨a, b, rfl⟩ := h
      trivial
    | _ => cases h
  | call name es => rcases h with rfl | ⟨f, values, rfl⟩ <;> trivial
  | statement s => rcases h with rfl | ⟨flow, rfl⟩ <;> trivial
  | act s =>
    cases s with
    | assign pos x e => exact ha.elim
    | read pos path target => exact ha.elim
    | function pos name parameters body => exact ha.elim
    | print pos e => rcases h with ⟨v, rfl | rfl | rfl⟩ <;> trivial
    | write pos mode path content =>
      obtain ⟨p, v, rfl⟩ := h
      trivial
    | log pos e | delete pos e =>
      obtain ⟨v, rfl⟩ := h
      trivial
    | call pos name es => cases h
    | giveBack pos e => cases h
    | _ =>
      cases h
      trivial

namespace Eval

variable {host : Host ω}

theorem Told.congr {x : Eval α} {tell tell' : Machine → ω → List (Incident ω)}
    (h : x.Told host tell) (ht : ∀ m w, tell' m w = tell m w) : x.Told host tell' := by
  have heq : tell' = tell := funext fun m => funext fun w => ht m w
  exact heq ▸ h

@[simp] theorem follow_silent (x : Eval α) (m : Machine) (w : ω) :
    x.follow host (fun _ _ _ => []) m w = [] := by
  unfold follow
  split <;> rfl

theorem Told.last {x : Eval α} {tell : Machine → ω → List (Incident ω)} (hx : x.Told host tell)
    {f : α → Eval β} (hf : ∀ a, (f a).Told host fun _ _ => []) : (x.bind f).Told host tell :=
  (hx.bind hf).congr fun m w => by rw [follow_silent, List.append_nil]

theorem told_ask {q : Request} {f : q.Answer → Eval α}
    {tell : q.Answer → Machine → ω → List (Incident ω)} (hf : ∀ a, (f a).Told host (tell a)) :
    ((ask q).bind f).Told host fun m w => tell (host q w).1 m (host q w).2 :=
  ⟨fun m w => (hf (host q w).1).faithful m (host q w).2, (hf _).ends⟩

theorem told_fail (fault : Fault) : (fail fault : Eval α).Told host fun _ _ => [] := by
  refine ⟨fun _ _ => trivial, fun h => ?_⟩
  cases h
  exact ⟨rfl, rfl⟩

theorem told_assign (x : String) (v : Value) :
    (assign x v).Told host fun m _ => [.does (.binds m.active x v)] := by
  refine ⟨fun _ _ => trivial, fun {m w r n u} h => ?_⟩
  cases h
  exact ⟨rfl, m.memory_bind x v⟩

theorem told_define (name : String) (f : Function) :
    (define name f).Told host fun _ _ => [.does (.defines name f)] := by
  refine ⟨fun _ _ => trivial, fun {m w r n u} h => ?_⟩
  cases h
  exact ⟨rfl, m.memory_define name f⟩

/-- A binding that is recorded first is made if the record is accepted. -/
theorem told_recorded (x : String) (v : Value) (line : String) :
    ((record line).bind fun _ => assign x v).Told host fun m w =>
      told? (granted? (host (.record line) w).1 fun _ => .binds m.active x v) := by
  have hanswer (answer : Except Refusal Unit) :
      ((accept .diagnostic answer).bind fun _ => assign x v).Told host fun m _ =>
        told? (granted? answer fun _ => .binds m.active x v) := by
    cases answer with
    | error reason => exact told_fail _
    | ok => exact told_assign x v
  exact told_ask (q := .record line) hanswer

/-- A variable is bound to what could be read, also where the record of that is refused. -/
theorem told_readFile (path target : String) :
    (readFile path target).Told host fun m w =>
      told? (granted? (host (.readFile path) w).1 fun text =>
        .binds m.active target (.string text)) := by
  have hread : readFile path target = (ask (.readFile path)).bind (receive path target) :=
    funext fun m => readFile_eq path target m
  have hanswer (answer : Except Refusal String) : (receive path target answer).Told host fun m _ =>
      told? (granted? answer fun text => .binds m.active target (.string text)) := by
    cases answer with
    | error reason => cases reason <;> exact told_fail _
    | ok text =>
      refine (told_assign target (.string text)).last fun _ => ?_
      exact Primitive.Traceless.told (q := .record _) trivial host
  rw [hread]
  exact told_ask (q := .readFile path) hanswer

theorem Told.ofResult {x : Eval α} {tell : Machine → ω → List (Incident ω)} (hx : x.Told host tell)
    (own? : Nat → α → ω → Option Deed) {f : α → Eval β}
    (hf : ∀ a, (f a).Told host fun n v => told? (own? n.active a v)) :
    (x.bind f).Told host fun m w =>
      tell m w ++ told? ((x.result? host m w).bind fun (a, v) => own? m.active a v) := by
  refine (hx.bind hf).congr fun m w => ?_
  apply congrArg (tell m w ++ ·)
  unfold result? follow
  cases hr : (x m).run host w with
  | mk out v =>
    rcases out with _ | ⟨e | a, n⟩
    · rfl
    · rfl
    · have hactive : n.active = m.active := congrArg List.length (hx.ends hr).1
      simp only [Option.bind_some, hactive]

end Eval

section
variable {host : Host ω} {k : Nat} (hrun : ∀ a : Activity, (a.run k).Told host (a.chronicle host k))

include hrun

theorem Activity.Passing.told_plan {a : Activity} (ha : a.Passing)
    (hown : ∀ m w, (Moment.mk (k + 1) a m w).deed? host = none) :
    (a.plan.eval (Activity.run k)).Told host fun m w =>
      a.plan.chronicle host (Activity.run k) (Activity.chronicle host k) m w ++
        told? ((Moment.mk (k + 1) a m w).deed? host) := by
  refine (Plan.told hrun (a.does.mono fun q hq => hq.traceless ha)).congr fun m w => ?_
  rw [hown]
  exact List.append_nil _

theorem Statement.told_plan (s : Statement) :
    (s.plan.eval (Activity.run k)).Told host fun m w =>
      s.plan.chronicle host (Activity.run k) (Activity.chronicle host k) m w ++
        told? ((Moment.mk (k + 1) (.act s) m w).deed? host) := by
  have hend {x : Eval Unit} {tell : Machine → ω → List (Incident ω)} (hx : x.Told host tell) :
      (x.bind fun _ => Eval.pure Flow.normal).Told host tell :=
    hx.last fun _ => Eval.told_pure _
  have hpassing := Activity.Passing.told_plan hrun (a := .act s)
  cases s with
  | assign pos x e =>
    refine ((hrun (.value e)).ofResult (fun level v w =>
      granted? (host (.record s!"[SET] {x} = {v.display}") w).1 fun _ => .binds level x v)
      fun v => ?_).congr fun m w => ?_
    · have h := hend (Eval.told_recorded x v s!"[SET] {x} = {v.display}")
      rw [Eval.bind_assoc] at h
      exact h
    · simp only [plan, Plan.chronicle, Eval.follow_silent, List.append_nil]
      rfl
  | read pos path target =>
    refine ((hrun (.value path)).ofResult (fun level p w =>
      granted? (host (.readFile p.display) w).1 fun text => .binds level target (.string text))
      fun p => hend (Eval.told_readFile p.display target)).congr fun m w => ?_
    simp only [plan, Plan.chronicle, Eval.follow_silent, List.append_nil]
    rfl
  | function pos name parameters body =>
    refine (hend (Eval.told_define name ⟨parameters, body⟩)).congr fun m w => ?_
    simp only [plan, Plan.chronicle, Eval.follow_silent, List.nil_append]
    rfl
  | _ => exact hpassing trivial fun m w => rfl

end

/-- The tale of an activity is true. -/
theorem Activity.told (host : Host ω) (fuel : Nat) (a : Activity) :
    (a.run fuel).Told host (a.chronicle host fuel) := by
  induction fuel generalizing a with
  | zero =>
    rw [a.run_zero]
    exact ⟨fun m w => ⟨rfl, trivial⟩, fun h => by cases h⟩
  | succ k ih =>
    have hplan : (a.plan.eval (Activity.run k)).Told host fun m w =>
        a.plan.chronicle host (Activity.run k) (Activity.chronicle host k) m w ++
          told? ((Moment.mk (k + 1) a m w).deed? host) := by
      have hpassing := Activity.Passing.told_plan ih (a := a)
      cases a with
      | act s => exact s.told_plan ih
      | _ => exact hpassing trivial fun m w => rfl
    rw [a.run_succ]
    have htold := hplan.locate? a.place?
    exact ⟨fun m w => ⟨rfl, htold.faithful m w⟩, htold.ends⟩

theorem told_runStatements (host : Host ω) (fuel : Nat) (p : Program) :
    (runStatements fuel p).Told host (Program.chronicle host fuel p) := by
  induction p with
  | nil => exact Eval.told_pure ()
  | cons s rest ih =>
    refine (Activity.told host fuel (.statement s)).bind fun flow => ?_
    cases flow with
    | normal => exact ih
    | giveBack v => exact (Eval.told_fail _).locate? (some s.position)

theorem told_runProgram (host : Host ω) (fuel : Nat) (p : Program) :
    (runProgram fuel p).Told host (Program.chronicle host fuel p) := by
  refine (told_runStatements host fuel p).last fun _ => ?_
  have hanswer (answer : Except Refusal Unit) :
      (Eval.accept .output answer).Told host fun _ _ => [] := by
    cases answer with
    | error reason => exact Eval.told_fail _
    | ok a => exact Eval.told_pure a
  exact Eval.told_ask (q := .flush) hanswer

end

end Scriptlet
