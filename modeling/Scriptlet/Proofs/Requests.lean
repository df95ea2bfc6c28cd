import Scriptlet.World
import Scriptlet.Proofs.Disk
import Scriptlet.Proofs.Plan.Outward
import Scriptlet.Proofs.Plan.Repertoire

namespace Scriptlet
set_option autoImplicit true

def Path.outer? (path : String) : Option String :=
  (parent? path).filter (· ≠ "")

def Request.line? : Request → Option String
  | record line => some line
  | _ => none

/-- A request has nothing to do with the log and changes no files. -/
def Request.Aside : Request → Prop
  | record _ | openLog _ | writeFile .. | appendFile .. | removeFile _ | createDirectories _ =>
    False
  | _ => True

/-- A request changes no file, but for the one in which records may be kept. -/
def Request.Sparing : Request → Prop
  | openLog _ | writeFile .. | appendFile .. | removeFile _ | createDirectories _ => False
  | _ => True

/-- A request leaves the choice of the log alone. -/
def Request.KeepsLog : Request → Prop
  | openLog _ => False
  | _ => True

theorem Primitive.Asks.keepsLog {p : Primitive} (h : p.Asks q) : q.KeepsLog := by
  cases p with
  | lookup x | callee name count | operate op a b => cases h
  | record line | output text | assign x v | define name f | note event =>
    cases h
    trivial
  | write mode path text =>
    rcases h with ⟨directory, rfl⟩ | h
    · trivial
    · cases mode <;> rcases h with rfl | rfl <;> trivial
  | read path target => rcases h with rfl | ⟨v, rfl⟩ | rfl <;> trivial
  | delete path => rcases h with rfl | rfl <;> trivial

theorem World.host_aside {q : Request} (hq : q.Aside) (w : World) :
    ∃ input output errors events, (host q w).2 = { w with input, output, errors, events } := by
  cases q with
  | readLine =>
    unfold host readLine
    dsimp only
    split <;> exact ⟨_, _, _, _, rfl⟩
  | note event => exact ⟨_, _, _, _, rfl⟩
  | write text => exact ⟨_, _, _, _, rfl⟩
  | flush => exact ⟨_, _, _, _, rfl⟩
  | readFile path => exact ⟨_, _, _, _, rfl⟩
  | complain text => exact ⟨_, _, _, _, rfl⟩
  | record line => cases hq
  | openLog path => cases hq
  | writeFile path text => cases hq
  | appendFile path text => cases hq
  | removeFile path => cases hq
  | createDirectories path => cases hq

/-- What a system does when it is asked for a directory, if there is one to make. -/
def Host.furnish (host : Host ω) : Option String → ω → Except Refusal Unit × ω
  | none, w => (.ok (), w)
  | some directory, w => host (.createDirectories directory) w

theorem World.host_furnish (outer? : Option String) (w : World) :
    host.furnish outer? w =
      ((w.disk.furnish outer?).1, { w with disk := (w.disk.furnish outer?).2 }) := by
  cases outer? with
  | none => rfl
  | some directory => rfl

namespace Dialogue

variable {α β ω : Type} {host : Host ω} {P Q : Request → Prop}

/-- What a dialogue asks of a system, in order, each with the state in which it is asked. -/
def asked (host : Host ω) : Dialogue α → ω → List (Request × ω)
  | done _, _ | unfinished, _ => []
  | ask q next, w => (q, w) :: (next (host q w).1).asked host (host q w).2

theorem asked_bind (host : Host ω) (d : Dialogue α) (f : α → Dialogue β) (w : ω) :
    (d.bind f).asked host w = d.asked host w ++
      match d.run host w with
      | (some a, v) => (f a).asked host v
      | (none, _) => [] := by
  induction d generalizing w with
  | done a => rfl
  | unfinished => rfl
  | ask q next ih => exact congrArg ((q, w) :: ·) (ih _ _)

theorem mem_asked_bind {d : Dialogue α} {f : α → Dialogue β} {w : ω}
    (h : d.run host w = (some a, v)) (hx : x ∈ (f a).asked host v) :
    x ∈ (d.bind f).asked host w := by
  rw [asked_bind, h]
  exact List.mem_append_right _ hx

def records (host : Host ω) (d : Dialogue α) (w : ω) : List String :=
  (d.asked host w).filterMap (·.1.line?)

/-- All that a dialogue asks satisfies `P`, whatever it is answered. -/
def Only (P : Request → Prop) : Dialogue α → Prop
  | done _ | unfinished => True
  | ask q next => P q ∧ ∀ answer, (next answer).Only P

theorem Only.bind {d : Dialogue α} {f : α → Dialogue β} (h : d.Only P)
    (hf : ∀ a, (f a).Only P) : (d.bind f).Only P := by
  induction d with
  | done a => exact hf a
  | unfinished => trivial
  | ask q next ih => exact ⟨h.1, fun answer => ih answer (h.2 answer)⟩

theorem Only.asked {d : Dialogue α} (h : d.Only P) {w : ω} (hx : x ∈ d.asked host w) : P x.1 := by
  induction d generalizing w with
  | done a => cases hx
  | unfinished => cases hx
  | ask q next ih =>
    rcases List.mem_cons.1 hx with rfl | hx
    · exact h.1
    · exact ih _ (h.2 _) hx

theorem records_ask (host : Host ω) (q : Request) (next : q.Answer → Dialogue α) (w : ω) :
    (ask q next).records host w =
      q.line?.toList ++ (next (host q w).1).records host (host q w).2 := by
  unfold records
  rw [asked, List.filterMap_cons]
  cases q.line? <;> rfl

theorem records_bind (host : Host ω) (d : Dialogue α) (f : α → Dialogue β) (w : ω) :
    (d.bind f).records host w = d.records host w ++
      match d.run host w with
      | (some a, v) => (f a).records host v
      | (none, _) => [] := by
  unfold records
  rw [asked_bind, List.filterMap_append]
  rcases d.run host w with ⟨_ | a, v⟩ <;> rfl

theorem mem_records {d : Dialogue α} {w : ω} (h : line ∈ d.records host w) :
    ∃ v, (.record line, v) ∈ d.asked host w := by
  obtain ⟨⟨q, v⟩, hq, hline⟩ := List.mem_filterMap.1 h
  cases q with
  | record line' =>
    cases hline
    exact ⟨v, hq⟩
  | _ => cases hline

def furnish : Option String → Dialogue (Except Refusal Unit)
  | none => done (.ok ())
  | some directory => request (.createDirectories directory)

theorem prepareParent_eq (path : String) : prepareParent path = furnish (Path.outer? path) := by
  fun_cases prepareParent path with
  | case1 h =>
    rw [Path.outer?, h]
    rfl
  | case2 h =>
    rw [Path.outer?, h]
    rfl
  | case3 directory hne h =>
    have hnamed : directory ≠ "" := hne
    rw [Path.outer?, h, Option.filter_some_pos (by simpa using hnamed)]
    rfl

theorem run_furnish (host : Host ω) (outer? : Option String) (w : ω) :
    (furnish outer?).run host w = (some (host.furnish outer? w).1, (host.furnish outer? w).2) ∧
    (furnish outer?).records host w = [] := by
  cases outer? with
  | none => exact ⟨rfl, rfl⟩
  | some directory => exact ⟨rfl, rfl⟩

end Dialogue

namespace Eval

variable {P : Request → Prop}

/-- All that a computation asks satisfies `P`, on every machine. -/
def Only (P : Request → Prop) (x : Eval α) : Prop :=
  ∀ m, (x m).Only P

theorem Only.bind {x : Eval α} {f : α → Eval β} (hx : x.Only P) (hf : ∀ a, (f a).Only P) :
    (x.bind f).Only P := by
  intro m
  apply (hx m).bind
  rintro ⟨r, n⟩
  cases r with
  | error e => trivial
  | ok a => exact hf a n

theorem closed_only (hnote : ∀ event, P (.note event)) : Closed (Only P) where
  pure _ _ := trivial
  unfinished _ := trivial
  bind := Only.bind
  locate _ hx m := (hx m).bind fun _ => trivial
  within name _ hx m := (hx (m.enter _)).bind fun _ => ⟨hnote (.leave name), fun _ => trivial⟩

theorem outward_only : Outward (Only P) where
  pure _ _ := trivial
  fail _ _ := trivial
  look hf m := hf m m
  modify _ _ := trivial
  bind := Only.bind

theorem only_ask {q : Request} (h : P q) : (ask q).Only P :=
  fun _ => ⟨h, fun _ => trivial⟩

theorem asked_record {ω : Type} (host : Host ω) (line : String) (m : Machine) (w : ω) :
    (Eval.record line m).asked host w = [(.record line, w)] := by
  change (.record line, w) ::
    (accept .diagnostic (host (.record line) w).1 m).asked host (host (.record line) w).2 = _
  cases (host (.record line) w).1 <;> rfl

theorem records_record {ω : Type} (host : Host ω) (line : String) (m : Machine) (w : ω) :
    (Eval.record line m).records host w = [line] := by
  rw [Dialogue.records, asked_record]
  rfl

theorem only_run (hnote : ∀ event, P (.note event))
    (h : ∀ (a : Activity) p q, a.Does p → p.Asks q → P q) (fuel : Nat) (a : Activity) :
    (a.run fuel).Only P := by
  apply (closed_only hnote).run_of_plan
  intro fuel a hrun
  apply (closed_only hnote).plan_of_all hrun
  apply a.does.mono
  intro p hp
  apply outward_only.primitive
  intro q hq
  exact only_ask (h a p q hp hq)

theorem only_runProgram (hnote : ∀ event, P (.note event)) (hflush : P .flush)
    (h : ∀ (a : Activity) p q, a.Does p → p.Asks q → P q) (fuel : Nat) (p : Program) :
    (runProgram fuel p).Only P := by
  apply (closed_only hnote).runProgram outward_only.fail (only_run hnote h fuel)
  exact (only_ask hflush).bind (outward_only.accept .output)

end Eval

end Scriptlet
