import Scriptlet.Proofs.Requests

namespace Scriptlet
set_option autoImplicit true

/-- What a write makes of the contents of its file. -/
def WriteMode.apply (text : String) : WriteMode → ByteArray → ByteArray
  | replace => fun _ => text.toUTF8
  | extend => (· ++ text.toUTF8)

/-- A change of files, as statements ask for it. -/
inductive Change
  | write (mode : WriteMode) (path text : String)
  | delete (path : String)

namespace Change

def path : Change → String
  | write _ path _ | delete path => path

def record : Change → String
  | write .replace path _ => s!"[WRITEFILE] {path}"
  | write .extend path _ => s!"[APPENDFILE] {path}"
  | delete path => s!"[DELETEFILE] {path}"

/-- The directory that has to be there. -/
def outer? : Change → Option String
  | write _ path _ => Path.outer? path
  | delete _ => none

def outers (c : Change) : List String :=
  Disk.outers c.outer?

/-- There need not be a file to delete. -/
def excuses : Change → Refusal → Bool
  | write .., _ => false
  | delete _, reason => reason = .noEntry

def ask : Change → Dialogue (Except Refusal Unit)
  | write .replace path text => Dialogue.request (.writeFile path text)
  | write .extend path text => Dialogue.request (.appendFile path text)
  | delete path => Dialogue.request (.removeFile path)

def answer (host : Host ω) : Change → ω → Except Refusal Unit × ω
  | write .replace path text, w => host (.writeFile path text) w
  | write .extend path text, w => host (.appendFile path text) w
  | delete path, w => host (.removeFile path) w

end Change

/-- The change that a request makes, unless it is refused. -/
def Request.change? : (q : Request) → q.Answer → Option Change
  | writeFile path text, .ok () => some (.write .replace path text)
  | appendFile path text, .ok () => some (.write .extend path text)
  | removeFile path, .ok () => some (.delete path)
  | _, _ => none

/-- The changes of files that a system makes in the course of a dialogue, in order. -/
def Dialogue.changes (host : Host ω) (d : Dialogue α) (w : ω) : List Change :=
  (d.asked host w).filterMap fun x => x.1.change? (host x.1 x.2).1

theorem Dialogue.changes_bind (host : Host ω) (d : Dialogue α) (f : α → Dialogue β) (w : ω) :
    (d.bind f).changes host w = d.changes host w ++
      match d.run host w with
      | (some a, v) => (f a).changes host v
      | (none, _) => [] := by
  unfold changes
  rw [asked_bind, List.filterMap_append]
  rcases d.run host w with ⟨_ | a, v⟩ <;> rfl

theorem Dialogue.changes_request (host : Host ω) (q : Request) (w : ω) :
    (request q).changes host w = (q.change? (host q w).1).toList := by
  unfold changes
  rw [request, asked, asked, List.filterMap_cons]
  cases q.change? (host q w).1 <;> rfl

theorem Dialogue.changes_furnish (host : Host ω) (outer? : Option String) (w : ω) :
    (furnish outer?).changes host w = [] := by
  cases outer? with
  | none => rfl
  | some directory => rfl

theorem Eval.changes_record (host : Host ω) (line : String) (m : Machine) (w : ω) :
    (Eval.record line m).changes host w = [] := by
  rw [Dialogue.changes, asked_record]
  rfl

namespace Change

/-- Says in the log what was changed, or fails if the refusal is not excused. -/
def settle (c : Change) : Except Refusal Unit → Eval Unit
  | .ok () => Eval.record c.record
  | .error reason => if c.excuses reason then Eval.pure () else Eval.fail (.io c.path reason)

/-- What is done once the directory is there, or was refused. -/
def proceed (c : Change) (m : Machine) :
    Except Refusal Unit → Dialogue (Except RuntimeError Unit × Machine)
  | .error reason => .done (.error ⟨.io c.path reason, none⟩, m)
  | .ok () => c.ask.bind fun r => c.settle r m

/-- All that a statement does for a change. -/
def carryOut (c : Change) : Eval Unit :=
  fun m => (Dialogue.furnish c.outer?).bind (c.proceed m)

end Change

theorem Eval.writeFile_eq (mode : WriteMode) (path text : String) :
    writeFile mode path text = (Change.write mode path text).carryOut := by
  funext m
  refine (Dialogue.bind_assoc (Dialogue.prepareParent path) _ _).trans ?_
  rw [Dialogue.prepareParent_eq]
  apply congrArg (Dialogue.furnish (Path.outer? path)).bind
  funext r
  cases r with
  | error reason => rfl
  | ok =>
    cases mode with
    | replace =>
      apply congrArg (Dialogue.ask (.writeFile path text))
      funext r
      cases r with
      | ok => rfl
      | error reason => rfl
    | extend =>
      apply congrArg (Dialogue.ask (.appendFile path text))
      funext r
      cases r with
      | ok => rfl
      | error reason => rfl

theorem Eval.deleteFile_eq (path : String) : deleteFile path = (Change.delete path).carryOut := by
  funext m
  apply congrArg (Dialogue.ask (.removeFile path))
  funext r
  cases r with
  | ok => rfl
  | error reason => cases reason <;> rfl

namespace Change

variable {ω : Type} {host : Host ω} {c : Change} {w u v : ω}

theorem run_ask (host : Host ω) (c : Change) (w : ω) :
    c.ask.run host w = (some (c.answer host w).1, (c.answer host w).2) := by
  cases c with
  | write mode path text => cases mode <;> rfl
  | delete path => rfl

theorem records_ask (host : Host ω) (c : Change) (w : ω) : c.ask.records host w = [] := by
  cases c with
  | write mode path text => cases mode <;> rfl
  | delete path => rfl

def counted (c : Change) : Except Refusal Unit → List Change
  | .ok () => [c]
  | .error _ => []

theorem changes_ask (host : Host ω) (c : Change) (w : ω) :
    c.ask.changes host w = c.counted (c.answer host w).1 := by
  cases c with
  | write mode path text =>
    cases mode with
    | replace =>
      refine (Dialogue.changes_request host (.writeFile path text) w).trans ?_
      unfold answer
      rcases (host (.writeFile path text) w).1 with reason | _ <;> rfl
    | extend =>
      refine (Dialogue.changes_request host (.appendFile path text) w).trans ?_
      unfold answer
      rcases (host (.appendFile path text) w).1 with reason | _ <;> rfl
  | delete path =>
    refine (Dialogue.changes_request host (.removeFile path) w).trans ?_
    unfold answer
    rcases (host (.removeFile path) w).1 with reason | _ <;> rfl

theorem carryOut_unfurnished (h : host.furnish c.outer? w = (.error reason, u)) (m : Machine) :
    (c.carryOut m).run host w = (some (.error ⟨.io c.path reason, none⟩, m), u) ∧
      (c.carryOut m).records host w = [] ∧ (c.carryOut m).changes host w = [] := by
  obtain ⟨hrun, hrecords⟩ := Dialogue.run_furnish host c.outer? w
  unfold carryOut
  rw [Dialogue.run_bind, Dialogue.records_bind, Dialogue.changes_bind, hrun, hrecords,
    Dialogue.changes_furnish, h]
  exact ⟨rfl, rfl, rfl⟩

theorem carryOut_furnished (h : host.furnish c.outer? w = (.ok (), u))
    (hanswer : c.answer host u = (r, v)) (m : Machine) :
    (c.carryOut m).run host w = (c.settle r m).run host v ∧
      (c.carryOut m).records host w = (c.settle r m).records host v ∧
      (c.carryOut m).changes host w = c.counted r ++ (c.settle r m).changes host v := by
  obtain ⟨hrun, hrecords⟩ := Dialogue.run_furnish host c.outer? w
  unfold carryOut
  rw [Dialogue.run_bind, Dialogue.records_bind, Dialogue.changes_bind, hrun, hrecords,
    Dialogue.changes_furnish, h]
  dsimp only [proceed]
  rw [Dialogue.run_bind, Dialogue.records_bind, Dialogue.changes_bind, c.run_ask, c.records_ask,
    c.changes_ask, hanswer]
  exact ⟨rfl, rfl, rfl⟩

theorem carryOut_made (h : host.furnish c.outer? w = (.ok (), u))
    (hanswer : c.answer host u = (.ok (), v)) (m : Machine) :
    (c.carryOut m).run host w = (Eval.record c.record m).run host v ∧
      (c.carryOut m).records host w = [c.record] ∧ (c.carryOut m).changes host w = [c] := by
  obtain ⟨hrun, hrecords, hchanges⟩ := carryOut_furnished h hanswer m
  have hrecord := Eval.records_record host c.record m v
  have hchange := Eval.changes_record host c.record m v
  exact ⟨hrun, hrecords.trans hrecord, hchanges.trans (congrArg (c :: ·) hchange)⟩

/-- A change that is refused is not recorded. It is an error, unless there was no file to delete. -/
theorem carryOut_refused (h : host.furnish c.outer? w = (.ok (), u))
    (hanswer : c.answer host u = (.error reason, v)) (m : Machine) :
    (c.carryOut m).run host w =
      (some (if c.excuses reason then .ok () else .error ⟨.io c.path reason, none⟩, m), v) ∧
      (c.carryOut m).records host w = [] ∧ (c.carryOut m).changes host w = [] := by
  obtain ⟨hrun, hrecords, hchanges⟩ := carryOut_furnished h hanswer m
  have hsettle : c.settle (.error reason) m =
      .done (if c.excuses reason then .ok () else .error ⟨.io c.path reason, none⟩, m) := by
    dsimp only [settle]
    split <;> rfl
  rw [hsettle] at hrun hrecords hchanges
  exact ⟨hrun, hrecords, hchanges⟩

theorem outer?_of_excuses (h : c.excuses reason = true) : c.outer? = none := by
  cases c with
  | write mode path text => cases h
  | delete path => rfl

end Change

end Scriptlet
