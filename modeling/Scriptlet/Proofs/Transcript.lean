import Scriptlet.World
import Scriptlet.Proofs.Plan.Outward
import Scriptlet.Proofs.Plan.Repertoire

namespace Scriptlet
set_option autoImplicit true

/-- What a record says was printed: all behind the tag of a print, and a line feed. -/
def printedBy (record : String) : List Char :=
  match record.toList with
  | '[' :: 'P' :: 'R' :: 'I' :: 'N' :: 'T' :: ']' :: ' ' :: text => text ++ ['\n']
  | _ => []

def printed (records : List String) : List Char :=
  records.flatMap printedBy

theorem printed_append (lines lines' : List String) :
    printed (lines ++ lines') = printed lines ++ printed lines' := by
  simp [printed]

theorem printedBy_print (text : String) :
    printedBy s!"[PRINT] {text}" = text.toList ++ ['\n'] := by
  simp only [printedBy, toString, String.toList_append]
  rfl

/-- How to see from the state of a system, as long as it is one of those that are `kept`, what was
written to its output and what was recorded. -/
structure Transcript (ω : Type) where
  kept : ω → Prop
  output : ω → List Char
  records : ω → List String

structure Transcript.Shows (t : Transcript ω) (w : ω) (text : List Char) (lines : List String) :
    Prop where
  kept : t.kept w
  output : t.output w = text
  records : t.records w = lines

/-- The system takes all that is written to its output, and puts each record that it does not
refuse behind the others. Nothing else that a program asks for changes either. -/
structure Host.Transcribes (host : Host ω) (t : Transcript ω) : Prop where
  write : ∀ text w, t.kept w → (host (.write text) w).1 = .ok () ∧
    t.Shows (host (.write text) w).2 (t.output w ++ text.toList) (t.records w)
  accepted : ∀ line w, t.kept w → (host (.record line) w).1 = .ok () →
    t.Shows (host (.record line) w).2 (t.output w) (t.records w ++ [line])
  refused : ∀ line w reason, t.kept w → (host (.record line) w).1 = .error reason →
    t.Shows (host (.record line) w).2 (t.output w) (t.records w)
  other : ∀ q w, t.kept w → (∀ text, q ≠ .write text) → (∀ line, q ≠ .record line) →
    (∀ path, q ≠ .openLog path) → t.Shows (host q w).2 (t.output w) (t.records w)

/-- The records account for what was written: it is what they say was printed. Only if the end was
an error since a record was refused, one more value was printed. -/
inductive Accounts (lines : List String) :
    Option (Except RuntimeError α × Machine) → List Char → Prop
  | exact : Accounts lines r (printed lines)
  | unrecorded (v : Value) (he : e.fault = .diagnostic reason) :
      Accounts lines (some (.error e, n)) (printed lines ++ (v.display.toList ++ ['\n']))

/-- What is asked for neither writes nor tells of a print. -/
def Request.Quiet : Request → Prop
  | write _ | openLog _ => False
  | record line => printedBy line = []
  | _ => True

namespace Eval

/-- A computation writes nothing and tells of no prints. -/
def Quiet (x : Eval α) : Prop :=
  ∀ ⦃ω : Type⦄ (host : Host ω) (t : Transcript ω), host.Transcribes t → ∀ m w, t.kept w →
    ∃ lines, printed lines = [] ∧
      t.Shows ((x m).run host w).2 (t.output w) (t.records w ++ lines)

/-- What a computation writes is accounted for by what it records. -/
def Accords (x : Eval α) : Prop :=
  ∀ ⦃ω : Type⦄ (host : Host ω) (t : Transcript ω), host.Transcribes t → ∀ m w, t.kept w →
    ∃ text lines, t.Shows ((x m).run host w).2 (t.output w ++ text) (t.records w ++ lines) ∧
      Accounts lines ((x m).run host w).1 text

section
variable {ω : Type} {host : Host ω} {t : Transcript ω} {m : Machine} {w : ω}

theorem Quiet.bind {x : Eval α} {f : α → Eval β} (hx : x.Quiet) (hf : ∀ a, (f a).Quiet) :
    (x.bind f).Quiet := by
  intro ω host t ht m w hw
  obtain ⟨lines, hlines, hx⟩ := hx host t ht m w hw
  rw [Eval.run_bind]
  rcases hr : (x m).run host w with ⟨_ | ⟨e | a, n⟩, v⟩
  · rw [hr] at hx
    exact ⟨lines, hlines, hx⟩
  · rw [hr] at hx
    exact ⟨lines, hlines, hx⟩
  · rw [hr] at hx
    obtain ⟨lines', hlines', hf⟩ := hf a host t ht n v hx.kept
    rw [hx.output, hx.records, List.append_assoc] at hf
    refine ⟨lines ++ lines', ?_, hf⟩
    rw [printed_append, hlines, hlines']
    rfl

theorem quiet_ask {q : Request} (hq : q.Quiet) : (ask q).Quiet := by
  intro ω host t ht m w hw
  change ∃ lines, printed lines = [] ∧ t.Shows (host q w).2 (t.output w) (t.records w ++ lines)
  cases q with
  | write text => cases hq
  | openLog path => cases hq
  | record line =>
    cases hr : (host (.record line) w).1 with
    | ok a =>
      refine ⟨[line], ?_, ht.accepted line w hw hr⟩
      rw [printed, List.flatMap_singleton]
      exact hq
    | error reason =>
      have hshows := ht.refused line w reason hw hr
      exact ⟨[], rfl, by rwa [List.append_nil]⟩
  | _ =>
    refine ⟨[], rfl, ?_⟩
    rw [List.append_nil]
    apply ht.other _ w hw <;> simp

theorem Quiet.keeps {x : Eval α}
    (hx : ∀ {ω : Type} (host : Host ω) m w, ((x m).run host w).2 = w) : x.Quiet := by
  intro ω host t ht m w hw
  rw [hx host m w]
  exact ⟨[], rfl, hw, rfl, (List.append_nil _).symm⟩

theorem outward_quiet : Outward @Quiet where
  pure _ := Quiet.keeps fun _ _ _ => rfl
  fail _ := Quiet.keeps fun _ _ _ => rfl
  look hf := fun _ host t ht m w hw => hf m host t ht m w hw
  modify _ := Quiet.keeps fun _ _ _ => rfl
  bind := Quiet.bind

theorem Quiet.accords {x : Eval α} (hx : x.Quiet) : x.Accords := by
  intro ω host t ht m w hw
  obtain ⟨lines, hlines, hx⟩ := hx host t ht m w hw
  refine ⟨printed lines, lines, ?_, .exact⟩
  rwa [hlines, List.append_nil]

theorem Accords.bind {x : Eval α} {f : α → Eval β} (hx : x.Accords) (hf : ∀ a, (f a).Accords) :
    (x.bind f).Accords := by
  intro ω host t ht m w hw
  obtain ⟨text, lines, hx, hend⟩ := hx host t ht m w hw
  rw [Eval.run_bind]
  rcases hr : (x m).run host w with ⟨_ | ⟨e | a, n⟩, v⟩
  · rw [hr] at hx hend
    cases hend
    exact ⟨_, lines, hx, .exact⟩
  · rw [hr] at hx hend
    cases hend with
    | exact => exact ⟨_, lines, hx, .exact⟩
    | unrecorded u he => exact ⟨_, lines, hx, .unrecorded u he⟩
  · rw [hr] at hx hend
    cases hend
    obtain ⟨text, lines', hf, hend⟩ := hf a host t ht n v hx.kept
    rw [hx.output, hx.records, List.append_assoc, List.append_assoc] at hf
    refine ⟨_, _, hf, ?_⟩
    generalize ((f a n).run host v).1 = r at hend ⊢
    cases hend with
    | exact =>
      rw [← printed_append]
      exact .exact
    | unrecorded u he =>
      rw [← List.append_assoc, ← printed_append]
      exact .unrecorded u he

theorem Accords.locate {x : Eval α} (hx : x.Accords) (pos : Position) : (x.locate pos).Accords := by
  intro ω host t ht m w hw
  obtain ⟨text, lines, hx, hend⟩ := hx host t ht m w hw
  unfold Eval.locate
  rw [Dialogue.run_bind]
  rcases hr : (x m).run host w with ⟨_ | ⟨r, n⟩, v⟩
  · rw [hr] at hx hend
    cases hend
    exact ⟨_, lines, hx, .exact⟩
  · rw [hr] at hx hend
    cases hend with
    | exact => exact ⟨_, lines, hx, .exact⟩
    | unrecorded u he => exact ⟨_, lines, hx, .unrecorded u he⟩

theorem Accords.within {x : Eval Flow} (hx : x.Accords) (name : String) (scope : Scope) :
    (within name scope x).Accords := by
  intro ω host t ht m w hw
  obtain ⟨text, lines, hx, hend⟩ := hx host t ht (m.enter scope) w hw
  unfold Eval.within
  rw [Dialogue.run_bind]
  rcases hr : (x (m.enter scope)).run host w with ⟨_ | ⟨r, n⟩, v⟩
  · rw [hr] at hx hend
    cases hend
    exact ⟨_, lines, hx, .exact⟩
  · rw [hr] at hx hend
    have hleave := ht.other (.note (.leave name)) v hx.kept (by simp) (by simp) (by simp)
    rw [hx.output, hx.records] at hleave
    cases hend with
    | exact => exact ⟨_, lines, hleave, .exact⟩
    | unrecorded u he => exact ⟨_, lines, hleave, .unrecorded u he⟩

theorem accords_unfinished : (unfinished : Eval α).Accords :=
  Quiet.accords (Quiet.keeps fun _ _ _ => rfl)

theorem closed_accords : Closed @Accords where
  pure a := Quiet.accords (outward_quiet.pure a)
  unfinished host := accords_unfinished host
  bind := Accords.bind
  locate pos hx := hx.locate pos
  within name scope hx := hx.within name scope

theorem output_run (ht : host.Transcribes t) (m : Machine) (hw : t.kept w) (text : String) :
    ∃ v, (output text).Yields host m w () m v ∧
      t.Shows v (t.output w ++ text.toList) (t.records w) := by
  by_cases htext : text = ""
  · refine ⟨w, ?_, hw, ?_, rfl⟩
    · unfold output
      rw [if_neg (not_not_intro htext)]
      rfl
    · rw [htext, String.toList_empty, List.append_nil]
  · obtain ⟨htaken, hshows⟩ := ht.write text w hw
    refine ⟨_, ?_, hshows⟩
    unfold output
    rw [if_pos htext]
    change (accept .output (host (.write text) w).1 m).run host (host (.write text) w).2 = _
    rw [htaken]
    rfl

theorem record_run (host : Host ω) (line : String) (m : Machine) (w : ω) :
    (Eval.record line m).run host w =
      (accept .diagnostic (host (.record line) w).1 m).run host (host (.record line) w).2 := rfl

/-- A print writes its value before that is recorded, so the refusal of the record comes too
late. -/
theorem accords_printing (v : Value) : Accords ((output v.display).bind fun _ =>
    (output "\n").bind fun _ => (Eval.record s!"[PRINT] {v.display}").bind fun _ =>
      Eval.pure Flow.normal) := by
  intro ω host t ht m w hw
  obtain ⟨w₁, hvalue, hshows₁⟩ := output_run ht m hw v.display
  obtain ⟨w₂, hfeed, hshows₂⟩ := output_run ht m hshows₁.kept "\n"
  rw [hshows₁.output, hshows₁.records, List.append_assoc] at hshows₂
  rw [Eval.run_bind, hvalue]
  dsimp only
  rw [Eval.run_bind, hfeed]
  dsimp only
  rw [Eval.run_bind, record_run]
  cases hr : (host (.record s!"[PRINT] {v.display}") w₂).1 with
  | ok a =>
    have hshows := ht.accepted _ w₂ hshows₂.kept hr
    rw [hshows₂.output, hshows₂.records] at hshows
    refine ⟨_, _, hshows, ?_⟩
    have hprinted : printed [s!"[PRINT] {v.display}"] = v.display.toList ++ "\n".toList := by
      rw [printed, List.flatMap_singleton, printedBy_print]
      rfl
    rw [← hprinted]
    exact .exact
  | error reason =>
    have hshows := ht.refused _ w₂ reason hshows₂.kept hr
    rw [hshows₂.output, hshows₂.records] at hshows
    refine ⟨_, [], ?_, .unrecorded v rfl⟩
    rw [List.append_nil]
    exact hshows

end

end Eval

def Primitive.Quiet : Primitive → Prop
  | output _ => False
  | record line => printedBy line = []
  | _ => True

theorem Primitive.Quiet.asks {p : Primitive} (h : p.Quiet) (hq : p.Asks q) : q.Quiet := by
  cases p with
  | lookup x => cases hq
  | callee name count => cases hq
  | operate op a b => cases hq
  | record line =>
    cases hq
    exact h
  | output text => cases h
  | assign x v =>
    cases hq
    trivial
  | define name f =>
    cases hq
    trivial
  | write mode path text =>
    rcases hq with ⟨directory, rfl⟩ | hq
    · trivial
    · cases mode with
      | replace =>
        rcases hq with rfl | rfl
        · trivial
        · simp only [Request.Quiet, printedBy, toString, String.toList_append]
          rfl
      | extend =>
        rcases hq with rfl | rfl
        · trivial
        · simp only [Request.Quiet, printedBy, toString, String.toList_append]
          rfl
  | read path target =>
    rcases hq with rfl | ⟨v, rfl⟩ | rfl
    · trivial
    · trivial
    · simp only [Request.Quiet, printedBy, toString, String.toList_append]
      rfl
  | delete path =>
    rcases hq with rfl | rfl
    · trivial
    · simp only [Request.Quiet, printedBy, toString, String.toList_append]
      rfl
  | note event =>
    cases hq
    trivial

theorem Primitive.Quiet.eval {p : Primitive} (h : p.Quiet) : p.eval.Quiet := by
  apply Eval.outward_quiet.primitive
  intro q hq
  exact Eval.quiet_ask (h.asks hq)

theorem Activity.Does.quiet {a : Activity} {p : Primitive} (h : a.Does p)
    (ha : ∀ pos e, a ≠ .act (.print pos e)) : p.Quiet := by
  cases a with
  | value e =>
    cases e with
    | var x =>
      cases h
      trivial
    | binary op left right =>
      obtain ⟨a, b, rfl⟩ := h
      trivial
    | _ => cases h
  | call name es =>
    rcases h with rfl | ⟨f, values, rfl⟩ <;> trivial
  | statement s =>
    rcases h with rfl | ⟨flow, rfl⟩ <;> trivial
  | act s =>
    cases s with
    | assign pos x e =>
      rcases h with ⟨v, rfl | rfl⟩
      · simp only [Primitive.Quiet, printedBy, toString, String.toList_append]
        rfl
      · trivial
    | print pos e => exact absurd rfl (ha pos e)
    | log pos e =>
      obtain ⟨v, rfl⟩ := h
      simp only [Primitive.Quiet, printedBy, toString, String.toList_append]
      rfl
    | write pos mode path content =>
      obtain ⟨p, v, rfl⟩ := h
      trivial
    | read pos path target =>
      obtain ⟨p, rfl⟩ := h
      trivial
    | delete pos path =>
      obtain ⟨p, rfl⟩ := h
      trivial
    | _ =>
      cases h
      try trivial

namespace Eval

theorem accords_run (fuel : Nat) (a : Activity) : (a.run fuel).Accords := by
  apply closed_accords.run_of_plan
  intro fuel a hrun
  by_cases ha : ∃ pos e, a = .act (.print pos e)
  · obtain ⟨pos, e, rfl⟩ := ha
    exact Accords.bind (hrun (.value e)) accords_printing
  · apply closed_accords.plan_of_all hrun
    apply a.does.mono
    intro q hq
    have hquiet := hq.quiet fun pos e h => ha ⟨pos, e, h⟩
    exact hquiet.eval.accords

theorem accords_runStatements (fuel : Nat) (ss : List Statement) :
    (runStatements fuel ss).Accords := by
  induction ss with
  | nil => exact closed_accords.pure ()
  | cons s rest ih =>
    apply Accords.bind (accords_run fuel (.statement s))
    intro flow
    cases flow with
    | normal => exact ih
    | giveBack v => exact Accords.locate (Quiet.accords (outward_quiet.fail _)) s.position

theorem accords_runProgram (fuel : Nat) (p : Program) : (runProgram fuel p).Accords := by
  apply Accords.bind (accords_runStatements fuel p)
  intro _
  apply Quiet.accords
  apply Quiet.bind (quiet_ask (q := .flush) trivial)
  exact outward_quiet.accept .output

end Eval

namespace World

/-- What a world shows of its output, when that takes everything, and of its log, when that is kept
in memory. -/
def transcript : Transcript World where
  kept w := w.output.limit = none ∧ ∃ records room, w.log = .memory records room
  output w := w.output.text.toList
  records w := match w.log with
    | .memory records _ => records.toList
    | _ => []

theorem transcript_congr {v w : World} (hw : transcript.kept w) (houtput : v.output = w.output)
    (hlog : v.log = w.log) :
    transcript.Shows v (transcript.output w) (transcript.records w) := by
  unfold transcript at hw ⊢
  dsimp only at hw ⊢
  rw [← houtput, ← hlog] at hw ⊢
  exact ⟨hw, rfl, rfl⟩

theorem write_taken {w : World} (hlimit : w.output.limit = none) (text : String) :
    w.output.write text = Output.write.accept text w.output := by
  rw [Output.write, hlimit]

theorem record_cases {w : World} (hlog : w.log = .memory records room) (line : String) :
    (∃ reason, w.record line = (.error reason, { w with log := .memory records room })) ∨
      ∃ left, w.record line = (.ok (), { w with log := .memory (records.push line) left }) := by
  unfold record
  rw [hlog]
  cases room with
  | none => exact .inr ⟨none, rfl⟩
  | some n =>
    cases n with
    | zero => exact .inl ⟨_, rfl⟩
    | succ n => exact .inr ⟨some n, rfl⟩

theorem transcript_records {w : World} (hlog : w.log = .memory records room) :
    transcript.records w = records.toList := by
  unfold transcript
  dsimp only
  rw [hlog]

theorem transcribes : Host.Transcribes host transcript where
  write text w hw := by
    obtain ⟨hlimit, hlog⟩ := hw
    have htaken := write_taken hlimit text
    have hanswer : host (.write text) w =
        ((w.output.write text).1, { w with output := (w.output.write text).2 }) := rfl
    rw [hanswer, htaken]
    exact ⟨rfl, ⟨hlimit, hlog⟩, String.toList_append, rfl⟩
  accepted line w hw h := by
    obtain ⟨hlimit, records, room, hlog⟩ := hw
    have hanswer : host (.record line) w = w.record line := rfl
    rw [hanswer] at h ⊢
    rcases record_cases hlog line with ⟨reason, he⟩ | ⟨left, he⟩
    · rw [he] at h
      cases h
    · rw [he, transcript_records hlog]
      exact ⟨⟨hlimit, _, _, rfl⟩, rfl, Array.toList_push⟩
  refused line w reason hw h := by
    obtain ⟨hlimit, records, room, hlog⟩ := hw
    have hanswer : host (.record line) w = w.record line := rfl
    rw [hanswer] at h ⊢
    rcases record_cases hlog line with ⟨reason, he⟩ | ⟨left, he⟩
    · rw [he, transcript_records hlog]
      exact ⟨⟨hlimit, _, _, rfl⟩, rfl, rfl⟩
    · rw [he] at h
      cases h
  other q w hw hwrite hrecord hopen := by
    cases q with
    | write text => exact absurd rfl (hwrite text)
    | record line => exact absurd rfl (hrecord line)
    | openLog path => exact absurd rfl (hopen path)
    | writeFile path text | appendFile path text | removeFile path =>
      apply transcript_congr hw
      · unfold host onDisk
        dsimp only
        split <;> rfl
      · unfold host onDisk
        dsimp only
        split <;> rfl
    | readLine =>
      apply transcript_congr hw
      · unfold host readLine
        dsimp only
        split <;> rfl
      · unfold host readLine
        dsimp only
        split <;> rfl
    | _ => exact transcript_congr hw rfl rfl

end World

/-- Output and log agree, however a run ends: what it writes is, record by record, what the records
that were taken say was printed, but for one more value if a record was refused. Nothing but a
print writes. -/
theorem runProgram_output_accounted {ω : Type} (host : Host ω) (t : Transcript ω)
    (ht : host.Transcribes t) (fuel : Nat) (p : Program) (m : Machine) (w : ω) (hw : t.kept w) :
    (∃ text lines, t.Shows ((runProgram fuel p m).run host w).2 (t.output w ++ text)
        (t.records w ++ lines) ∧ Accounts lines ((runProgram fuel p m).run host w).1 text) ∧
      ∀ (c : Moment ω) (q : Primitive) (n : Machine) (v : ω), c.Gets host (.does q) n v →
        t.kept v → t.output ((q.eval n).run host v).2 ≠ t.output v →
        ∃ pos e, c.activity = .act (.print pos e) := by
  constructor
  · exact Eval.accords_runProgram fuel p host t ht m w hw
  · intro c q n v hgets hv hwrites
    by_cases hc : ∃ pos e, c.activity = .act (.print pos e)
    · exact hc
    · have hquiet := hgets.does.quiet fun pos e h => hc ⟨pos, e, h⟩
      obtain ⟨lines, -, hshows⟩ := hquiet.eval host t ht n v hv
      exact absurd hshows.output hwrites

def crampedWorld : World :=
  { World.empty with log := .memory #[] (some 1) }

def twoPrints : Program :=
  [.print ⟨1, 1⟩ (.number 1), .print ⟨2, 1⟩ (.number 2)]

theorem runProgram_output_accounted_twoPrints :
    World.transcript.kept crampedWorld ∧ ∃ text lines,
      World.transcript.Shows ((runProgram 9 twoPrints (.fresh 5)).run World.host crampedWorld).2
        text lines ∧
      Accounts lines ((runProgram 9 twoPrints (.fresh 5)).run World.host crampedWorld).1 text ∧
      text = "1\n2\n".toList ∧ lines = ["[PRINT] 1"] := by
  have hkept : World.transcript.kept crampedWorld := ⟨rfl, _, _, rfl⟩
  obtain ⟨⟨text, lines, hshows, haccounts⟩, -⟩ := runProgram_output_accounted World.host
    World.transcript World.transcribes 9 twoPrints (.fresh 5) crampedWorld hkept
  exact ⟨hkept, text, lines, hshows, haccounts, hshows.output.symm, hshows.records.symm⟩

end Scriptlet
