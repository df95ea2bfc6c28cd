import Mathlib
import Scriptlet.Program.Reading
import Scriptlet.Proofs.LogFile

namespace Scriptlet
set_option autoImplicit true

/-- What a record tells of. -/
inductive Report
  | set (x : String) (v : Value)
  | print (v : Value)
  | log (v : Value)
  | wrote (mode : WriteMode) (path : String)
  | read (path target : String)
  | deleted (path : String)

namespace Report

def tag : Report → String
  | set .. => "[SET]"
  | print _ => "[PRINT]"
  | log _ => "[LOG]"
  | wrote .replace _ => "[WRITEFILE]"
  | wrote .extend _ => "[APPENDFILE]"
  | read .. => "[READFILE]"
  | deleted _ => "[DELETEFILE]"

def text : Report → String
  | set x v => x ++ " = " ++ v.display
  | print v | log v => v.display
  | wrote _ path | deleted path => path
  | read path target => path ++ " -> " ++ target

def line (r : Report) : String :=
  r.tag ++ " " ++ r.text

/-- The names, values and paths that a record shows as they are. -/
def shown : Report → List String
  | set x v => [x, v.display]
  | print v | log v => [v.display]
  | wrote _ path | deleted path => [path]
  | read path target => [path, target]

def tags : List String :=
  ["[SET]", "[PRINT]", "[LOG]", "[WRITEFILE]", "[APPENDFILE]", "[READFILE]", "[DELETEFILE]"]

theorem tag_mem (r : Report) : r.tag ∈ tags := by
  cases r with
  | wrote mode path => cases mode <;> simp [tag, tags]
  | _ => simp [tag, tags]

end Report

def lineFeeds (s : String) : Nat :=
  s.toList.count '\n'

@[simp] theorem lineFeeds_append (s t : String) :
    lineFeeds (s ++ t) = lineFeeds s + lineFeeds t := by
  unfold lineFeeds
  rw [String.toList_append, List.count_append]

/-- A record breaks its line where a text that it shows does, and nowhere else. -/
theorem Report.lineFeeds_line (r : Report) : lineFeeds r.line = (r.shown.map lineFeeds).sum := by
  have htags : ∀ t ∈ tags, lineFeeds t = 0 := by decide
  have hblank : lineFeeds " " = 0 := by decide
  have hequals : lineFeeds " = " = 0 := by decide
  have harrow : lineFeeds " -> " = 0 := by decide
  unfold line
  rw [lineFeeds_append, lineFeeds_append, htags r.tag r.tag_mem, hblank]
  cases r <;> simp [text, shown, hequals, harrow]

/-- What a statement may report. -/
def Statement.Reports : Statement → Report → Prop
  | .assign _ x _, r => ∃ v, r = .set x v
  | .print .., r => ∃ v, r = .print v
  | .log .., r => ∃ v, r = .log v
  | .write _ mode .., r => ∃ v : Value, r = .wrote mode v.display
  | .read _ _ target, r => ∃ v : Value, r = .read v.display target
  | .delete .., r => ∃ v : Value, r = .deleted v.display
  | _, _ => False

theorem Activity.Does.reports {a : Activity} {p : Primitive} (h : a.Does p)
    (hq : p.Asks (.record line)) : ∃ s r, a = .act s ∧ s.Reports r ∧ line = r.line := by
  cases a with
  | value e =>
    cases e with
    | var x =>
      cases h
      cases hq
    | binary op left right =>
      obtain ⟨a, b, rfl⟩ := h
      cases hq
    | _ => cases h
  | call name es => rcases h with rfl | ⟨f, values, rfl⟩ <;> cases hq
  | statement s => rcases h with rfl | ⟨flow, rfl⟩ <;> cases hq
  | act s =>
    refine ⟨s, ?_⟩
    cases s with
    | assign pos x e =>
      rcases h with ⟨v, rfl | rfl⟩
      · cases hq
        refine ⟨.set x v, rfl, ⟨v, rfl⟩, ?_⟩
        simp [Report.line, Report.tag, Report.text, String.append_assoc, toString]
      · cases hq
    | print pos e =>
      rcases h with ⟨v, rfl | rfl | rfl⟩
      · cases hq
      · cases hq
      · cases hq
        exact ⟨.print v, rfl, ⟨v, rfl⟩, rfl⟩
    | log pos e =>
      obtain ⟨v, rfl⟩ := h
      cases hq
      exact ⟨.log v, rfl, ⟨v, rfl⟩, rfl⟩
    | write pos mode path content =>
      obtain ⟨v, u, rfl⟩ := h
      refine ⟨.wrote mode v.display, rfl, ⟨v, rfl⟩, ?_⟩
      rcases hq with ⟨directory, hq⟩ | hq
      · cases hq
      · cases mode with
        | replace =>
          rcases hq with hq | hq
          · cases hq
          · cases hq
            rfl
        | extend =>
          rcases hq with hq | hq
          · cases hq
          · cases hq
            rfl
    | read pos path target =>
      obtain ⟨v, rfl⟩ := h
      refine ⟨.read v.display target, rfl, ⟨v, rfl⟩, ?_⟩
      rcases hq with hq | ⟨u, hq⟩ | hq
      · cases hq
      · cases hq
      · cases hq
        simp [Report.line, Report.tag, Report.text, String.append_assoc, toString]
    | delete pos path =>
      obtain ⟨v, rfl⟩ := h
      refine ⟨.deleted v.display, rfl, ⟨v, rfl⟩, ?_⟩
      rcases hq with hq | hq
      · cases hq
      · cases hq
        rfl
    | call pos name es => cases h
    | giveBack pos e => cases h
    | _ =>
      cases h
      cases hq

section
variable {ω : Type} {host : Host ω} {w : ω}

theorem runProgram_reports (h : line ∈ (runProgram fuel p m).records host w) :
    ∃ r : Report, line = r.line := by
  have honly : (runProgram fuel p).Only fun q =>
      ∀ line, q = .record line → ∃ r : Report, line = r.line := by
    apply Eval.only_runProgram
    · intro event line hline
      cases hline
    · intro line hline
      cases hline
    · rintro a q _ hq hasks line rfl
      obtain ⟨s, r, -, -, hr⟩ := hq.reports hasks
      exact ⟨r, hr⟩
  obtain ⟨v, hv⟩ := Dialogue.mem_records h
  exact (honly m).asked hv line rfl

theorem Moment.Gets.reports {c : Moment ω} (h : c.Gets host (.does q) n w)
    (hline : line ∈ (q.eval n).records host w) :
    ∃ s r, c.activity = .act s ∧ s.Reports r ∧ line = r.line := by
  have honly : q.eval.Only q.Asks := Eval.outward_only.primitive fun _ hq => Eval.only_ask hq
  obtain ⟨v, hv⟩ := Dialogue.mem_records hline
  exact h.does.reports ((honly n).asked hv)

end

theorem World.Logged.reports {w v : World} (h : w.Logged l entries v) :
    ∀ e ∈ entries, ∃ r : Report, e.2 = r.line := by
  induction h with
  | start =>
    intro e he
    cases he
  | run h hspare ih =>
    intro e he
    rcases List.mem_append.1 he with he | he
    · exact ih e he
    · have hline := List.mem_map_of_mem he (f := Prod.snd)
      rw [Clock.stamps_snd] at hline
      exact runProgram_reports hline
  | wait h clock ih => exact ih
  | reopen h hopen hlog ih => exact ih

theorem lineFeeds_logText (entries : List (String × String))
    (htimes : ∀ e ∈ entries, lineFeeds e.1 = 0) :
    lineFeeds (logText entries) = entries.length + (entries.map fun e => lineFeeds e.2).sum := by
  have hblank : lineFeeds " " = 0 := by decide
  have hfeed : lineFeeds "\n" = 1 := by decide
  induction entries with
  | nil => rfl
  | cons entry rest ih =>
    obtain ⟨now, line⟩ := entry
    have htime : lineFeeds now = 0 := htimes (now, line) (.head _)
    have hrest := ih fun e he => htimes e (.tail _ he)
    simp only [logText, stamped, lineFeeds_append, List.length_cons, List.map_cons, List.sum_cons]
    omega

/-- Every record is that of a statement: a tag, a space, and the values and paths of the statement
as they are, line feeds included. A log file gains the records of the runs that spare it, each
behind its time and a space and with a line feed behind it, so that it gains a line for each record,
and one more for each line feed that a record shows. -/
theorem records_report_statements {ω : Type} (host : Host ω) (fuel : Nat) (p : Program)
    (m : Machine) (w : ω) :
    (∀ line ∈ (runProgram fuel p m).records host w, ∃ r : Report,
      line = r.line ∧ lineFeeds line = (r.shown.map lineFeeds).sum) ∧
    (∀ (c : Moment ω) (q : Primitive) (n : Machine) (v : ω), c.Gets host (.does q) n v →
      ∀ line ∈ (q.eval n).records host v,
        ∃ s r, c.activity = .act s ∧ s.Reports r ∧ line = r.line) ∧
    ∀ (l : Location) (u v : World) (entries : List (String × String)) (n : Nat)
      (text : ByteArray), u.Logged l entries v → u.LogsTo l n text →
      v.LogsTo l n (text ++ logBytes entries) ∧
      (∀ e ∈ entries, ∃ r : Report, e.2 = r.line) ∧
      ((∀ e ∈ entries, lineFeeds e.1 = 0) → lineFeeds (logText entries) =
        entries.length + (entries.map fun e => lineFeeds e.2).sum) := by
  refine ⟨?_, ?_, ?_⟩
  · intro line hline
    obtain ⟨r, rfl⟩ := runProgram_reports hline
    exact ⟨r, rfl, r.lineFeeds_line⟩
  · intro c q n v hgets line hline
    exact hgets.reports hline
  · intro l u v entries n text hlogged hu
    exact ⟨hlogged.logsTo hu, hlogged.reports, lineFeeds_logText entries⟩

/-- A world that logs to a file, and whose clock shows another second for each record. -/
def loggingWorld : World :=
  { World.empty with
    disk := ⟨⟨[(["scratch"], .directory), (["scratch", "log"], .file 0 .empty)]⟩, ["scratch"], 1⟩
    log := .file 0
    clock := .ticking }

def twoLinePrint : Program :=
  [.print ⟨1, 1⟩ (.string "a\nb")]

def twoRecords : Program :=
  twoLinePrint ++ [.log ⟨2, 1⟩ (.number 1)]

theorem twoRecords_spares (x : Request × World)
    (hx : x ∈ (runProgram 9 twoRecords (.fresh 5)).asked World.host loggingWorld) :
    x.1.Spares ["scratch", "log"] x.2.disk := by
  have hx' : x ∈ [_, _, _, _, _, _, _, _, _] := hx
  simp only [List.mem_cons, List.not_mem_nil, or_false] at hx'
  rcases hx' with rfl | rfl | rfl | rfl | rfl | rfl | rfl | rfl | rfl <;> trivial

theorem records_report_statements_twoLinePrint :
    loggingWorld.LogsTo ["scratch", "log"] 0 .empty ∧
    ∃ v entries, loggingWorld.Logged ["scratch", "log"] entries v ∧
      v.LogsTo ["scratch", "log"] 0 (.empty ++ logBytes entries) ∧
      entries = [("2000-01-01 00:00:10", "[PRINT] a\nb"), ("2000-01-01 00:00:11", "[LOG] 1")] ∧
      lineFeeds (logText entries) = 3 := by
  have hlogs : loggingWorld.LogsTo ["scratch", "log"] 0 .empty := ⟨rfl, rfl⟩
  have hlogged := World.Logged.run (w := loggingWorld) .start twoRecords_spares
  obtain ⟨-, -, hfile⟩ := records_report_statements World.host 9 twoRecords (.fresh 5) loggingWorld
  obtain ⟨htext, -, hfeeds⟩ := hfile _ _ _ _ 0 .empty hlogged hlogs
  refine ⟨hlogs, _, _, hlogged, htext, ?_, ?_⟩
  · decide +kernel
  · decide +kernel

theorem print_splits_record : parseText "print \"a\\nb\"" = .ok twoLinePrint ∧
    ¬ ∀ (fuel : Nat) (p : Program) (m : Machine) (w : World),
      ∀ line ∈ (runProgram fuel p m).records World.host w, lineFeeds line = 0 := by
  refine ⟨by cbv, ?_⟩
  intro h
  have hline : "[PRINT] a\nb" ∈
      (runProgram 9 twoLinePrint (.fresh 5)).records World.host .empty := by
    decide +kernel
  have hone := h 9 twoLinePrint (.fresh 5) .empty _ hline
  revert hone
  decide

end Scriptlet
