import Scriptlet.World
import Scriptlet.Proofs.Disk
import Scriptlet.Proofs.Requests

namespace Scriptlet
set_option autoImplicit true

def stamped (now line : String) : String :=
  now ++ " " ++ line ++ "\n"

/-- What a log file says of records, each with the time at which it was taken. -/
def logText : List (String × String) → String
  | [] => ""
  | (now, line) :: rest => stamped now line ++ logText rest

theorem logText_append (entries entries' : List (String × String)) :
    logText (entries ++ entries') = logText entries ++ logText entries' := by
  induction entries with
  | nil => exact String.empty_append.symm
  | cons entry rest ih =>
    change stamped entry.1 entry.2 ++ logText (rest ++ entries') = _
    rw [ih, ← String.append_assoc]
    rfl

def Clock.ticking : Clock :=
  ⟨fun n => s!"2000-01-01 00:00:{10 + n}"⟩

/-- Records with the times at which a clock is read for them. -/
def Clock.stamps : Clock → List String → List (String × String)
  | _, [] => []
  | c, line :: rest => (c.now, line) :: c.tick.stamps rest

theorem Clock.stamps_snd (c : Clock) (lines : List String) :
    (c.stamps lines).map Prod.snd = lines := by
  induction lines generalizing c with
  | nil => rfl
  | cons line rest ih => exact congrArg (line :: ·) (ih c.tick)

def logBytes (entries : List (String × String)) : ByteArray :=
  (logText entries).toUTF8

theorem logBytes_cons (now line : String) (entries : List (String × String)) :
    logBytes ((now, line) :: entries) = (stamped now line).toUTF8 ++ logBytes entries :=
  String.toByteArray_append

theorem logBytes_append (entries entries' : List (String × String)) :
    logBytes (entries ++ entries') = logBytes entries ++ logBytes entries' := by
  unfold logBytes
  rw [logText_append]
  exact String.toByteArray_append

/-- A request leaves the file at a location and the choice of the log alone. -/
def Request.Spares (l : Location) (d : Disk) : Request → Prop
  | writeFile path _ | appendFile path _ | removeFile path => ¬d.Leads path l
  | openLog _ => False
  | _ => True

namespace World

/-- Records go to the file at a location, of which the contents are given. -/
structure LogsTo (w : World) (l : Location) (n : Nat) (text : ByteArray) : Prop where
  log : w.log = .file n
  file : w.disk.entry? l = some (.file n text)

variable {w : World} {l : Location} {n : Nat} {text : ByteArray}

theorem LogsTo.of_entry {v : World} (h : w.LogsTo l n text) (hlog : v.log = w.log)
    (hentry : v.disk.entry? l = w.disk.entry? l) : v.LogsTo l n text :=
  ⟨hlog.trans h.log, hentry.trans h.file⟩

theorem LogsTo.onDisk (h : w.LogsTo l n text) {change : Except Refusal Disk}
    (hentry : ∀ d, change = .ok d → d.entry? l = w.disk.entry? l) :
    (w.onDisk change).2.LogsTo l n text := by
  cases change with
  | error reason => exact h
  | ok d => exact h.of_entry rfl (hentry d rfl)

theorem LogsTo.record (h : w.LogsTo l n text) (line : String) :
    (w.record line).2.LogsTo l n (text ++ (stamped w.clock.now line).toUTF8) := by
  unfold World.record
  rw [h.log]
  refine ⟨rfl, ?_⟩
  rw [Disk.entry?_extendFile, h.file]
  simp [Entry.extended, stamped]

theorem write_entry_other (hspare : ¬w.disk.Leads path l) {change : ByteArray → ByteArray}
    (h : (w.disk.write path change).map Prod.snd = .ok d) : d.entry? l = w.disk.entry? l := by
  cases hw : w.disk.write path change with
  | error reason =>
    rw [hw] at h
    cases h
  | ok written =>
    rw [hw] at h
    cases h
    obtain ⟨l', old, hl, -, hnew⟩ := Disk.write_entries hw
    have hne : l' ≠ l := by
      rintro rfl
      exact hspare hl
    rw [hnew, if_neg hne]

theorem LogsTo.spared (h : w.LogsTo l n text) {q : Request} (hq : q.Spares l w.disk)
    (hline : q.line? = none) : (World.host q w).2.LogsTo l n text := by
  by_cases haside : q.Aside
  · obtain ⟨input, output, errors, events, he⟩ := host_aside haside w
    rw [he]
    exact ⟨h.log, h.file⟩
  · cases q with
    | record line => cases hline
    | openLog path => cases hq
    | writeFile path content | appendFile path content =>
      apply h.onDisk
      intro d hd
      exact write_entry_other hq hd
    | removeFile path =>
      apply h.onDisk
      intro d hd
      obtain ⟨l', n', old, hl, -, rfl⟩ := Disk.remove_cases hd
      have hne : l' ≠ l := by
        rintro rfl
        exact hq hl
      rw [Disk.entry?_without hl.ne_nil, if_neg hne]
    | createDirectories path =>
      have hfurnished := w.disk.makeChain_furnished (Disk.chain path)
      exact ⟨h.log, (hfurnished.file_iff l n text).2 h.file⟩
    | _ => exact absurd trivial haside

theorem host_clock {q : Request} (hline : q.line? = none) (w : World) :
    (host q w).2.clock = w.clock := by
  by_cases haside : q.Aside
  · obtain ⟨input, output, errors, events, he⟩ := host_aside haside w
    rw [he]
  · cases q with
    | record line => cases hline
    | openLog path | writeFile path text | appendFile path text | removeFile path =>
      unfold host onDisk
      dsimp only
      split <;> rfl
    | createDirectories path => rfl
    | _ => exact absurd trivial haside

theorem LogsTo.clock_record (h : w.LogsTo l n text) (line : String) :
    (w.record line).2.clock = w.clock.tick := by
  unfold World.record
  rw [h.log]

/-- What a talk that spares the log file leaves of it: the old text, and behind that the records,
each with its own time. -/
theorem LogsTo.run (h : w.LogsTo l n text) {dialogue : Dialogue α}
    (hspare : ∀ x ∈ dialogue.asked World.host w, x.1.Spares l x.2.disk) :
    (dialogue.run World.host w).2.LogsTo l n
      (text ++ logBytes (w.clock.stamps (dialogue.records World.host w))) := by
  have hnone : text ++ logBytes [] = text := ByteArray.append_empty
  induction dialogue generalizing w text with
  | done a => exact hnone.symm ▸ h
  | unfinished => exact hnone.symm ▸ h
  | ask q next ih =>
    have hrest (more : ByteArray) (hq : (World.host q w).2.LogsTo l n more) :=
      ih (World.host q w).1 hq (fun x hx => hspare x (.tail _ hx)) ByteArray.append_empty
    rw [Dialogue.records_ask]
    cases hline : q.line? with
    | none =>
      have hlast := hrest _ (h.spared (hspare _ (.head _)) hline)
      rw [host_clock hline] at hlast
      exact hlast
    | some line =>
      cases q with
      | record line' =>
        cases hline
        have hlast := hrest _ (h.record line)
        have hclock : (World.host (.record line) w).2.clock = w.clock.tick := h.clock_record line
        rw [hclock, ByteArray.append_assoc] at hlast
        rw [Option.toList, List.singleton_append, Clock.stamps, logBytes_cons]
        exact hlast
      | _ => cases hline

theorem openLog_cases (path : String) (w : World) :
    ∃ d, w.disk.Furnished (Disk.outers (Path.outer? path)) d ∧
      ((∃ reason, (Dialogue.openLog path).run host w =
        (some (.error reason), { w with disk := d })) ∨
      ∃ n d', d.write path id = .ok (n, d') ∧ (Dialogue.openLog path).run host w =
        (some (.ok ()), { w with disk := d', log := .file n })) := by
  have hfurnished := w.disk.furnish_furnished (Path.outer? path)
  obtain ⟨hrun, -⟩ := Dialogue.run_furnish host (Path.outer? path) w
  unfold Dialogue.openLog
  rw [Dialogue.run_bind, Dialogue.prepareParent_eq, hrun, host_furnish]
  refine ⟨_, hfurnished, ?_⟩
  rcases w.disk.furnish (Path.outer? path) with ⟨reason | _, d⟩
  · exact .inl ⟨reason, rfl⟩
  · dsimp only [Dialogue.request, Dialogue.run, host]
    cases d.write path id with
    | error reason => exact .inl ⟨reason, rfl⟩
    | ok written => exact .inr ⟨written.1, written.2, rfl, rfl⟩

theorem output_of_openLog (h : (Dialogue.openLog path).run host w = (r, v)) :
    v.output = w.output := by
  obtain ⟨d, -, ⟨reason, hrun⟩ | ⟨n, d', -, hrun⟩⟩ := openLog_cases path w
  · cases hrun.symm.trans h
    rfl
  · cases hrun.symm.trans h
    rfl

/-- A log that is opened is the file that its path leads to, of which the old contents stay. -/
structure OpensAt (w : World) (path : String) (l : Location) (old : ByteArray) : Prop where
  leads : ∃ d, w.disk.Furnished (Disk.outers (Path.outer? path)) d ∧ d.Leads path l
  contents : (∃ n, w.disk.entry? l = some (.file n old)) ∨ w.disk.entry? l = none ∧ old = .empty

theorem logsTo_openLog (h : (Dialogue.openLog path).run host w = (some (.ok ()), v)) :
    ∃ l n old, w.OpensAt path l old ∧ v.LogsTo l n old := by
  obtain ⟨d, hfurnished, ⟨reason, hrun⟩ | ⟨n, d', hwrite, hrun⟩⟩ := openLog_cases path w
  · cases hrun.symm.trans h
  · cases hrun.symm.trans h
    obtain ⟨l, old, hl, hold, hnew⟩ := Disk.write_entries hwrite
    have hlog : ({ w with disk := d', log := .file n } : World).log = .file n := rfl
    refine ⟨l, n, old, ⟨⟨d, hfurnished, hl⟩, ?_⟩, hlog, ?_⟩
    · rcases hold with hold | ⟨hnone, hold⟩
      · exact .inl ⟨n, (hfurnished.file_iff l n old).1 hold⟩
      · rcases hfurnished.entry? l with he | ⟨-, he⟩
        · exact .inr ⟨he.symm.trans hnone, hold⟩
        · cases he.symm.trans hnone
    · rw [hnew, if_pos rfl]
      rfl

theorem file_of_openLog (h : (Dialogue.openLog path).run host w = (r, v))
    (hfile : w.disk.entry? l = some (.file n text)) : v.disk.entry? l = some (.file n text) := by
  obtain ⟨d, hfurnished, ⟨reason, hrun⟩ | ⟨n', d', hwrite, hrun⟩⟩ := openLog_cases path w
  · cases hrun.symm.trans h
    exact (hfurnished.file_iff l n text).2 hfile
  · cases hrun.symm.trans h
    obtain ⟨l', old, -, hold, hnew⟩ := Disk.write_entries hwrite
    have hentry := (hfurnished.file_iff l n text).2 hfile
    by_cases hl : l' = l
    · rw [hl, hentry] at hold
      rcases hold with hold | ⟨hnone, -⟩
      · cases hold
        rw [hnew, if_pos hl]
        rfl
      · cases hnone
    · rw [hnew, if_neg hl]
      exact hentry

end World

/-- Programs are run one after the other, each on any machine and at any time, and none of them
writes to the file at a location or deletes it. Between the runs the log may be opened again. The
records that the runs handed to the log are given, each with the time at which it was taken. -/
inductive World.Logged (l : Location) : World → List (String × String) → World → Prop
  | start : Logged l w [] w
  | run (h : Logged l w entries v)
      (hspare : ∀ x ∈ (runProgram fuel p m).asked World.host v, x.1.Spares l x.2.disk) :
      Logged l w (entries ++ v.clock.stamps ((runProgram fuel p m).records World.host v))
        ((runProgram fuel p m).run World.host v).2
  | wait (h : Logged l w entries v) (clock : Clock) : Logged l w entries { v with clock }
  | reopen (h : Logged l w entries v)
      (hopen : (Dialogue.openLog path).run World.host v = (some (.ok ()), u))
      (hlog : u.log = v.log) : Logged l w entries u

/-- After any runs that spare it, a log file holds its old text and behind that one entry for each
record, in order. -/
theorem World.Logged.logsTo {w v : World} (h : w.Logged l entries v) (hw : w.LogsTo l n text) :
    v.LogsTo l n (text ++ logBytes entries) := by
  induction h with
  | start =>
    have hnone : text ++ logBytes [] = text := ByteArray.append_empty
    exact hnone.symm ▸ hw
  | run h hspare ih =>
    rw [logBytes_append, ← ByteArray.append_assoc]
    exact ih.run hspare
  | wait h clock ih => exact ⟨ih.log, ih.file⟩
  | reopen h hopen hlog ih => exact ⟨hlog.trans ih.log, file_of_openLog hopen ih.file⟩

end Scriptlet
