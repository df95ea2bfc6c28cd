import Scriptlet.Proofs.Contents
import Scriptlet.Proofs.Frames
import Scriptlet.Proofs.ReadBack.Statements

namespace Scriptlet
set_option autoImplicit true

/-- What a dialogue asks on its way changes no file, but for the one in which records are kept. -/
def Dialogue.Spares {ω : Type} (host : Host ω) (d : Dialogue α) (w : ω) : Prop :=
  ∀ x ∈ d.asked host w, x.1.Sparing

/-- No record of a dialogue goes to the file. -/
def Dialogue.LogsElsewhere {ω : Type} (host : Host ω) (f : FileView ω) (d : Dialogue α) (w : ω) :
    Prop :=
  ∀ line u, (.record line, u) ∈ d.asked host w → f.elsewhere u

/-- The file of a path was written, each time by a statement that succeeded: at first in place of
what it held, and then to its end. The values that were written are given. Whatever else was done
meanwhile changed no file, and no records went to this one. -/
inductive Host.Wrote {ω : Type} (host : Host ω) (path : String) (f : FileView ω) :
    List Value → ω → Prop
  | write (hoperands : (operands fuel pe ce).Yields host m
        (host (.note (.execute (.write pos .replace pe ce))) w).2 (p, value) n u)
      (hpath : p.display = path)
      (hrun : (execute (fuel + 2) (.write pos .replace pe ce)).Yields host m w flow n' w')
      (hlog : (execute (fuel + 2) (.write pos .replace pe ce) m).LogsElsewhere host f w) :
      Wrote host path f [value] w'
  | append (h : Wrote host path f values w)
      (hoperands : (operands fuel pe ce).Yields host m
        (host (.note (.execute (.write pos .extend pe ce))) w).2 (p, value) n u)
      (hspare : (operands fuel pe ce m).Spares host
        (host (.note (.execute (.write pos .extend pe ce))) w).2)
      (hpath : p.display = path)
      (hrun : (execute (fuel + 2) (.write pos .extend pe ce)).Yields host m w flow n' w')
      (hlog : (execute (fuel + 2) (.write pos .extend pe ce) m).LogsElsewhere host f w) :
      Wrote host path f (values ++ [value]) w'
  | meanwhile (h : Wrote host path f values w) (d : Dialogue α) (hspare : d.Spares host w)
      (hlog : d.LogsElsewhere host f w) : Wrote host path f values (d.run host w).2

/-- The file of a path was deleted, or was not there to be deleted, and no file was changed
since. -/
inductive Host.Deleted {ω : Type} (host : Host ω) (path : String) : ω → Prop
  | delete (hpath : (evaluate fuel pe).Yields host m
        (host (.note (.execute (.delete pos pe))) w).2 p n u)
      (hp : p.display = path)
      (hrun : (execute (fuel + 2) (.delete pos pe)).Yields host m w flow n' w') :
      Deleted host path w'
  | meanwhile (h : Deleted host path w) (d : Dialogue α) (hspare : d.Spares host w) :
      Deleted host path (d.run host w).2

/-- Each statement that reads the file of a path fails neither for want of the file nor because it
is no text, and binds its variable in the running activation to the text that is given. If the
system refuses to read, for yet another reason, that is the error, and no variable changes. -/
def Host.ReadsBack {ω : Type} (host : Host ω) (path : String) (f : FileView ω) (text : String)
    (w : ω) : Prop :=
  ∀ ⦃fuel pos pe y m p n u⦄, (evaluate fuel pe).Yields host m
      (host (.note (.execute (.read pos pe y))) w).2 p n u → p.display = path →
    (evaluate fuel pe m).Spares host (host (.note (.execute (.read pos pe y))) w).2 →
    (evaluate fuel pe m).LogsElsewhere host f (host (.note (.execute (.read pos pe y))) w).2 →
    ∃ r n' w', (execute (fuel + 2) (.read pos pe y) m).run host w = (some (r, n'), w') ∧
      n'.callers = m.callers ∧
      ((n'.current = m.current.insert y (.string text) ∧
          (r = .ok .normal ∨ ∃ reason, r = .error ⟨.diagnostic reason, some pos⟩)) ∨
        (n'.current = m.current ∧ ∃ reason, (host (.readFile path) u).1 = .error reason ∧
          reason ≠ .noEntry ∧ reason ≠ .invalidText ∧ r = .error ⟨.io path reason, some pos⟩))

/-- Each statement that reads the file of a path fails for want of the file and changes no
variable. -/
def Host.FindsNone {ω : Type} (host : Host ω) (path : String) (w : ω) : Prop :=
  ∀ ⦃fuel pos pe y m p n u⦄, (evaluate fuel pe).Yields host m
      (host (.note (.execute (.read pos pe y))) w).2 p n u → p.display = path →
    (evaluate fuel pe m).Spares host (host (.note (.execute (.read pos pe y))) w).2 →
    ∃ n' w', (execute (fuel + 2) (.read pos pe y) m).run host w =
        (some (.error ⟨.fileNotFound path, some pos⟩, n'), w') ∧
      n'.current = m.current ∧ n'.callers = m.callers

section
variable {ω : Type} {host : Host ω} {path : String} {f : FileView ω} {m n : Machine} {u v w : ω}
  {bytes old : ByteArray}

def displays (values : List Value) : String :=
  String.join (values.map Value.display)

theorem displays_singleton (value : Value) : displays [value] = value.display := by
  simp [displays, String.join]

theorem displays_concat (values : List Value) (value : Value) :
    (displays (values ++ [value])).toUTF8 = (displays values).toUTF8 ++ value.display.toUTF8 := by
  have hjoin : displays (values ++ [value]) = displays values ++ value.display := by
    simp [displays, String.join]
  rw [hjoin]
  exact String.toByteArray_append

theorem Eval.spares_record (host : Host ω) (line : String) (m : Machine) (w : ω) :
    (Eval.record line m).Spares host w := by
  intro x hx
  rw [Eval.asked_record] at hx
  obtain rfl := List.mem_singleton.1 hx
  trivial

namespace Dialogue

variable {d : Dialogue α} {g : α → Dialogue β}

theorem LogsElsewhere.of_bind (h : (d.bind g).LogsElsewhere host f w)
    (hrun : d.run host w = (some a, v)) : (g a).LogsElsewhere host f v :=
  fun line u hu => h line u (mem_asked_bind hrun hu)

theorem LogsElsewhere.left (h : (d.bind g).LogsElsewhere host f w) :
    d.LogsElsewhere host f w := by
  intro line u hu
  apply h line u
  rw [asked_bind]
  exact List.mem_append_left _ hu

end Dialogue

theorem logsElsewhere_of_execute {x : Eval Unit}
    (hx : perform (fuel + 1) s = x.bind fun _ => Eval.pure .normal)
    (h : (execute (fuel + 2) s m).LogsElsewhere host f w) :
    (x m).LogsElsewhere host f (host (.note (.execute s)) w).2 := by
  rw [execute_eq_conclude hx] at h
  exact Dialogue.LogsElsewhere.left fun line u hu => h line u (.tail _ hu)

namespace Host.KeepsFile

variable (hf : host.KeepsFile path f)
include hf

theorem run {d : Dialogue α} (hspare : d.Spares host w) (hlog : d.LogsElsewhere host f w)
    (h : f.holds w bytes) : f.holds (d.run host w).2 bytes := by
  induction d generalizing w with
  | done a => exact h
  | unfinished => exact h
  | ask q next ih =>
    have hq : f.holds (host q w).2 bytes := by
      apply hf.spare q w bytes (hspare _ (.head _)) _ h
      rintro line rfl
      exact hlog line w (.head _)
    exact ih _ (fun x hx => hspare x (.tail _ hx)) (fun line u hu => hlog line u (.tail _ hu)) hq

theorem runMissing {d : Dialogue α} (hspare : d.Spares host w) (h : f.missing w) :
    f.missing (d.run host w).2 := by
  induction d generalizing w with
  | done a => exact h
  | unfinished => exact h
  | ask q next ih =>
    have hq := hf.spareMissing q w (hspare _ (.head _)) h
    exact ih _ (fun x hx => hspare x (.tail _ hx)) hq

theorem note (event : Event) (h : f.holds w bytes) : f.holds (host (.note event) w).2 bytes :=
  hf.spare (.note event) w bytes trivial nofun h

theorem furnishes (outer? : Option String) (w : ω) : ∃ r u,
    (Dialogue.furnish outer?).run host w = (some r, u) ∧
      ∀ bytes, f.holds w bytes → f.holds u bytes := by
  cases outer? with
  | none => exact ⟨_, _, rfl, fun _ => id⟩
  | some directory => exact ⟨_, _, rfl, hf.furnish directory w⟩

theorem record (h : (Eval.record line).Yields host m w () n v)
    (hlog : (Eval.record line m).LogsElsewhere host f w) (hholds : f.holds w bytes) :
    f.holds v bytes := by
  have hv := hf.run (Eval.spares_record host line m w) hlog hholds
  rwa [h] at hv

theorem settle (hexcused : ∀ reason, c.excuses reason = false)
    (h : (Change.settle c r).Yields host m w () n v)
    (hlog : (Change.settle c r m).LogsElsewhere host f w) (hholds : r = .ok () → f.holds w bytes) :
    f.holds v bytes := by
  cases r with
  | error reason =>
    simp only [Change.settle, hexcused] at h
    cases h
  | ok => exact hf.record h hlog (hholds rfl)

/-- A write that succeeds leaves in the file what it makes of the old contents. -/
theorem writeFile (h : (Eval.writeFile mode path text).Yields host m w () n v)
    (hlog : (Eval.writeFile mode path text m).LogsElsewhere host f w)
    (hold : mode = .extend → f.holds w old) : f.holds v (mode.apply text old) := by
  rw [Eval.writeFile_eq] at h hlog
  obtain ⟨r, u, hfurnish, hkept⟩ := hf.furnishes (Path.outer? path) w
  have hrun : (Change.proceed (.write mode path text) m r).run host u = (some (.ok (), n), v) := by
    have hbind := Dialogue.run_bind host (Dialogue.furnish (Path.outer? path))
      (Change.proceed (.write mode path text) m) w
    rw [hfurnish] at hbind
    exact hbind.symm.trans h
  have hlog' : (Change.proceed (.write mode path text) m r).LogsElsewhere host f u :=
    hlog.of_bind hfurnish
  cases r with
  | error reason => cases hrun
  | ok =>
    cases mode with
    | replace =>
      have hsettle := hlog'.of_bind (d := Dialogue.request (.writeFile path text)) rfl
      exact hf.settle (fun _ => rfl) hrun hsettle (hf.write text u)
    | extend =>
      have hsettle := hlog'.of_bind (d := Dialogue.request (.appendFile path text)) rfl
      exact hf.settle (fun _ => rfl) hrun hsettle (hf.append text u old (hkept old (hold rfl)))

theorem executeWrite (hoperands : (operands fuel pe ce).Yields host m
      (host (.note (.execute (.write pos mode pe ce))) w).2 (p, value) n u)
    (hpath : p.display = path)
    (h : (execute (fuel + 2) (.write pos mode pe ce)).Yields host m w flow n' v)
    (hlog : (execute (fuel + 2) (.write pos mode pe ce) m).LogsElsewhere host f w)
    (hold : mode = .extend → f.holds u old) : f.holds v (mode.apply value.display old) := by
  obtain ⟨t, hrun, rfl⟩ := execute_yields_cases (perform_write fuel pos mode pe ce) h
  have hwrite := (Eval.yields_bind_of hoperands).1 hrun
  have hlog' := logsElsewhere_of_execute (perform_write fuel pos mode pe ce) hlog
  have hlog'' := hlog'.of_bind hoperands
  subst hpath
  have hheld := hf.writeFile hwrite hlog'' hold
  exact hf.note _ hheld

/-- After all writes the file holds the texts of the values that were written, in their order. -/
theorem wrote (h : host.Wrote path f values w) : f.holds w (displays values).toUTF8 := by
  induction h with
  | @write _ _ _ _ _ _ _ value _ _ _ _ _ hoperands hpath hrun hlog =>
    have hwritten : f.holds _ (WriteMode.replace.apply value.display .empty) :=
      hf.executeWrite hoperands hpath hrun hlog nofun
    rw [displays_singleton]
    exact hwritten
  | @append _ _ fuel pe ce _ pos _ _ _ _ _ _ _ h hoperands hspare hpath hrun hlog ih =>
    have hnoted := hf.note (.execute (.write pos .extend pe ce)) ih
    have hoperandsLog := (logsElsewhere_of_execute (perform_write fuel pos .extend pe ce) hlog).left
    have hheld := hf.run hspare hoperandsLog hnoted
    rw [hoperands] at hheld
    have hwritten := hf.executeWrite hoperands hpath hrun hlog fun _ => hheld
    rw [displays_concat]
    exact hwritten
  | meanwhile h d hspare hlog ih => exact hf.run hspare hlog ih

theorem readFile {text : String} (h : f.holds w text.toUTF8) (y : String) (m : Machine) :
    ∃ r n v, (Eval.readFile path y m).run host w = (some (r, n), v) ∧
      (n = m.bind y (.string text) ∧
          (r = .ok () ∨ ∃ reason, r = .error ⟨.diagnostic reason, none⟩) ∨
        n = m ∧ ∃ reason, (host (.readFile path) w).1 = .error reason ∧ reason ≠ .noEntry ∧
          reason ≠ .invalidText ∧ r = .error ⟨.io path reason, none⟩) := by
  rw [Eval.readFile_eq, Dialogue.run]
  rcases hf.read w _ h with hread | ⟨reason, hread, hentry, htext⟩
  · rw [hread, World.decode_toUTF8]
    let noted := (host (.note (.bind y (.string text))) (host (.readFile path) w).2).2
    obtain ⟨r, v, hrun, hr⟩ := Eval.run_record host s!"[READFILE] {path} -> {y}"
      (m.bind y (.string text)) noted
    exact ⟨r, _, v, hrun, .inl ⟨rfl, hr⟩⟩
  · rw [hread]
    have hreceive : Eval.receive path y (.error reason) = Eval.fail (.io path reason) := by
      cases reason with
      | noEntry => exact absurd rfl hentry
      | _ => rfl
    rw [hreceive]
    exact ⟨_, _, _, rfl, .inr ⟨rfl, reason, rfl, hentry, htext, rfl⟩⟩

theorem readFileMissing (h : f.missing w) (y : String) (m : Machine) : ∃ v,
    (Eval.readFile path y m).run host w = (some (.error ⟨.fileNotFound path, none⟩, m), v) := by
  rw [Eval.readFile_eq, Dialogue.run, hf.readMissing w h]
  exact ⟨_, rfl⟩

theorem deleteFile (h : (Eval.deleteFile path).Yields host m w () n v) : f.missing v := by
  rw [Eval.deleteFile_eq] at h
  change (Change.settle (.delete path) (host (.removeFile path) w).1).Yields host m
    (host (.removeFile path) w).2 () n v at h
  cases hanswer : (host (.removeFile path) w).1 with
  | ok =>
    have hmissing := hf.remove w (.inl hanswer)
    rw [hanswer] at h
    have hrecord : (Eval.record (Change.delete path).record).Yields host m
        (host (.removeFile path) w).2 () n v := h
    have hrecorded := hf.runMissing
      (Eval.spares_record host (Change.delete path).record m _) hmissing
    rwa [hrecord] at hrecorded
  | error reason =>
    rw [hanswer] at h
    by_cases hreason : reason = .noEntry
    · subst hreason
      cases h
      exact hf.remove w (.inr hanswer)
    · have hfails : Change.settle (.delete path) (.error reason) = Eval.fail (.io path reason) :=
        if_neg (by simpa [Change.excuses] using hreason)
      rw [hfails] at h
      cases h

theorem deleted (h : host.Deleted path w) : f.missing w := by
  induction h with
  | @delete fuel pe m pos p n u flow n' w' w hp hpath hrun =>
    obtain ⟨t, hdelete, rfl⟩ := execute_yields_cases (perform_delete fuel pos pe) hrun
    have hdeleted := (Eval.yields_bind_of hp).1 hdelete
    rw [hpath] at hdeleted
    exact hf.spareMissing (.note _) t trivial (hf.deleteFile hdeleted)
  | meanwhile h d hspare ih => exact hf.runMissing hspare ih

theorem readsBack {text : String} (h : f.holds w text.toUTF8) : host.ReadsBack path f text w := by
  intro fuel pos pe y m p n u hp hpath hspare hlog
  subst hpath
  obtain ⟨hcurrent, hcallers⟩ := List.cons.inj (evaluate_frames hp)
  have hheld := hf.run hspare hlog (hf.note (.execute (.read pos pe y)) h)
  rw [hp] at hheld
  obtain ⟨r, n', v, hread, hend⟩ := hf.readFile hheld y n
  obtain ⟨w', hexecute⟩ := execute_read hp hread
  refine ⟨_, n', w', hexecute, ?_⟩
  rcases hend with ⟨rfl, rfl | ⟨reason, rfl⟩⟩ | ⟨rfl, reason, hanswer, hentry, htext, rfl⟩
  · exact ⟨hcallers, .inl ⟨congrArg (Table.insert · y _) hcurrent, .inl rfl⟩⟩
  · exact ⟨hcallers, .inl ⟨congrArg (Table.insert · y _) hcurrent, .inr ⟨reason, rfl⟩⟩⟩
  · exact ⟨hcallers, .inr ⟨hcurrent, reason, hanswer, hentry, htext, rfl⟩⟩

theorem findsNone (h : f.missing w) : host.FindsNone path w := by
  intro fuel pos pe y m p n u hp hpath hspare
  subst hpath
  obtain ⟨hcurrent, hcallers⟩ := List.cons.inj (evaluate_frames hp)
  have hmissing := hf.runMissing hspare
    (hf.spareMissing (.note (.execute (.read pos pe y))) w trivial h)
  rw [hp] at hmissing
  obtain ⟨v, hread⟩ := hf.readFileMissing hmissing y n
  obtain ⟨w', hexecute⟩ := execute_read hp hread
  exact ⟨n, w', hexecute, hcurrent, hcallers⟩

end Host.KeepsFile

end

/-- What is written is what is read. In a system that keeps files, whatever a file held before: when
it was written and then appended to, all with success, and no file was changed otherwise and no
record went to it, a statement that reads it finds the texts of all the values, one behind the
other. When it was deleted, or was not there to be deleted, a statement that reads it does not find
it. -/
theorem written_read_back {ω : Type} (host : Host ω) (path : String) (f : FileView ω)
    (hf : host.KeepsFile path f) :
    (∀ values w, host.Wrote path f values w → host.ReadsBack path f (displays values) w) ∧
      ∀ w, host.Deleted path w → host.FindsNone path w := by
  constructor
  · intro values w h
    exact hf.readsBack (hf.wrote h)
  · intro w h
    exact hf.findsNone (hf.deleted h)

namespace World

variable {w : World}

theorem host_unfiled (hlog : ∀ n, w.log ≠ .file n) {q : Request} (hq : q.KeepsLog) :
    ∀ n, (host q w).2.log ≠ .file n := by
  by_cases haside : q.Aside
  · obtain ⟨input, output, errors, events, he⟩ := host_aside haside w
    rw [he]
    exact hlog
  · cases q with
    | record line =>
      unfold host record
      dsimp only
      cases hkept : w.log with
      | discard => exact hlog
      | memory records room => rcases room with _ | _ | room <;> nofun
      | file id => exact absurd hkept (hlog id)
    | openLog path => cases hq
    | writeFile path text | appendFile path text | removeFile path =>
      unfold host onDisk
      dsimp only
      split <;> exact hlog
    | createDirectories path => exact hlog
    | _ => exact absurd trivial haside

theorem asked_unfiled {d : Dialogue α} (honly : d.Only Request.KeepsLog)
    (hlog : ∀ n, w.log ≠ .file n) : ∀ x ∈ d.asked host w, ∀ n, x.2.log ≠ .file n := by
  induction d generalizing w with
  | done a | unfinished =>
    intro x hx
    cases hx
  | ask q next ih =>
    intro x hx
    rcases List.mem_cons.1 hx with rfl | hx
    · exact hlog
    · exact ih _ (honly.2 _) (host_unfiled hlog honly.1) x hx

theorem logsElsewhere_execute (hlog : ∀ n, w.log ≠ .file n) (path : String) (fuel : Nat)
    (s : Statement) (m : Machine) :
    (execute fuel s m).LogsElsewhere host (fileView path) w := by
  have honly : (execute fuel s m).Only Request.KeepsLog :=
    Eval.only_run (fun _ => trivial) (fun _ _ _ _ hq => hq.keepsLog) fuel (.statement s) m
  intro line u hu l n old _ _
  exact asked_unfiled honly hlog _ hu n

end World

namespace Pages

def machine : Machine :=
  (Machine.fresh 5).define "nothing" ⟨[], []⟩

def behind (s : Statement) (w : World) : World :=
  ((execute 9 s machine).run World.host w).2

/-- Writes a number, in a directory that is not there yet. -/
def numbering : Statement :=
  .write ⟨1, 1⟩ .replace (.string "a/b") (.number 7)

def printing : Statement :=
  .print ⟨2, 1⟩ (.string "x")

/-- Appends what a call comes to that gives no value. -/
def appending : Statement :=
  .write ⟨3, 1⟩ .extend (.string "a/b") (.call "nothing" [])

def numbered : World :=
  behind numbering World.empty

def printed : World :=
  behind printing numbered

def appended : World :=
  behind appending printed

def deleting : Statement :=
  .delete ⟨4, 1⟩ (.string "a/b")

def deleted : World :=
  behind deleting appended

end Pages

theorem written_read_back_pages :
    World.host.Wrote "a/b" (World.fileView "a/b") [.integer 7, .none] Pages.appended ∧
      World.host.ReadsBack "a/b" (World.fileView "a/b") "7none" Pages.appended ∧
      World.host.FindsNone "a/b" Pages.deleted := by
  have helsewhere {w : World} (h : w.log = .discard) (s : Statement) :
      (execute 9 s Pages.machine).LogsElsewhere World.host (World.fileView "a/b") w :=
    World.logsElsewhere_execute (fun n hn => nomatch h.symm.trans hn) "a/b" 9 s Pages.machine
  have hnumbered : World.host.Wrote "a/b" (World.fileView "a/b") [.integer 7] Pages.numbered := by
    have hoperands : (operands 7 (.string "a/b") (.number 7)).Yields World.host Pages.machine
        (World.host (.note (.execute Pages.numbering)) World.empty).2
        (.string "a/b", .integer 7) Pages.machine _ := rfl
    have hrun : (execute 9 Pages.numbering).Yields World.host Pages.machine World.empty .normal
      Pages.machine Pages.numbered := rfl
    exact .write hoperands rfl hrun (helsewhere rfl Pages.numbering)
  have hprinted : World.host.Wrote "a/b" (World.fileView "a/b") [.integer 7] Pages.printed := by
    refine .meanwhile hnumbered _ ?_ (helsewhere rfl Pages.printing)
    intro x hx
    rcases hx with _ | ⟨_, _ | ⟨_, _ | ⟨_, _ | ⟨_, _ | ⟨_, hx⟩⟩⟩⟩⟩
    all_goals trivial
  have happended : World.host.Wrote "a/b" (World.fileView "a/b") [.integer 7, .none]
      Pages.appended := by
    have hoperands : (operands 7 (.string "a/b") (.call "nothing" [])).Yields World.host
        Pages.machine (World.host (.note (.execute Pages.appending)) Pages.printed).2
        (.string "a/b", .none) Pages.machine _ := rfl
    have hrun : (execute 9 Pages.appending).Yields World.host Pages.machine Pages.printed .normal
      Pages.machine Pages.appended := rfl
    refine .append hprinted hoperands ?_ rfl hrun (helsewhere rfl Pages.appending)
    intro x hx
    rcases hx with _ | ⟨_, _ | ⟨_, hx⟩⟩
    all_goals trivial
  have hdeleted : World.host.Deleted "a/b" Pages.deleted := by
    have hpath : (evaluate 7 (.string "a/b")).Yields World.host Pages.machine
      (World.host (.note (.execute Pages.deleting)) Pages.appended).2 (.string "a/b")
      Pages.machine _ := rfl
    have hrun : (execute 9 Pages.deleting).Yields World.host Pages.machine Pages.appended .normal
      Pages.machine Pages.deleted := rfl
    exact .delete hpath rfl hrun
  obtain ⟨hwritten, hgone⟩ := written_read_back _ _ _ (World.keepsFile "a/b")
  exact ⟨happended, hwritten _ _ happended, hgone _ hdeleted⟩

/-- The same file, to which records may go, too. -/
def FileView.open {ω : Type} (f : FileView ω) : FileView ω :=
  { f with elsewhere := fun _ => True }

namespace SelfLogging

def world : World :=
  ((Dialogue.openLog "l").run World.host World.empty).2

def statement : Statement :=
  .write ⟨1, 1⟩ .replace (.string "l") (.string "x")

def written : World :=
  ((execute 3 statement (.fresh 5)).run World.host world).2

end SelfLogging

/-- In the file in which records are kept, the record of a write stands behind what was written. -/
theorem not_written_read_back :
    World.host.Wrote "l" (World.fileView "l").open [.string "x"] SelfLogging.written ∧
      ¬ World.host.ReadsBack "l" (World.fileView "l").open (displays [.string "x"])
        SelfLogging.written := by
  have hoperands : (operands 1 (.string "l") (.string "x")).Yields World.host (.fresh 5)
      (World.host (.note (.execute SelfLogging.statement)) SelfLogging.world).2
      (.string "l", .string "x") (.fresh 5) _ := rfl
  have hrun : (execute 3 SelfLogging.statement).Yields World.host (.fresh 5) SelfLogging.world
      .normal (.fresh 5) SelfLogging.written := rfl
  refine ⟨.write hoperands rfl hrun fun _ _ _ => trivial, ?_⟩
  intro hreads
  have hpath : (evaluate 1 (.string "l")).Yields World.host (.fresh 5)
      (World.host (.note (.execute (.read ⟨2, 1⟩ (.string "l") "y"))) SelfLogging.written).2
      (.string "l") (.fresh 5) _ := rfl
  have hspare : (evaluate 1 (.string "l") (.fresh 5)).Spares World.host
      (World.host (.note (.execute (.read ⟨2, 1⟩ (.string "l") "y"))) SelfLogging.written).2 := by
    intro x hx
    cases hx
  obtain ⟨r, n, w, hread, -, hend⟩ := hreads hpath rfl hspare fun _ _ _ => trivial
  have hfound : ((execute 3 (.read ⟨2, 1⟩ (.string "l") "y") (.fresh 5)).run World.host
      SelfLogging.written).1.map (·.2.current.find? "y") =
        some (some (.string "x2000-01-01 00:00:00 [WRITEFILE] l\n")) := by decide +kernel
  rw [hread] at hfound
  have hy := Option.some.inj hfound
  dsimp only at hy
  rcases hend with ⟨hcurrent, -⟩ | ⟨hcurrent, -⟩
  · rw [hcurrent, Table.find?_insert, if_pos rfl, displays_singleton] at hy
    exact absurd hy (by decide)
  · rw [hcurrent] at hy
    cases hy

end Scriptlet
