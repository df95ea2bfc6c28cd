import Scriptlet.Proofs.Confinement

namespace Scriptlet
set_option autoImplicit true

def changeTags : List String :=
  ["[WRITEFILE] ", "[APPENDFILE] ", "[DELETEFILE] "]

def tellsOfChange (record : String) : Bool :=
  changeTags.any fun tag => tag.toList.isPrefixOf record.toList

/-- A run that comes to `r` leaves the files as its last change did, or it ends with the error that
a further change met, which may be made in part. -/
inductive FileSystem.Leaves (fs : FileSystem φ Place) :
    Option (Except RuntimeError α × Machine) → φ → φ → Prop
  | whole : Leaves fs r d d
  | partly (c : Change) (he : e.fault = .io c.path reason) (h : fs.Attempt c d d') :
      Leaves fs (some (.error e, n)) d d'

theorem FileSystem.Leaves.of_ok {fs : FileSystem φ Place}
    (h : fs.Leaves (some (.ok a, n)) d d') : d' = d := by
  cases h
  rfl

/-- What a dialogue does to the files of a system that keeps records is what its records tell of,
but for what the last change did before it was refused. -/
structure Journalled (host : Host ω) (fs : FileSystem φ Place) (v : JournalView ω φ)
    (dialogue : Dialogue (Except RuntimeError α × Machine)) (records : List String) (w : ω) :
    Prop where
  log : v.kept? (dialogue.run host w).2 = some (records ++ dialogue.records host w)
  told : (dialogue.records host w).filter tellsOfChange =
    (dialogue.changes host w).map Change.record
  files : ∃ d, fs.Made (v.files w) (dialogue.changes host w) d ∧
    fs.Leaves (dialogue.run host w).1 d (v.files (dialogue.run host w).2)

/-- A request neither changes files nor records a change. -/
def Request.Calm : Request → Prop
  | record line => tellsOfChange line = false
  | openLog _ | writeFile .. | appendFile .. | removeFile _ | createDirectories _ => False
  | _ => True

theorem Dialogue.Only.told {d : Dialogue α} (h : d.Only Request.Calm) (host : Host ω) (w : ω) :
    (d.records host w).filter tellsOfChange = [] := by
  apply List.filter_eq_nil_iff.2
  intro line hline
  obtain ⟨v, hv⟩ := Dialogue.mem_records hline
  have htold : tellsOfChange line = false := h.asked hv
  simp [htold]

theorem Dialogue.Only.changes {d : Dialogue α} (h : d.Only Request.Calm) (host : Host ω) (w : ω) :
    d.changes host w = [] := by
  apply List.filterMap_eq_nil_iff.2
  rintro ⟨q, v⟩ hq
  have hcalm : q.Calm := h.asked hq
  cases q with
  | openLog path => cases hcalm
  | writeFile path text => cases hcalm
  | appendFile path text => cases hcalm
  | removeFile path => cases hcalm
  | createDirectories path => cases hcalm
  | _ => rfl

theorem Request.Calm.sparing {q : Request} (h : q.Calm) : q.Sparing := by
  cases q with
  | openLog path | writeFile path text | appendFile path text | removeFile path
  | createDirectories path => cases h
  | _ => trivial

theorem Request.Calm.keepsLog {q : Request} (h : q.Calm) : q.KeepsLog := by
  cases q with
  | openLog path => cases h
  | _ => trivial

section
variable {ω φ Place : Type} {host : Host ω} {fs : FileSystem φ Place} {v : JournalView ω φ}
  {w : ω} {records : List String}

theorem Host.Confines.run_calm (hconfines : host.Confines fs v) {d : Dialogue α}
    (h : d.Only Request.Calm) (hkept : v.kept? w = some records) :
    v.files (d.run host w).2 = v.files w ∧
      v.kept? (d.run host w).2 = some (records ++ d.records host w) := by
  have hnil : some records = some (records ++ []) := by rw [List.append_nil]
  induction d generalizing w records with
  | done a => exact ⟨rfl, hkept.trans hnil⟩
  | unfinished => exact ⟨rfl, hkept.trans hnil⟩
  | ask q next ih =>
    have hfiles := hconfines.spare q w records h.1.sparing hkept
    have hnext := hconfines.keep q w records h.1.keepsLog hkept
    obtain ⟨hrest, hrestKept⟩ := ih (host q w).1 (h.2 _) hnext (by rw [List.append_nil])
    rw [Dialogue.records_ask, ← List.append_assoc]
    exact ⟨hrest.trans hfiles, hrestKept⟩

/-- What comes behind a computation that ended with an error leaves the fault and the files as they
are. -/
structure Passes (host : Host ω)
    (f : Except RuntimeError α × Machine → Dialogue (Except RuntimeError β × Machine)) :
    Prop where
  calm : ∀ e n, (f (.error e, n)).Only Request.Calm
  fault : ∀ e n w, ∃ e' n', ((f (.error e, n)).run host w).1 = some (.error e', n') ∧
    e'.fault = e.fault

namespace Journalled

theorem calm (hconfines : host.Confines fs v) {d : Dialogue (Except RuntimeError α × Machine)}
    (h : d.Only Request.Calm) (hkept : v.kept? w = some records) :
    Journalled host fs v d records w := by
  obtain ⟨hfiles, hrecords⟩ := hconfines.run_calm h hkept
  refine ⟨hrecords, ?_, v.files w, ?_, ?_⟩
  · rw [h.told, h.changes]
    rfl
  · rw [h.changes]
    exact .nil
  · rw [hfiles]
    exact .whole

theorem bind (hconfines : host.Confines fs v)
    {d : Dialogue (Except RuntimeError α × Machine)}
    {f : Except RuntimeError α × Machine → Dialogue (Except RuntimeError β × Machine)}
    (h : Journalled host fs v d records w) (herror : Passes host f)
    (hok : ∀ a n u records, v.kept? u = some records →
      Journalled host fs v (f (.ok a, n)) records u) :
    Journalled host fs v (d.bind f) records w := by
  obtain ⟨hlog, htold, files, hmade, hleaves⟩ := h
  have hrun := Dialogue.run_bind host d f w
  have hrecords := Dialogue.records_bind host d f w
  have hchanges := Dialogue.changes_bind host d f w
  rcases hd : d.run host w with ⟨_ | ⟨e | a, n⟩, u⟩
  · rw [hd] at hrun hrecords hchanges hlog hleaves
    rw [List.append_nil] at hrecords hchanges
    cases hleaves
    refine ⟨?_, ?_, v.files u, ?_, ?_⟩
    · rw [hrun, hrecords]
      exact hlog
    · rw [hrecords, hchanges, htold]
    · rw [hchanges]
      exact hmade
    · rw [hrun]
      exact .whole
  · rw [hd] at hrun hrecords hchanges hlog hleaves
    have hcalm := herror.calm e n
    obtain ⟨hfiles, hlog'⟩ := hconfines.run_calm hcalm hlog
    obtain ⟨e', n', he, hfault⟩ := herror.fault e n u
    dsimp only at hrun hrecords hchanges
    rw [hcalm.changes, List.append_nil] at hchanges
    refine ⟨?_, ?_, files, ?_, ?_⟩
    · rw [hrun, hrecords, ← List.append_assoc]
      exact hlog'
    · rw [hrecords, hchanges, List.filter_append, hcalm.told, htold, List.append_nil]
    · rw [hchanges]
      exact hmade
    · rw [hrun, he, hfiles]
      cases hleaves with
      | whole => exact .whole
      | partly c hc hattempt => exact .partly c (hfault.trans hc) hattempt
  · rw [hd] at hrun hrecords hchanges hlog hleaves
    obtain ⟨hlog', htold', files', hmade', hleaves'⟩ := hok a n u _ hlog
    have hfiles : v.files u = files := hleaves.of_ok
    refine ⟨?_, ?_, files', ?_, ?_⟩
    · rw [hrun, hrecords, ← List.append_assoc]
      exact hlog'
    · rw [hrecords, hchanges, List.filter_append, List.map_append, htold, htold']
    · rw [hchanges]
      exact hmade.append (hfiles ▸ hmade')
    · rw [hrun]
      exact hleaves'

end Journalled

namespace Eval

/-- On every machine, and in every state of a system that keeps records, the records of a
computation tell what it does to the files. -/
def Journals (host : Host ω) (fs : FileSystem φ Place) (v : JournalView ω φ) (x : Eval α) : Prop :=
  ∀ m w records, v.kept? w = some records → Journalled host fs v (x m) records w

variable (hconfines : host.Confines fs v)
include hconfines

theorem Only.journals {x : Eval α} (h : x.Only Request.Calm) : x.Journals host fs v :=
  fun m _ _ hkept => .calm hconfines (h m) hkept

theorem closed_journals : Closed (Journals host fs v) where
  pure _ _ _ _ hkept := .calm hconfines trivial hkept
  unfinished _ _ _ hkept := .calm hconfines trivial hkept
  bind {_ _ x f} hx hf := by
    intro m w records hkept
    apply (hx m w records hkept).bind hconfines
    · exact ⟨fun _ _ => trivial, fun e n w => ⟨e, n, rfl, rfl⟩⟩
    · exact fun a n => hf a n
  locate pos hx := by
    intro m w records hkept
    apply (hx m w records hkept).bind hconfines
    · exact ⟨fun _ _ => trivial, fun e n w => ⟨e.locate pos, n, rfl, rfl⟩⟩
    · exact fun a n u records => .calm hconfines trivial
  within name scope hx := by
    intro m w records hkept
    apply (hx (m.enter scope) w records hkept).bind hconfines
    · exact ⟨fun _ _ => ⟨trivial, fun _ => trivial⟩, fun e n w => ⟨e, n.leave, rfl, rfl⟩⟩
    · exact fun a n u records => .calm hconfines ⟨trivial, fun _ => trivial⟩

end Eval

theorem Change.tells (c : Change) : tellsOfChange c.record = true := by
  cases c with
  | write mode path text =>
    cases mode with
    | replace =>
      simp only [tellsOfChange, record, toString, String.toList_append]
      rfl
    | extend =>
      simp only [tellsOfChange, record, toString, String.toList_append]
      rfl
  | delete path =>
    simp only [tellsOfChange, record, toString, String.toList_append]
    rfl

theorem Eval.run_record_taken (htake : (host (.record line) w).1 = .ok ()) (m : Machine) :
    (Eval.record line m).run host w = (some (.ok (), m), (host (.record line) w).2) := by
  change (Eval.accept .diagnostic (host (.record line) w).1 m).run host _ = _
  rw [htake]
  rfl

/-- What is neither recorded nor made leaves the files at a further attempt at the most. -/
theorem Journalled.of_unrecorded {d : Dialogue (Except RuntimeError α × Machine)}
    (h : d.run host w = (r, u) ∧ d.records host w = [] ∧ d.changes host w = [])
    (hkept : v.kept? u = some records) (hleaves : fs.Leaves r (v.files w) (v.files u)) :
    Journalled host fs v d records w := by
  obtain ⟨hrun, hrecords, hchanges⟩ := h
  refine ⟨?_, ?_, v.files w, ?_, ?_⟩
  · rw [hrun, hrecords, List.append_nil]
    exact hkept
  · rw [hrecords, hchanges]
    rfl
  · rw [hchanges]
    exact .nil
  · rw [hrun]
    exact hleaves

/-- Whatever becomes of a change, it is journalled. -/
theorem Eval.journals_carryOut (hconfines : host.Confines fs v) (c : Change) :
    c.carryOut.Journals host fs v := by
  intro m w records hkept
  have hfurnished := hconfines.furnished c.outer? w
  have hkeptFurnished := hconfines.kept_furnish c.outer? hkept
  rcases hfurnish : host.furnish c.outer? w with ⟨reason | _, u⟩
  · rw [hfurnish] at hfurnished hkeptFurnished
    apply Journalled.of_unrecorded (Change.carryOut_unfurnished hfurnish m) hkeptFurnished
    exact .partly c rfl ⟨_, hfurnished, .nothing⟩
  rw [hfurnish] at hfurnished hkeptFurnished
  have hkeptAnswer := hconfines.kept_answer c hkeptFurnished
  rcases hanswer : c.answer host u with ⟨reason | _, t⟩
  · have hpartly := hconfines.refused c u reason (congrArg Prod.fst hanswer)
    rw [hanswer] at hkeptAnswer hpartly
    apply Journalled.of_unrecorded (Change.carryOut_refused hfurnish hanswer m) hkeptAnswer
    split
    · rename_i hexcused
      rw [Change.outer?_of_excuses hexcused] at hfurnish
      cases hfurnish
      rw [hconfines.files_of_excuses hexcused hanswer]
      exact .whole
    · exact .partly c rfl ⟨_, hfurnished, hpartly⟩
  · have hdone := hconfines.done c u (congrArg Prod.fst hanswer)
    rw [hanswer] at hkeptAnswer hdone
    have hfiles := hconfines.spare (.record c.record) t records trivial hkeptAnswer
    obtain ⟨hrun, hrecords, hchanges⟩ := Change.carryOut_made hfurnish hanswer m
    rw [Eval.run_record_taken (hconfines.take c.record t records hkeptAnswer)] at hrun
    refine ⟨?_, ?_, v.files t, ?_, ?_⟩
    · rw [hrun, hrecords]
      exact hconfines.keep (.record c.record) t records trivial hkeptAnswer
    · rw [hrecords, hchanges]
      exact List.filter_cons_of_pos c.tells
    · rw [hchanges]
      exact .cons ⟨_, hfurnished, hdone⟩ .nil
    · rw [hrun, hfiles]
      exact .whole

/-- The primitives that neither change files nor record a change. -/
def Primitive.Calm : Primitive → Prop
  | write .. | delete _ => False
  | record line => tellsOfChange line = false
  | _ => True

theorem Primitive.Calm.asks {p : Primitive} (h : p.Calm) (hq : p.Asks q) : q.Calm := by
  cases p with
  | lookup x => cases hq
  | callee name count => cases hq
  | operate op a b => cases hq
  | record line =>
    cases hq
    exact h
  | output text =>
    cases hq
    trivial
  | assign x v =>
    cases hq
    trivial
  | define name f =>
    cases hq
    trivial
  | write mode path text => cases h
  | read path target =>
    rcases hq with rfl | ⟨v, rfl⟩ | rfl
    · trivial
    · trivial
    · simp only [Request.Calm, tellsOfChange, toString, String.toList_append]
      rfl
  | delete path => cases h
  | note event =>
    cases hq
    trivial

theorem Primitive.Calm.eval {p : Primitive} (h : p.Calm) : p.eval.Only Request.Calm := by
  apply Eval.outward_only.primitive
  intro q hq
  exact Eval.only_ask (h.asks hq)

theorem Activity.Does.calm {a : Activity} {p : Primitive} (h : a.Does p) : p.Calm ∨
    (∃ pos mode path content, a = .act (.write pos mode path content) ∧
      ∃ v u : Value, p = .write mode v.display u.display) ∨
    ∃ pos path, a = .act (.delete pos path) ∧ ∃ v : Value, p = .delete v.display := by
  cases a with
  | value e =>
    cases e with
    | var x =>
      cases h
      exact .inl trivial
    | binary op left right =>
      obtain ⟨a, b, rfl⟩ := h
      exact .inl trivial
    | _ => cases h
  | call name es => rcases h with rfl | ⟨f, values, rfl⟩ <;> exact .inl trivial
  | statement s => rcases h with rfl | ⟨flow, rfl⟩ <;> exact .inl trivial
  | act s =>
    cases s with
    | assign pos x e =>
      rcases h with ⟨v, rfl | rfl⟩
      · left
        simp only [Primitive.Calm, tellsOfChange, toString, String.toList_append]
        rfl
      · exact .inl trivial
    | print pos e =>
      rcases h with ⟨v, rfl | rfl | rfl⟩
      · exact .inl trivial
      · exact .inl trivial
      · left
        simp only [Primitive.Calm, tellsOfChange, toString, String.toList_append]
        rfl
    | log pos e =>
      obtain ⟨v, rfl⟩ := h
      left
      simp only [Primitive.Calm, tellsOfChange, toString, String.toList_append]
      rfl
    | write pos mode path content => exact .inr (.inl ⟨pos, mode, path, content, rfl, h⟩)
    | read pos path target =>
      obtain ⟨v, rfl⟩ := h
      exact .inl trivial
    | delete pos path => exact .inr (.inr ⟨pos, path, rfl, h⟩)
    | call pos name es => cases h
    | giveBack pos e => cases h
    | _ =>
      cases h
      exact .inl trivial

namespace Eval

variable (hconfines : host.Confines fs v)
include hconfines

theorem journals_run (fuel : Nat) (a : Activity) : (a.run fuel).Journals host fs v := by
  apply (closed_journals hconfines).run_of_plan
  intro fuel a hrun
  apply (closed_journals hconfines).plan_of_all hrun
  apply a.does.mono
  intro p hp
  rcases hp.calm with hcalm | ⟨pos, mode, path, content, -, v, u, rfl⟩ | ⟨pos, path, -, v, rfl⟩
  · exact hcalm.eval.journals hconfines
  · change (writeFile _ _ _).Journals _ _ _
    rw [writeFile_eq]
    exact journals_carryOut hconfines _
  · change (deleteFile _).Journals _ _ _
    rw [deleteFile_eq]
    exact journals_carryOut hconfines _

theorem journals_runProgram (fuel : Nat) (p : Program) :
    (runProgram fuel p).Journals host fs v := by
  have hfail (fault : Fault) : (fail fault : Eval Unit).Only Request.Calm := outward_only.fail fault
  have hflush : ((ask .flush).bind (accept .output)).Only Request.Calm :=
    (only_ask (q := .flush) trivial).bind (outward_only.accept .output)
  exact (closed_journals hconfines).runProgram (fun fault => (hfail fault).journals hconfines)
    (journals_run hconfines fuel) (hflush.journals hconfines) p

end Eval

end

/-- Every change of files is journalled, in every system whose file operations change only the files
that their paths name and that keeps all records. However a run ends, its records of changes are
those of the changes that it made, in their order, and these make the files what the run left, but
for one that was refused at its end and may be made in part. What is deleted was there, and to
delete what is not there does nothing. Nothing but writes and deletions changes files. -/
theorem runProgram_changes_journalled {ω φ Place : Type} (host : Host ω) (fs : FileSystem φ Place)
    (v : JournalView ω φ) (hconfines : host.Confines fs v) (fuel : Nat) (p : Program) (m : Machine)
    (w : ω) (records : List String) (hkept : v.kept? w = some records) :
    Journalled host fs v (runProgram fuel p m) records w ∧
    (∀ (path : String) (n : Machine) (u : ω),
      (host (.removeFile path) u).1 = .error .noEntry → ∃ u',
        (Eval.deleteFile path n).run host u = (some (.ok (), n), u') ∧
          (Eval.deleteFile path n).records host u = [] ∧ v.files u' = v.files u) ∧
    ∀ (c : Moment ω) (q : Primitive) (n : Machine) (u : ω) (taken : List String),
      c.Gets host (.does q) n u → v.kept? u = some taken →
      v.files ((q.eval n).run host u).2 ≠ v.files u →
      (∃ pos mode path content, c.activity = .act (.write pos mode path content) ∧
        ∃ a b : Value, q = .write mode a.display b.display) ∨
      ∃ pos path, c.activity = .act (.delete pos path) ∧ ∃ a : Value, q = .delete a.display := by
  refine ⟨?_, ?_, ?_⟩
  · exact Eval.journals_runProgram hconfines fuel p m w records hkept
  · intro path n u hmissing
    have hanswer : (Change.delete path).answer host u =
      (.error .noEntry, (host (.removeFile path) u).2) := Prod.ext hmissing rfl
    obtain ⟨hrun, hrecords, -⟩ := Change.carryOut_refused rfl hanswer n
    rw [Eval.deleteFile_eq]
    exact ⟨_, hrun, hrecords, hconfines.missing path u hmissing⟩
  · intro c q n u taken hgets hkept hchanged
    rcases hgets.does.calm with hcalm | hwrite | hdelete
    · obtain ⟨hfiles, -⟩ := hconfines.run_calm (hcalm.eval n) hkept
      exact absurd hfiles hchanged
    · exact .inl hwrite
    · exact .inr hdelete

def watchedWorld : World :=
  { World.empty with log := .memory #[] none }

/-- Writes a file in a directory that is not there yet, writes to it again, deletes it twice, and
writes a text for which there may be no room. -/
def busyProgram : Program :=
  [.write ⟨1, 1⟩ .replace (.string "a/b") (.string "1"),
    .write ⟨2, 1⟩ .extend (.string "a/b") (.string "2"), .delete ⟨3, 1⟩ (.string "a/b"),
    .delete ⟨4, 1⟩ (.string "a/b"), .write ⟨5, 1⟩ .replace (.string "a/c") (.string "text")]

theorem runProgram_changes_journalled_busy :
    (World.cramped 3).Confines Disk.fileSystem World.journal ∧
      World.journal.kept? watchedWorld = some [] ∧
      Journalled (World.cramped 3) Disk.fileSystem World.journal
        (runProgram 9 busyProgram (.fresh 5)) [] watchedWorld ∧
      (runProgram 9 busyProgram (.fresh 5)).records (World.cramped 3) watchedWorld =
        ["[WRITEFILE] a/b", "[APPENDFILE] a/b", "[DELETEFILE] a/b"] ∧
      (((runProgram 9 busyProgram (.fresh 5)).run (World.cramped 3) watchedWorld).2.disk.read
        "a/c").toOption = some "tex".toUTF8 := by
  have hconfines := World.cramped_confines 3
  obtain ⟨hjournalled, -⟩ := runProgram_changes_journalled (World.cramped 3) Disk.fileSystem
    World.journal hconfines 9 busyProgram (.fresh 5) watchedWorld [] rfl
  exact ⟨hconfines, rfl, hjournalled, by decide +kernel, by decide +kernel⟩

end Scriptlet
