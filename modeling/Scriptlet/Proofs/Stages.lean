import Scriptlet.Command.Reader
import Scriptlet.Proofs.Joining
import Scriptlet.Proofs.LogFile

namespace Scriptlet
set_option autoImplicit true

namespace World

theorem Alike.refl {w : World} (hflush : w.output.flushFails = false) : w.Alike w :=
  ⟨rfl, rfl, rfl, rfl, rfl, hflush⟩

theorem Alike.run {w w' : World} (h : w.Alike w') (d : Dialogue α) :
    (d.run host w').1 = (d.run host w).1 ∧ (d.run host w).2.Alike (d.run host w').2 := by
  obtain ⟨hresult, hworld⟩ := overlooks.inStep (Dialogue.InStep.refl (P := Eq) (fun _ => rfl) d) h
  refine ⟨?_, hworld⟩
  generalize (d.run host w).1 = r at hresult
  generalize (d.run host w').1 = r' at hresult
  cases hresult with
  | none => rfl
  | some h => rw [h]

end World

/-- A request is not the news that a statement begins. -/
def Request.Idle (q : Request) : Prop :=
  ∀ s, q ≠ .note (.execute s)

/-- Without any statement having begun, a talk comes to a result, in a world that is like another
one. -/
structure Dialogue.Idles (d : Dialogue α) (w : World) (a : α) (v : World) : Prop where
  result : (d.run World.host w).1 = some a
  world : v.Alike (d.run World.host w).2
  idle : ∀ x ∈ d.asked World.host w, x.1.Idle

def Command.logPath? (o : Options) (usual : Option String) : Option String :=
  if o.noLog then none else o.logFile <|> usual

def Command.logged (path : String) : Except Refusal Unit → Dialogue (Except ScriptError Unit)
  | .error reason => .done (.error (.log path reason))
  | .ok () => (Dialogue.request (.note (.logOpened path))).bind fun _ => .done (.ok ())

theorem Command.openLog_eq (o : Options) (usual : Option String) :
    openLog o usual =
      match logPath? o usual with
      | none => .done (.ok ())
      | some path => (Dialogue.openLog path).bind (logged path) := by
  unfold openLog logPath?
  cases (if o.noLog then none else o.logFile <|> usual) with
  | none => rfl
  | some path =>
    apply congrArg (Dialogue.openLog path).bind
    funext r
    cases r <;> rfl

theorem Command.only_openLog {P : Request → Prop} (hfile : ∀ path, P (.openLog path))
    (hdirectory : ∀ path, P (.createDirectories path))
    (hnote : ∀ path, P (.note (.logOpened path))) (o : Options) (usual : Option String) :
    (openLog o usual).Only P := by
  rw [openLog_eq]
  cases logPath? o usual with
  | none => trivial
  | some path =>
    have hparent : (Dialogue.prepareParent path).Only P := by
      rw [Dialogue.prepareParent_eq]
      cases Path.outer? path with
      | none => trivial
      | some directory => exact ⟨hdirectory directory, fun _ => trivial⟩
    have hopen : (Dialogue.openLog path).Only P := by
      apply hparent.bind
      intro r
      cases r with
      | error reason => trivial
      | ok => exact ⟨hfile path, fun _ => trivial⟩
    apply hopen.bind
    intro r
    cases r with
    | error reason => trivial
    | ok => exact ⟨hnote path, fun _ => trivial⟩

namespace Dialogue.Idles

variable {w v : World}

theorem bind {d : Dialogue α} {f : α → Dialogue β} (h : d.Idles w a v)
    (hf : ∀ u, v.Alike u → (f a).Idles u b x) : (d.bind f).Idles w b x := by
  obtain ⟨hresult, hworld, hidle⟩ := h
  have hrun := run_bind World.host d f w
  have hasked := asked_bind World.host d f w
  rcases hd : d.run World.host w with ⟨r, u⟩
  rw [hd] at hresult hworld hrun hasked
  obtain rfl : r = some a := hresult
  obtain ⟨hresult', hworld', hidle'⟩ := hf u hworld
  refine ⟨?_, ?_, ?_⟩
  · rw [hrun]
    exact hresult'
  · rw [hrun]
    exact hworld'
  · rw [hasked]
    exact List.forall_mem_append.2 ⟨hidle, hidle'⟩

theorem run_bind {d : Dialogue α} (h : d.Idles w a v) (f : α → Dialogue β) :
    ∃ u, v.Alike u ∧ (d.bind f).run World.host w = (f a).run World.host u := by
  obtain ⟨hresult, hworld, -⟩ := h
  have hrun := Dialogue.run_bind World.host d f w
  rcases hd : d.run World.host w with ⟨r, u⟩
  rw [hd] at hresult hworld hrun
  obtain rfl : r = some a := hresult
  exact ⟨u, hworld, hrun⟩

theorem done (hv : v.Alike w) (a : α) : (Dialogue.done a).Idles w a v :=
  ⟨rfl, hv, fun _ hx => nomatch hx⟩

theorem murmur {event : Event} (hv : v.Alike w) (hevent : ∀ s, event ≠ .execute s) :
    (request (.note event)).Idles w () v := by
  refine ⟨rfl, ?_, ?_⟩
  · obtain ⟨errors, events, he⟩ := w.note_eq event
    change v.Alike (w.note event)
    rw [he]
    exact ⟨hv.disk, hv.input, hv.output, hv.log, hv.clock, hv.flushes⟩
  · intro x hx s hs
    obtain rfl := List.mem_singleton.1 hx
    cases hs
    exact hevent s rfl

theorem complain (hv : v.Alike w) (text : String) : (request (.complain text)).Idles w () v := by
  refine ⟨rfl, ⟨hv.disk, hv.input, hv.output, hv.log, hv.clock, hv.flushes⟩, ?_⟩
  intro x hx s hs
  obtain rfl := List.mem_singleton.1 hx
  cases hs

theorem announce (hv : v.Alike w) (items : List Item) :
    (Scriptlet.announce items).Idles w () v := by
  induction items generalizing w with
  | nil => exact done hv ()
  | cons item rest ih =>
    cases item with
    | error e => exact ih hv
    | ok t =>
      unfold Scriptlet.announce
      split
      · exact ih hv
      · exact (murmur hv (by simp)).bind fun u hu => ih hu

theorem readScript (hv : v.Alike w) (text : String) :
    (Scriptlet.readScript text).Idles w (parseText text) v :=
  (announce hv _).bind fun _ hu => done hu _

theorem protest (hv : v.Alike w) (complaints : List String) :
    (Command.protest complaints).Idles w () v := by
  induction complaints generalizing w with
  | nil => exact done hv ()
  | cons complaint rest ih => exact (complain hv _).bind fun u hu => ih hu

theorem giveUp (hv : v.Alike w) (e : ScriptError) (source : String) (file : Option String) :
    (Command.giveUp e source file).Idles w e.exitCode v :=
  (complain hv _).bind fun _ hu => done hu _

theorem readFile (hv : v.Alike w) (path : String) :
    (request (.readFile path)).Idles w ((v.disk.read path).bind World.decode) v := by
  refine ⟨?_, hv, ?_⟩
  · rw [hv.disk]
    rfl
  · intro x hx s hs
    obtain rfl := List.mem_singleton.1 hx
    cases hs

theorem openLog {u : World} (hv : w.Alike u)
    (h : (Command.openLog o usual).run World.host w = (some r, v)) :
    (Command.openLog o usual).Idles u r v := by
  obtain ⟨hresult, hworld⟩ := hv.run (Command.openLog o usual)
  rw [h] at hresult hworld
  refine ⟨hresult, hworld, ?_⟩
  intro x hx
  have hidle (q : Request) (hq : ∀ s, q ≠ .note (.execute s)) : q.Idle := hq
  have honly : (Command.openLog o usual).Only Request.Idle :=
    Command.only_openLog (fun _ => hidle _ (by simp)) (fun _ => hidle _ (by simp))
      (fun _ => hidle _ (by simp)) o usual
  exact honly.asked hx

end Dialogue.Idles

namespace Command

variable {fuel : Nat} {complaints : List String} {read : List String → Except Notice Options}
  {arguments : List String} {o : Options} {path : String} {v w : World}

def ended (path source : String) : Except RuntimeError Unit × Machine → Dialogue Nat
  | (.error e, _) => giveUp (.runtime e) source (some path)
  | (.ok (), _) => .done 0

def opened (fuel : Nat) (path source : String) (p : Program) :
    Except ScriptError Unit → Dialogue Nat
  | .error e => giveUp e source (some path)
  | .ok () => (runProgram fuel p (.fresh defaultCallLimit)).bind (ended path source)

def parsed (fuel : Nat) (path : String) (o : Options) (source : String) :
    Except ParseError Program → Dialogue Nat
  | .error e => giveUp (.parse e) source (some path)
  | .ok p => (openLog o (some (Path.defaultLog path))).bind (opened fuel path source p)

def fetched (fuel : Nat) (path : String) (o : Options) : Except Refusal String → Dialogue Nat
  | .error reason => giveUp (.source path reason) "" (some path)
  | .ok source => (readScript source).bind (parsed fuel path o source)

/-- The stages of a script command, each after the one before. -/
theorem runFile_eq : runFile fuel path o =
    (Dialogue.request (.readFile path)).bind (fetched fuel path o) := by
  apply congrArg (Dialogue.request (.readFile path)).bind
  funext r
  cases r with
  | error reason => rfl
  | ok source =>
    apply congrArg (readScript source).bind
    funext r
    cases r with
    | error e => rfl
    | ok p =>
      apply congrArg (openLog o (some (Path.defaultLog path))).bind
      funext r
      cases r with
      | error e => rfl
      | ok =>
        apply congrArg (runProgram fuel p (.fresh defaultCallLimit)).bind
        funext r
        obtain ⟨r, n⟩ := r
        cases r <;> rfl

/-- A command line that is understood, and names a script. -/
structure RunsScript (read : List String → Except Notice Options) (arguments : List String)
    (o : Options) (path : String) : Prop where
  options : read arguments = .ok o
  script : o.script = some path

theorem RunsScript.run_eq (h : RunsScript read arguments o path) :
    run fuel complaints read arguments = (protest complaints).bind fun _ =>
      (Dialogue.request (.readFile path)).bind (fetched fuel path o) := by
  have hstart : start fuel o = runFile fuel path o := by
    unfold start
    rw [h.script]
  unfold run
  rw [h.options, ← runFile_eq, ← hstart]
  rfl

def source (w : World) (path : String) : Except Refusal String :=
  (w.disk.read path).bind World.decode

theorem RunsScript.idles (h : RunsScript read arguments o path)
    (hflush : w.output.flushFails = false)
    (hfetched : ∀ u, w.Alike u → (fetched fuel path o (source w path)).Idles u status v) :
    (run fuel complaints read arguments).Idles w status v := by
  rw [h.run_eq]
  apply (Dialogue.Idles.protest (.refl hflush) complaints).bind
  intro u hu
  exact (Dialogue.Idles.readFile hu path).bind hfetched

theorem RunsScript.unreadable (h : RunsScript read arguments o path)
    (hflush : w.output.flushFails = false) (hsource : source w path = .error reason) :
    (run fuel complaints read arguments).Idles w 1 w := by
  apply h.idles hflush
  intro u hu
  rw [hsource]
  exact .giveUp hu _ _ _

theorem RunsScript.unparsed (h : RunsScript read arguments o path)
    (hflush : w.output.flushFails = false) (hsource : source w path = .ok text)
    (hparse : parseText text = .error e) : (run fuel complaints read arguments).Idles w 2 w := by
  apply h.idles hflush
  intro u hu
  rw [hsource]
  apply (Dialogue.Idles.readScript hu text).bind
  intro u hu
  rw [hparse]
  exact .giveUp hu _ _ _

theorem RunsScript.unlogged (h : RunsScript read arguments o path)
    (hflush : w.output.flushFails = false) (hsource : source w path = .ok text)
    (hparse : parseText text = .ok p)
    (hlog : (openLog o (some (Path.defaultLog path))).run World.host w = (some (.error e), v)) :
    (run fuel complaints read arguments).Idles w e.exitCode v := by
  apply h.idles hflush
  intro u hu
  rw [hsource]
  apply (Dialogue.Idles.readScript hu text).bind
  intro u hu
  rw [hparse]
  apply (Dialogue.Idles.openLog hu hlog).bind
  intro u hu
  exact .giveUp hu _ _ _

def statusOf : Except RuntimeError Unit × Machine → Nat
  | (.error _, _) => 3
  | (.ok (), _) => 0

theorem RunsScript.ran (h : RunsScript read arguments o path) (fuel : Nat)
    (hflush : w.output.flushFails = false) (hsource : source w path = .ok text)
    (hparse : parseText text = .ok p)
    (hlog : (openLog o (some (Path.defaultLog path))).run World.host w = (some (.ok ()), v)) :
    ((run fuel complaints read arguments).run World.host w).1 =
      ((runProgram fuel p (.fresh defaultCallLimit)).run World.host v).1.map statusOf ∧
    ((runProgram fuel p (.fresh defaultCallLimit)).run World.host v).2.Alike
      ((run fuel complaints read arguments).run World.host w).2 := by
  rw [h.run_eq]
  -- Up to the run, each stage leaves a world like the one before; only the log makes another one.
  obtain ⟨w₁, hw₁, hrun⟩ :=
    (Dialogue.Idles.protest (.refl hflush) complaints).run_bind fun _ =>
      (Dialogue.request (.readFile path)).bind (fetched fuel path o)
  rw [hrun]
  obtain ⟨w₂, hw₂, hrun⟩ := (Dialogue.Idles.readFile hw₁ path).run_bind (fetched fuel path o)
  have hread : (w.disk.read path).bind World.decode = .ok text := hsource
  rw [hrun, hread]
  obtain ⟨w₃, hw₃, hrun⟩ :=
    (Dialogue.Idles.readScript hw₂ text).run_bind (parsed fuel path o text)
  rw [fetched, hrun, hparse]
  obtain ⟨w₄, hw₄, hrun⟩ := (Dialogue.Idles.openLog hw₃ hlog).run_bind (opened fuel path text p)
  rw [parsed, hrun, opened, Dialogue.run_bind]
  obtain ⟨hresult, hworld⟩ := hw₄.run (runProgram fuel p (.fresh defaultCallLimit))
  rcases hv : (runProgram fuel p (.fresh defaultCallLimit)).run World.host v with ⟨r, v'⟩
  rcases hu : (runProgram fuel p (.fresh defaultCallLimit)).run World.host w₄ with ⟨r', u⟩
  rw [hv, hu] at hresult hworld
  obtain rfl : r' = r := hresult
  rcases r' with _ | ⟨e | _, n⟩
  · exact ⟨rfl, hworld⟩
  · obtain ⟨hstatus, hlast, -⟩ :=
      Dialogue.Idles.giveUp hworld (.runtime e) text (some path)
    exact ⟨hstatus, hlast⟩
  · exact ⟨rfl, hworld⟩

theorem openLog_cases (o : Options) (usual : Option String) (w : World) :
    (logPath? o usual = none ∧ (openLog o usual).run World.host w = (some (.ok ()), w)) ∨
    ∃ file, logPath? o usual = some file ∧
      ((∃ reason v, (Dialogue.openLog file).run World.host w = (some (.error reason), v) ∧
        (openLog o usual).run World.host w = (some (.error (.log file reason)), v)) ∨
      ∃ v, (Dialogue.openLog file).run World.host w = (some (.ok ()), v) ∧
        (openLog o usual).run World.host w = (some (.ok ()), v.note (.logOpened file))) := by
  rw [openLog_eq]
  cases logPath? o usual with
  | none => exact .inl ⟨rfl, rfl⟩
  | some file =>
    refine .inr ⟨file, rfl, ?_⟩
    obtain ⟨d, -, ⟨reason, h⟩ | ⟨n, d', -, h⟩⟩ := World.openLog_cases file w
    · refine .inl ⟨reason, _, h, ?_⟩
      dsimp only
      rw [Dialogue.run_bind, h]
      rfl
    · refine .inr ⟨_, h, ?_⟩
      dsimp only
      rw [Dialogue.run_bind, h]
      rfl

theorem openLog_output (h : (openLog o usual).run World.host w = (some r, v)) :
    v.output = w.output := by
  rcases openLog_cases o usual w with
    ⟨-, hrun⟩ | ⟨file, -, ⟨reason, u, hfile, hrun⟩ | ⟨u, hfile, hrun⟩⟩
  · cases hrun.symm.trans h
    rfl
  · cases hrun.symm.trans h
    exact World.output_of_openLog hfile
  · cases hrun.symm.trans h
    have hu : u.output = w.output := World.output_of_openLog hfile
    obtain ⟨errors, events, he⟩ := u.note_eq (.logOpened file)
    rw [he]
    exact hu

/-- The records of a run go where the options say: to no other place than before, or to a file,
behind its old contents, if the run leaves that file alone. -/
def KeepsLog (o : Options) (path : String) (w v : World) (d : Dialogue α) (u : World) : Prop :=
  match logPath? o (some (Path.defaultLog path)) with
  | none => v = w
  | some file => ∃ l n old, w.OpensAt file l old ∧ v.LogsTo l n old ∧
    ((∀ x ∈ d.asked World.host v, x.1.Spares l x.2.disk) →
      u.LogsTo l n (old ++ logBytes (v.clock.stamps (d.records World.host v))))

theorem keepsLog
    (h : (openLog o (some (Path.defaultLog path))).run World.host w = (some (.ok ()), v))
    {d : Dialogue α} (hu : (d.run World.host v).2.Alike u) : KeepsLog o path w v d u := by
  unfold KeepsLog
  rcases openLog_cases o (some (Path.defaultLog path)) w with
    ⟨hpath, hrun⟩ | ⟨file, hpath, ⟨reason, x, hfile, hrun⟩ | ⟨x, hfile, hrun⟩⟩
  · cases hrun.symm.trans h
    rw [hpath]
  · cases hrun.symm.trans h
  · cases hrun.symm.trans h
    rw [hpath]
    obtain ⟨l, n, old, hopens, hx⟩ := World.logsTo_openLog hfile
    have hlogs : (x.note (.logOpened file)).LogsTo l n old := by
      obtain ⟨errors, events, he⟩ := x.note_eq (.logOpened file)
      rw [he]
      exact ⟨hx.log, hx.file⟩
    refine ⟨l, n, old, hopens, hlogs, ?_⟩
    intro hspare
    obtain ⟨hlog, hentry⟩ := hlogs.run hspare
    exact ⟨hu.log ▸ hlog, hu.disk ▸ hentry⟩

/-- A script command goes through its stages in order, and its status tells the last of them. A
source that cannot be read, or is no program, leaves everything as it was; a log that cannot be
opened leaves the output as it was. In these cases no statement begins. Otherwise the program is run
once, and what the run leaves is what the command leaves: its files, its output, and its log. -/
theorem script_staged (fuel : Nat) (complaints : List String)
    (read : List String → Except Notice Options) (arguments : List String) (o : Options)
    (path : String) (w : World) (h : RunsScript read arguments o path)
    (hflush : w.output.flushFails = false) :
    (∀ reason, source w path = .error reason → (run fuel complaints read arguments).Idles w 1 w) ∧
    (∀ text e, source w path = .ok text → parseText text = .error e →
      (run fuel complaints read arguments).Idles w 2 w) ∧
    ∀ text p, source w path = .ok text → parseText text = .ok p →
      (∃ e v, (openLog o (some (Path.defaultLog path))).run World.host w = (some (.error e), v) ∧
        v.output = w.output ∧ (run fuel complaints read arguments).Idles w 1 v) ∨
      ∃ v, (openLog o (some (Path.defaultLog path))).run World.host w = (some (.ok ()), v) ∧
        v.output = w.output ∧
        ((run fuel complaints read arguments).run World.host w).1 =
          ((runProgram fuel p (.fresh defaultCallLimit)).run World.host v).1.map statusOf ∧
        ((runProgram fuel p (.fresh defaultCallLimit)).run World.host v).2.Alike
          ((run fuel complaints read arguments).run World.host w).2 ∧
        KeepsLog o path w v (runProgram fuel p (.fresh defaultCallLimit))
          ((run fuel complaints read arguments).run World.host w).2 := by
  refine ⟨?_, ?_, ?_⟩
  · intro reason hsource
    exact h.unreadable hflush hsource
  · intro text e hsource hparse
    exact h.unparsed hflush hsource hparse
  · intro text p hsource hparse
    -- That a log is refused is an error of its own, so that its status is known.
    have hcases : (∃ e v, (openLog o (some (Path.defaultLog path))).run World.host w =
          (some (.error e), v) ∧ e.exitCode = 1) ∨
        ∃ v, (openLog o (some (Path.defaultLog path))).run World.host w = (some (.ok ()), v) := by
      rcases openLog_cases o (some (Path.defaultLog path)) w with
        ⟨-, hrun⟩ | ⟨file, -, ⟨reason, x, -, hrun⟩ | ⟨x, -, hrun⟩⟩
      · exact .inr ⟨w, hrun⟩
      · exact .inl ⟨_, x, hrun, rfl⟩
      · exact .inr ⟨_, hrun⟩
    rcases hcases with ⟨e, v, hlog, hstatus⟩ | ⟨v, hlog⟩
    · have hidles : (run fuel complaints read arguments).Idles w e.exitCode v :=
        h.unlogged hflush hsource hparse hlog
      rw [hstatus] at hidles
      exact .inl ⟨e, v, hlog, openLog_output hlog, hidles⟩
    · obtain ⟨hstatus, hworld⟩ := h.ran fuel hflush hsource hparse hlog
      exact .inr ⟨v, hlog, openLog_output hlog, hstatus, hworld, keepsLog hlog hworld⟩

def scriptWorld (text : String) : World :=
  { World.empty with
    disk := ⟨⟨[(["scratch"], .directory), (["scratch", "a.sl"], .file 0 text.toUTF8)]⟩,
      ["scratch"], 1⟩
    clock := .ticking }

def plainOptions : Options := ⟨some "a.sl", none, false⟩

theorem runsScript_plain : RunsScript Options.read ["a.sl"] plainOptions "a.sl" :=
  ⟨by cbv, rfl⟩

theorem openLog_succeeds
    (h : ((openLog o usual).run World.host w).1.map Except.isOk = some true) :
    (openLog o usual).run World.host w =
      (some (.ok ()), ((openLog o usual).run World.host w).2) := by
  generalize (openLog o usual).run World.host w = x at h ⊢
  obtain ⟨_ | ⟨e | _⟩, v⟩ := x
  · cases h
  · cases h
  · rfl

def oneRecord : Program :=
  [.log ⟨1, 1⟩ (.number 1)]

def openedWorld (text : String) : World :=
  ((openLog plainOptions (some (Path.defaultLog "a.sl"))).run World.host (scriptWorld text)).2

theorem oneRecord_spares (x : Request × World)
    (hx : x ∈ (runProgram 9 oneRecord (.fresh defaultCallLimit)).asked World.host
      (openedWorld "log 1")) : x.1.Spares l x.2.disk := by
  have hx' : x ∈ [_, _, _, _] := hx
  simp only [List.mem_cons, List.not_mem_nil, or_false] at hx'
  rcases hx' with rfl | rfl | rfl | rfl <;> trivial

theorem script_staged_oneRecord :
    RunsScript Options.read ["a.sl"] plainOptions "a.sl" ∧
    (scriptWorld "log 1").output.flushFails = false ∧
    ((run 9 [] Options.read ["a.sl"]).run World.host (scriptWorld "log 1")).1 = some 0 ∧
    ∃ l n old, (scriptWorld "log 1").OpensAt "logs/a.log" l old ∧
      ((run 9 [] Options.read ["a.sl"]).run World.host (scriptWorld "log 1")).2.LogsTo l n
        (old ++ logBytes [("2000-01-01 00:00:10", "[LOG] 1")]) := by
  refine ⟨runsScript_plain, rfl, ?_⟩
  obtain ⟨-, -, hstages⟩ :=
    script_staged 9 [] Options.read ["a.sl"] plainOptions "a.sl" (scriptWorld "log 1")
      runsScript_plain rfl
  have hopen : (openLog plainOptions (some (Path.defaultLog "a.sl"))).run World.host
      (scriptWorld "log 1") = (some (.ok ()), openedWorld "log 1") :=
    openLog_succeeds (by decide +kernel)
  rcases hstages "log 1" oneRecord (by cbv) (by cbv) with
    ⟨e, v, hlog, -⟩ | ⟨v, hlog, -, hstatus, -, hkeeps⟩
  · cases hopen.symm.trans hlog
  · cases hopen.symm.trans hlog
    refine ⟨hstatus.trans (by decide +kernel), ?_⟩
    have hpath : logPath? plainOptions (some (Path.defaultLog "a.sl")) = some "logs/a.log" := by
      cbv
    unfold KeepsLog at hkeeps
    rw [hpath] at hkeeps
    obtain ⟨l, n, old, hopens, -, hlast⟩ := hkeeps
    have hrecords : (openedWorld "log 1").clock.stamps
        ((runProgram 9 oneRecord (.fresh defaultCallLimit)).records World.host
          (openedWorld "log 1")) = [("2000-01-01 00:00:10", "[LOG] 1")] := by decide +kernel
    exact ⟨l, n, old, hopens, hrecords ▸ hlast oneRecord_spares⟩

def forgetful : Program :=
  [.log ⟨1, 1⟩ (.number 1), .delete ⟨2, 1⟩ (.string "logs/a.log"), .log ⟨3, 1⟩ (.number 2)]

def forgetfulText : String :=
  "log 1\ndeletefile \"logs/a.log\"\nlog 2"

theorem log_lost_when_deleted :
    ¬ ∀ (fuel : Nat) (complaints : List String) (read : List String → Except Notice Options)
      (arguments : List String) (o : Options) (path file : String) (w v : World) (text : String)
      (p : Program) (l : Location) (n : Nat) (old : ByteArray),
      RunsScript read arguments o path → w.output.flushFails = false →
      source w path = .ok text → parseText text = .ok p →
      logPath? o (some (Path.defaultLog path)) = some file →
      (openLog o (some (Path.defaultLog path))).run World.host w = (some (.ok ()), v) →
      w.OpensAt file l old → v.LogsTo l n old →
      ((run fuel complaints read arguments).run World.host w).2.LogsTo l n
        (old ++ logBytes (v.clock.stamps
          ((runProgram fuel p (.fresh defaultCallLimit)).records World.host v))) := by
  intro h
  have hopen : (openLog plainOptions (some (Path.defaultLog "a.sl"))).run World.host
      (scriptWorld forgetfulText) = (some (.ok ()), openedWorld forgetfulText) :=
    openLog_succeeds (by decide +kernel)
  have hpath : logPath? plainOptions (some (Path.defaultLog "a.sl")) = some "logs/a.log" := by cbv
  have hsource : source (scriptWorld forgetfulText) "a.sl" = .ok forgetfulText := by cbv
  have hparse : parseText forgetfulText = .ok forgetful := by cbv
  obtain ⟨l, n, old, hopens, hlogs⟩ : ∃ l n old,
      (scriptWorld forgetfulText).OpensAt "logs/a.log" l old ∧
      (openedWorld forgetfulText).LogsTo l n old := by
    have hkeeps := keepsLog hopen (d := .done ()) (.refl rfl)
    unfold KeepsLog at hkeeps
    rw [hpath] at hkeeps
    obtain ⟨l, n, old, hopens, hlogs, -⟩ := hkeeps
    exact ⟨l, n, old, hopens, hlogs⟩
  have hlast := h 9 [] Options.read ["a.sl"] plainOptions "a.sl" "logs/a.log" _ _ forgetfulText
    forgetful l n old runsScript_plain rfl hsource hparse hpath hopen hopens hlogs
  obtain ⟨-, halike⟩ := runsScript_plain.ran 9 rfl hsource hparse hopen
  have hlog : (openedWorld forgetfulText).log = .file 1 := rfl
  obtain rfl : n = 1 := Log.file.inj (hlogs.log.symm.trans hlog)
  have hgone : ∀ e ∈ ((runProgram 9 forgetful (.fresh defaultCallLimit)).run World.host
      (openedWorld forgetfulText)).2.disk.entries.entries, e.2.identity? ≠ some 1 := by
    decide +kernel
  rw [halike.disk] at hgone
  exact hgone _ (Disk.mem_of_file hlast.file) rfl

end Command

end Scriptlet
