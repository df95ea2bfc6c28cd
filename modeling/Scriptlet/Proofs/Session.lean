import Scriptlet.Proofs.Session.Feed
import Scriptlet.Proofs.Stages

namespace Scriptlet
set_option autoImplicit true

/-- What a session shows: a prompt for each line and behind it what the line wrote, and at last a
prompt and the words of parting. -/
def shown : List String → Ending → String
  | [], ending => "> " ++ ending.words
  | out :: outs, ending => "> " ++ out ++ shown outs ending

def World.saying (w : World) (text : String) : World :=
  (World.host (.write text) w).2

namespace World

variable {w x : World}

theorem Twin.alike {v : World} (h : w.Twin x) (hv : w.Alike v) : v.Twin x :=
  ⟨hv.disk.symm.trans h.disk, hv.log.symm.trans h.log, hv.clock.symm.trans h.clock,
    hv.output ▸ h.willing, h.willing'⟩

theorem Twin.withInput (h : w.Twin x) (input : List UInt8) : (w.withInput input).Twin x :=
  ⟨h.disk, h.log, h.clock, h.willing, h.willing'⟩

theorem Twin.saying (h : w.Twin x) (text : String) :
    (w.saying text).Twin x ∧ (w.saying text).output.text = w.output.text ++ text := by
  unfold World.saying World.host
  dsimp only
  rw [h.willing.write]
  exact ⟨⟨h.disk, h.log, h.clock, h.willing.accept text, h.willing'⟩, rfl⟩

end World

namespace Shell

variable {fuel : Nat} {line : String} {m : Machine} {w x : World}

def reply (line : String) : Except ScriptError Unit × Machine → Dialogue Machine
  | (.ok (), m) => .done m
  | (.error e, m) => (Dialogue.request (.complain (e.report line none))).bind fun _ => .done m

def parsed (fuel : Nat) (line : String) (m : Machine) :
    Except ParseError Program → Dialogue Machine
  | .error e => reply line (.error (.parse e), m)
  | .ok p => (runProgram fuel p m).bind fun (r, n) => reply line (r.mapError .runtime, n)

theorem obey_eq : obey fuel line m = (readScript line).bind (parsed fuel line m) := by
  unfold obey runScript
  rw [Dialogue.bind_assoc]
  apply congrArg (readScript line).bind
  funext r
  cases r with
  | error e => rfl
  | ok p => exact Dialogue.bind_assoc _ _ _

theorem reply_idles (hv : v.Alike w) (line : String) (r : Except ScriptError Unit) (n : Machine) :
    (reply line (r, n)).Idles w n v := by
  cases r with
  | ok => exact .done hv n
  | error e => exact (Dialogue.Idles.complain hv _).bind fun u hu => .done hu n

theorem announce_unread (items : List Item) : (announce items).Only (· ≠ .readLine) := by
  induction items with
  | nil => trivial
  | cons item rest ih =>
    cases item with
    | error e => exact ih
    | ok t =>
      unfold announce
      split
      · exact ih
      · exact ⟨by simp, fun _ => ih⟩

theorem obey_unread (fuel : Nat) (line : String) (m : Machine) :
    (obey fuel line m).Only (· ≠ .readLine) := by
  have hreply (x : Except ScriptError Unit × Machine) : (reply line x).Only (· ≠ .readLine) := by
    obtain ⟨r, n⟩ := x
    cases r with
    | ok => trivial
    | error e => exact ⟨by simp, fun _ => trivial⟩
  have hread : (readScript line).Only (· ≠ .readLine) :=
    (announce_unread _).bind fun _ => trivial
  rw [obey_eq]
  apply hread.bind
  intro r
  cases r with
  | error e => exact hreply (.error (.parse e), m)
  | ok p => exact (runProgram_unread fuel p m).bind fun _ => hreply _

theorem obey_fed (h : w.Twin x) (hline : line ≠ "") :
    (∃ v, fed fuel line m x = none ∧ (obey fuel line m).run World.host w = (none, v)) ∨
    ∃ out n y v, fed fuel line m x = some (out, n, y) ∧
      (obey fuel line m).run World.host w = (some n, v) ∧ v.Twin y ∧
      v.output.text = w.output.text ++ out := by
  obtain ⟨u, hu, hrun⟩ :=
    (Dialogue.Idles.readScript (.refl h.willing.flushes) line).run_bind (parsed fuel line m)
  have htwin := h.alike hu
  rw [obey_eq, hrun, hu.output]
  unfold fed
  rw [if_neg hline]
  cases parseText line with
  | error e =>
    have hreply := reply_idles (.refl htwin.willing.flushes) line (.error (.parse e)) m
    refine .inr ⟨"", m, x, _, rfl, Prod.ext hreply.result rfl, htwin.alike hreply.world, ?_⟩
    exact (congrArg Output.text hreply.world.output).symm.trans String.append_empty.symm
  | ok p =>
    obtain ⟨hresult, hlast, text, htext, htext'⟩ :=
      htwin.hushed.run (runProgram_unread fuel p m)
    dsimp only [parsed]
    rw [Dialogue.run_bind]
    rcases hx : (runProgram fuel p m).run World.host x.hushed with ⟨r, y⟩
    rcases hv : (runProgram fuel p m).run World.host u with ⟨r', v⟩
    rw [hx] at hresult hlast htext'
    rw [hv] at hresult hlast htext
    obtain rfl : r = r' := hresult
    rcases r with _ | ⟨r, n⟩
    · exact .inl ⟨v, rfl, rfl⟩
    · have hreply := reply_idles (.refl hlast.willing.flushes) line (r.mapError .runtime) n
      refine .inr ⟨y.output.text, n, y, _, rfl, Prod.ext hreply.result rfl,
        hlast.alike hreply.world, ?_⟩
      rw [← hreply.world.output, htext, htext']
      exact congrArg _ String.empty_append.symm

def part (m : Machine) : Ending → Dialogue Machine
  | .unreadable =>
    (Dialogue.request (.complain s!"Error reading input: {Refusal.invalidText.text}\n")).bind
      fun _ => .done m
  | ending => (say ending.words).bind fun _ => .done m

/-- What a session does with a line, and after it. -/
def goOn (fuel : Nat) (line : String) (m : Machine) : Dialogue Machine :=
  if line = "" then converse fuel m else (obey fuel line m).bind (converse fuel)

/-- What a session does when it has asked for a line. -/
def hear (fuel : Nat) (m : Machine) : Except Refusal (Option String) → Dialogue Machine
  | .error reason =>
    (Dialogue.request (.complain s!"Error reading input: {reason.text}\n")).bind fun _ => .done m
  | .ok none => part m .exhausted
  | .ok (some line) =>
    if isFarewell (Text.trim line) then part m .farewell else goOn fuel (Text.trim line) m

theorem converse_succ (fuel : Nat) (m : Machine) : converse (fuel + 1) m =
    (say "> ").bind fun _ => (Dialogue.request .flush).bind fun _ =>
      (Dialogue.request .readLine).bind (hear fuel m) := by
  apply congrArg (say "> ").bind
  funext _
  apply congrArg (Dialogue.request .flush).bind
  funext _
  apply congrArg (Dialogue.request .readLine).bind
  funext r
  rcases r with reason | _ | line <;> rfl

theorem run_converse (fuel : Nat) (m : Machine) (w : World) (input : List UInt8) :
    (converse (fuel + 1) m).run World.host (w.withInput input) =
      (hear fuel m ((w.saying "> ").withInput input).readLine.1).run World.host
        ((w.saying "> ").withInput input).readLine.2 := by
  rw [converse_succ]
  rfl

/-- A session ends as it was heard to end, or obeys the first line that was heard and goes on. -/
theorem converse_cases (fuel : Nat) (m : Machine) (w : World)
    (h : heard (byteLines input) = (lines, ending)) : ∃ left,
    (lines = [] ∧ (converse (fuel + 1) m).run World.host (w.withInput input) =
      (part m ending).run World.host ((w.saying "> ").withInput left)) ∨
    ∃ line rest, lines = line :: rest ∧ heard (byteLines left) = (rest, ending) ∧
      (converse (fuel + 1) m).run World.host (w.withInput input) =
        (goOn fuel line m).run World.host ((w.saying "> ").withInput left) := by
  rw [run_converse]
  cases hlines : byteLines input with
  | nil =>
    rw [hlines] at h
    cases h
    have hread := World.readLine_nil (w := (w.saying "> ").withInput input) hlines
    rw [hread]
    exact ⟨input, .inl ⟨rfl, rfl⟩⟩
  | cons bytes more =>
    rw [hlines, heard] at h
    obtain ⟨left, rfl, hread⟩ := World.readLine_cons (w := (w.saying "> ").withInput input) hlines
    rw [hread, World.decode]
    refine ⟨left, ?_⟩
    cases hbytes : String.fromUTF8? ⟨bytes.toArray⟩ with
    | none =>
      rw [hbytes] at h
      cases h
      exact .inl ⟨rfl, rfl⟩
    | some text =>
      rw [hbytes] at h
      dsimp only at h ⊢
      rw [Except.map, Function.comp_apply, hear, Text.trim_chomp]
      split at h
      · rw [if_pos (by assumption)]
        cases h
        exact .inl ⟨rfl, rfl⟩
      · rw [if_neg (by assumption)]
        cases h
        exact .inr ⟨_, _, rfl, rfl, rfl⟩

theorem part_unread (m : Machine) (ending : Ending) : (part m ending).Only (· ≠ .readLine) := by
  cases ending <;> exact ⟨by simp, fun _ => trivial⟩

theorem run_part (h : w.Twin x) (m : Machine) (ending : Ending) :
    ∃ v, (part m ending).run World.host w = (some m, v) ∧ v.Twin x ∧
      v.output.text = w.output.text ++ ending.words := by
  cases ending with
  | exhausted => exact ⟨_, rfl, h.saying _⟩
  | farewell => exact ⟨_, rfl, h.saying _⟩
  | unreadable =>
    refine ⟨_, rfl, h.alike ⟨rfl, rfl, rfl, rfl, rfl, h.willing.flushes⟩, ?_⟩
    exact String.append_empty.symm

theorem obey_input (h : (obey fuel line m).run World.host w = (r, v)) : v.input = w.input := by
  have hinput := (obey_unread fuel line m).input_run w
  rwa [h] at hinput

theorem goOn_fed (h : w.Twin x) (fuel : Nat) (line : String) (m : Machine) :
    (∃ v, fed fuel line m x = none ∧ (goOn fuel line m).run World.host w = (none, v)) ∨
    ∃ out n y u, fed fuel line m x = some (out, n, y) ∧
      (goOn fuel line m).run World.host w = (converse fuel n).run World.host u ∧
      u.Twin y ∧ u.input = w.input ∧ u.output.text = w.output.text ++ out := by
  unfold goOn
  by_cases hline : line = ""
  · rw [if_pos hline]
    exact .inr ⟨"", m, x, w, if_pos hline, rfl, h, rfl, String.append_empty.symm⟩
  · rw [if_neg hline, Dialogue.run_bind]
    rcases obey_fed h hline with ⟨v, hfed, hobey⟩ | ⟨out, n, y, u, hfed, hobey, hnext, htext⟩
    · rw [hobey]
      exact .inl ⟨v, hfed, rfl⟩
    · rw [hobey]
      exact .inr ⟨out, n, y, u, hfed, rfl, hnext, obey_input hobey, htext⟩

/-- A session that comes to its end leaves what comes of the lines that it heard. -/
theorem converse_feed (h : w.Twin x) (hheard : heard (byteLines w.input) = (lines, ending))
    (hrun : (converse fuel m).run World.host w = (some n, v)) :
    ∃ outs y, feed fuel lines m x = some (outs, n, y) ∧ v.Twin y ∧
      v.output.text = w.output.text ++ shown outs ending := by
  induction fuel generalizing lines m w x with
  | zero => cases hrun
  | succ fuel ih =>
    obtain ⟨htwin, htext⟩ := h.saying "> "
    obtain ⟨left, ⟨rfl, hend⟩ | ⟨line, rest, rfl, hrest, hstep⟩⟩ := converse_cases fuel m w hheard
    · rw [w.withInput_self, hrun] at hend
      obtain ⟨v', hpart, hlast, hwords⟩ := run_part (htwin.withInput left) m ending
      cases hend.trans hpart
      refine ⟨[], x, rfl, hlast, hwords.trans ?_⟩
      exact (congrArg (· ++ ending.words) htext).trans String.append_assoc
    · rw [w.withInput_self, hrun] at hstep
      rcases goOn_fed (htwin.withInput left) fuel line m with
        ⟨u, -, hnone⟩ | ⟨out, k, y, u, hfed, hnext, htwin', hinput, hwritten⟩
      · cases hstep.trans hnone
      · obtain rfl : u.input = left := hinput
        obtain ⟨outs, z, hfeed, hlast, hshown⟩ := ih htwin' hrest (hnext.symm.trans hstep.symm)
        -- The lines are fed with the fuel of the whole session, which is more than is left for them.
        have hle := fuel.le_succ
        refine ⟨out :: outs, z, feed_of_fed (fed_mono hle hfed) (feed_mono hle hfeed), hlast, ?_⟩
        change _ = (w.saying "> ").output.text ++ _ at hwritten
        rw [hshown, hwritten, htext, shown, String.append_assoc, String.append_assoc,
          String.append_assoc]

theorem converse_finishes {fuel' : Nat} (h : w.Twin x)
    (hheard : heard (byteLines w.input) = (lines, ending))
    (hfeed : feed fuel lines m x = some z) (hle : fuel + lines.length < fuel') :
    ∃ n v, (converse fuel' m).run World.host w = (some n, v) := by
  induction fuel' generalizing lines m w x z with
  | zero => omega
  | succ fuel' ih =>
    obtain ⟨htwin, -⟩ := h.saying "> "
    obtain ⟨left, ⟨rfl, hend⟩ | ⟨line, rest, rfl, hrest, hstep⟩⟩ := converse_cases fuel' m w hheard
    · obtain ⟨v, hpart, -⟩ := run_part (htwin.withInput left) m ending
      exact ⟨m, v, hend.trans hpart⟩
    · obtain ⟨out, k, y, outs, last, hfed, hmore, rfl⟩ := feed_cons hfeed
      rw [List.length_cons] at hle
      have hfed' : fed fuel' line m x = some (out, k, y) := fed_mono (by omega) hfed
      rcases goOn_fed (htwin.withInput left) fuel' line m with
        ⟨u, hnone, -⟩ | ⟨out', k', y', u, hsome, hnext, htwin', hinput, -⟩
      · cases hfed'.symm.trans hnone
      · cases hfed'.symm.trans hsome
        obtain rfl : u.input = left := hinput
        obtain ⟨n, v, hend⟩ := ih htwin' hrest hmore (by omega)
        exact ⟨n, v, hstep.trans (hnext.trans hend)⟩

/-- A session makes the same of two inputs of which it hears the same, but for what it leaves of
them. -/
theorem converse_heard (fuel : Nat) (m : Machine) (w : World)
    (h : heard (byteLines input) = heard (byteLines input')) :
    ∃ left, (converse fuel m).run World.host (w.withInput input') =
      (((converse fuel m).run World.host (w.withInput input)).1,
        ((converse fuel m).run World.host (w.withInput input)).2.withInput left) := by
  induction fuel generalizing m w input input' with
  | zero => exact ⟨input', rfl⟩
  | succ fuel ih =>
    rcases hheard : heard (byteLines input) with ⟨lines, ending⟩
    obtain ⟨left, hfirst⟩ := converse_cases fuel m w hheard
    obtain ⟨left', hsecond⟩ := converse_cases fuel m w (h.symm.trans hheard)
    rcases hfirst with ⟨rfl, hend⟩ | ⟨line, rest, rfl, hrest, hstep⟩
    · rcases hsecond with ⟨-, hend'⟩ | ⟨line, rest, hlines, -⟩
      · rw [hend, hend']
        exact ⟨left', (part_unread m ending).run_withInput _ left left'⟩
      · cases hlines
    · rcases hsecond with ⟨hlines, -⟩ | ⟨line', rest', hlines, hrest', hstep'⟩
      · cases hlines
      · cases hlines
        have hsame := hrest.trans hrest'.symm
        rw [hstep, hstep', goOn]
        split
        · exact ih m _ hsame
        · rw [Dialogue.run_bind, Dialogue.run_bind,
            (obey_unread fuel line m).run_withInput _ left left']
          rcases hobey : (obey fuel line m).run World.host
            ((w.saying "> ").withInput left) with ⟨_ | n, u⟩
          · exact ⟨left', rfl⟩
          · obtain rfl : u.input = left := obey_input hobey
            exact ih n u hsame

end Shell

namespace Command

variable {fuel : Nat} {complaints : List String} {read : List String → Except Notice Options}
  {arguments : List String} {o : Options} {v w : World}

/-- A command line that is understood, and names no script. -/
structure RunsShell (read : List String → Except Notice Options) (arguments : List String)
    (o : Options) : Prop where
  options : read arguments = .ok o
  script : o.script = none

def greeting : String :=
  version ++ "Type 'exit' or press Ctrl+D to quit\n\n"

def opening (complaints : List String) (o : Options) : Dialogue (Except ScriptError Unit) :=
  (protest complaints).bind fun _ => (Shell.say greeting).bind fun _ => openLog o none

def conversing (fuel : Nat) : Except ScriptError Unit → Dialogue Nat
  | .error e => giveUp e "" none
  | .ok () => (Shell.converse fuel (.fresh defaultCallLimit)).bind fun _ => .done 0

theorem runShell_eq : runShell fuel o =
    (Shell.say greeting).bind fun _ => (openLog o none).bind (conversing fuel) := by
  apply congrArg (Shell.say greeting).bind
  funext _
  apply congrArg (openLog o none).bind
  funext r
  cases r <;> rfl

theorem RunsShell.run_eq (h : RunsShell read arguments o) :
    run fuel complaints read arguments = (opening complaints o).bind (conversing fuel) := by
  have hstart : start fuel o = runShell fuel o := by
    unfold start
    rw [h.script]
  have hrun : run fuel complaints read arguments =
      (protest complaints).bind fun _ => runShell fuel o := by
    unfold run
    rw [h.options, ← hstart]
    rfl
  rw [hrun, runShell_eq, opening, Dialogue.bind_assoc]
  rfl

theorem opening_unread (complaints : List String) (o : Options) :
    (opening complaints o).Only (· ≠ .readLine) := by
  have hprotest : (protest complaints).Only (· ≠ .readLine) := by
    induction complaints with
    | nil => trivial
    | cons complaint rest ih => exact ⟨by simp, fun _ => ih⟩
  apply hprotest.bind
  intro _
  refine ⟨by simp, fun _ => ?_⟩
  exact only_openLog (by simp) (by simp) (by simp) o none

theorem run_opening (complaints : List String) (hwilling : w.output.Willing)
    (hlog : (openLog o none).run World.host w = (some (.ok ()), v)) :
    ∃ u, (opening complaints o).run World.host w = (some (.ok ()), u) ∧ u.Twin v ∧
      u.input = w.input ∧ u.output.text = w.output.text ++ greeting := by
  have hinput := (opening_unread complaints o).input_run w
  obtain ⟨u, hu, hrun⟩ := (Dialogue.Idles.protest (.refl hwilling.flushes) complaints).run_bind
    fun _ => (Shell.say greeting).bind fun _ => openLog o none
  -- The greeting comes before the log is opened, which no opening of a log can tell.
  have hself : w.Twin w := ⟨rfl, rfl, rfl, hwilling, hwilling⟩
  obtain ⟨htwin, htext⟩ := (hself.alike hu).saying greeting
  obtain ⟨hresult, hlast, -⟩ :=
    htwin.run (only_openLog (by simp) (by simp) (by simp) o none)
  change (opening complaints o).run World.host w =
    (openLog o none).run World.host (u.saying greeting) at hrun
  rw [hrun] at hinput ⊢
  rcases hopen : (openLog o none).run World.host (u.saying greeting) with ⟨r, u'⟩
  rw [hopen] at hresult hlast hinput
  rw [hlog] at hresult hlast
  obtain rfl : r = some (.ok ()) := hresult.symm
  refine ⟨u', rfl, hlast, hinput, ?_⟩
  rw [openLog_output hopen, htext, ← hu.output]

theorem RunsShell.ran (h : RunsShell read arguments o) (fuel : Nat)
    (hopening : (opening complaints o).run World.host w = (some (.ok ()), v)) :
    (run fuel complaints read arguments).run World.host w =
      (((Shell.converse fuel (.fresh defaultCallLimit)).run World.host v).1.map fun _ => 0,
        ((Shell.converse fuel (.fresh defaultCallLimit)).run World.host v).2) := by
  rw [h.run_eq, Dialogue.run_bind, hopening]
  dsimp only [conversing]
  rw [Dialogue.run_bind]
  rcases (Shell.converse fuel (.fresh defaultCallLimit)).run World.host v with ⟨_ | n, u⟩
  · rfl
  · rfl

/-- A session is one machine that is fed the lines that the session hears. It ends with status 0
once all of them came to their ends. The machine, the files and the log are then as those lines
leave them; the output has the greeting, and for each line a prompt and what the line wrote. What
comes behind the line that ends the session makes no difference, even to a session that does not
end. -/
theorem session_feeds_lines (complaints : List String)
    (read : List String → Except Notice Options) (arguments : List String) (o : Options)
    (w v : World) (lines : List String) (ending : Ending) (h : RunsShell read arguments o)
    (hwilling : w.output.Willing)
    (hlog : (openLog o none).run World.host w = (some (.ok ()), v))
    (hheard : heard (byteLines w.input) = (lines, ending)) :
    (∃ u, (opening complaints o).run World.host w = (some (.ok ()), u) ∧
      ∀ fuel r u', (Shell.converse fuel (.fresh defaultCallLimit)).run World.host u = (r, u') →
        (run fuel complaints read arguments).run World.host w = (r.map fun _ => 0, u') ∧
        ∀ n, r = some n → ∃ outs v',
          feed fuel lines (.fresh defaultCallLimit) v = some (outs, n, v') ∧
          u'.disk = v'.disk ∧ u'.log = v'.log ∧
          u'.output.text = w.output.text ++ greeting ++ shown outs ending) ∧
    (∀ fuel fed, feed fuel lines (.fresh defaultCallLimit) v = some fed →
      ∀ fuel', fuel + lines.length < fuel' →
        ((run fuel' complaints read arguments).run World.host w).1 = some 0) ∧
    (ending ≠ .exhausted → ∀ later, (byteLines later).take (lines.length + 1) =
        (byteLines w.input).take (lines.length + 1) →
      ∀ fuel, ∃ left,
        (run fuel complaints read arguments).run World.host { w with input := later } =
        (((run fuel complaints read arguments).run World.host w).1,
          { ((run fuel complaints read arguments).run World.host w).2 with input := left })) := by
  obtain ⟨u, hopening, htwin, hinput, htext⟩ := run_opening complaints hwilling hlog
  rw [← hinput] at hheard
  refine ⟨⟨u, hopening, ?_⟩, ?_, ?_⟩
  · intro fuel r u' hconverse
    have hran := h.ran fuel hopening
    rw [hconverse] at hran
    refine ⟨hran, ?_⟩
    rintro n rfl
    obtain ⟨outs, v', hfeed, hlast, hshown⟩ := Shell.converse_feed htwin hheard hconverse
    rw [htext] at hshown
    exact ⟨outs, v', hfeed, hlast.disk, hlast.log, hshown⟩
  · intro fuel fed hfeed fuel' hle
    obtain ⟨n, u', hend⟩ := Shell.converse_finishes htwin hheard hfeed hle
    rw [h.ran fuel' hopening, hend]
    rfl
  · intro hending later hsame fuel
    rw [← hinput] at hsame
    have hopening' := (opening_unread complaints o).run_input w later
    rw [hopening] at hopening'
    have hlater := hheard.trans (heard_of_take hheard hending hsame).symm
    obtain ⟨left, hlater⟩ := Shell.converse_heard fuel (.fresh defaultCallLimit) u hlater
    refine ⟨left, (h.ran fuel hopening').trans ?_⟩
    rw [h.ran fuel hopening, hlater]
    rfl

def readerWorld (text : String) : World :=
  { World.empty with input := text.toUTF8.data.toList }

def fourLines : String :=
  "set x = 1\n \nprint x\nprint y\n quit\r\nprint 2"

def noMoreLines : String :=
  "set x = 1\n \nprint x\nprint y\n quit\r\n"

theorem session_feeds_lines_fourLines :
    RunsShell Options.read [] .none ∧ (readerWorld fourLines).output.Willing ∧
    (openLog .none none).run World.host (readerWorld fourLines) =
      (some (.ok ()), readerWorld fourLines) ∧
    heard (byteLines (readerWorld fourLines).input) =
      (["set x = 1", "", "print x", "print y"], .farewell) ∧
    ∃ u left, (run 21 [] Options.read []).run World.host (readerWorld fourLines) = (some 0, u) ∧
      u.output.text = greeting ++ "> > > 1\n> > Goodbye!\n" ∧
      (run 21 [] Options.read []).run World.host (readerWorld noMoreLines) =
        (some 0, { u with input := left }) := by
  have hshell : RunsShell Options.read [] .none := ⟨rfl, rfl⟩
  have hheard : heard (byteLines (readerWorld fourLines).input) =
      (["set x = 1", "", "print x", "print y"], .farewell) := by decide +kernel
  have hsame : (byteLines (readerWorld noMoreLines).input).take 5 =
      (byteLines (readerWorld fourLines).input).take 5 := by decide +kernel
  have houts : (feed 21 ["set x = 1", "", "print x", "print y"] (.fresh defaultCallLimit)
      (readerWorld fourLines)).map Prod.fst = some ["", "", "1\n", ""] := by decide +kernel
  refine ⟨hshell, ⟨rfl, rfl⟩, rfl, hheard, ?_⟩
  obtain ⟨⟨v, -, hsession⟩, hends, hlater⟩ :=
    session_feeds_lines [] Options.read [] .none (readerWorld fourLines) (readerWorld fourLines)
      _ _ hshell ⟨rfl, rfl⟩ rfl hheard
  obtain ⟨fed, hfed⟩ := Option.isSome_iff_exists.1 (show (feed 16
    ["set x = 1", "", "print x", "print y"] (.fresh defaultCallLimit)
      (readerWorld fourLines)).isSome = true by decide +kernel)
  have hstatus := hends 16 fed hfed 21 (by decide)
  obtain ⟨left, hleft⟩ := hlater (by decide) (readerWorld noMoreLines).input hsame 21
  rcases hconverse : (Shell.converse 21 (.fresh defaultCallLimit)).run World.host v with ⟨r, u⟩
  obtain ⟨hrun, hleaves⟩ := hsession 21 r u hconverse
  rw [hrun] at hstatus hleft
  cases r with
  | none => cases hstatus
  | some n =>
    obtain ⟨outs, v', hfeed, -, -, htext⟩ := hleaves n rfl
    rw [hfeed] at houts
    obtain rfl := Option.some.inj houts
    exact ⟨u, left, hrun, htext.trans (by decide +kernel), hleft⟩

end Command

end Scriptlet
