import Scriptlet.Script
import Scriptlet.Proofs.Fuel
import Scriptlet.Proofs.Joining
import Scriptlet.Proofs.Session.Input

namespace Scriptlet
set_option autoImplicit true

/-- Standard output takes all that is written to it. -/
structure Output.Willing (o : Output) : Prop where
  limit : o.limit = none
  flushes : o.flushFails = false

namespace Output.Willing

variable {o : Output}

theorem write (h : o.Willing) (text : String) : o.write text = Output.write.accept text o := by
  unfold Output.write
  rw [h.limit]

theorem accept (h : o.Willing) (text : String) : (Output.write.accept text o).2.Willing :=
  ⟨h.limit, h.flushes⟩

theorem flush (h : o.Willing) : o.flush = .ok () :=
  if_neg (by simp [h.flushes])

end Output.Willing

/-- Two worlds are the same for what does not read the input: for a program, that is. -/
structure World.Twin (w w' : World) : Prop where
  disk : w.disk = w'.disk
  log : w.log = w'.log
  clock : w.clock = w'.clock
  willing : w.output.Willing
  willing' : w'.output.Willing

def World.hushed (w : World) : World :=
  { w with output := { w.output with text := "" } }

/-- What comes of one line: what it writes, the machine, and the world. A line that is no program
changes nothing, and one that fails changes what it changed until then. -/
def fed (fuel : Nat) (line : String) (m : Machine) (w : World) :
    Option (String × Machine × World) :=
  if line = "" then some ("", m, w)
  else match parseText line with
    | .error _ => some ("", m, w)
    | .ok p =>
      match (runProgram fuel p m).run World.host w.hushed with
      | (none, _) => none
      | (some (_, n), v) => some (v.output.text, n, v)

/-- What comes of lines that one machine is fed, one after the other. -/
def feed (fuel : Nat) : List String → Machine → World → Option (List String × Machine × World)
  | [], m, w => some ([], m, w)
  | line :: rest, m, w =>
    match fed fuel line m w with
    | none => none
    | some (out, n, v) => (feed fuel rest n v).map fun (outs, last) => (out :: outs, last)

section
variable {fuel fuel' : Nat}

theorem fed_mono (hle : fuel ≤ fuel') (h : fed fuel line m w = some x) :
    fed fuel' line m w = some x := by
  unfold fed at h ⊢
  split
  · rwa [if_pos (by assumption)] at h
  rw [if_neg (by assumption)] at h
  cases hp : parseText line with
  | error e =>
    rw [hp] at h
    exact h
  | ok p =>
    rw [hp] at h
    dsimp only at h ⊢
    rcases hrun : (runProgram fuel p m).run World.host w.hushed with ⟨_ | ⟨r, n⟩, v⟩
    · rw [hrun] at h
      cases h
    · rw [hrun] at h
      rw [(runProgram_below hle p m).run hrun]
      exact h

theorem feed_cons (h : feed fuel (line :: rest) m w = some x) : ∃ out n v outs last,
    fed fuel line m w = some (out, n, v) ∧ feed fuel rest n v = some (outs, last) ∧
      x = (out :: outs, last) := by
  unfold feed at h
  split at h
  · cases h
  · rename_i out n v hfed
    obtain ⟨⟨outs, last⟩, hrest, rfl⟩ := Option.map_eq_some_iff.1 h
    exact ⟨out, n, v, outs, last, hfed, hrest, rfl⟩

theorem feed_of_fed (h : fed fuel line m w = some (out, n, v))
    (hrest : feed fuel rest n v = some (outs, last)) :
    feed fuel (line :: rest) m w = some (out :: outs, last) := by
  rw [feed, h]
  dsimp only
  rw [hrest]
  rfl

theorem feed_mono (hle : fuel ≤ fuel') (h : feed fuel lines m w = some x) :
    feed fuel' lines m w = some x := by
  induction lines generalizing m w x with
  | nil => exact h
  | cons line rest ih =>
    obtain ⟨out, n, v, outs, last, hfed, hrest, rfl⟩ := feed_cons h
    exact feed_of_fed (fed_mono hle hfed) (ih hrest)

end

namespace World.Twin

variable {w w' : World}

/-- Twins give the same answers, and remain twins to whose output the same was added. -/
theorem host (h : w.Twin w') {q : Request} (hq : q ≠ .readLine) :
    (World.host q w').1 = (World.host q w).1 ∧ (World.host q w).2.Twin (World.host q w').2 ∧
      ∃ text, (World.host q w).2.output.text = w.output.text ++ text ∧
        (World.host q w').2.output.text = w'.output.text ++ text := by
  obtain ⟨disk, input, output, errors, log, clock, observer, events⟩ := w
  obtain ⟨disk', input', output', errors', log', clock', observer', events'⟩ := w'
  obtain ⟨rfl, rfl, rfl, hwilling, hwilling'⟩ := h
  -- Twins share their disk, log and clock, so that a request changes these alike.
  have hkept (disk : Disk) (log : Log) (clock : Clock) (errors errors' : String) :
      Twin ⟨disk, input, output, errors, log, clock, observer, events⟩
        ⟨disk, input', output', errors', log, clock, observer', events'⟩ :=
    ⟨rfl, rfl, rfl, hwilling, hwilling'⟩
  have hsilent : ∃ text, output.text = output.text ++ text ∧
      output'.text = output'.text ++ text :=
    ⟨"", String.append_empty.symm, String.append_empty.symm⟩
  cases q with
  | readLine => exact absurd rfl hq
  | write text =>
    unfold World.host
    dsimp only
    rw [Output.Willing.write hwilling, Output.Willing.write hwilling']
    exact ⟨rfl, ⟨rfl, rfl, rfl, hwilling.accept text, hwilling'.accept text⟩, text, rfl, rfl⟩
  | flush =>
    refine ⟨?_, hkept _ _ _ _ _, hsilent⟩
    exact (Output.Willing.flush hwilling').trans (Output.Willing.flush hwilling).symm
  | record line =>
    unfold World.host record
    dsimp only
    split <;> exact ⟨rfl, hkept _ _ _ _ _, hsilent⟩
  | openLog path =>
    unfold World.host
    dsimp only
    split <;> exact ⟨rfl, hkept _ _ _ _ _, hsilent⟩
  | writeFile path text | appendFile path text | removeFile path =>
    unfold World.host onDisk
    dsimp only
    split <;> exact ⟨rfl, hkept _ _ _ _ _, hsilent⟩
  | note event => exact ⟨rfl, ⟨rfl, rfl, rfl, hwilling, hwilling'⟩, hsilent⟩
  | readFile | createDirectories | complain => exact ⟨rfl, hkept _ _ _ _ _, hsilent⟩

theorem run (h : w.Twin w') {d : Dialogue α} (hd : d.Only (· ≠ .readLine)) :
    (d.run World.host w').1 = (d.run World.host w).1 ∧
      (d.run World.host w).2.Twin (d.run World.host w').2 ∧
      ∃ text, (d.run World.host w).2.output.text = w.output.text ++ text ∧
        (d.run World.host w').2.output.text = w'.output.text ++ text := by
  induction d generalizing w w' with
  | done a => exact ⟨rfl, h, "", String.append_empty.symm, String.append_empty.symm⟩
  | unfinished => exact ⟨rfl, h, "", String.append_empty.symm, String.append_empty.symm⟩
  | ask q next ih =>
    obtain ⟨hanswer, htwin, text, htext, htext'⟩ := h.host hd.1
    obtain ⟨hresult, hlast, more, hmore, hmore'⟩ := ih (World.host q w).1 htwin (hd.2 _)
    rw [Dialogue.run, Dialogue.run, hanswer]
    refine ⟨hresult, hlast, text ++ more, ?_, ?_⟩
    · rw [hmore, htext, String.append_assoc]
    · rw [hmore', htext', String.append_assoc]

theorem hushed (h : w.Twin w') : w.Twin w'.hushed :=
  ⟨h.disk, h.log, h.clock, h.willing, h.willing'.limit, h.willing'.flushes⟩

end World.Twin

end Scriptlet
