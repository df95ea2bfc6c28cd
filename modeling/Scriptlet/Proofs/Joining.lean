import Scriptlet.Proofs.Joining.Tags
import Scriptlet.Proofs.Joining.Text
import Scriptlet.World

namespace Scriptlet
set_option autoImplicit true

/-- Where code is when a program runs behind another one, `k` lines further down than on its own:
the statements of the program are lower, and functions that were there before are where they were.
-/
inductive Relocated (k : Nat) (p : Program) (functions : Table String Function) : Movers
  | lowered (h : pos ∈ placesAll p) : Relocated k p functions (Position.below k) pos
  | kept (hf : functions.find? name = some f) (h : pos ∈ placesAll f.body) :
      Relocated k p functions id pos

theorem Machine.carried_relocated (m : Machine) (k : Nat) (p : Program) :
    m.Carried (Relocated k p m.functions) m := by
  refine ⟨rfl, rfl, fun name => ?_, rfl⟩
  cases hf : m.functions.find? name with
  | none => exact .none
  | some f => exact .some ⟨rfl, id, fun pos hpos => .kept hf hpos, (movedAll_id f.body).symm⟩

section
variable {ω : Type} {host : Host ω} {S : ω → ω → Prop}

theorem Host.Overlooks.run_flush (hS : host.Overlooks S) (hv : S v v) (n : Machine) :
    ((Eval.ask .flush).bind (Eval.accept .output) n).run host v =
      (some (.ok (), n), (host .flush v).2) := by
  have hanswer := (hS.flush v v hv).1
  change (Eval.accept .output (host .flush v).1 n).run host (host .flush v).2 = _
  generalize (host .flush v).1 = answer at hanswer
  cases hanswer
  rfl

theorem runProgram_eq (fuel : Nat) (p : Program) :
    runProgram fuel p =
      (runStatements fuel p).bind fun _ => (Eval.ask .flush).bind (Eval.accept .output) :=
  rfl

/-- What comes behind statements goes on from where they succeed, or is never begun. -/
theorem runStatements_bind_cases (hS : host.Overlooks S) (fuel : Nat) (p : Program) (m : Machine)
    (hw : S w w) :
    (∃ n u, S u u ∧ ∀ next : Unit → Eval Unit,
      ((runStatements fuel p).bind next m).run host w = (next () n).run host u) ∨
    ∃ r u, (∀ n, r ≠ some (.ok (), n)) ∧ ∀ next : Unit → Eval Unit,
      ((runStatements fuel p).bind next m).run host w = (r, u) := by
  have hsame := (hS.inStep (.refl (fun _ => rfl) (runStatements fuel p m)) hw).2
  have hbind (next : Unit → Eval Unit) := Eval.run_bind (runStatements fuel p) next m host w
  generalize (runStatements fuel p m).run host w = first at hsame hbind
  obtain ⟨_ | ⟨e | a, n⟩, u⟩ := first
  · exact .inr ⟨none, u, nofun, hbind⟩
  · exact .inr ⟨some (.error e, n), u, nofun, hbind⟩
  · exact .inl ⟨n, u, hsame, hbind⟩

/-- A program of two parts stops where its first part fails. -/
theorem runProgram_append_stops (hS : host.Overlooks S) (fuel : Nat) (p q : Program)
    (m : Machine) (hw : S w w) (h : (runProgram fuel p m).run host w = (r, v))
    (hr : ∀ n, r ≠ some (.ok (), n)) :
    (runProgram fuel (p ++ q) m).run host w = (r, v) := by
  rw [runProgram_append]
  rw [runProgram_eq] at h
  rcases runStatements_bind_cases hS fuel p m hw with ⟨n, u, hu, hnext⟩ | ⟨r', u, -, hnext⟩
  · rw [hnext, hS.run_flush hu] at h
    cases h
    exact absurd rfl (hr n)
  · rw [hnext] at h ⊢
    exact h

/-- Where its first part succeeds, it goes on as its second part from there, in a state that differs
from the one that the first part leaves by the flush at its end. -/
theorem runProgram_append_goes_on (hS : host.Overlooks S) (fuel : Nat) (p q : Program)
    (m : Machine) (hw : S w w) (h : (runProgram fuel p m).run host w = (some (.ok (), n), v)) :
    ∃ u, S v v ∧ S v u ∧
      (runProgram fuel (p ++ q) m).run host w = (runProgram fuel q n).run host u := by
  rw [runProgram_append]
  rw [runProgram_eq] at h
  rcases runStatements_bind_cases hS fuel p m hw with ⟨n', u, hu, hnext⟩ | ⟨r, u, hr, hnext⟩
  · rw [hnext, hS.run_flush hu] at h
    cases h
    exact ⟨u, (hS.answer .flush u u hu).2, (hS.flush u u hu).2, hnext _⟩
  · rw [hnext] at h
    cases h
    exact absurd rfl (hr n)

end

namespace World

/-- The same disk, streams, log and clock, whatever the observer was told, and an output that can be
flushed. -/
structure Alike (w w' : World) : Prop where
  disk : w.disk = w'.disk
  input : w.input = w'.input
  output : w.output = w'.output
  log : w.log = w'.log
  clock : w.clock = w'.clock
  flushes : w.output.flushFails = false

theorem flushFails_write (o : Output) (text : String) :
    (o.write text).2.flushFails = o.flushFails := by
  unfold Output.write
  split
  · split <;> rfl
  · rfl

theorem note_eq (w : World) (event : Event) :
    ∃ errors events, w.note event = { w with errors, events } :=
  ⟨_, _, rfl⟩

theorem Alike.note (h : Alike w w') (event event' : Event) :
    Alike (w.note event) (w'.note event') := by
  obtain ⟨errors, events, he⟩ := w.note_eq event
  obtain ⟨errors', events', he'⟩ := w'.note_eq event'
  rw [he, he']
  exact ⟨h.disk, h.input, h.output, h.log, h.clock, h.flushes⟩

theorem overlooks : Host.Overlooks host Alike where
  answer q w w' h := by
    have hnote := h.note
    obtain ⟨disk, input, output, errors, log, clock, observer, events⟩ := w
    obtain ⟨disk', input', output', errors', log', clock', observer', events'⟩ := w'
    obtain ⟨rfl, rfl, rfl, rfl, rfl, hflush⟩ := h
    have hkept (disk : Disk) (input : List UInt8) (log : Log) (clock : Clock)
        (errors errors' : String) : Alike
          ⟨disk, input, output, errors, log, clock, observer, events⟩
          ⟨disk, input, output, errors', log, clock, observer', events'⟩ :=
      ⟨rfl, rfl, rfl, rfl, rfl, hflush⟩
    cases q with
    | note event => exact ⟨rfl, hnote event event⟩
    | write text =>
      exact ⟨rfl, rfl, rfl, rfl, rfl, rfl, (flushFails_write output text).trans hflush⟩
    | record line =>
      cases log with
      | memory records room => rcases room with _ | _ | room <;> exact ⟨rfl, hkept _ _ _ _ _ _⟩
      | discard | file id => exact ⟨rfl, hkept _ _ _ _ _ _⟩
    | openLog path | writeFile path text | appendFile path text | removeFile path =>
      unfold host onDisk
      dsimp only
      split <;> exact ⟨rfl, hkept _ _ _ _ _ _⟩
    | readLine =>
      unfold host readLine
      dsimp only
      split <;> exact ⟨rfl, hkept _ _ _ _ _ _⟩
    | flush | readFile | createDirectories | complain => exact ⟨rfl, hkept _ _ _ _ _ _⟩
  note event event' w w' h := h.note event event'
  flush w w' h := by
    refine ⟨if_neg (by simp [h.flushes]), ?_⟩
    exact ⟨h.disk, h.input, h.output, h.log, h.clock, h.flushes⟩

end World

/-- Two texts of programs with a line feed between them, of which the second does not start with a
connective, are the text of a program: of the statements of the first and of those of the second, so
many lines further down. It runs as the first and then, if that succeeds, the second. Which places
are lower tells a run of the second on marked code: with the marks removed it ends as the second on
its own, and with marked lines lowered as the joined program. -/
theorem joined_texts_run_in_turn {first second : String} {p q : Program}
    (h : parseText first = .ok p) (h' : parseText second = .ok q)
    (hconnective : ∀ t, (tokenize second).head? = some (.ok t) →
      ∀ op : Connective, ¬ t.isKeyword op.word) :
    ∃ joined, parseText (first ++ "\n" ++ second) = .ok joined ∧
      joined = p ++ movedAll (Position.below (1 + first.toList.count '\n')) q ∧
      ∀ (ω : Type) (host : Host ω) (S : ω → ω → Prop), host.Overlooks S →
        ∀ fuel m w, S w w →
          (∀ r v, (runProgram fuel p m).run host w = (r, v) → (∀ n, r ≠ some (.ok (), n)) →
            (runProgram fuel joined m).run host w = (r, v)) ∧
          ∀ n v, (runProgram fuel p m).run host w = (some (.ok (), n), v) →
            Agree (Relocated (1 + first.toList.count '\n') q n.functions) S Eq
              ((runProgram fuel q n).run host v) ((runProgram fuel joined m).run host w) ∧
            ∃ tagged,
              tagged = (runProgram fuel (movedAll (Position.tag true) q)
                (n.moved (Position.tag false))).run host v ∧
              Agree (.only Position.untag) S Eq tagged ((runProgram fuel q n).run host v) ∧
              Agree (.only (Position.settle (1 + first.toList.count '\n'))) S Eq tagged
                ((runProgram fuel joined m).run host w) := by
  refine ⟨_, parseText_joined h h' hconnective, rfl, ?_⟩
  intro ω host S hS fuel m w hw
  refine ⟨fun r v hrun hr => runProgram_append_stops hS fuel p _ m hw hrun hr, ?_⟩
  intro n v hrun
  generalize 1 + first.toList.count '\n' = k
  obtain ⟨u, hv, hvu, hjoined⟩ :=
    runProgram_append_goes_on hS fuel p (movedAll (Position.below k) q) m hw hrun
  rw [hjoined]
  have huntag (program : Bool) : Position.untag ∘ Position.tag program = id :=
    funext (Position.untag_tag program)
  have hsettle : Position.settle k ∘ Position.tag true = Position.below k :=
    funext (Position.settle_tag_true k)
  have hsettle' : Position.settle k ∘ Position.tag false = id :=
    funext (Position.settle_tag_false k)
  refine ⟨?_, _, rfl, ?_, ?_⟩
  · have hq : CarriedAll (Relocated k q n.functions) q (movedAll (Position.below k) q) :=
      ⟨_, fun pos hpos => .lowered hpos, rfl⟩
    exact parallels_runProgram hS fuel hq _ _ _ _ (n.carried_relocated k q) hvu
  · have hq := CarriedAll.undone (huntag true) q
    exact parallels_runProgram hS fuel hq _ _ _ _ (n.carried_undone (huntag false)) hv
  · have hq := CarriedAll.only (Position.tag true) (Position.settle k) q
    rw [hsettle] at hq
    exact parallels_runProgram hS fuel hq _ _ _ _ (n.carried_undone hsettle') hvu

/-- A print, and behind it one of a variable that is not there. -/
theorem joined_texts_run_in_turn_missingVariable :
    ∃ n v, (runProgram 9 [.print ⟨1, 1⟩ (.number 1), .print ⟨2, 1⟩ (.var "x")] (.fresh 5)).run
        World.host { World.empty with log := .memory #[] none } =
      (some (.error ⟨.undefinedVariable "x", some ⟨2, 1⟩⟩, n), v) ∧
      v.output.text = "1\n" ∧ v.log = .memory #["[PRINT] 1"] none := by
  have hfirst : parseText "print 1" = .ok [.print ⟨1, 1⟩ (.number 1)] := by cbv
  have hsecond : parseText "print x" = .ok [.print ⟨1, 1⟩ (.var "x")] := by cbv
  have hhead : (tokenize "print x").head? = some (.ok ⟨.identifier, "print", ⟨1, 1⟩⟩) := by cbv
  have hconnective : ∀ t, (tokenize "print x").head? = some (.ok t) →
      ∀ op : Connective, ¬ t.isKeyword op.word := by
    intro t ht op
    rw [hhead] at ht
    cases ht
    cases op <;> decide +kernel
  obtain ⟨joined, -, hjoined, hrun⟩ := joined_texts_run_in_turn hfirst hsecond hconnective
  have hline : 1 + "print 1".toList.count '\n' = 1 := by decide +kernel
  rw [hline] at hjoined hrun
  let w : World := { World.empty with log := .memory #[] none }
  obtain ⟨-, hsucceeds⟩ := hrun World World.host World.Alike World.overlooks 9 (.fresh 5) w
    ⟨rfl, rfl, rfl, rfl, rfl, rfl⟩
  obtain ⟨hagree, -⟩ := hsucceeds _ _ rfl
  rw [hjoined] at hagree
  change Agree _ _ _ (some (.error ⟨.undefinedVariable "x", some ⟨1, 1⟩⟩, _), _)
    ((runProgram 9 [.print ⟨1, 1⟩ (.number 1), .print ⟨2, 1⟩ (.var "x")] (.fresh 5)).run
      World.host w) at hagree
  generalize (runProgram 9 _ (.fresh 5)).run World.host w = last at hagree ⊢
  cases hagree with
  | @error _ v _ _ e n he hm hw =>
    obtain ⟨fault, position⟩ := e
    obtain ⟨hfault, hposition⟩ := he
    obtain rfl : fault = .undefinedVariable "x" := hfault
    cases hposition with
    | some hpos =>
      obtain ⟨f, hf, rfl⟩ := hpos
      cases hf with
      | lowered h => exact ⟨n, v, rfl, (congrArg Output.text hw.output).symm, hw.log.symm⟩
      | kept hf h => cases hf

end Scriptlet
