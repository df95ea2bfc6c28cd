import Scriptlet.World
import Scriptlet.Command.Shell
import Scriptlet.Proofs.Requests

namespace Scriptlet
set_option autoImplicit true

/-- Bytes in lines, each with the line feed at its end; only the last one may have none. -/
def byteLines : List UInt8 → List (List UInt8)
  | [] => []
  | b :: rest =>
    if b = 10 then [b] :: byteLines rest
    else match byteLines rest with
      | [] => [[b]]
      | line :: lines => (b :: line) :: lines

inductive Ending
  | exhausted
  | farewell
  | unreadable
  deriving DecidableEq

def Ending.words : Ending → String
  | exhausted => "\nGoodbye!\n"
  | farewell => "Goodbye!\n"
  | unreadable => ""

/-- The lines that a session obeys, without the white space around them, and how it ends. -/
def heard : List (List UInt8) → List String × Ending
  | [] => ([], .exhausted)
  | bytes :: rest =>
    match String.fromUTF8? ⟨bytes.toArray⟩ with
    | none => ([], .unreadable)
    | some text =>
      if Shell.isFarewell (Text.trim text) then ([], .farewell)
      else (Text.trim text :: (heard rest).1, (heard rest).2)

/-- Where a session ends before its input does, nothing behind that is heard. -/
theorem heard_of_take (h : heard bytes = (lines, ending)) (hending : ending ≠ .exhausted)
    (hsame : bytes'.take (lines.length + 1) = bytes.take (lines.length + 1)) :
    heard bytes' = (lines, ending) := by
  induction bytes generalizing bytes' lines with
  | nil =>
    cases h
    exact absurd rfl hending
  | cons line rest ih =>
    cases bytes' with
    | nil => cases hsame
    | cons line' rest' =>
      rw [List.take_succ_cons, List.take_succ_cons] at hsame
      obtain ⟨rfl, hrest⟩ := List.cons.inj hsame
      unfold heard at h ⊢
      cases hline : String.fromUTF8? ⟨line'.toArray⟩ with
      | none =>
        rw [hline] at h
        exact h
      | some text =>
        rw [hline] at h
        dsimp only at h ⊢
        split
        · rwa [if_pos (by assumption)] at h
        · rw [if_neg (by assumption)] at h
          cases h
          rw [ih rfl hrest]

theorem byteLines_cons (b : UInt8) (rest : List UInt8) : byteLines (b :: rest) =
    (World.takeLine (b :: rest)).1 :: byteLines (World.takeLine (b :: rest)).2 := by
  induction rest generalizing b with
  | nil =>
    unfold byteLines World.takeLine
    split <;> rfl
  | cons c rest ih =>
    rw [byteLines, World.takeLine]
    split
    · rfl
    · rw [ih c]

namespace Text

theorem trimChars_append_blank (cs : List Char) (hc : isBlank c = true) :
    trimChars (cs ++ [c]) = trimChars cs := by
  unfold trimChars
  rw [List.dropWhile_append]
  split
  · rename_i hempty
    rw [List.isEmpty_iff.1 hempty, List.dropWhile_cons_of_pos hc]
    rfl
  · rw [List.reverse_append]
    change (List.dropWhile isBlank (c :: _)).reverse = _
    rw [List.dropWhile_cons_of_pos hc]
    rfl

theorem trim_chomp (line : String) : trim (World.chomp line) = trim line := by
  have hfeed : isBlank '\n' = true := by decide
  have hreturn : isBlank '\r' = true := by decide
  unfold World.chomp trim
  split
  · rename_i cs h
    rw [← List.reverse_reverse line.toList, h, List.reverse_cons, List.reverse_cons,
      trimChars_append_blank _ hfeed, trimChars_append_blank _ hreturn, String.toList_ofList]
  · rename_i cs _ h
    rw [← List.reverse_reverse line.toList, h, List.reverse_cons, trimChars_append_blank _ hfeed,
      String.toList_ofList]
  · rfl

end Text

namespace World

variable {w : World}

def withInput (w : World) (input : List UInt8) : World :=
  { w with input }

theorem withInput_self (w : World) : w.withInput w.input = w := rfl

theorem readLine_nil (h : byteLines w.input = []) : w.readLine = (.ok none, w) := by
  unfold readLine
  cases hinput : w.input with
  | nil => rfl
  | cons b rest =>
    rw [hinput, byteLines_cons] at h
    cases h

theorem readLine_cons (h : byteLines w.input = bytes :: rest) : ∃ input, byteLines input = rest ∧
    w.readLine = ((decode ⟨bytes.toArray⟩).map (some ∘ chomp), w.withInput input) := by
  unfold readLine
  cases hinput : w.input with
  | nil =>
    rw [hinput] at h
    cases h
  | cons b more =>
    rw [hinput, byteLines_cons] at h
    obtain ⟨hbytes, hrest⟩ := List.cons.inj h
    refine ⟨_, hrest, ?_⟩
    rw [← hbytes]
    have hne : (takeLine (b :: more)).1 ≠ [] := by
      unfold takeLine
      split <;> simp
    generalize takeLine (b :: more) = taken at hne ⊢
    obtain ⟨line, left⟩ := taken
    cases line with
    | nil => exact absurd rfl hne
    | cons c line => rfl

theorem host_input {q : Request} (hq : q ≠ .readLine) (w : World) (input : List UInt8) :
    host q (w.withInput input) = ((host q w).1, (host q w).2.withInput input) := by
  cases q with
  | readLine => exact absurd rfl hq
  | record line =>
    unfold host record withInput
    dsimp only
    split <;> rfl
  | openLog path =>
    unfold host withInput
    dsimp only
    split <;> rfl
  | writeFile path text | appendFile path text | removeFile path =>
    unfold host onDisk withInput
    dsimp only
    split <;> rfl
  | write | flush | readFile | createDirectories | complain | note => rfl

end World

theorem Dialogue.Only.run_input {d : Dialogue α} (h : d.Only (· ≠ .readLine)) (w : World)
    (input : List UInt8) : d.run World.host (w.withInput input) =
      ((d.run World.host w).1, (d.run World.host w).2.withInput input) := by
  induction d generalizing w with
  | done a => rfl
  | unfinished => rfl
  | ask q next ih =>
    rw [Dialogue.run, Dialogue.run, World.host_input h.1]
    exact ih _ (h.2 _) _

theorem Dialogue.Only.run_withInput {d : Dialogue α} (h : d.Only (· ≠ .readLine)) (w : World)
    (input input' : List UInt8) : d.run World.host (w.withInput input') =
      ((d.run World.host (w.withInput input)).1,
        (d.run World.host (w.withInput input)).2.withInput input') :=
  h.run_input (w.withInput input) input'

theorem Dialogue.Only.input_run {d : Dialogue α} (h : d.Only (· ≠ .readLine)) (w : World) :
    (d.run World.host w).2.input = w.input :=
  congrArg (World.input ·.2) (h.run_input w w.input)

theorem runProgram_unread (fuel : Nat) (p : Program) :
    (runProgram fuel p).Only (· ≠ .readLine) := by
  apply Eval.only_runProgram
  · exact fun _ => by simp
  · simp
  · rintro a q - - h rfl
    cases q with
    | write mode path text =>
      cases mode <;> simp [Primitive.Asks] at h
    | _ => simp [Primitive.Asks] at h

end Scriptlet
