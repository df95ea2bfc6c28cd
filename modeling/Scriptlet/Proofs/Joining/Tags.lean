import Scriptlet.Proofs.Joining.Run

namespace Scriptlet
set_option autoImplicit true

namespace Position

/-- The place with a mark that tells whose code it is of: lines of a program that is to run become
odd, lines of functions that were there before become even. -/
def tag (program : Bool) (pos : Position) : Position :=
  ⟨2 * pos.line + program.toNat, pos.column⟩

def untag (pos : Position) : Position :=
  ⟨pos.line / 2, pos.column⟩

/-- Where marked code stands when only the program is so many lines further down. -/
def settle (k : Nat) (pos : Position) : Position :=
  if pos.line % 2 = 1 then pos.untag.below k else pos.untag

theorem untag_tag (program : Bool) (pos : Position) : (pos.tag program).untag = pos := by
  obtain ⟨line, column⟩ := pos
  have hline : (2 * line + program.toNat) / 2 = line := by
    cases program <;> simp only [Bool.toNat_true, Bool.toNat_false] <;> omega
  exact congrArg (Position.mk · column) hline

theorem settle_tag_true (k : Nat) (pos : Position) : (pos.tag true).settle k = pos.below k := by
  have hodd : (pos.tag true).line % 2 = 1 := Nat.mul_add_mod ..
  rw [settle, if_pos hodd, untag_tag]

theorem settle_tag_false (k : Nat) (pos : Position) : (pos.tag false).settle k = pos := by
  have heven : ¬ (pos.tag false).line % 2 = 1 := by
    simp [tag]
  rw [settle, if_neg heven, untag_tag]

end Position

namespace Table

def map (f : α → β) (t : Table κ α) : Table κ β :=
  ⟨t.entries.map fun (k, a) => (k, f a)⟩

theorem lookup_map [DecidableEq κ] (f : α → β) (k : κ) (es : List (κ × α)) :
    lookup k (es.map fun (k, a) => (k, f a)) = (lookup k es).map f := by
  induction es with
  | nil => rfl
  | cons e rest ih =>
    by_cases h : e.1 = k
    · simp [lookup, h]
    · simp [lookup, h, ih]

theorem find?_map [DecidableEq κ] (f : α → β) (t : Table κ α) (k : κ) :
    (t.map f).find? k = (t.find? k).map f :=
  lookup_map f k t.entries

end Table

def Function.moved (f : Position → Position) (function : Function) : Function :=
  { function with body := movedAll f function.body }

def Machine.moved (f : Position → Position) (m : Machine) : Machine :=
  { m with functions := m.functions.map (Function.moved f) }

/-- All code is moved in this one way. -/
def Movers.only (g : Position → Position) : Movers :=
  fun f _ => f = g

theorem CarriedAll.only (f g : Position → Position) (ss : List Statement) :
    CarriedAll (.only g) (movedAll f ss) (movedAll (g ∘ f) ss) :=
  ⟨g, fun _ _ => rfl, (movedAll_movedAll f g ss).symm⟩

theorem CarriedAll.undone (h : g ∘ f = id) (ss : List Statement) :
    CarriedAll (.only g) (movedAll f ss) ss := by
  have hss := CarriedAll.only f g ss
  rwa [h, movedAll_id] at hss

theorem Machine.carried_undone (m : Machine) (h : g ∘ f = id) :
    (m.moved f).Carried (.only g) m := by
  refine ⟨rfl, rfl, fun name => ?_, rfl⟩
  rw [Machine.moved, Table.find?_map]
  cases m.functions.find? name with
  | none => exact .none
  | some function => exact .some ⟨rfl, .undone h function.body⟩

end Scriptlet
