import Mathlib
import Scriptlet.Proofs.Descent.Statements

namespace Scriptlet

theorem readProgram_tooDeep (items : List Item) {n : Nat} {pos : Position}
    (h : (readProgram items).result = .error (.structural (.nestingTooDeep n pos))) :
    n = maxNestingDepth ∧ ∃ before o after,
      Draft.empty.openings none items = before ++ o :: after ∧ o.level = maxNestingDepth ∧
        (∀ o ∈ before, o.level < maxNestingDepth) ∧
        Draft.empty.openings (some maxNestingDepth) items = before ++ [o] ∧
        o.token.position = pos ∧ o.unread = (readProgram items).unread := by
  rcases Draft.read_bounded (d := .empty) (Nat.zero_le maxNestingDepth) items with
    ⟨hsame, -⟩ | ⟨before, o, after, hopened, hlevel, hbefore, hseen, hread⟩
  · have hresult := congrArg Reading.result hsame
    exact absurd (hresult.symm.trans h) (Draft.read_unbounded .empty items n pos)
  · have hresult := (congrArg Reading.result hread).symm.trans h
    cases hresult
    exact ⟨rfl, before, o, after, hopened, hlevel, hbefore, hseen, rfl,
      (congrArg Reading.unread hread).symm⟩

/-- The bound on nesting changes a reading only into a complaint, where the first level beyond the
bound opens. A descent with a counter reads the same: whenever it opens a level, it has counted
those that are open, and behind the level it counts back what it counted, also where that failed. -/
theorem nesting_exact (items : List Item) :
    ((∀ n pos, (readProgram items).result ≠ .error (.structural (.nestingTooDeep n pos))) →
        readProgram items = readProgram items none ∧
          ∀ o ∈ Draft.empty.openings none items, o.level < maxNestingDepth) ∧
      (∀ n pos, (readProgram items).result = .error (.structural (.nestingTooDeep n pos)) →
        n = maxNestingDepth ∧ ∃ before o after,
          Draft.empty.openings none items = before ++ o :: after ∧ o.level = maxNestingDepth ∧
            (∀ o ∈ before, o.level < maxNestingDepth) ∧
            Draft.empty.openings (some maxNestingDepth) items = before ++ [o] ∧
            o.token.position = pos ∧ o.unread = (readProgram items).unread) ∧
      readProgram items = ⟨(Descent.whole maxNestingDepth items).1,
        (Descent.whole maxNestingDepth items).2.unread⟩ ∧
      Draft.empty.openings (some maxNestingDepth) items =
        (Descent.whole maxNestingDepth items).2.openings ∧
      (Descent.whole maxNestingDepth items).2.depth = 0 ∧
      ∀ c : Cursor, ((Descent.expression maxNestingDepth).run c).2.depth = c.depth ∧
        (∀ allowElse, ((Descent.block maxNestingDepth allowElse).run c).2.depth = c.depth) ∧
        ∀ (α : Type) (inside : Descent α),
          (inside.run { c.note with depth := c.depth + 1 }).2.depth = c.depth + 1 := by
  have hreads := Prod.mk.inj (Descent.whole_reads maxNestingDepth items)
  refine ⟨fun hne => ?_, fun n pos => readProgram_tooDeep items, hreads.1.symm, hreads.2.symm,
    Descent.whole_balanced maxNestingDepth items, fun c => ⟨?_, fun b => ?_, fun α inside => ?_⟩⟩
  · rcases Draft.read_bounded (d := .empty) (Nat.zero_le maxNestingDepth) items with
      ⟨hsame, -, hlevels⟩ | ⟨before, o, after, -, -, -, -, hread⟩
    · exact ⟨hsame, hlevels⟩
    · exact absurd (congrArg Reading.result hread) (hne _ _)
  · exact (Descent.expression maxNestingDepth).balanced c
  · exact (Descent.block maxNestingDepth b).balanced c
  · exact inside.balanced { c.note with depth := c.depth + 1 }

def parenthesized (n : Nat) : List Item :=
  .ok ⟨.identifier, "print", ⟨1, 1⟩⟩ ::
    (List.range n).map fun k => .ok ⟨.leftParen, "(", ⟨1, 7 + k⟩⟩

/-- What stands behind 63 parentheses is on the 64th level, and the last of 65 opens the 65th. -/
theorem nesting_exact_parenthesized :
    readProgram (parenthesized 63) = readProgram (parenthesized 63) none ∧
      ∃ before o after, Draft.empty.openings none (parenthesized 65) = before ++ o :: after ∧
        o.level = 64 ∧ (∀ o ∈ before, o.level < 64) ∧ o.token.position = ⟨1, 71⟩ := by
  have hshallow : (readProgram (parenthesized 63)).result =
      .error (.structural (.unexpectedToken "an expression" .missingEnd)) := by cbv
  have hdeep : (readProgram (parenthesized 65)).result =
      .error (.structural (.nestingTooDeep 64 ⟨1, 71⟩)) := by cbv
  obtain ⟨-, before, o, after, hopened, hlevel, hbefore, -, hpos, -⟩ :=
    (nesting_exact (parenthesized 65)).2.1 64 ⟨1, 71⟩ hdeep
  refine ⟨((nesting_exact (parenthesized 63)).1 fun n pos h => ?_).1,
    before, o, after, hopened, hlevel, hbefore, hpos⟩
  rw [hshallow] at h
  cases h

end Scriptlet
