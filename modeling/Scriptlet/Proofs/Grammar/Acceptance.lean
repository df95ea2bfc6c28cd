import Mathlib
import Scriptlet.Proofs.Grammar.ClauseCompleteness
import Scriptlet.Proofs.Grammar.Soundness

namespace Scriptlet
set_option autoImplicit true

/-- A stream without lexical errors is read as the program that its tokens spell up to the end of
the input, with the nesting that is allowed. -/
theorem Program.SpelledBy.parse_iff (ts : List Token) (p : Program) :
    parse (ts.map .ok) = .ok p ↔ Program.SpelledBy maxNestingDepth p (beforeEnd ts) := by
  rw [parse, readProgram, Draft.read_ok_iff]
  exact ⟨.of_outcome rfl (beforeEnd_kind ts), fun h => h.outcome rfl⟩

theorem Program.SpelledBy.unique (hp : Program.SpelledBy n p ts) (hq : Program.SpelledBy n q ts) :
    p = q := by
  have hstop : Token.missingEnd.kind = .endOfInput := rfl
  have h := hp.outcome hstop
  rw [hq.outcome hstop] at h
  exact (Except.ok.inj h).symm

/-- The parser accepts exactly the streams whose tokens before the end of the input derive from the
grammar within the allowed nesting, and builds the one tree of the derivation. -/
theorem parse_accepts_grammar (ts : List Token) :
    (∀ p, parse (ts.map .ok) = .ok p ↔ Program.SpelledBy maxNestingDepth p (beforeEnd ts)) ∧
      ∀ p q, Program.SpelledBy maxNestingDepth p (beforeEnd ts) →
        Program.SpelledBy maxNestingDepth q (beforeEnd ts) → p = q :=
  ⟨Program.SpelledBy.parse_iff ts, fun _ _ => Program.SpelledBy.unique⟩

def oddNames : List Token :=
  [⟨.identifier, "print", ⟨1, 1⟩⟩, ⟨.identifier, "and", ⟨1, 7⟩⟩, ⟨.leftParen, "(", ⟨1, 10⟩⟩,
    ⟨.rightParen, ")", ⟨1, 11⟩⟩, ⟨.identifier, "AND", ⟨1, 13⟩⟩, ⟨.identifier, "end", ⟨1, 17⟩⟩]

theorem parse_accepts_grammar_oddNames :
    Program.SpelledBy maxNestingDepth
        [.print ⟨1, 1⟩ (.logical .and (.call "and" []) (.var "end"))] (beforeEnd oddNames) ∧
      ∀ q, Program.SpelledBy maxNestingDepth q (beforeEnd oddNames) →
        q = [.print ⟨1, 1⟩ (.logical .and (.call "and" []) (.var "end"))] := by
  obtain ⟨haccepts, hunique⟩ := parse_accepts_grammar oddNames
  have hread := (haccepts [.print ⟨1, 1⟩ (.logical .and (.call "and" []) (.var "end"))]).1 (by cbv)
  exact ⟨hread, fun q hq => hunique q _ hq hread⟩

end Scriptlet
