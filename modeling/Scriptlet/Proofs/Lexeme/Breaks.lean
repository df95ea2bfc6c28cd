import Mathlib.Data.List.Forall2
import Scriptlet.Proofs.Grammar.Transport
import Scriptlet.Proofs.Lexeme.Seam

namespace Scriptlet
set_option autoImplicit true

/-- The text with a line feed for every semicolon of it that is a token, when its first `skip`
characters belong to a piece that was read before. -/
def breakLinesFrom : Nat → List Char → List Char
  | _, [] => []
  | skip + 1, c :: rest => c :: breakLinesFrom skip rest
  | 0, c :: rest =>
    match Piece.at? c rest with
    | none => c :: rest
    | some ⟨kind, more⟩ =>
      (if kind = some .semicolon then '\n' else c) :: breakLinesFrom more rest

/-- The text with a line feed for every semicolon of it that is a token. -/
def breakLines (text : String) : String :=
  String.ofList (breakLinesFrom 0 text.toList)

theorem breakLinesFrom_skip (cs rest : List Char) :
    breakLinesFrom cs.length (cs ++ rest) = cs ++ breakLinesFrom 0 rest := by
  induction cs with
  | nil => rfl
  | cons c cs ih => exact congrArg (c :: ·) ih

theorem Lexeme.eq_semicolon (h : Lexeme (some .semicolon) l) : l = [';'] := by
  cases h
  rfl

namespace Piece

theorem at?_semicolon (rest : List Char) : at? ';' rest = some ⟨some .semicolon, 0⟩ := by
  rw [at?_punctuation (by decide)]
  cases rest <;> rfl

theorem eq_semicolon (h : at? c rest = some ⟨some .semicolon, n⟩) : c = ';' := by
  have hl := (Lexeme.longest_of_at? h).lexeme
  exact (List.cons.inj hl.eq_semicolon).1

end Piece

theorem breakLinesFrom_semicolon (rest : List Char) :
    breakLinesFrom 0 (';' :: rest) = '\n' :: breakLinesFrom 0 rest := by
  rw [breakLinesFrom, Piece.at?_semicolon]
  rfl

theorem breakLinesFrom_piece {kind : Option TokenKind}
    (h : Piece.at? c (l ++ rest) = some ⟨kind, l.length⟩) (hk : kind ≠ some .semicolon) :
    breakLinesFrom 0 (c :: (l ++ rest)) = c :: (l ++ breakLinesFrom 0 rest) := by
  rw [breakLinesFrom, h]
  simp only [if_neg hk, breakLinesFrom_skip]

theorem seam_breakLines (rest : List Char) : Seam rest (breakLinesFrom 0 rest) := by
  cases rest with
  | nil => exact .inl rfl
  | cons c rest =>
    by_cases hc : c = ';'
    · subst hc
      rw [breakLinesFrom_semicolon]
      refine .inr ⟨rfl, ?_⟩
      intro c hc
      cases hc
      rfl
    · refine .inl ?_
      rw [breakLinesFrom]
      split
      · rfl
      · rename_i kind more hat
        have hk : kind ≠ some .semicolon := by
          rintro rfl
          exact hc (Piece.eq_semicolon hat)
        rw [if_neg hk]
        rfl

/-- A text with line feeds for its semicolons has the tokens of the text without these, though in
other places. -/
theorem itemsFrom_breakLines {cs : List Char} {ts : List Token}
    (h : itemsFrom 0 pos cs = (ts ++ [stop]).map .ok) (pos' : Position) :
    ∃ ts' stop', itemsFrom 0 pos' (breakLinesFrom 0 cs) = (ts' ++ [stop']).map .ok ∧
      List.Forall₂ (Token.Matches fun _ _ => True) (ts.filter (·.kind ≠ .semicolon)) ts' := by
  -- The seam runs behind each piece, since a semicolon may be next to any of them.
  induction pieced cs generalizing pos pos' ts with
  | nil =>
    rw [itemsFrom] at h
    cases ts with
    | nil => exact ⟨[], _, rfl, .nil⟩
    | cons t ts => simp at h
  | @stuck c rest hat =>
    rw [itemsFrom, hat] at h
    cases ts <;> cases h
  | @piece c l rest kind hat hrest ih =>
    cases kind with
    | none =>
      have hbroken := Piece.at?_seam hat (seam_breakLines rest)
      rw [itemsFrom_gap hat] at h
      rw [breakLinesFrom_piece hat (by simp), itemsFrom_gap hbroken]
      exact ih h _
    | some kind =>
      rw [itemsFrom_token hat] at h
      cases ts with
      | nil => exact absurd (List.cons.inj h).2 (itemsFrom_ne_nil _ _ _)
      | cons t ts =>
        obtain ⟨ht, hitems⟩ := List.cons.inj h
        obtain rfl := Except.ok.inj ht
        by_cases hk : kind = .semicolon
        · subst hk
          obtain rfl := Piece.eq_semicolon hat
          have hl : l = [] := by
            have hat' := Piece.at?_semicolon (l ++ rest)
            rw [hat] at hat'
            exact List.eq_nil_of_length_eq_zero (Piece.mk.inj (Option.some.inj hat')).2
          subst hl
          rw [List.nil_append, breakLinesFrom_semicolon, List.filter_cons_of_neg (by simp)]
          exact ih hitems _
        · have hbroken := Piece.at?_seam hat (seam_breakLines rest)
          obtain ⟨ts', stop', hitems', hts⟩ := ih hitems (pos'.afterAll (c :: l))
          rw [breakLinesFrom_piece hat (by simpa using hk), itemsFrom_token hbroken, hitems',
            List.filter_cons_of_pos (by simpa using hk)]
          exact ⟨_ :: ts', stop', rfl, .cons ⟨rfl, rfl, trivial⟩ hts⟩

end Scriptlet
