import Scriptlet.Proofs.Lexeme.Cover

namespace Scriptlet
set_option autoImplicit true

/-- What may stand behind a piece in place of `rest` so that the piece stays as it is: a text that
starts alike, or a line feed instead of the end of the text or of a semicolon. -/
def Seam (rest rest' : List Char) : Prop :=
  rest'.head? = rest.head? ∨ (rest'.head? = some '\n' ∧ ∀ c ∈ rest.head?, c = ';')

namespace Piece

theorem run_ends {p : Char → Bool} (h : run p (l ++ rest) = l.length) :
    (∀ c ∈ l, p c) ∧ ∀ d ∈ rest.head?, ¬ p d := by
  have hl : ∀ c ∈ l, p c := by
    have htake := take_run p (l ++ rest)
    rwa [h, List.take_left] at htake
  refine ⟨hl, fun d hd hpd => ?_⟩
  obtain ⟨tail, rfl⟩ := List.head?_eq_some_iff.1 hd
  have hlonger : ∀ c ∈ l ++ [d], p c := by
    intro c hc
    rcases List.mem_append.1 hc with hc | hc
    · exact hl c hc
    · rwa [List.mem_singleton.1 hc]
  have hprefix : l ++ [d] <+: l ++ d :: tail :=
    (List.prefix_append_right_inj l).2 (List.prefix_append [d] tail)
  have hle := length_le_run hlonger hprefix
  rw [h, List.length_append] at hle
  exact absurd hle (Nat.not_succ_le_self _)

theorem run_seam {p : Char → Bool} (h : run p (l ++ rest) = l.length)
    (hs : rest'.head? = rest.head? ∨ ∀ d ∈ rest'.head?, ¬ p d) :
    run p (l ++ rest') = l.length := by
  obtain ⟨hl, hrest⟩ := run_ends h
  cases rest' with
  | nil =>
    rw [run, List.takeWhile_append_of_pos hl, List.takeWhile_nil, List.append_nil]
  | cons d tail =>
    apply run_append hl
    rcases hs with hs | hs
    · exact hrest d hs.symm
    · exact hs d rfl

theorem closing?_seam (h : closing? 0 (l ++ rest) = some l.length) (rest' : List Char) :
    closing? 0 (l ++ rest') = some l.length := by
  rcases Quotable.split (l ++ rest) with ⟨cs, after, hcs, he⟩ | ⟨cs, hcs, hr⟩
  · rw [he, closing?_quotable hcs, Nat.zero_add] at h
    have hl : l = cs ++ ['"'] := by
      have htake := congrArg (List.take l.length) he
      rw [List.take_left, ← Option.some.inj h, List.take_length_add_append] at htake
      exact htake
    rw [hl, List.append_assoc, List.singleton_append, closing?_quotable hcs]
    simp
  · rw [closing?_unclosed hcs hr] at h
    cases h

theorem pair?_lineFeed (c : Char) : pair? c '\n' = none := by
  unfold pair?
  split <;> simp_all

theorem punctuation_seam {kind : Option TokenKind} (hc : c ∈ punctuation)
    (h : at? c (l ++ rest) = some ⟨kind, l.length⟩)
    (hs : rest'.head? = rest.head? ∨ ∀ d ∈ rest'.head?, pair? c d = none) :
    at? c (l ++ rest') = some ⟨kind, l.length⟩ := by
  rw [at?_punctuation hc] at h ⊢
  cases l with
  | cons d l => exact h
  | nil =>
    rcases hs with hs | hs
    · rwa [List.nil_append, hs]
    · rw [List.nil_append, Option.bind_eq_none_iff.2 hs]
      rw [List.nil_append] at h
      split at h
      · cases h
      · exact h

/-- A piece ends where it does whatever stands behind the seam. -/
theorem at?_seam {kind : Option TokenKind} (h : at? c (l ++ rest) = some ⟨kind, l.length⟩)
    (hs : Seam rest rest') : at? c (l ++ rest') = some ⟨kind, l.length⟩ := by
  have hrun {p : Char → Bool} {kind' : Option TokenKind} (hp : p '\n' = false)
      (he : some (Piece.mk kind' (run p (l ++ rest))) = some ⟨kind, l.length⟩) :
      some (Piece.mk kind' (run p (l ++ rest'))) = some ⟨kind, l.length⟩ := by
    obtain ⟨hkind, hmore⟩ := Piece.mk.inj (Option.some.inj he)
    rw [hkind, run_seam hmore (hs.imp_right fun hs d hd => ?_)]
    cases hs.1.symm.trans hd
    simp [hp]
  by_cases hc : IsOpening c
  · rcases hc with hc | hc | hc
    · rcases List.mem_append.1 hc with hc | hc
      · simp only [List.mem_cons, List.not_mem_nil, or_false] at hc
        rcases hc with rfl | rfl | rfl | rfl | rfl | rfl
        · rw [at?_blank rfl] at h ⊢
          exact hrun rfl h
        · rw [at?_blank rfl] at h ⊢
          exact hrun rfl h
        · rw [at?_blank rfl] at h ⊢
          exact hrun rfl h
        · exact h
        · exact hrun (p := (· ≠ '\n')) (by decide) h
        · rw [at?_quote] at h ⊢
          obtain ⟨n, hn, he⟩ := Option.map_eq_some_iff.1 h
          obtain ⟨rfl, rfl⟩ := Piece.mk.inj he
          rw [closing?_seam hn rest']
          rfl
      · apply punctuation_seam hc h
        refine hs.imp_right fun hs d hd => ?_
        cases hs.1.symm.trans hd
        exact pair?_lineFeed c
    · rw [at?_digit hc] at h ⊢
      exact hrun rfl h
    · rw [at?_nameStart hc] at h ⊢
      exact hrun rfl h
  · rw [at?_foreign hc] at h
    cases h

end Piece

/-- A text taken apart into its pieces, up to its end or to where nothing can be read. -/
inductive Pieced : List Char → Prop
  | nil : Pieced []
  | stuck (h : Piece.at? c rest = none) : Pieced (c :: rest)
  | piece {kind : Option TokenKind} (h : Piece.at? c (l ++ rest) = some ⟨kind, l.length⟩)
      (hrest : Pieced rest) : Pieced (c :: (l ++ rest))

theorem pieced (cs : List Char) : Pieced cs := by
  -- What stands behind a piece is shorter than the text.
  generalize hn : cs.length = n
  induction n using Nat.strongRecOn generalizing cs with
  | ind n ih =>
    cases cs with
    | nil => exact .nil
    | cons c rest =>
      cases hat : Piece.at? c rest with
      | none => exact .stuck hat
      | some piece =>
        obtain ⟨kind, more⟩ := piece
        have hexplains := Piece.at?_explains c rest
        rw [hat] at hexplains
        have hlength : (rest.take more).length = more := List.length_take_of_le hexplains.2
        have hrest : Pieced (rest.drop more) := by
          apply ih _ _ _ rfl
          rw [← hn, List.length_drop, List.length_cons]
          omega
        rw [← List.take_append_drop more rest] at hat ⊢
        have hpiece : Piece.at? c (rest.take more ++ rest.drop more) =
            some ⟨kind, (rest.take more).length⟩ := by
          rw [hat, hlength]
        exact .piece hpiece hrest

theorem itemsFrom_gap (h : Piece.at? c (l ++ rest) = some ⟨none, l.length⟩) (pos : Position) :
    itemsFrom 0 pos (c :: (l ++ rest)) = itemsFrom 0 (pos.afterAll (c :: l)) rest := by
  rw [itemsFrom, h]
  exact itemsFrom_skip _ l rest

theorem itemsFrom_ne_nil (skip : Nat) (pos : Position) (cs : List Char) :
    itemsFrom skip pos cs ≠ [] := by
  obtain ⟨ts, last, rest, stop, hitems, -, -⟩ := reads_itemsFrom skip pos cs
  rw [hitems]
  simp

theorem seam_append (rest more : List Char) : Seam rest (rest ++ '\n' :: more) := by
  cases rest with
  | nil =>
    refine .inr ⟨rfl, ?_⟩
    intro c hc
    cases hc
  | cons d rest => exact .inl rfl

/-- A line feed behind a text that can be read keeps it apart from what follows. -/
theorem itemsFrom_append {cs : List Char} {ts : List Token}
    (h : itemsFrom 0 pos cs = (ts ++ [stop]).map .ok) (more : List Char) :
    itemsFrom 0 pos (cs ++ '\n' :: more) =
      ts.map .ok ++ itemsFrom 0 (pos.afterAll cs) ('\n' :: more) := by
  induction pieced cs generalizing pos ts with
  | nil =>
    rw [itemsFrom] at h
    cases ts with
    | nil => rfl
    | cons t ts => simp at h
  | @stuck c rest hat =>
    rw [itemsFrom, hat] at h
    cases ts <;> cases h
  | @piece c l rest kind hat hrest ih =>
    have hjoined := Piece.at?_seam hat (seam_append rest more)
    rw [List.cons_append, List.append_assoc]
    cases kind with
    | none =>
      rw [itemsFrom_gap hat] at h
      rw [itemsFrom_gap hjoined, ih h, ← Position.afterAll_append]
      rfl
    | some kind =>
      rw [itemsFrom_token hat] at h
      rw [itemsFrom_token hjoined]
      cases ts with
      | nil => exact absurd (List.cons.inj h).2 (itemsFrom_ne_nil _ _ _)
      | cons t ts =>
        obtain ⟨ht, h⟩ := List.cons.inj h
        rw [ih h, ht, ← Position.afterAll_append]
        rfl

end Scriptlet
