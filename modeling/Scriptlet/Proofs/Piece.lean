import Scriptlet.Token.Stream

namespace Scriptlet.Piece
set_option autoImplicit true

theorem not_isDigit_of_isNameStart {c : Char} (h : isNameStart c) : c.isDigit = false := by
  -- The letters and the underscore all come after the digits.
  have hafter : '9'.val < c.val := by
    simp only [isNameStart, Bool.or_eq_true, decide_eq_true_eq] at h
    rcases h with h | rfl
    · rcases Bool.or_eq_true_iff.1 h with h | h
      · have hupper : 'A'.val ≤ c.val ∧ c.val ≤ 'Z'.val := of_decide_eq_true h
        grind
      · have hlower : 'a'.val ≤ c.val := of_decide_eq_true (Bool.and_eq_true_iff.1 h).1
        grind
    · decide
  grind [Char.isDigit]

theorem ne_of_eq_false {p : Char → Bool} (hc : p c) (hd : p d = false) : c ≠ d := by
  rintro rfl
  rw [hc] at hd
  cases hd

theorem not_isBlank {p : Char → Bool} (hc : p c) (hspace : p ' ' = false) (htab : p '\t' = false)
    (hreturn : p '\r' = false) : isBlank c = false := by
  simp [isBlank, ne_of_eq_false hc hspace, ne_of_eq_false hc htab, ne_of_eq_false hc hreturn]

theorem at?_blank {c : Char} (h : isBlank c) (rest : List Char) :
    at? c rest = some ⟨none, run isBlank rest⟩ := by
  rw [at?, if_neg (ne_of_eq_false h rfl), if_pos h]

theorem at?_quote (rest : List Char) :
    at? '"' rest = (closing? 0 rest).map (⟨some .string, ·⟩) := rfl

theorem at?_digit {c : Char} (h : c.isDigit) (rest : List Char) :
    at? c rest = some ⟨some .number, run Char.isDigit rest⟩ := by
  have hblank := not_isBlank h rfl rfl rfl
  rw [at?, if_neg (ne_of_eq_false h rfl), hblank, if_neg Bool.false_ne_true,
    if_neg (ne_of_eq_false h rfl), if_neg (ne_of_eq_false h rfl), if_pos h]

theorem at?_nameStart {c : Char} (h : isNameStart c) (rest : List Char) :
    at? c rest = some ⟨some .identifier, run isNamePart rest⟩ := by
  have hblank := not_isBlank h rfl rfl rfl
  have hdigit := not_isDigit_of_isNameStart h
  rw [at?, if_neg (ne_of_eq_false h rfl), hblank, if_neg Bool.false_ne_true,
    if_neg (ne_of_eq_false h rfl), if_neg (ne_of_eq_false h rfl), hdigit,
    if_neg Bool.false_ne_true, if_pos h]

theorem take_run (p : Char → Bool) (cs : List Char) : ∀ c ∈ cs.take (run p cs), p c := by
  intro c hc
  rw [run, ← List.prefix_iff_eq_take.1 (List.takeWhile_prefix p)] at hc
  exact List.all_eq_true.1 List.all_takeWhile c hc

theorem run_append (h : ∀ c ∈ cs, p c) (hd : ¬ p d) (rest : List Char) :
    run p (cs ++ d :: rest) = cs.length := by
  rw [run, List.takeWhile_append_of_pos h, List.takeWhile_cons_of_neg hd, List.append_nil]

theorem closing?_cons {c : Char} (hq : c ≠ '"') (hb : c ≠ '\\') (seen : Nat) (rest : List Char) :
    closing? seen (c :: rest) = closing? (seen + 1) rest := by
  rw [closing?.eq_def]
  split <;> simp_all

theorem at?_token {kind : TokenKind} {more : Nat} (h : at? c rest = some ⟨some kind, more⟩) :
    kind = .string ∨ (kind = .number ∧ c.isDigit ∧ more = run Char.isDigit rest) ∨
      (kind = .identifier ∧ isNameStart c ∧ more = run isNamePart rest) ∨
      (kind ≠ .number ∧ kind ≠ .identifier ∧ kind ≠ .endOfInput) := by
  unfold at? at h
  split at h
  · cases h
  split at h
  · cases h
  split at h
  · cases h
  split at h
  · obtain ⟨n, -, hn⟩ := Option.map_eq_some_iff.1 h
    cases hn
    exact .inl rfl
  split at h
  · cases h
    exact .inr (.inl ⟨rfl, ‹_›, rfl⟩)
  split at h
  · cases h
    exact .inr (.inr (.inl ⟨rfl, ‹_›, rfl⟩))
  refine .inr (.inr (.inr ?_))
  split at h
  · rename_i hp
    obtain ⟨d, -, hd⟩ := Option.bind_eq_some_iff.1 hp
    cases h
    unfold pair? at hd
    split at hd <;> cases hd <;> simp
  · obtain ⟨k, hk, hk'⟩ := Option.map_eq_some_iff.1 h
    cases hk'
    unfold symbol? at hk
    split at hk <;> cases hk <;> simp

end Scriptlet.Piece
