import Scriptlet.Integer

namespace Scriptlet.Integer
set_option autoImplicit true

/-- A row of decimal digits, which one sign may precede, spells an integer. -/
inductive Numeral : List Char → Int → Prop
  | plain (hne : ds ≠ []) (hd : ∀ d ∈ ds, d.isDigit) : Numeral ds (Nat.ofDigitChars 10 ds 0)
  | plus (hne : ds ≠ []) (hd : ∀ d ∈ ds, d.isDigit) : Numeral ('+' :: ds) (Nat.ofDigitChars 10 ds 0)
  | minus (hne : ds ≠ []) (hd : ∀ d ∈ ds, d.isDigit) :
      Numeral ('-' :: ds) (-Nat.ofDigitChars 10 ds 0)

theorem ofInt?_eq_some_iff : ofInt? i = some n ↔ n.toInt = i := by
  unfold ofInt?
  constructor
  · intro h
    split at h
    · rename_i hi
      simp only [Int64.toInt_minValue, Int64.toInt_maxValue] at hi
      cases h
      exact Int64.toInt_ofInt_of_le hi.1 (by omega)
    · cases h
  · intro h
    subst i
    rw [if_pos ⟨n.minValue_le_toInt, n.toInt_le⟩, Int64.ofInt_toInt]

theorem digits?_eq_some_iff : digits? cs = some v ↔
    cs ≠ [] ∧ (∀ c ∈ cs, c.isDigit) ∧ Nat.ofDigitChars 10 cs 0 = v := by
  unfold digits?
  rw [← Nat.ofDigitChars_eq_foldl]
  split
  · rename_i h
    simp only [List.all_eq_true] at h
    constructor
    · intro h'
      cases h'
      exact ⟨h.1, h.2, rfl⟩
    · rintro ⟨_, _, rfl⟩
      rfl
  · rename_i h
    simp only [List.all_eq_true, not_and] at h
    constructor
    · intro h'
      cases h'
    · rintro ⟨hne, hd, _⟩
      exact absurd hd (h hne)

/-- Reading finds exactly the values that numerals spell. -/
theorem ofNumeral?_eq_some_iff : ofNumeral? s = some n ↔ Numeral s.toList n.toInt := by
  unfold ofNumeral?
  constructor
  · intro h
    split at h
    · rename_i cs hs
      obtain ⟨v, hv, hn⟩ := Option.bind_eq_some_iff.1 h
      obtain ⟨hne, hd, rfl⟩ := digits?_eq_some_iff.1 hv
      rw [hs, ofInt?_eq_some_iff.1 hn]
      exact .minus hne hd
    · rename_i cs hs
      obtain ⟨v, hv, hn⟩ := Option.bind_eq_some_iff.1 h
      obtain ⟨hne, hd, rfl⟩ := digits?_eq_some_iff.1 hv
      rw [hs, ofInt?_eq_some_iff.1 hn]
      exact .plus hne hd
    · obtain ⟨v, hv, hn⟩ := Option.bind_eq_some_iff.1 h
      obtain ⟨hne, hd, rfl⟩ := digits?_eq_some_iff.1 hv
      rw [ofInt?_eq_some_iff.1 hn]
      exact .plain hne hd
  · intro h
    generalize hcs : s.toList = cs at h ⊢
    generalize hi : n.toInt = i at h
    cases h with
    | plain hne hd =>
      have hv := digits?_eq_some_iff.2 ⟨hne, hd, rfl⟩
      split
      · exact absurd (hd _ (List.mem_cons_self ..)) (by decide)
      · exact absurd (hd _ (List.mem_cons_self ..)) (by decide)
      · rw [hv]
        exact ofInt?_eq_some_iff.2 hi
    | @plus ds hne hd =>
      change (digits? ds).bind (fun v => ofInt? v) = some n
      rw [digits?_eq_some_iff.2 ⟨hne, hd, rfl⟩]
      exact ofInt?_eq_some_iff.2 hi
    | @minus ds hne hd =>
      change (digits? ds).bind (fun v => ofInt? (-v)) = some n
      rw [digits?_eq_some_iff.2 ⟨hne, hd, rfl⟩]
      exact ofInt?_eq_some_iff.2 hi

theorem toList_toString {i : Int} (h : 0 ≤ i) : (toString i).toList = Nat.toDigits 10 i.toNat := by
  obtain ⟨v, rfl⟩ := Int.eq_ofNat_of_zero_le h
  rw [Int.toString_eq_repr]
  exact Nat.toList_repr

theorem numeral_toString {i : Int} (h : 0 ≤ i) : Numeral (toString i).toList i := by
  obtain ⟨v, rfl⟩ := Int.eq_ofNat_of_zero_le h
  rw [toList_toString h]
  have hd : ∀ d ∈ Nat.toDigits 10 v, d.isDigit := fun d hd =>
    Nat.isDigit_of_mem_toDigits (by decide) (by decide) hd
  have hn := Numeral.plain (Nat.toDigits_ne_nil (n := v) (b := 10)) hd
  rwa [Nat.ofDigitChars_ten_toDigits] at hn

end Scriptlet.Integer
