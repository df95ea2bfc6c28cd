import Mathlib.Data.Rat.Floor
import Scriptlet.Proofs.Numeral
import Scriptlet.Value.Operation

namespace Scriptlet
set_option autoImplicit true

def truncate (q : ℚ) : ℤ :=
  if 0 ≤ q then ⌊q⌋ else ⌈q⌉

theorem truncate_neg (q : ℚ) : truncate (-q) = -truncate q := by
  unfold truncate
  rcases lt_trichotomy q 0 with hq | rfl | hq
  · rw [if_pos (by linarith), if_neg (by linarith), Int.floor_neg]
  · simp
  · rw [if_neg (by linarith), if_pos hq.le, Int.ceil_neg]

theorem truncate_natCast_div (m n : ℕ) : truncate (m / n) = (m / n : ℕ) := by
  have hq : (0 : ℚ) ≤ m / n := by positivity
  rw [truncate, if_pos hq]
  exact Rat.floor_natCast_div_natCast m n

/-- The quotient that is cut off toward zero is the truncated fraction, whatever the signs are. -/
theorem tdiv_eq_truncate (a b : ℤ) : a.tdiv b = truncate (a / b) := by
  obtain ⟨m, rfl | rfl⟩ := a.eq_nat_or_neg <;> obtain ⟨n, rfl | rfl⟩ := b.eq_nat_or_neg
  all_goals simp only [Int.neg_tdiv, Int.tdiv_neg, Int.cast_neg, Int.cast_natCast, neg_div, div_neg,
    truncate_neg, truncate_natCast_div, neg_neg, ← Int.ofNat_tdiv]

/-- What an operation makes of two integers, out of all integers. By zero nothing is divided. -/
inductive Arithmetic.ComesTo : Arithmetic → ℤ → ℤ → ℤ → Prop
  | sum : ComesTo .add a b (a + b)
  | difference : ComesTo .subtract a b (a - b)
  | product : ComesTo .multiply a b (a * b)
  | quotient (hb : b ≠ 0) : ComesTo .divide a b (truncate (a / b))

theorem Arithmetic.comesTo_iff {op : Arithmetic} :
    op.ComesTo a b r ↔ ¬(op = .divide ∧ b = 0) ∧ op.exact a b = r := by
  constructor
  · intro h
    cases h with
    | sum => exact ⟨by simp, rfl⟩
    | difference => exact ⟨by simp, rfl⟩
    | product => exact ⟨by simp, rfl⟩
    | quotient hb => exact ⟨fun h => hb h.2, tdiv_eq_truncate a b⟩
  · rintro ⟨hb, rfl⟩
    cases op with
    | add => exact .sum
    | subtract => exact .difference
    | multiply => exact .product
    | divide =>
      rw [exact, tdiv_eq_truncate]
      exact .quotient fun h => hb ⟨rfl, h⟩

theorem Integer.ofInt?_eq_none_iff {i : ℤ} : ofInt? i = none ↔ i < -2 ^ 63 ∨ 2 ^ 63 ≤ i := by
  unfold ofInt?
  simp only [Int64.toInt_minValue, Int64.toInt_maxValue, ite_eq_right_iff, reduceCtorEq, imp_false]
  omega

namespace Value

/-- What an arithmetic operator is to make of two values. Two integers give the exact result, or an
overflow where it is none of 64 bits; a string is joined to any value by their texts; nothing else
is an operand. -/
inductive Computes : Arithmetic → Value → Value → Except Fault Value → Prop
  | exact {n : Int64} (h : op.ComesTo a.toInt b.toInt n.toInt) :
      Computes op (.integer a) (.integer b) (.ok (.integer n))
  | overflow (h : op.ComesTo a.toInt b.toInt r) (hr : r < -2 ^ 63 ∨ 2 ^ 63 ≤ r) :
      Computes op (.integer a) (.integer b) (.error (.overflow op))
  | divisionByZero : Computes .divide (.integer a) (.integer 0) (.error .divisionByZero)
  | joined {l r : Value} (h : l.type = .string ∨ r.type = .string) :
      Computes .add l r (.ok (.string (l.display ++ r.display)))
  | unsupported {l r : Value} (hi : ¬(l.type = .integer ∧ r.type = .integer))
      (hs : ¬(op = .add ∧ (l.type = .string ∨ r.type = .string))) :
      Computes op l r (.error (.unsupportedOperands (.arithmetic op) l.type r.type))

/-- On integers the three ways in which an operation can end exclude each other and leave nothing
out. -/
theorem compute_eq_iff {op : Arithmetic} {a b : Int64} :
    compute op a b = out ↔ Computes op (.integer a) (.integer b) out := by
  have hzero : b.toInt = 0 ↔ b = 0 := by rw [← Int64.toInt_zero, Int64.toInt_inj]
  unfold compute
  constructor
  · rintro rfl
    split
    · rename_i hdivide
      obtain ⟨rfl, rfl⟩ := hdivide
      exact .divisionByZero
    · rename_i hdivide
      rw [← hzero] at hdivide
      split
      · rename_i n hn
        exact .exact (Arithmetic.comesTo_iff.2 ⟨hdivide, (Integer.ofInt?_eq_some_iff.1 hn).symm⟩)
      · rename_i hnone
        exact .overflow (Arithmetic.comesTo_iff.2 ⟨hdivide, rfl⟩)
          (Integer.ofInt?_eq_none_iff.1 hnone)
  · intro h
    cases h with
    | exact h =>
      obtain ⟨hdivide, hn⟩ := Arithmetic.comesTo_iff.1 h
      rw [hzero] at hdivide
      rw [if_neg hdivide, Integer.ofInt?_eq_some_iff.2 hn.symm]
    | overflow h hr =>
      obtain ⟨hdivide, rfl⟩ := Arithmetic.comesTo_iff.1 h
      rw [hzero] at hdivide
      rw [if_neg hdivide, Integer.ofInt?_eq_none_iff.2 hr]
    | divisionByZero => rfl
    | joined h => rcases h with h | h <;> cases h
    | unsupported hi => exact absurd ⟨rfl, rfl⟩ hi

theorem type_eq_string {v : Value} (h : v.type = .string) : ∃ s, v = .string s := by
  cases v <;> cases h
  exact ⟨_, rfl⟩

theorem arithmetic_joins {l r : Value} (h : l.type = .string ∨ r.type = .string) :
    arithmetic .add l r = .ok (.string (l.display ++ r.display)) := by
  unfold arithmetic
  split
  · rcases h with h | h <;> cases h
  · rfl
  · rfl
  · rename_i hleft hright
    rcases h with h | h
    · obtain ⟨s, hs⟩ := type_eq_string h
      exact (hleft s rfl hs).elim
    · obtain ⟨s, hs⟩ := type_eq_string h
      exact (hright s rfl hs).elim

theorem arithmetic_refuses {op : Arithmetic} {l r : Value}
    (hi : ¬(l.type = .integer ∧ r.type = .integer))
    (hs : ¬(op = .add ∧ (l.type = .string ∨ r.type = .string))) :
    arithmetic op l r = .error (.unsupportedOperands (.arithmetic op) l.type r.type) := by
  unfold arithmetic
  split
  · exact absurd ⟨rfl, rfl⟩ hi
  · exact absurd ⟨rfl, .inl rfl⟩ hs
  · exact absurd ⟨rfl, .inr rfl⟩ hs
  · rfl

theorem arithmetic_eq_iff {op : Arithmetic} {l r : Value} :
    arithmetic op l r = out ↔ Computes op l r out := by
  by_cases hi : l.type = .integer ∧ r.type = .integer
  · cases l <;> cases hi.1
    cases r <;> cases hi.2
    exact compute_eq_iff
  by_cases hs : op = .add ∧ (l.type = .string ∨ r.type = .string)
  · obtain ⟨rfl, hs⟩ := hs
    rw [arithmetic_joins hs]
    constructor
    · rintro rfl
      exact .joined hs
    · intro h
      cases h with
      | joined => rfl
      | unsupported _ hn => exact absurd ⟨rfl, hs⟩ hn
      | _ => exact absurd ⟨rfl, rfl⟩ hi
  · rw [arithmetic_refuses hi hs]
    constructor
    · rintro rfl
      exact .unsupported hi hs
    · intro h
      cases h with
      | joined h => exact absurd ⟨rfl, h⟩ hs
      | unsupported => rfl
      | _ => exact absurd ⟨rfl, rfl⟩ hi

/-- Arithmetic operators make of any two values exactly what they are to make of them, and nothing
else. Whichever operator gives an integer, it is the exact result, so that none ever wraps. -/
theorem operators_exact (l r : Value) :
    (∀ op out, l.binary (.arithmetic op) r = out ↔ Computes op l r out) ∧
      ∀ op n, l.binary op r = .ok (.integer n) → ∃ k a b, op = .arithmetic k ∧ l = .integer a ∧
        r = .integer b ∧ k.ComesTo a.toInt b.toInt n.toInt := by
  refine ⟨fun op out => arithmetic_eq_iff, ?_⟩
  intro op n h
  cases op with
  | arithmetic k =>
    have hcomputes := arithmetic_eq_iff.1 h
    cases hcomputes with
    | exact h => exact ⟨k, _, _, rfl, rfl, rfl, h⟩
  | comparison c =>
    unfold binary at h
    split at h
    · rename_i hop
      cases hop
    · split at h <;> cases h

/-- The least integer divided by minus one, and a negative quotient. -/
theorem operators_exact_quotients :
    (Value.integer Int64.minValue).binary (.arithmetic .divide) (.integer (-1)) =
        .error (.overflow .divide) ∧
      (Value.integer (-7)).binary (.arithmetic .divide) (.integer 2) = .ok (.integer (-3)) ∧
      Arithmetic.ComesTo .divide (-7) 2 (-3) := by
  have hleast : Arithmetic.ComesTo .divide Int64.minValue.toInt (-1 : Int64).toInt (2 ^ 63) :=
    Arithmetic.comesTo_iff.2 (by decide)
  have hquotient : (Value.integer (-7)).binary (.arithmetic .divide) (.integer 2) =
      .ok (.integer (-3)) := by decide
  obtain ⟨hcomputes, -⟩ := operators_exact (.integer Int64.minValue) (.integer (-1))
  obtain ⟨-, hexact⟩ := operators_exact (.integer (-7)) (.integer 2)
  obtain ⟨k, a, b, hk, ha, hb, h⟩ := hexact _ _ hquotient
  cases hk
  cases ha
  cases hb
  exact ⟨(hcomputes _ _).2 (.overflow hleast (.inr (le_refl _))), hquotient, h⟩

end Value

end Scriptlet
