import Scriptlet.Proofs.Comparison.Bytes
import Scriptlet.Value.Operation

namespace Scriptlet
set_option autoImplicit true

namespace Comparison

/-- The comparison that holds of two values of a type when this one does not. -/
def negated : Comparison → Comparison
  | greater => lessEqual
  | less => greaterEqual
  | greaterEqual => less
  | lessEqual => greater
  | equal => notEqual
  | notEqual => equal

/-- The comparison that says the same with its sides exchanged. -/
def turned : Comparison → Comparison
  | greater => less
  | less => greater
  | greaterEqual => lessEqual
  | lessEqual => greaterEqual
  | equal => equal
  | notEqual => notEqual

theorem holds_negated (c : Comparison) (o : Ordering) : c.negated.holds o = !c.holds o := by
  cases c <;> cases o <;> rfl

theorem holds_turned (c : Comparison) (o : Ordering) : c.turned.holds o.swap = c.holds o := by
  cases c <;> cases o <;> rfl

end Comparison

namespace Value

def Holds (c : Comparison) (a b : Value) : Prop :=
  a.binary (.comparison c) b = .ok (.boolean true)

theorem compare?_of_type (h : type a = type b) : ∃ o, a.compare? b = some o := by
  cases a <;> cases b <;> cases h
  all_goals exact ⟨_, rfl⟩

theorem compare?_of_type_ne (h : type a ≠ type b) : a.compare? b = Option.none := by
  cases a <;> cases b <;> first | rfl | exact absurd rfl h

theorem type_of_compare? (h : compare? a b = some o) : a.type = b.type := by
  by_contra hne
  rw [compare?_of_type_ne hne] at h
  cases h

theorem compare?_swap (a b : Value) : b.compare? a = (a.compare? b).map Ordering.swap := by
  cases a <;> cases b <;> first | rfl | exact congrArg some Std.OrientedOrd.eq_swap

theorem eq_of_compare? (h : compare? a b = some .eq) : a = b := by
  cases a with
  | integer m =>
    cases b with
    | integer n =>
      have hn : m.toInt = n.toInt := compare_eq_iff_eq.1 (Option.some.inj h)
      rw [Int64.toInt_inj.1 hn]
    | _ => cases h
  | string s =>
    cases b with
    | string t =>
      have ht : s = t := compare_eq_iff_eq.1 (Option.some.inj h)
      rw [ht]
    | _ => cases h
  | boolean p =>
    cases b with
    | boolean q => cases p <;> cases q <;> first | rfl | cases h
    | _ => cases h
  | none =>
    cases b with
    | none => rfl
    | _ => cases h

theorem compare?_self (a : Value) : a.compare? a = some .eq := by
  cases a with
  | none => rfl
  | _ => exact congrArg some (compare_eq_iff_eq.2 rfl)

theorem compare?_eq_iff : compare? a b = some .eq ↔ a = b := by
  constructor
  · exact eq_of_compare?
  · rintro rfl
    exact compare?_self a

theorem compare?_trans (hab : compare? a b = some .lt) (hbc : compare? b c = some .lt) :
    a.compare? c = some .lt := by
  have hb := type_of_compare? hab
  have hc := type_of_compare? hbc
  cases a <;> cases b <;> cases hb <;> cases c <;> cases hc
  case none => cases hab
  all_goals
    exact congrArg some (Std.TransCmp.lt_trans (Option.some.inj hab) (Option.some.inj hbc))

theorem binary_of_compare? (h : compare? a b = some o) (c : Comparison) :
    a.binary (.comparison c) b = .ok (.boolean (c.holds o)) := by
  unfold binary
  rw [h]

theorem binary_of_type_ne (h : type a ≠ type b) (c : Comparison) : a.binary (.comparison c) b =
    .error (.unsupportedOperands (.comparison c) a.type b.type) := by
  unfold binary
  rw [compare?_of_type_ne h]

theorem holds_iff (h : compare? a b = some o) (c : Comparison) :
    Holds c a b ↔ c.holds o = true := by
  rw [Holds, binary_of_compare? h, Except.ok.injEq, boolean.injEq]

theorem type_of_holds (h : Holds c a b) : a.type = b.type := by
  by_contra hne
  cases (binary_of_type_ne hne c).symm.trans h

theorem holds_less_iff : Holds .less a b ↔ a.compare? b = some .lt := by
  constructor
  · intro h
    obtain ⟨o, ho⟩ := compare?_of_type (type_of_holds h)
    rw [holds_iff ho] at h
    rw [ho, of_decide_eq_true h]
  · intro h
    rw [holds_iff h]
    rfl

theorem holds_equal_iff : Holds .equal a b ↔ a = b := by
  rw [← compare?_eq_iff]
  constructor
  · intro h
    obtain ⟨o, ho⟩ := compare?_of_type (type_of_holds h)
    rw [holds_iff ho] at h
    rw [ho, of_decide_eq_true h]
  · intro h
    rw [holds_iff h]
    rfl

theorem holds_trichotomy (h : type a = type b) :
    ∃! c, c ∈ [Comparison.less, .equal, .greater] ∧ Holds c a b := by
  obtain ⟨o, ho⟩ := compare?_of_type h
  simp only [holds_iff ho]
  cases o with
  | lt => exact ⟨.less, by decide, fun c => by cases c <;> decide⟩
  | eq => exact ⟨.equal, by decide, fun c => by cases c <;> decide⟩
  | gt => exact ⟨.greater, by decide, fun c => by cases c <;> decide⟩

theorem holds_negated_iff (h : type a = type b) (c : Comparison) :
    Holds c.negated a b ↔ ¬Holds c a b := by
  obtain ⟨o, ho⟩ := compare?_of_type h
  rw [holds_iff ho, holds_iff ho, c.holds_negated, Bool.not_eq_true, Bool.not_eq_true']

theorem binary_turned (h : type a = type b) (c : Comparison) :
    b.binary (.comparison c.turned) a = a.binary (.comparison c) b := by
  obtain ⟨o, ho⟩ := compare?_of_type h
  have hswap : b.compare? a = some o.swap := by rw [compare?_swap, ho, Option.map_some]
  rw [binary_of_compare? ho, binary_of_compare? hswap, c.holds_turned]

theorem holds_less_string_iff : Holds .less (.string s) (.string t) ↔ s < t := by
  rw [holds_less_iff]
  exact Option.some_inj.trans compareOfLessAndEq_eq_lt

/-- Comparisons are one total order for each type. Of two values of a type all six are true or
false, as one of smaller, equal and greater says, and of values of different types none is defined.
Texts are ordered by their bytes, and that is the order of their scalar values. -/
theorem comparisons_order (a b c : Value) :
    (a.type = b.type →
      (∀ op, ∃ t, a.binary (.comparison op) b = .ok (.boolean t)) ∧
      (∃! op, op ∈ [Comparison.less, .equal, .greater] ∧ Holds op a b) ∧
      (∀ op, Holds op.negated a b ↔ ¬Holds op a b) ∧
      ∀ op, b.binary (.comparison op.turned) a = a.binary (.comparison op) b) ∧
    (a.type ≠ b.type → ∀ op, a.binary (.comparison op) b =
      .error (.unsupportedOperands (.comparison op) a.type b.type)) ∧
    (Holds .equal a b ↔ a = b) ∧
    (Holds .less a b → Holds .less b c → Holds .less a c) ∧
    ∀ s t, (Holds .less (.string s) (.string t) ↔
        List.Lex (· < ·) (Text.bytes s) (Text.bytes t)) ∧
      (List.Lex (· < ·) (Text.bytes s) (Text.bytes t) ↔
        List.Lex (· < ·) (Text.scalars s) (Text.scalars t)) := by
  refine ⟨?_, binary_of_type_ne, holds_equal_iff, ?_, ?_⟩
  · intro h
    obtain ⟨o, ho⟩ := compare?_of_type h
    refine ⟨?_, holds_trichotomy h, holds_negated_iff h, binary_turned h⟩
    exact fun op => ⟨_, binary_of_compare? ho op⟩
  · intro hab hbc
    rw [holds_less_iff] at *
    exact compare?_trans hab hbc
  · intro s t
    rw [List.lex_lt, List.lex_lt, Text.bytes_lt_iff, Text.scalars_lt_iff]
    exact ⟨holds_less_string_iff, Iff.rfl⟩

/-- Three texts in the order of their scalar values, two of which stand the other way round in
UTF-16, and a number beside a text. -/
theorem comparisons_order_threeTexts :
    type (.string "z") = type (.string "\uffff") ∧
      (∃! op, op ∈ [Comparison.less, .equal, .greater] ∧
        Holds op (.string "z") (.string "\uffff")) ∧
      Holds .less (.string "z") (.string "\uffff") ∧
      Holds .less (.string "\uffff") (.string "😀") ∧
      Holds .less (.string "z") (.string "😀") ∧
      type (.integer 1) ≠ type (.string "1") ∧
      (Value.integer 1).binary (.comparison .equal) (.string "1") =
        .error (.unsupportedOperands (.comparison .equal) .integer .string) := by
  have htype : type (.string "z") = type (.string "\uffff") := rfl
  have hfirst : Holds .less (.string "z") (.string "\uffff") := by unfold Holds; decide
  have hsecond : Holds .less (.string "\uffff") (.string "😀") := by unfold Holds; decide
  have hne : type (.integer 1) ≠ type (.string "1") := by decide
  obtain ⟨hsame, -, -, htrans, -⟩ :=
    comparisons_order (.string "z") (.string "\uffff") (.string "😀")
  obtain ⟨-, hone, -, -⟩ := hsame htype
  obtain ⟨-, hmixed, -⟩ := comparisons_order (.integer 1) (.string "1") .none
  exact ⟨htype, hone, hfirst, hsecond, htrans hfirst hsecond, hne, hmixed hne .equal⟩

end Value

end Scriptlet
