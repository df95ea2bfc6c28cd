import Scriptlet.Proofs.Piece
import Scriptlet.Proofs.Printing

namespace Scriptlet
set_option autoImplicit true

/-- What may stand between the quotes of a string: a backslash takes the character behind it along,
and no quote or backslash stands by itself. -/
inductive Quotable : List Char → Prop
  | nil : Quotable []
  | plain (hq : c ≠ '"') (hb : c ≠ '\\') (h : Quotable cs) : Quotable (c :: cs)
  | pair (h : Quotable cs) : Quotable ('\\' :: c :: cs)

/-- The texts that the rules of tokens match, each with the class of its token, which is `none` for
what is skipped. -/
inductive Lexeme : Option TokenKind → List Char → Prop
  | blanks (hne : cs ≠ []) (h : ∀ c ∈ cs, c = ' ' ∨ c = '\t' ∨ c = '\r') : Lexeme none cs
  | lineFeed : Lexeme none ['\n']
  | comment (h : '\n' ∉ cs) : Lexeme none ('#' :: cs)
  | symbol (h : kind.symbol ≠ "") : Lexeme (some kind) kind.symbol.toList
  | string (h : Quotable cs) : Lexeme (some .string) ('"' :: (cs ++ ['"']))
  | number (hne : cs ≠ []) (h : ∀ c ∈ cs, c.isDigit) : Lexeme (some .number) cs
  | name (hc : Piece.isNameStart c) (h : ∀ d ∈ cs, Piece.isNamePart d) :
      Lexeme (some .identifier) (c :: cs)

/-- Of all that rules match at the head of a text, `l` is the longest. -/
structure Lexeme.Longest (kind : Option TokenKind) (l text : List Char) : Prop where
  lexeme : Lexeme kind l
  head : l <+: text
  longest : ∀ kind' l', Lexeme kind' l' → l' <+: text → l'.length ≤ l.length

def Piece.punctuation : List Char :=
  ['!', '=', '<', '>', '+', '-', '*', '/', ';', '(', ')', ',']

def Piece.IsOpening (c : Char) : Prop :=
  c ∈ [' ', '\t', '\r', '\n', '#', '"'] ++ punctuation ∨ c.isDigit ∨ isNameStart c

/-- Why nothing can be read at a character: no rule starts with it, or it lacks the character that
has to be next to it, or it is a quote that nothing closes. -/
inductive Unreadable : Char → List Char → Prop
  | foreign (h : ¬ Piece.IsOpening c) : Unreadable c rest
  | alone (h : rest.head? ≠ some '=') : Unreadable '!' rest
  | unclosed (h : Quotable cs) (hr : rest = cs ∨ rest = cs ++ ['\\']) : Unreadable '"' rest

namespace Piece

theorem isBlank_iff {c : Char} : isBlank c ↔ c = ' ' ∨ c = '\t' ∨ c = '\r' := by
  simp [isBlank, or_assoc]

theorem length_le_run {p : Char → Bool} (h : ∀ c ∈ l, p c) (hl : l <+: rest) :
    l.length ≤ run p rest := by
  obtain ⟨rest, rfl⟩ := hl
  rw [run, List.takeWhile_append_of_pos h, List.length_append]
  exact Nat.le_add_right ..

theorem closing?_quotable (h : Quotable cs) (seen : Nat) (rest : List Char) :
    closing? seen (cs ++ '"' :: rest) = some (seen + cs.length + 1) := by
  induction h generalizing seen with
  | nil => simp [closing?]
  | plain hq hb h ih =>
    rw [List.cons_append, closing?_cons hq hb, ih, List.length_cons]
    congr 2
    omega
  | pair h ih =>
    rw [List.cons_append, List.cons_append, closing?, ih, List.length_cons, List.length_cons]
    congr 2
    omega

theorem closing?_unclosed (h : Quotable cs) (hr : rest = cs ∨ rest = cs ++ ['\\']) (seen : Nat) :
    closing? seen rest = none := by
  induction h generalizing rest seen with
  | nil => rcases hr with rfl | rfl <;> rfl
  | plain hq hb h ih =>
    rcases hr with rfl | rfl
    · rw [closing?_cons hq hb, ih (.inl rfl)]
    · rw [List.cons_append, closing?_cons hq hb, ih (.inr rfl)]
  | pair h ih =>
    rcases hr with rfl | rfl
    · rw [closing?, ih (.inl rfl)]
    · rw [List.cons_append, List.cons_append, closing?, ih (.inr rfl)]

end Piece

theorem Quotable.split (rest : List Char) :
    (∃ cs after, Quotable cs ∧ rest = cs ++ '"' :: after) ∨
      ∃ cs, Quotable cs ∧ (rest = cs ∨ rest = cs ++ ['\\']) := by
  -- The induction is the one of the search for the closing quote, wherever that has got to.
  generalize hseen : 0 = seen
  clear hseen
  fun_induction Piece.closing? seen rest with
  | case1 seen => exact .inr ⟨[], .nil, .inl rfl⟩
  | case2 seen rest => exact .inl ⟨[], rest, .nil, rfl⟩
  | case3 seen => exact .inr ⟨[], .nil, .inr rfl⟩
  | case4 seen c rest ih =>
    rcases ih with ⟨cs, after, h, rfl⟩ | ⟨cs, h, rfl | rfl⟩
    · exact .inl ⟨_, after, .pair h, rfl⟩
    · exact .inr ⟨_, .pair h, .inl rfl⟩
    · exact .inr ⟨_, .pair h, .inr rfl⟩
  | case5 seen c rest hq hlast hpair ih =>
    have hb : c ≠ '\\' := by
      intro hc
      cases rest with
      | nil => exact hlast hc rfl
      | cons d rest => exact hpair d rest hc rfl
    rcases ih with ⟨cs, after, h, rfl⟩ | ⟨cs, h, rfl | rfl⟩
    · exact .inl ⟨_, after, .plain hq hb h, rfl⟩
    · exact .inr ⟨_, .plain hq hb h, .inl rfl⟩
    · exact .inr ⟨_, .plain hq hb h, .inr rfl⟩

namespace Piece

theorem at?_punctuation (hc : c ∈ punctuation) (rest : List Char) :
    at? c rest = match rest.head?.bind (pair? c) with
      | some kind => some ⟨some kind, 1⟩
      | none => (symbol? c).map (⟨some ·, 0⟩) := by
  simp only [punctuation, List.mem_cons, List.not_mem_nil, or_false] at hc
  rcases hc with rfl | rfl | rfl | rfl | rfl | rfl | rfl | rfl | rfl | rfl | rfl | rfl <;> rfl

theorem symbol_cases (kind : TokenKind) : kind.symbol = "" ∨
    (∃ c ∈ punctuation, kind.symbol.toList = [c] ∧ symbol? c = some kind) ∨
      ∃ c ∈ punctuation, ∃ d, kind.symbol.toList = [c, d] ∧ pair? c d = some kind := by
  cases kind <;> first
    | exact .inl rfl
    | exact .inr (.inl ⟨_, by decide, rfl, rfl⟩)
    | exact .inr (.inr ⟨_, by decide, _, rfl, rfl⟩)

/-- A piece that is read is at least as long as `l`, and if it is no longer it is of the same
class. -/
def Outreaches (kind : Option TokenKind) (l : List Char) : Option Piece → Prop
  | some piece => l.length ≤ piece.more ∧ (l.length = piece.more → piece.kind = kind)
  | none => False

theorem at?_symbol {kind : TokenKind} (h : kind.symbol.toList = c :: l) (hl : l <+: rest) :
    Outreaches (some kind) l (at? c rest) := by
  rcases symbol_cases kind with hs | ⟨d, hd, hs, hkind⟩ | ⟨d, hd, e, hs, hkind⟩
  · rw [hs] at h
    cases h
  · rw [hs] at h
    cases h
    rw [at?_punctuation hd, hkind]
    split
    · exact ⟨Nat.zero_le _, fun h => absurd h Nat.zero_ne_one⟩
    · exact ⟨Nat.zero_le _, fun _ => rfl⟩
  · rw [hs] at h
    cases h
    obtain ⟨rest, rfl⟩ := hl
    rw [at?_punctuation hd, List.singleton_append, List.head?_cons, Option.bind_some, hkind]
    exact ⟨Nat.le_refl _, fun _ => rfl⟩

theorem at?_of_lexeme {kind : Option TokenKind} (h : Lexeme kind (c :: l)) (hl : l <+: rest) :
    Outreaches kind l (at? c rest) := by
  generalize hcs : c :: l = cs at h
  cases h with
  | blanks hne h =>
    subst hcs
    obtain ⟨hc, hl'⟩ := List.forall_mem_cons.1 h
    rw [at?_blank (isBlank_iff.2 hc)]
    exact ⟨length_le_run (fun d hd => isBlank_iff.2 (hl' d hd)) hl, fun _ => rfl⟩
  | lineFeed =>
    cases hcs
    exact ⟨Nat.zero_le _, fun _ => rfl⟩
  | comment h =>
    cases hcs
    refine ⟨length_le_run (fun d hd => ?_) hl, fun _ => rfl⟩
    simpa using ne_of_mem_of_not_mem hd h
  | symbol h => exact at?_symbol hcs.symm hl
  | string h =>
    cases hcs
    obtain ⟨after, rfl⟩ := hl
    rw [List.append_assoc, List.singleton_append, at?_quote, closing?_quotable h]
    exact ⟨by simp, fun _ => rfl⟩
  | number hne h =>
    subst hcs
    obtain ⟨hc, hl'⟩ := List.forall_mem_cons.1 h
    rw [at?_digit hc]
    exact ⟨length_le_run hl' hl, fun _ => rfl⟩
  | name hc h =>
    cases hcs
    rw [at?_nameStart hc]
    exact ⟨length_le_run h hl, fun _ => rfl⟩

theorem lexeme_of_pair? {kind : TokenKind} (h : pair? c d = some kind) :
    Lexeme (some kind) [c, d] := by
  unfold pair? at h
  split at h <;> cases h
  · exact @Lexeme.symbol .equalEqual (by decide)
  · exact @Lexeme.symbol .greaterEqual (by decide)
  · exact @Lexeme.symbol .lessEqual (by decide)
  · exact @Lexeme.symbol .notEqual (by decide)

theorem lexeme_of_symbol? {kind : TokenKind} (h : symbol? c = some kind) :
    Lexeme (some kind) [c] := by
  unfold symbol? at h
  split at h <;> cases h
  · exact @Lexeme.symbol .plus (by decide)
  · exact @Lexeme.symbol .minus (by decide)
  · exact @Lexeme.symbol .star (by decide)
  · exact @Lexeme.symbol .slash (by decide)
  · exact @Lexeme.symbol .equal (by decide)
  · exact @Lexeme.symbol .greater (by decide)
  · exact @Lexeme.symbol .less (by decide)
  · exact @Lexeme.symbol .semicolon (by decide)
  · exact @Lexeme.symbol .leftParen (by decide)
  · exact @Lexeme.symbol .rightParen (by decide)
  · exact @Lexeme.symbol .comma (by decide)

theorem symbol?_eq_none (hc : c ∈ punctuation) (h : symbol? c = none) : c = '!' := by
  simp only [punctuation, List.mem_cons, List.not_mem_nil, or_false] at hc
  rcases hc with rfl | rfl | rfl | rfl | rfl | rfl | rfl | rfl | rfl | rfl | rfl | rfl <;>
    first | rfl | cases h

theorem run_le (p : Char → Bool) (cs : List Char) : run p cs ≤ cs.length :=
  (List.takeWhile_prefix p).length_le

theorem at?_foreign {c : Char} (h : ¬ IsOpening c) (rest : List Char) : at? c rest = none := by
  simp only [IsOpening, List.mem_append, not_or] at h
  obtain ⟨⟨hskip, hp⟩, hd, hn⟩ := h
  have hne (d : Char) (hd : d ∈ [' ', '\t', '\r', '\n', '#', '"']) : c ≠ d := by
    rintro rfl
    exact hskip hd
  have hblank : ¬ isBlank c := by
    simp [isBlank, hne ' ' (by decide), hne '\t' (by decide), hne '\r' (by decide)]
  have hpair : rest.head?.bind (pair? c) = none := by
    apply Option.bind_eq_none_iff.2
    intro d _
    apply Option.eq_none_iff_forall_ne_some.2
    intro kind hk
    unfold pair? at hk
    split at hk <;> cases hk <;> exact hp (by decide)
  have hsymbol : symbol? c = none := by
    apply Option.eq_none_iff_forall_ne_some.2
    intro kind hk
    unfold symbol? at hk
    split at hk <;> cases hk <;> exact hp (by decide)
  rw [at?, if_neg (hne '\n' (by decide)), if_neg hblank, if_neg (hne '#' (by decide)),
    if_neg (hne '"' (by decide)), if_neg hd, if_neg hn, hpair, hsymbol]
  rfl

/-- A piece is what a rule matches, and where there is none there is a reason for it. -/
def Explains (c : Char) (rest : List Char) : Option Piece → Prop
  | some ⟨kind, more⟩ => Lexeme kind (c :: rest.take more) ∧ more ≤ rest.length
  | none => Unreadable c rest

theorem explains_blank {c : Char} (hc : isBlank c) (rest : List Char) :
    Explains c rest (at? c rest) := by
  rw [at?_blank hc]
  refine ⟨.blanks (List.cons_ne_nil _ _) fun d hd => ?_, run_le _ _⟩
  rcases List.mem_cons.1 hd with rfl | hd
  · exact isBlank_iff.1 hc
  · exact isBlank_iff.1 (take_run _ _ d hd)

theorem explains_comment (rest : List Char) : Explains '#' rest (at? '#' rest) := by
  refine ⟨.comment fun h => ?_, run_le _ _⟩
  simpa using take_run _ _ _ h

theorem explains_quote (rest : List Char) : Explains '"' rest (at? '"' rest) := by
  rw [at?_quote]
  rcases Quotable.split rest with ⟨cs, after, h, rfl⟩ | ⟨cs, h, hr⟩
  · rw [closing?_quotable h, Nat.zero_add, Option.map_some, Explains]
    have htake : (cs ++ '"' :: after).take (cs.length + 1) = cs ++ ['"'] := by
      rw [List.take_length_add_append]
      rfl
    rw [htake]
    exact ⟨.string h, by simp⟩
  · rw [closing?_unclosed h hr]
    exact .unclosed h hr

theorem explains_punctuation (hc : c ∈ punctuation) (rest : List Char) :
    Explains c rest (at? c rest) := by
  rw [at?_punctuation hc]
  split
  · rename_i kind hk
    obtain ⟨d, hd, hk⟩ := Option.bind_eq_some_iff.1 hk
    obtain ⟨rest, rfl⟩ := List.head?_eq_some_iff.1 hd
    exact ⟨lexeme_of_pair? hk, Nat.le_add_left ..⟩
  · rename_i hk
    cases hs : symbol? c with
    | some kind => exact ⟨lexeme_of_symbol? hs, Nat.zero_le _⟩
    | none =>
      obtain rfl := symbol?_eq_none hc hs
      refine .alone fun hd => ?_
      rw [hd] at hk
      cases hk

theorem at?_explains (c : Char) (rest : List Char) : Explains c rest (at? c rest) := by
  by_cases hc : IsOpening c
  · rcases hc with hc | hc | hc
    · rcases List.mem_append.1 hc with hc | hc
      · simp only [List.mem_cons, List.not_mem_nil, or_false] at hc
        rcases hc with rfl | rfl | rfl | rfl | rfl | rfl
        · exact explains_blank rfl rest
        · exact explains_blank rfl rest
        · exact explains_blank rfl rest
        · exact ⟨.lineFeed, Nat.zero_le _⟩
        · exact explains_comment rest
        · exact explains_quote rest
      · exact explains_punctuation hc rest
    · rw [at?_digit hc]
      exact ⟨.number (List.cons_ne_nil _ _) (List.forall_mem_cons.2 ⟨hc, take_run _ _⟩), run_le _ _⟩
    · rw [at?_nameStart hc]
      exact ⟨.name hc (take_run _ _), run_le _ _⟩
  · rw [at?_foreign hc]
    exact .foreign hc

end Piece

namespace Lexeme

theorem ne_nil (h : Lexeme kind l) : l ≠ [] := by
  cases h with
  | blanks hne | number hne => exact hne
  | symbol h => simpa [← String.toList_eq_nil_iff] using h
  | _ => exact List.cons_ne_nil _ _

theorem ne_endOfInput {kind : TokenKind} (h : Lexeme (some kind) l) : kind ≠ .endOfInput := by
  generalize hk : some kind = k at h
  cases h with
  | symbol h =>
    cases hk
    rintro rfl
    exact h rfl
  | _ => cases hk <;> decide

/-- The piece that is read is the longest that any rule matches. -/
theorem longest_of_at? {kind : Option TokenKind} (h : Piece.at? c rest = some ⟨kind, more⟩) :
    Longest kind (c :: rest.take more) (c :: rest) := by
  have hsound := Piece.at?_explains c rest
  rw [h] at hsound
  obtain ⟨hl, hmore⟩ := hsound
  refine ⟨hl, (List.prefix_cons_inj c).2 (List.take_prefix more rest), ?_⟩
  intro kind' l' h' hp
  obtain ⟨d, l', rfl⟩ := List.exists_cons_of_ne_nil h'.ne_nil
  obtain ⟨rfl, htail⟩ := List.cons_prefix_cons.1 hp
  have hreach := Piece.at?_of_lexeme h' htail
  rw [h] at hreach
  rw [List.length_cons, List.length_cons, List.length_take_of_le hmore]
  exact Nat.succ_le_succ hreach.1

theorem not_prefix_of_at? (h : Piece.at? c rest = none) (hl : Lexeme kind l) :
    ¬ l <+: c :: rest := by
  intro hp
  obtain ⟨d, l, rfl⟩ := List.exists_cons_of_ne_nil hl.ne_nil
  obtain ⟨rfl, htail⟩ := List.cons_prefix_cons.1 hp
  have hreach := Piece.at?_of_lexeme hl htail
  rw [h] at hreach
  exact hreach

/-- What is read is determined: it is the longest that any rule matches. -/
theorem Longest.at? {kind : Option TokenKind} (h : Longest kind (c :: l) (c :: (l ++ text))) :
    Piece.at? c (l ++ text) = some ⟨kind, l.length⟩ := by
  have hreach := Piece.at?_of_lexeme h.lexeme (List.prefix_append l text)
  cases hat : Piece.at? c (l ++ text) with
  | none =>
    rw [hat] at hreach
    exact hreach.elim
  | some piece =>
    obtain ⟨kind', more⟩ := piece
    rw [hat] at hreach
    obtain ⟨hle, hkind⟩ := hreach
    have hpiece := longest_of_at? hat
    -- Each of the two is the longest, so neither is longer than the other.
    have hmore : l.length = more := by
      have hexplains := Piece.at?_explains c (l ++ text)
      rw [hat] at hexplains
      have hge := h.longest _ _ hpiece.lexeme hpiece.head
      rw [List.length_cons, List.length_cons, List.length_take_of_le hexplains.2] at hge
      exact Nat.le_antisymm hle (Nat.le_of_succ_le_succ hge)
    rw [← hkind hmore, hmore]

end Lexeme

end Scriptlet
