import Scriptlet.Proofs.Grammar.PhraseCompleteness
import Scriptlet.Proofs.Printing.Fit

namespace Scriptlet
set_option autoImplicit true

section
variable {t : Token} {ts : List Token} {ws ws' : List Word}

theorem Token.kind_of_word {kind : TokenKind} (h : t.word = .symbol kind) : t.kind = kind :=
  congrArg Word.kind h

theorem Token.name_of_word (h : t.word = .name x) : t.kind = .identifier ∧ t.lexeme = x :=
  ⟨congrArg Word.kind h, congrArg Word.lexeme h⟩

theorem Token.isKeyword_of_word (h : t.word = .name x) : t.isKeyword x := by
  obtain ⟨hk, hx⟩ := Token.name_of_word h
  exact Token.isKeyword_iff.2 ⟨hk, congrArg String.toLower hx⟩

theorem map_word_cons (h : ts.map Token.word = w :: ws) :
    ∃ t ts', ts = t :: ts' ∧ t.word = w ∧ ts'.map Token.word = ws :=
  List.map_eq_cons_iff.1 h

theorem map_word_append (h : ts.map Token.word = ws ++ w :: ws') :
    ∃ ts₁ t ts₂, ts = ts₁ ++ t :: ts₂ ∧ ts₁.map Token.word = ws ∧ t.word = w ∧
      ts₂.map Token.word = ws' := by
  obtain ⟨ts₁, ts', rfl, hts, hts'⟩ := List.map_eq_append_iff.1 h
  obtain ⟨t, ts₂, rfl, ht, hts₂⟩ := map_word_cons hts'
  exact ⟨ts₁, t, ts₂, rfl, hts, ht, hts₂⟩

end

namespace Expression

theorem words_arithmetic (hl : op.precedence.rank ≤ Precedence.rank l) (a b : Expression) :
    (binary (.arithmetic op) a b).words l =
      a.words op.precedence ++ .symbol op.kind :: b.words op.precedence.tighter := by
  rw [words, enclose, if_pos hl]

theorem words_comparison (hl : Precedence.comparison.rank ≤ l.rank) (op : Comparison)
    (a b : Expression) : (binary (.comparison op) a b).words l =
      a.words .sum ++ .symbol op.kind :: b.words .sum := by
  rw [words, enclose, if_pos hl]

theorem words_logic (hl : Precedence.logic.rank ≤ l.rank) (op : Connective) (a b : Expression) :
    (logical op a b).words l = a.words .logic ++ .name op.word :: b.words .comparison := by
  rw [words, enclose, if_pos hl]

theorem words_enclosed (e : Expression) (hl : l.rank < e.precedence.rank) :
    e.words l = .symbol .leftParen :: (e.words .logic ++ [.symbol .rightParen]) := by
  have parens (own : Precedence) (ws : List Word) (h : l.rank < own.rank) :
      enclose l own ws =
        .symbol .leftParen :: (enclose .logic own ws ++ [.symbol .rightParen]) := by
    have hle : own.rank ≤ Precedence.logic.rank := by cases own <;> decide
    rw [enclose, enclose, if_neg (Nat.not_le.2 h), if_pos hle]
  cases e with
  | binary op a b =>
    cases op with
    | arithmetic op =>
      rw [words, words]
      exact parens _ _ hl
    | comparison op =>
      rw [words, words]
      exact parens _ _ hl
  | logical op a b =>
    rw [words, words]
    exact parens _ _ hl
  | _ => exact absurd hl (Nat.not_lt_zero _)

end Expression

theorem Precedence.up_iterate {l l' : Precedence} (h : l.rank ≤ l'.rank) :
    Nat.repeat up (l'.rank - l.rank) l = l' := by
  cases l <;> cases l' <;> simp_all [rank, up, Nat.repeat]

namespace Phrase

theorem Spells.loosen {l l' : Precedence} (h : Spells n (.operand l e) ts rest)
    (hl : l.rank ≤ l'.rank) : Spells n (.operand l' e) ts rest := by
  have up {l : Precedence} (h : Spells n (.operand l e) ts rest) :
      Spells n (.operand l.up e) ts rest := by
    cases l with
    | factor => exact .term h
    | term => exact .sum h
    | sum => exact .comparison h
    | comparison => exact .logic h
    | logic => exact h
  rw [← Precedence.up_iterate hl]
  induction l'.rank - l.rank with
  | zero => exact h
  | succ k ih => exact up ih

theorem Spells.anywhere (h : Spells n (.operand .factor e) ts rest) (l : Precedence) :
    Spells n (.operand l e) ts rest :=
  h.loosen (Nat.zero_le l.rank)

def words : Phrase → List Word
  | operand l e => e.words l
  | whole e => e.words .logic
  | list es => listWords es

/-- What may stand behind a phrase: behind an expression only what separates it from others. -/
def Followed : Phrase → List Token → Prop
  | operand .., rest => ∀ u ∈ rest.head?, u.kind ≠ .leftParen
  | _, rest => ∀ u ∈ rest.head?, u.kind = .semicolon ∨ u.kind = .rightParen ∨ u.kind = .comma

theorem words_more (e : Expression) (es : List Expression) (h : es ≠ []) :
    listWords (e :: es) = e.words .logic ++ .symbol .comma :: listWords es := by
  cases es with
  | nil => exact absurd rfl h
  | cons e' es =>
    rw [listWords]
    exact h

theorem Fits.ne_nil (h : Fits n (.list es)) : es ≠ [] := by
  cases h <;> exact List.cons_ne_nil _ _

theorem Fits.spells (h : Fits n p) (hts : ts.map Token.word = p.words) (hr : p.Followed rest) :
    Spells n p (ts ++ rest) rest := by
  -- The tokens behind are general, as those behind a left operand start with its operator.
  induction h generalizing ts rest with
  | @string n l s =>
    obtain ⟨t, ts, rfl, ht, hts⟩ := map_word_cons hts
    obtain rfl := List.map_eq_nil_iff.1 hts
    have hs : Text.unescape t.lexeme = s := by
      rw [show t.lexeme = _ from congrArg Word.lexeme ht, Text.unescape_quote]
    rw [← hs]
    exact (Spells.string (congrArg Word.kind ht)).anywhere l
  | @number v n l hv =>
    obtain ⟨t, ts, rfl, ht, hts⟩ := map_word_cons hts
    obtain rfl := List.map_eq_nil_iff.1 hts
    have hn : Integer.Numeral t.lexeme.toList v.toInt := by
      rw [show t.lexeme = _ from congrArg Word.lexeme ht]
      exact Integer.numeral_toString hv
    exact (Spells.number (congrArg Word.kind ht) hn).anywhere l
  | var hx =>
    obtain ⟨t, ts, rfl, ht, hts⟩ := map_word_cons hts
    obtain rfl := List.map_eq_nil_iff.1 hts
    obtain ⟨hk, rfl⟩ := Token.name_of_word ht
    exact (Spells.var hk hr).anywhere _
  | callNone hf =>
    obtain ⟨t, ts, rfl, ht, hts⟩ := map_word_cons hts
    obtain ⟨u, ts, rfl, hu, hts⟩ := map_word_cons hts
    obtain ⟨v, ts, rfl, hv, hts⟩ := map_word_cons hts
    obtain rfl := List.map_eq_nil_iff.1 hts
    obtain ⟨hk, rfl⟩ := Token.name_of_word ht
    exact (Spells.callNone hk (Token.kind_of_word hu) (Token.kind_of_word hv)).anywhere _
  | @call f n es l hf hes ih =>
    obtain ⟨t, ts, rfl, ht, hts⟩ := map_word_cons hts
    obtain ⟨u, ts, rfl, hu, hts⟩ := map_word_cons hts
    obtain ⟨ts, v, ts', rfl, hes', hv, hnil⟩ := map_word_append hts
    obtain rfl := List.map_eq_nil_iff.1 hnil
    obtain ⟨hk, rfl⟩ := Token.name_of_word ht
    have hvk := Token.kind_of_word hv
    have hlist : Spells n (.list es) (ts ++ v :: rest) (v :: rest) :=
      ih hes' (by simp [Followed, hvk])
    have hcall := (Spells.call hk (Token.kind_of_word hu) hlist hvk).anywhere l
    simpa using hcall
  | @arithmetic l n a b op hl ha hb iha ihb =>
    rw [words, Expression.words_arithmetic hl] at hts
    obtain ⟨ts, t, ts', rfl, hts, ht, hts'⟩ := map_word_append hts
    have hk := Token.kind_of_word ht
    have hne : t.kind ≠ .leftParen := by
      rw [hk]
      cases op <;> simp [Arithmetic.kind]
    have hspella : Spells n (.operand op.precedence a) (ts ++ t :: (ts' ++ rest))
        (t :: (ts' ++ rest)) := iha hts (by simpa [Followed] using hne)
    have hspellb := ihb hts' hr
    rw [List.append_assoc, List.cons_append]
    cases op with
    | add | subtract => exact (Spells.total hspella rfl hk hspellb).loosen hl
    | multiply | divide => exact (Spells.product hspella rfl hk hspellb).loosen hl
  | @comparison n a b l op hl ha hb iha ihb =>
    rw [words, Expression.words_comparison hl] at hts
    obtain ⟨ts, t, ts', rfl, hts, ht, hts'⟩ := map_word_append hts
    have hk := Token.kind_of_word ht
    have hne : t.kind ≠ .leftParen := by
      rw [hk]
      cases op <;> simp [Comparison.kind]
    have hspella : Spells n (.operand .sum a) (ts ++ t :: (ts' ++ rest)) (t :: (ts' ++ rest)) :=
      iha hts (by simpa [Followed] using hne)
    rw [List.append_assoc, List.cons_append]
    exact (Spells.compare hspella hk (ihb hts' hr)).loosen hl
  | @logic n a b l op hl ha hb iha ihb =>
    rw [words, Expression.words_logic hl] at hts
    obtain ⟨ts, t, ts', rfl, hts, ht, hts'⟩ := map_word_append hts
    have hne : t.kind ≠ .leftParen := by simp [(Token.name_of_word ht).1]
    have hspella : Spells n (.operand .logic a) (ts ++ t :: (ts' ++ rest)) (t :: (ts' ++ rest)) :=
      iha hts (by simpa [Followed] using hne)
    rw [List.append_assoc, List.cons_append]
    exact (Spells.connect hspella (Token.isKeyword_of_word ht) (ihb hts' hr)).loosen hl
  | @enclosed n e l hl he ih =>
    rw [words, e.words_enclosed hl] at hts
    obtain ⟨t, ts, rfl, ht, hts⟩ := map_word_cons hts
    obtain ⟨ts, v, ts', rfl, he', hv, hnil⟩ := map_word_append hts
    obtain rfl := List.map_eq_nil_iff.1 hnil
    have hvk := Token.kind_of_word hv
    have hwhole : Spells n (.whole e) (ts ++ v :: rest) (v :: rest) :=
      ih he' (by simp [Followed, hvk])
    have hparens := (Spells.parens (Token.kind_of_word ht) hwhole hvk).anywhere l
    simpa using hparens
  | whole he ih =>
    refine .whole (ih hts fun u hu => ?_) fun u hu op => ?_
    · rcases hr u hu with h | h | h <;> simp [h]
    · rw [Token.not_isKeyword]
      · simp
      · rcases hr u hu with h | h | h <;> simp [h]
  | last he ih => exact .last (ih hts hr)
  | @more n e es he hes ih ihs =>
    rw [words, words_more e es hes.ne_nil] at hts
    obtain ⟨ts, t, ts', rfl, hts, ht, hts'⟩ := map_word_append hts
    have hk := Token.kind_of_word ht
    have hspell : Spells n (.whole e) (ts ++ t :: (ts' ++ rest)) (t :: (ts' ++ rest)) :=
      ih hts (by simp [Followed, hk])
    rw [List.append_assoc, List.cons_append]
    exact .more hspell hk (ihs hts' hr)

theorem Fits.lexes (h : Fits n p) : ∀ w ∈ p.words, w.Lexes := by
  have hparen {kind : TokenKind} (hk : kind = .leftParen ∨ kind = .rightParen) :
      (Word.symbol kind).Lexes := by
    rcases hk with rfl | rfl <;> exact Word.lexes_symbol (by decide)
  induction h with
  | string =>
    intro w hw
    rw [List.mem_singleton.1 hw]
    exact Word.lexes_string _
  | number hv =>
    intro w hw
    rw [List.mem_singleton.1 hw]
    exact Word.lexes_number (.of_nonneg hv)
  | var hx =>
    intro w hw
    rw [List.mem_singleton.1 hw]
    exact Word.lexes_name hx
  | callNone hf =>
    simp only [words, Expression.words, listWords, List.nil_append, List.forall_mem_cons]
    exact ⟨Word.lexes_name hf, hparen (.inl rfl), hparen (.inr rfl), by simp⟩
  | call hf hes ih =>
    simp only [words, Expression.words, List.forall_mem_cons, List.forall_mem_append]
    exact ⟨Word.lexes_name hf, hparen (.inl rfl), ih, hparen (.inr rfl), by simp⟩
  | @arithmetic l n a b op hl ha hb iha ihb =>
    rw [words, Expression.words_arithmetic hl]
    simp only [List.forall_mem_cons, List.forall_mem_append]
    exact ⟨iha, Word.lexes_symbol (by cases op <;> decide), ihb⟩
  | @comparison n a b l op hl ha hb iha ihb =>
    rw [words, Expression.words_comparison hl]
    simp only [List.forall_mem_cons, List.forall_mem_append]
    exact ⟨iha, Word.lexes_symbol (by cases op <;> decide), ihb⟩
  | @logic n a b l op hl ha hb iha ihb =>
    rw [words, Expression.words_logic hl]
    simp only [List.forall_mem_cons, List.forall_mem_append]
    exact ⟨iha, Word.lexes_name op.isName_word, ihb⟩
  | @enclosed n e l hl he ih =>
    rw [words, e.words_enclosed hl]
    simp only [List.forall_mem_cons, List.forall_mem_append]
    exact ⟨hparen (.inl rfl), ih, hparen (.inr rfl), by simp⟩
  | whole he ih => exact ih
  | last he ih => exact ih
  | @more n e es he hes ih ihs =>
    rw [words, words_more e es hes.ne_nil]
    simp only [List.forall_mem_cons, List.forall_mem_append]
    exact ⟨ih, Word.lexes_symbol (by decide), ihs⟩

end Phrase

end Scriptlet
