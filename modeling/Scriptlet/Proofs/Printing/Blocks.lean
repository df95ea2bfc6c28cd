import Scriptlet.Proofs.Printing.Spelling

namespace Scriptlet
set_option autoImplicit true

theorem Statement.opening_unplaced (s : Statement) : s.unplaced.opening = s.opening := by
  cases s with
  | write pos mode path content => cases mode <;> rfl
  | _ => rfl

theorem Statement.opening_congr {s s' : Statement} (h : s'.unplaced = s.unplaced) :
    s'.opening = s.opening := by
  rw [← s'.opening_unplaced, h, s.opening_unplaced]

namespace Clause

def words : Clause → List Word
  | statement s => s.words
  | statements _ ss => blockWords ss

/-- The tokens of `ts` before `rest` spell a clause that differs from the given one in its places
only. -/
def IsWritten (n : Nat) (ts rest : List Token) : Clause → Prop
  | statement s => ∃ s', s'.unplaced = s.unplaced ∧ Spells n (.statement s') ts rest
  | statements closers ss =>
    ∃ ss', unplacedAll ss' = unplacedAll ss ∧ Spells n (.statements closers ss') ts rest

/-- What stands behind a clause: a semicolon behind a statement. -/
def Followed : Clause → List Token → Prop
  | statement _, rest => ∃ u ts, rest = u :: ts ∧ u.kind = .semicolon
  | statements .., _ => True

end Clause

theorem Phrase.Fits.spells_whole (h : Fits n (.whole e)) (hts : ts.map Token.word = e.words .logic)
    (hu : u.kind = .semicolon) (rest : List Token) :
    Spells n (.whole e) (ts ++ u :: rest) (u :: rest) :=
  h.spells hts (by simp [Followed, hu])

theorem Names.of_words (hne : xs ≠ []) (hts : ts.map Token.word = nameWords xs)
    (rest : List Token) : Names xs (ts ++ rest) rest := by
  induction xs generalizing ts with
  | nil => exact absurd rfl hne
  | cons x xs ih =>
    cases xs with
    | nil =>
      obtain ⟨t, ts, rfl, ht, hts⟩ := map_word_cons hts
      obtain rfl := List.map_eq_nil_iff.1 hts
      obtain ⟨hk, rfl⟩ := Token.name_of_word ht
      exact .last hk
    | cons x' xs =>
      rw [nameWords] at hts
      · obtain ⟨t, ts, rfl, ht, hts⟩ := map_word_cons hts
        obtain ⟨u, ts, rfl, hu, hxs⟩ := map_word_cons hts
        obtain ⟨hk, rfl⟩ := Token.name_of_word ht
        exact .more hk (Token.kind_of_word hu) (ih (List.cons_ne_nil _ _) hxs)
      · exact List.cons_ne_nil _ _

theorem Parameters.of_words (hts : ts.map Token.word = nameWords xs) (rest : List Token) :
    Parameters xs (ts ++ rest) rest := by
  by_cases hne : xs = []
  · subst hne
    obtain rfl := List.map_eq_nil_iff.1 hts
    exact .inl ⟨rfl, rfl⟩
  · exact .inr (.of_words hne hts rest)

theorem Arguments.of_words (hes : es = [] ∨ Phrase.Fits n (.list es))
    (hts : ts.map Token.word = listWords es) (hv : v.kind = .rightParen) (rest : List Token) :
    Arguments n es (ts ++ v :: rest) (v :: rest) := by
  rcases hes with rfl | hes
  · obtain rfl := List.map_eq_nil_iff.1 hts
    exact .inl ⟨rfl, rfl⟩
  · exact .inr (hes.spells hts (by simp [Phrase.Followed, hv]))

theorem Apart.one (hu : u.kind = .semicolon) (rest : List Token) : Apart (u :: rest) rest :=
  ⟨[u], rfl, by simpa using hu⟩

theorem Clause.block_written {body : List Statement}
    (hb : ∀ ⦃ts rest⦄, ts.map Token.word = blockWords body →
      IsWritten n (ts ++ rest) rest (.statements closers body))
    (hts : ts.map Token.word = .symbol .semicolon :: (blockWords body ++ .name w :: ws)) :
    ∃ u ts₁ v ts₂, ts = u :: (ts₁ ++ v :: ts₂) ∧ u.kind = .semicolon ∧ v.isKeyword w ∧
      ts₂.map Token.word = ws ∧ ∀ rest, ∃ body', unplacedAll body' = unplacedAll body ∧
        Spells n (.statements closers body') (u :: (ts₁ ++ v :: rest)) (v :: rest) := by
  obtain ⟨u, ts, rfl, hu, hts⟩ := map_word_cons hts
  obtain ⟨ts₁, v, ts₂, rfl, hbody, hv, hws⟩ := map_word_append hts
  have huk := Token.kind_of_word hu
  refine ⟨u, ts₁, v, ts₂, rfl, huk, Token.isKeyword_of_word hv, hws, fun rest => ?_⟩
  have hwritten : IsWritten n (ts₁ ++ v :: rest) (v :: rest) (.statements closers body) := hb hbody
  obtain ⟨body', hsame, hspell⟩ := hwritten
  exact ⟨body', hsame, .separator huk hspell⟩

theorem Clause.opening_written (hc : Phrase.Fits n (.whole c))
    (hts : ts.map Token.word = .name w :: (c.words .logic ++ .symbol .semicolon :: ws)) :
    ∃ t ts₁ ts₂, ts = t :: (ts₁ ++ ts₂) ∧ t.isKeyword w ∧
      ts₂.map Token.word = .symbol .semicolon :: ws ∧
      ∀ rest, Phrase.Spells n (.whole c) (ts₁ ++ (ts₂ ++ rest)) (ts₂ ++ rest) := by
  obtain ⟨t, ts, rfl, ht, hts⟩ := map_word_cons hts
  obtain ⟨ts₁, u, ts₂, rfl, hc', hu, hws⟩ := map_word_append hts
  refine ⟨t, ts₁, u :: ts₂, rfl, Token.isKeyword_of_word ht, ?_, fun rest => ?_⟩
  · rw [List.map_cons, hu, hws]
  · exact hc.spells_whole hc' (Token.kind_of_word hu) (ts₂ ++ rest)

theorem Clause.Fits.written (h : Clause.Fits n c) (hts : ts.map Token.word = c.words)
    (hr : c.Followed rest) : c.IsWritten n (ts ++ rest) rest := by
  induction h generalizing ts rest with
  | @assign x n e pos hx he =>
    obtain ⟨u, rest, rfl, hu⟩ := hr
    obtain ⟨t, ts, rfl, ht, hts⟩ := map_word_cons hts
    obtain ⟨y, ts, rfl, hy, hts⟩ := map_word_cons hts
    obtain ⟨q, ts, rfl, hq, he'⟩ := map_word_cons hts
    obtain ⟨hk, rfl⟩ := Token.name_of_word hy
    exact ⟨.assign t.position y.lexeme e, rfl, .assign (Token.isKeyword_of_word ht) hk
      (Token.kind_of_word hq) (he.spells_whole he' hu rest)⟩
  | @print n e pos he =>
    obtain ⟨u, rest, rfl, hu⟩ := hr
    obtain ⟨t, ts, rfl, ht, he'⟩ := map_word_cons hts
    exact ⟨.print t.position e, rfl,
      .print (Token.isKeyword_of_word ht) (he.spells_whole he' hu rest)⟩
  | @log n e pos he =>
    obtain ⟨u, rest, rfl, hu⟩ := hr
    obtain ⟨t, ts, rfl, ht, he'⟩ := map_word_cons hts
    exact ⟨.log t.position e, rfl,
      .log (Token.isKeyword_of_word ht) (he.spells_whole he' hu rest)⟩
  | @ifThen n c body pos hc hb ih =>
    obtain ⟨t, ts, ts', rfl, ht, hts, hcond⟩ := opening_written hc hts
    obtain ⟨u, ts₁, v, ts₂, rfl, hu, hv, hnil, hblock⟩ :=
      block_written (fun _ _ h => ih h trivial) hts
    obtain rfl := List.map_eq_nil_iff.1 hnil
    obtain ⟨body', hsame, hspell⟩ := hblock rest
    refine ⟨.ifThen t.position c body', ?_, ?_⟩
    · rw [Statement.unplaced, Statement.unplaced, hsame]
    · have hcond := hcond rest
      simp only [List.cons_append, List.append_assoc, List.nil_append] at hcond ⊢
      exact .ifThen ht hcond hspell hv
  | @ifElse n c body otherwise pos hc hb ho ihb iho =>
    obtain ⟨t, ts, ts', rfl, ht, hts, hcond⟩ := opening_written hc hts
    obtain ⟨u, ts₁, v, ts₂, rfl, hu, hv, hts, hblock⟩ :=
      block_written (fun _ _ h => ihb h trivial) hts
    obtain ⟨u', ts₃, v', ts₄, rfl, hu', hv', hnil, hother⟩ :=
      block_written (fun _ _ h => iho h trivial) hts
    obtain rfl := List.map_eq_nil_iff.1 hnil
    obtain ⟨body', hsame, hspell⟩ := hblock (u' :: (ts₃ ++ v' :: rest))
    obtain ⟨otherwise', hsame', hspell'⟩ := hother rest
    refine ⟨.ifElse t.position c body' otherwise', ?_, ?_⟩
    · rw [Statement.unplaced, Statement.unplaced, hsame, hsame']
    · have hcond := hcond rest
      simp only [List.cons_append, List.append_assoc, List.nil_append] at hcond ⊢
      exact .ifElse ht hcond hspell hv hspell' hv'
  | @loop n c body pos hc hb ih =>
    obtain ⟨t, ts, ts', rfl, ht, hts, hcond⟩ := opening_written hc hts
    obtain ⟨u, ts₁, v, ts₂, rfl, hu, hv, hnil, hblock⟩ :=
      block_written (fun _ _ h => ih h trivial) hts
    obtain rfl := List.map_eq_nil_iff.1 hnil
    obtain ⟨body', hsame, hspell⟩ := hblock rest
    refine ⟨.loop t.position c body', ?_, ?_⟩
    · rw [Statement.unplaced, Statement.unplaced, hsame]
    · have hcond := hcond rest
      simp only [List.cons_append, List.append_assoc, List.nil_append] at hcond ⊢
      exact .loop ht hcond hspell hv
  | @write n path content pos mode hp hc =>
    obtain ⟨u, rest, rfl, hu⟩ := hr
    obtain ⟨t, ts, ts', rfl, ht, hts, hpath⟩ := opening_written hp hts
    obtain ⟨v, ts', rfl, hv, hc'⟩ := map_word_cons hts
    refine ⟨.write t.position mode path content, rfl, ?_⟩
    have hpath := hpath (u :: rest)
    rw [List.cons_append, List.append_assoc]
    exact .write ht hpath (.one (Token.kind_of_word hv) _) (hc.spells_whole hc' hu rest)
  | @read n path x pos hp hx =>
    obtain ⟨t, ts, ts', rfl, ht, hts, hpath⟩ := opening_written hp hts
    obtain ⟨u, ts', rfl, hu, hts⟩ := map_word_cons hts
    obtain ⟨y, ts', rfl, hy, hnil⟩ := map_word_cons hts
    obtain rfl := List.map_eq_nil_iff.1 hnil
    obtain ⟨hk, rfl⟩ := Token.name_of_word hy
    refine ⟨.read t.position path y.lexeme, rfl, ?_⟩
    have hpath := hpath rest
    rw [List.cons_append, List.append_assoc]
    exact .read ht hpath (.one (Token.kind_of_word hu) _) hk
  | @delete n path pos hp =>
    obtain ⟨u, rest, rfl, hu⟩ := hr
    obtain ⟨t, ts, rfl, ht, hp'⟩ := map_word_cons hts
    exact ⟨.delete t.position path, rfl,
      .delete (Token.isKeyword_of_word ht) (hp.spells_whole hp' hu rest)⟩
  | @giveBack n e pos he =>
    obtain ⟨u, rest, rfl, hu⟩ := hr
    obtain ⟨t, ts, rfl, ht, he'⟩ := map_word_cons hts
    exact ⟨.giveBack t.position e, rfl,
      .giveBack (Token.isKeyword_of_word ht) (he.spells_whole he' hu rest)⟩
  | nothing =>
    obtain rfl := List.map_eq_nil_iff.1 hts
    exact ⟨[], rfl, .nothing⟩
  | @function f xs n body pos hf hxs hb ih =>
    obtain ⟨t, ts, rfl, ht, hts⟩ := map_word_cons hts
    obtain ⟨g, ts, rfl, hg, hts⟩ := map_word_cons hts
    obtain ⟨p, ts, rfl, hp, hts⟩ := map_word_cons hts
    obtain ⟨ts, q, ts', rfl, hnames, hq, hbody⟩ := map_word_append hts
    obtain ⟨u, ts₁, v, ts₂, rfl, hu, hv, hnil, hblock⟩ :=
      block_written (fun _ _ h => ih h trivial) hbody
    obtain rfl := List.map_eq_nil_iff.1 hnil
    obtain ⟨hk, rfl⟩ := Token.name_of_word hg
    obtain ⟨body', hsame, hspell⟩ := hblock rest
    refine ⟨.function t.position g.lexeme xs body', ?_, ?_⟩
    · rw [Statement.unplaced, Statement.unplaced, hsame]
    · have hparameters := Parameters.of_words hnames (q :: u :: (ts₁ ++ v :: rest))
      simp only [List.cons_append, List.append_assoc, List.nil_append]
      exact .function (Token.isKeyword_of_word ht) hk (Token.kind_of_word hp) hparameters
        (Token.kind_of_word hq) hspell hv
  | @call f es n pos hf hk hes =>
    obtain ⟨t, ts, rfl, ht, hts⟩ := map_word_cons hts
    obtain ⟨u, ts, rfl, hu, hts⟩ := map_word_cons hts
    obtain ⟨ts, v, ts', rfl, hes', hv, hnil⟩ := map_word_append hts
    obtain rfl := List.map_eq_nil_iff.1 hnil
    obtain ⟨hi, rfl⟩ := Token.name_of_word ht
    have hvk := Token.kind_of_word hv
    refine ⟨.call t.position t.lexeme es, rfl, ?_⟩
    have harguments := Arguments.of_words hes hes' hvk rest
    simp only [List.cons_append, List.append_assoc, List.nil_append]
    exact .call (Token.isPlainName_iff.2 ⟨hi, hk⟩) (Token.kind_of_word hu) harguments hvk
  | @more closers n s ss hc hs hss ihs ihss =>
    rw [words, blockWords] at hts
    obtain ⟨ts, u, ts', rfl, hts, hu, hts'⟩ := map_word_append hts
    have huk := Token.kind_of_word hu
    have hfirst : IsWritten n (ts ++ u :: (ts' ++ rest)) (u :: (ts' ++ rest)) (.statement s) :=
      ihs hts ⟨u, ts' ++ rest, rfl, huk⟩
    obtain ⟨s', hsame, hspell⟩ := hfirst
    obtain ⟨ss', hsame', hspell'⟩ := ihss hts' hr
    refine ⟨s' :: ss', ?_, ?_⟩
    · rw [unplacedAll, unplacedAll, hsame, hsame']
    · obtain ⟨t, tail, htail⟩ := hspell.head
      rw [List.append_assoc, List.cons_append, htail]
      rw [htail] at hspell
      refine .more ?_ hspell (.separator huk hspell')
      rintro ⟨w, hw, hk⟩
      apply hc w hw
      rw [← Statement.opening_congr hsame, ← hspell.opening]
      exact (Token.isKeyword_iff.1 hk).2

theorem lexes_nameWords (h : ∀ x ∈ xs, IsName x) : ∀ w ∈ nameWords xs, w.Lexes := by
  induction xs with
  | nil => simp [nameWords]
  | cons x xs ih =>
    obtain ⟨hx, hxs⟩ := List.forall_mem_cons.1 h
    cases xs with
    | nil => simpa [nameWords] using Word.lexes_name hx
    | cons x' xs =>
      rw [nameWords]
      · simp only [List.forall_mem_cons]
        exact ⟨Word.lexes_name hx, Word.lexes_symbol (by decide), ih hxs⟩
      · exact List.cons_ne_nil _ _

theorem lexes_listWords (h : es = [] ∨ Phrase.Fits n (.list es)) :
    ∀ w ∈ listWords es, w.Lexes := by
  rcases h with rfl | h
  · simp [listWords]
  · exact h.lexes

theorem lexes_end : Word.Lexes (.name "end") :=
  Word.lexes_name (.of_toList rfl (by decide) (by decide))

theorem lexes_else : Word.Lexes (.name "else") :=
  Word.lexes_name (.of_toList rfl (by decide) (by decide))

theorem Clause.Fits.lexes (h : Clause.Fits n c) : ∀ w ∈ c.words, w.Lexes := by
  have keyword (k : Keyword) : (Word.name k.word).Lexes := Word.lexes_name k.isName_word
  have hsep : (Word.symbol .semicolon).Lexes := Word.lexes_symbol (by decide)
  induction h with
  | assign hx he =>
    simp only [words, Statement.words, List.forall_mem_cons]
    exact ⟨keyword _, Word.lexes_name hx, Word.lexes_symbol (by decide), he.lexes⟩
  | print he | log he | delete he | giveBack he =>
    simp only [words, Statement.words, List.forall_mem_cons]
    exact ⟨keyword _, he.lexes⟩
  | ifThen hc hb ih | loop hc hb ih =>
    simp only [words, Statement.words, List.forall_mem_cons, List.forall_mem_append]
    exact ⟨keyword _, hc.lexes, hsep, ih, lexes_end, by simp⟩
  | ifElse hc hb ho ihb iho =>
    simp only [words, Statement.words, List.forall_mem_cons, List.forall_mem_append]
    exact ⟨keyword _, hc.lexes, hsep, ihb, lexes_else, hsep, iho, lexes_end, by simp⟩
  | write hp hc =>
    simp only [words, Statement.words, List.forall_mem_cons, List.forall_mem_append]
    exact ⟨keyword _, hp.lexes, hsep, hc.lexes⟩
  | read hp hx =>
    simp only [words, Statement.words, List.forall_mem_cons, List.forall_mem_append]
    exact ⟨keyword _, hp.lexes, hsep, Word.lexes_name hx, by simp⟩
  | function hf hxs hb ih =>
    simp only [words, Statement.words, List.forall_mem_cons, List.forall_mem_append]
    exact ⟨keyword _, Word.lexes_name hf, Word.lexes_symbol (by decide), lexes_nameWords hxs,
      Word.lexes_symbol (by decide), hsep, ih, lexes_end, by simp⟩
  | call hf hk hes =>
    simp only [words, Statement.words, List.forall_mem_cons, List.forall_mem_append]
    exact ⟨Word.lexes_name hf, Word.lexes_symbol (by decide), lexes_listWords hes,
      Word.lexes_symbol (by decide), by simp⟩
  | nothing => simp [words, blockWords]
  | more hc hs hss ihs ihss =>
    simp only [words, blockWords, List.forall_mem_cons, List.forall_mem_append]
    exact ⟨ihs, hsep, ihss⟩

end Scriptlet
