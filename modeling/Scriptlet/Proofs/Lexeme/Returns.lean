import Mathlib
import Scriptlet.Program.Reading
import Scriptlet.Proofs.Lexeme.Seam

namespace Scriptlet
set_option autoImplicit true

namespace Text

/-- The text with a carriage return in front of each of its line feeds. -/
def returned (cs : List Char) : List Char :=
  cs.flatMap fun c => if c = '\n' then ['\r', '\n'] else [c]

theorem returned_append (cs ds : List Char) : returned (cs ++ ds) = returned cs ++ returned ds :=
  List.flatMap_append

theorem returned_lineFeed (cs : List Char) : returned ('\n' :: cs) = '\r' :: '\n' :: returned cs :=
  rfl

theorem returned_cons (hc : c ≠ '\n') (cs : List Char) : returned (c :: cs) = c :: returned cs := by
  rw [returned, List.flatMap_cons, if_neg hc]
  rfl

theorem returned_line {cs : List Char} (h : '\n' ∉ cs) : returned cs = cs := by
  induction cs with
  | nil => rfl
  | cons c cs ih =>
    rw [List.mem_cons, not_or] at h
    rw [returned_cons (Ne.symm h.1), ih h.2]

theorem head?_returned (cs : List Char) :
    (returned cs).head? = cs.head? ∨ (returned cs).head? = some '\r' := by
  cases cs with
  | nil => exact .inl rfl
  | cons c cs =>
    by_cases hc : c = '\n'
    · subst hc
      exact .inr rfl
    · rw [returned_cons hc]
      exact .inl rfl

def withReturns (text : String) : String :=
  String.ofList (returned text.toList)

end Text

/-- A backslash in front of a line feed takes the carriage return along and leaves the line feed. -/
theorem Quotable.returned (h : Quotable cs) : Quotable (Text.returned cs) := by
  induction h with
  | nil => exact .nil
  | @plain c cs hq hb h ih =>
    by_cases hc : c = '\n'
    · subst hc
      exact .plain (by decide) (by decide) (.plain (by decide) (by decide) ih)
    · rw [Text.returned_cons hc]
      exact .plain hq hb ih
  | @pair cs c h ih =>
    rw [Text.returned_cons (by decide)]
    by_cases hc : c = '\n'
    · subst hc
      exact .pair (.plain (by decide) (by decide) ih)
    · rw [Text.returned_cons hc]
      exact .pair ih

namespace Unreadable

theorem ne_lineFeed (h : Unreadable c rest) : c ≠ '\n' := by
  rintro rfl
  cases h with
  | foreign h => exact h (.inl (by decide))

theorem returned (h : Unreadable c rest) : Unreadable c (Text.returned rest) := by
  cases h with
  | foreign h => exact .foreign h
  | alone h =>
    refine .alone fun hd => ?_
    rcases Text.head?_returned rest with hr | hr
    · exact h (hr.symm.trans hd)
    · cases hr.symm.trans hd
  | @unclosed cs _ h hr =>
    refine .unclosed h.returned ?_
    rcases hr with rfl | rfl
    · exact .inl rfl
    · exact .inr (Text.returned_append cs ['\\'])

theorem at? (h : Unreadable c rest) : Piece.at? c rest = none := by
  cases h with
  | foreign h => exact Piece.at?_foreign h rest
  | alone h =>
    have hpair : rest.head?.bind (Piece.pair? '!') = none := by
      refine Option.bind_eq_none_iff.2 fun d hd => ?_
      unfold Piece.pair?
      split <;> simp_all
    rw [Piece.at?_punctuation (by decide), hpair]
    rfl
  | unclosed h hr => rw [Piece.at?_quote, Piece.closing?_unclosed h hr, Option.map_none]

end Unreadable

theorem Lexeme.line {kind : TokenKind} (h : Lexeme (some kind) l) (hk : kind ≠ .string) :
    '\n' ∉ l := by
  generalize hkind : some kind = k at h
  intro hl
  cases h with
  | blanks | lineFeed | comment => cases hkind
  | @symbol kind' h =>
    cases kind' <;> simp [TokenKind.symbol] at hl h
  | string h =>
    cases hkind
    exact hk rfl
  | number hne h => exact absurd (h _ hl) (by decide)
  | name hc h =>
    rcases List.mem_cons.1 hl with rfl | hl
    · exact absurd hc (by decide)
    · exact absurd (h _ hl) (by decide)

theorem Piece.at?_return {kind : TokenKind}
    (h : Piece.at? c (l ++ rest) = some ⟨some kind, l.length⟩)
    (hs : rest'.head? = rest.head? ∨ rest'.head? = some '\r') :
    Piece.at? c (l ++ rest') = some ⟨some kind, l.length⟩ := by
  have hrun {p : Char → Bool} (hp : p '\r' = false)
      (he : some (Piece.mk (some kind) (run p (l ++ rest))) = some ⟨some kind, l.length⟩) :
      some (Piece.mk (some kind) (run p (l ++ rest'))) = some ⟨some kind, l.length⟩ := by
    have hmore := (Piece.mk.inj (Option.some.inj he)).2
    rw [run_seam hmore (hs.imp_right fun hs d hd => ?_)]
    cases hs.symm.trans hd
    simp [hp]
  have hl := (Lexeme.longest_of_at? h).lexeme
  rw [List.take_left] at hl
  generalize hkind : some kind = k, hcs : c :: l = cs at hl
  cases hl with
  | blanks | lineFeed | comment => cases hkind
  | symbol hsymbol =>
    cases hkind
    have hc : c ∈ punctuation := by
      rcases symbol_cases kind with he | ⟨d, hd, he, -⟩ | ⟨d, hd, e, he, -⟩
      · exact absurd he hsymbol
      · cases hcs.trans he
        exact hd
      · cases hcs.trans he
        exact hd
    refine punctuation_seam hc h (hs.imp_right fun hs d hd => ?_)
    cases hs.symm.trans hd
    unfold pair?
    split <;> simp_all
  | string hinside =>
    cases hcs
    cases hkind
    rw [List.append_assoc, List.singleton_append, at?_quote, closing?_quotable hinside]
    simp
  | number hne hdigits =>
    subst hcs
    cases hkind
    have hc := (List.forall_mem_cons.1 hdigits).1
    rw [at?_digit hc] at h ⊢
    exact hrun rfl h
  | name hc hparts =>
    cases hcs
    cases hkind
    rw [at?_nameStart hc] at h ⊢
    exact hrun rfl h

theorem Position.after_return (pos : Position) : (pos.after '\r').after '\n' = pos.after '\n' := rfl

theorem itemsFrom_return (pos : Position) (rest : List Char) :
    itemsFrom 0 pos ('\r' :: rest) = itemsFrom 0 (pos.after '\r') rest :=
  Gap.read (.blank (by simp) .nil) pos

theorem itemsFrom_lineFeed (pos : Position) (rest : List Char) :
    itemsFrom 0 pos ('\n' :: rest) = itemsFrom 0 (pos.after '\n') rest :=
  Gap.read (.blank (by simp) .nil) pos

theorem itemsFrom_gap_returned (h : Piece.at? c (l ++ rest) = some ⟨none, l.length⟩)
    (hrest : itemsFrom 0 (pos.afterAll (c :: l)) (Text.returned rest) =
      itemsFrom 0 (pos.afterAll (c :: l)) rest) :
    itemsFrom 0 pos (Text.returned (c :: (l ++ rest))) =
      itemsFrom 0 (pos.afterAll (c :: l)) rest := by
  have hl := (Lexeme.longest_of_at? h).lexeme
  rw [List.take_left] at hl
  rw [← List.cons_append, Text.returned_append]
  generalize hcs : c :: l = cs at hl
  cases hl with
  | blanks hne hblank =>
    have hline : '\n' ∉ cs := fun hn => absurd (hblank _ hn) (by decide)
    have hgap : Gap (Text.returned rest) (cs ++ []) := .blanks hblank .nil
    rw [List.append_nil] at hgap
    rw [Text.returned_line hline, hgap.read, ← hcs, hrest]
  | lineFeed =>
    change itemsFrom 0 pos ('\r' :: '\n' :: Text.returned rest) = _
    cases hcs
    rw [itemsFrom_return, itemsFrom_lineFeed, Position.after_return]
    exact hrest
  | @comment cs hline =>
    cases hcs
    rw [Text.returned_line (by simpa using hline)]
    cases rest with
    | nil => exact itemsFrom_comment hline (fun d hd => by cases hd) pos
    | cons d rest =>
      have hrun : Piece.run (· ≠ '\n') (l ++ d :: rest) = l.length :=
        (Piece.mk.inj (Option.some.inj h)).2
      obtain rfl : d = '\n' := by simpa using (Piece.run_ends hrun).2 d rfl
      -- The carriage return becomes the end of the comment.
      have hcomment : '\n' ∉ l ++ ['\r'] := by simpa using hline
      have hbroken : ∀ d ∈ ('\n' :: Text.returned rest).head?, d = '\n' := by
        intro d hd
        cases hd
        rfl
      have hread := itemsFrom_comment hcomment hbroken pos
      rw [List.append_assoc, ← List.cons_append, ← List.cons_append, Position.afterAll_append]
        at hread
      rw [Text.returned_lineFeed, itemsFrom_return] at hrest
      exact hread.trans hrest

/-- Line ends may be written with carriage returns where no string goes over them. -/
theorem itemsFrom_returned {cs : List Char} {pos : Position}
    (h : ∀ t, .ok t ∈ itemsFrom 0 pos cs → t.kind = .string → '\n' ∉ t.lexeme.toList) :
    itemsFrom 0 pos (Text.returned cs) = itemsFrom 0 pos cs := by
  induction pieced cs generalizing pos with
  | nil => rfl
  | @stuck c rest hat =>
    have hexplains := Piece.at?_explains c rest
    rw [hat] at hexplains
    have hunreadable : Unreadable c rest := hexplains
    rw [Text.returned_cons hunreadable.ne_lineFeed, itemsFrom, itemsFrom,
      hunreadable.returned.at?, hat]
  | @piece c l rest kind hat hrest ih =>
    cases kind with
    | none =>
      rw [itemsFrom_gap hat] at h ⊢
      exact itemsFrom_gap_returned hat (ih h)
    | some kind =>
      rw [itemsFrom_token hat] at h
      have hline : '\n' ∉ c :: l := by
        by_cases hk : kind = .string
        · simpa using h _ (.head _) hk
        · have hl := (Lexeme.longest_of_at? hat).lexeme
          rw [List.take_left] at hl
          exact hl.line hk
      have hnext := ih fun t ht => h t (.tail _ ht)
      have hreturned := Piece.at?_return hat (Text.head?_returned rest)
      rw [← List.cons_append, Text.returned_append, Text.returned_line hline, List.cons_append,
        itemsFrom_token hreturned, hnext, List.cons_append, itemsFrom_token hat]

/-- A text in which no string goes over the end of a line is the same stream, places included, and
so the same program or error, if all its lines end with a carriage return and a line feed. -/
theorem tokenize_withReturns (text : String)
    (h : ∀ t, .ok t ∈ tokenize text → t.kind = .string → '\n' ∉ t.lexeme.toList) :
    tokenize (Text.withReturns text) = tokenize text ∧
      parseText (Text.withReturns text) = parseText text := by
  have hitems : tokenize (Text.withReturns text) = tokenize text := by
    rw [tokenize, Text.withReturns, String.toList_ofList]
    exact itemsFrom_returned h
  exact ⟨hitems, congrArg parse hitems⟩

def unclosedLine : String :=
  "print 1 # é\n+\n\"a\\\n"

theorem tokenize_withReturns_unclosedLine :
    Text.withReturns unclosedLine = "print 1 # é\r\n+\r\n\"a\\\r\n" ∧
      tokenize (Text.withReturns unclosedLine) =
        [.ok ⟨.identifier, "print", ⟨1, 1⟩⟩, .ok ⟨.number, "1", ⟨1, 7⟩⟩, .ok ⟨.plus, "+", ⟨2, 1⟩⟩,
          .error (.unexpectedCharacter '"' ⟨3, 1⟩)] := by
  have hitems : tokenize unclosedLine =
      [.ok ⟨.identifier, "print", ⟨1, 1⟩⟩, .ok ⟨.number, "1", ⟨1, 7⟩⟩, .ok ⟨.plus, "+", ⟨2, 1⟩⟩,
        .error (.unexpectedCharacter '"' ⟨3, 1⟩)] := by cbv
  have hstrings : ∀ t, .ok t ∈ tokenize unclosedLine → t.kind = .string →
      '\n' ∉ t.lexeme.toList := by
    intro t ht hk
    rw [hitems] at ht
    simp only [List.mem_cons, Except.ok.injEq, reduceCtorEq, List.not_mem_nil, or_false] at ht
    rcases ht with rfl | rfl | rfl <;> cases hk
  exact ⟨by cbv, (tokenize_withReturns unclosedLine hstrings).1.trans hitems⟩

end Scriptlet
