import Scriptlet.Proofs.Lexeme

namespace Scriptlet
set_option autoImplicit true

/-- What may stand in front of `rest` without being part of a token: blanks, line feeds, and
comments, each of which reaches to the next line feed or to the end. -/
inductive Gap (rest : List Char) : List Char → Prop
  | nil : Gap rest []
  | blank (hc : c = ' ' ∨ c = '\t' ∨ c = '\r' ∨ c = '\n') (hw : Gap rest w) : Gap rest (c :: w)
  | comment (hcs : '\n' ∉ cs) (hend : ∀ d ∈ (w ++ rest).head?, d = '\n') (hw : Gap rest w) :
      Gap rest ('#' :: (cs ++ w))

/-- A text that starts at `pos` is made of the texts of the tokens, with a gap before each of them
and one in front of `rest`, which starts at `stop`. Each token is the longest text that any rule
matches where it stands. -/
inductive Covers (rest : List Char) (stop : Position) :
    Position → List Token → List Char → Prop
  | last (hw : Gap rest w) (hp : pos.afterAll w = stop) : Covers rest stop pos [] (w ++ rest)
  | token (hw : Gap (t.lexeme.toList ++ text) w) (hp : pos.afterAll w = t.position)
      (hl : Lexeme.Longest (some t.kind) t.lexeme.toList (t.lexeme.toList ++ text))
      (h : Covers rest stop (t.position.afterAll t.lexeme.toList) ts text) :
      Covers rest stop pos (t :: ts) (w ++ (t.lexeme.toList ++ text))

/-- What a stream ends with where `rest` is left of its text: the end token when nothing is, and
otherwise the error that no rule matches there. -/
inductive Ends : List Char → Position → Item → Prop
  | whole : Ends [] pos (.ok ⟨.endOfInput, "", pos⟩)
  | stuck (hno : ∀ kind l, Lexeme kind l → ¬ l <+: c :: rest) (h : Unreadable c rest) :
      Ends (c :: rest) pos (.error (.unexpectedCharacter c pos))

/-- The items are the tokens that cover a text and what ends their stream. -/
def Reads (pos : Position) (text : List Char) (items : List Item) : Prop :=
  ∃ ts last rest stop, items = ts.map .ok ++ [last] ∧ Covers rest stop pos ts text ∧
    Ends rest stop last

theorem Covers.kind (h : Covers rest stop pos ts text) : ∀ t ∈ ts, t.kind ≠ .endOfInput := by
  induction h with
  | last hw hp => exact fun t ht => absurd ht List.not_mem_nil
  | token hw hp hl h ih => exact List.forall_mem_cons.2 ⟨hl.lexeme.ne_endOfInput, ih⟩

theorem Covers.stop_eq (h : Covers rest stop pos ts text) :
    ∃ cs, text = cs ++ rest ∧ stop = pos.afterAll cs := by
  induction h with
  | @last w pos hw hp => exact ⟨w, rfl, hp.symm⟩
  | @token text w ts pos t hw hp hl h ih =>
    obtain ⟨cs, rfl, rfl⟩ := ih
    refine ⟨w ++ (t.lexeme.toList ++ cs), by simp only [List.append_assoc], ?_⟩
    rw [Position.afterAll_append, hp, Position.afterAll_append]

theorem Covers.before (h : Covers rest stop pos ts text) :
    ∀ t ∈ ts, t.position.Before stop := by
  induction h with
  | last hw hp => exact fun t ht => absurd ht List.not_mem_nil
  | @token text w ts pos t hw hp hl h ih =>
    obtain ⟨cs, -, hstop⟩ := h.stop_eq
    refine List.forall_mem_cons.2 ⟨?_, ih⟩
    rw [hstop, ← Position.afterAll_append]
    exact t.position.before_afterAll (List.append_ne_nil_of_left_ne_nil hl.lexeme.ne_nil cs)

theorem Gap.blanks (hl : ∀ c ∈ l, c = ' ' ∨ c = '\t' ∨ c = '\r') (hw : Gap rest w) :
    Gap rest (l ++ w) := by
  induction l with
  | nil => exact hw
  | cons c l ih =>
    obtain ⟨hc, hl⟩ := List.forall_mem_cons.1 hl
    exact .blank (hc.imp_right (Or.imp_right .inl)) (ih hl)

theorem Gap.skip (hl : Lexeme.Longest none l (l ++ (w ++ rest))) (hw : Gap rest w) :
    Gap rest (l ++ w) := by
  obtain ⟨hlexeme, -, hlongest⟩ := hl
  cases hlexeme with
  | blanks hne h => exact .blanks h hw
  | lineFeed => exact .blank (by simp) hw
  | @comment cs h =>
    refine .comment h (fun d hd => ?_) hw
    obtain ⟨after, hafter⟩ := List.head?_eq_some_iff.1 hd
    by_cases hne : d = '\n'
    · exact hne
    -- Another character than a line feed would be part of the comment.
    have hcs : '\n' ∉ cs ++ [d] := by simp [h, Ne.symm hne]
    have hle := hlongest none _ (.comment hcs) (by simp [hafter])
    simp only [List.length_cons, List.length_append, List.length_nil] at hle
    omega

theorem Covers.skip (hl : Lexeme.Longest none l (l ++ text))
    (h : Covers rest stop (pos.afterAll l) ts text) : Covers rest stop pos ts (l ++ text) := by
  cases h with
  | last hw hp =>
    rw [← List.append_assoc]
    refine .last (hw.skip hl) ?_
    rw [Position.afterAll_append, hp]
  | token hw hp hl' h =>
    rw [← List.append_assoc]
    refine .token (hw.skip hl) ?_ hl' h
    rw [Position.afterAll_append, hp]

/-- Every text is covered by its stream, up to the end or to a place where nothing can be read. -/
theorem reads_itemsFrom (skip : Nat) (pos : Position) (cs : List Char) :
    Reads (pos.afterAll (cs.take skip)) (cs.drop skip) (itemsFrom skip pos cs) := by
  induction cs generalizing skip pos with
  | nil =>
    rw [List.take_nil, List.drop_nil, itemsFrom]
    exact ⟨[], _, [], pos, rfl, .last .nil rfl, .whole⟩
  | cons c cs ih =>
    cases skip with
    | succ skip => exact ih skip (pos.after c)
    | zero =>
      rw [itemsFrom]
      cases hat : Piece.at? c cs with
      | none =>
        have hexplains := Piece.at?_explains c cs
        rw [hat] at hexplains
        refine ⟨[], _, c :: cs, pos, rfl, .last .nil rfl, .stuck ?_ hexplains⟩
        exact fun kind l hl => Lexeme.not_prefix_of_at? hat hl
      | some piece =>
        obtain ⟨kind, more⟩ := piece
        have hl := Lexeme.longest_of_at? hat
        obtain ⟨ts, last, rest, stop, hitems, hcovers, hends⟩ := ih more (pos.after c)
        have htext : c :: cs = (c :: cs.take more) ++ cs.drop more := by
          rw [List.cons_append, List.take_append_drop]
        rw [htext] at hl
        rw [List.take_zero, List.drop_zero, htext]
        cases kind with
        | none => exact ⟨ts, last, rest, stop, hitems, hcovers.skip hl, hends⟩
        | some kind =>
          let t : Token := ⟨kind, String.ofList (c :: cs.take more), pos⟩
          have hlexeme : t.lexeme.toList = c :: cs.take more := String.toList_ofList
          refine ⟨t :: ts, last, rest, stop, congrArg (_ :: ·) hitems, ?_, hends⟩
          rw [← hlexeme] at hl ⊢
          refine .token .nil rfl hl ?_
          rw [hlexeme]
          exact hcovers

theorem itemsFrom_run (pos : Position) (cs : List Char) :
    itemsFrom (Piece.run Piece.isBlank cs) pos cs = itemsFrom 0 pos cs := by
  cases cs with
  | nil => rfl
  | cons c cs =>
    by_cases hc : Piece.isBlank c
    · rw [itemsFrom, Piece.at?_blank hc, Piece.run, List.takeWhile_cons_of_pos hc, List.length_cons,
        itemsFrom]
      rfl
    · rw [Piece.run, List.takeWhile_cons_of_neg hc, List.length_nil]

theorem itemsFrom_comment (hcs : '\n' ∉ cs) (hend : ∀ d ∈ rest.head?, d = '\n') (pos : Position) :
    itemsFrom 0 pos ('#' :: (cs ++ rest)) = itemsFrom 0 (pos.afterAll ('#' :: cs)) rest := by
  have hp : ∀ c ∈ cs, (fun c => decide (c ≠ '\n')) c := fun c hc => by
    simpa using ne_of_mem_of_not_mem hc hcs
  have hrun : Piece.run (· ≠ '\n') (cs ++ rest) = cs.length := by
    cases rest with
    | nil =>
      rw [List.append_nil]
      exact Nat.le_antisymm (Piece.run_le _ _) (Piece.length_le_run hp (List.prefix_refl cs))
    | cons d rest =>
      obtain rfl := hend d rfl
      exact Piece.run_append hp (by decide) rest
  have hat : Piece.at? '#' (cs ++ rest) = some ⟨none, cs.length⟩ := by
    rw [← hrun]
    rfl
  rw [itemsFrom, hat]
  exact itemsFrom_skip _ cs rest

theorem Gap.read (h : Gap rest w) (pos : Position) :
    itemsFrom 0 pos (w ++ rest) = itemsFrom 0 (pos.afterAll w) rest := by
  induction h generalizing pos with
  | nil => rfl
  | @blank c w hc hw ih =>
    rw [List.cons_append, Position.afterAll_cons, ← ih]
    by_cases hn : c = '\n'
    · subst hn
      rfl
    · have hb : Piece.isBlank c := Piece.isBlank_iff.2 (by simpa [hn] using hc)
      rw [itemsFrom, Piece.at?_blank hb]
      exact itemsFrom_run _ _
  | @comment cs w hcs hend hw ih =>
    rw [List.cons_append, List.append_assoc, itemsFrom_comment hcs hend, ih, ← List.cons_append,
      Position.afterAll_append]

theorem itemsFrom_token {kind : TokenKind} (h : Piece.at? c (l ++ text) = some ⟨kind, l.length⟩)
    (pos : Position) : itemsFrom 0 pos (c :: (l ++ text)) =
      .ok ⟨kind, String.ofList (c :: l), pos⟩ :: itemsFrom 0 (pos.afterAll (c :: l)) text := by
  rw [itemsFrom, h]
  simp only [List.take_left, itemsFrom_skip, Position.afterAll_cons]

theorem Covers.read (h : Covers rest stop pos ts text) :
    itemsFrom 0 pos text = ts.map .ok ++ itemsFrom 0 stop rest := by
  induction h with
  | last hw hp => rw [hw.read, hp, List.map_nil, List.nil_append]
  | @token text w ts pos t hw hp hl h ih =>
    obtain ⟨c, l, hlexeme⟩ := List.exists_cons_of_ne_nil hl.lexeme.ne_nil
    have hof : String.ofList (c :: l) = t.lexeme := by rw [← hlexeme, String.ofList_toList]
    rw [hw.read, hp, List.map_cons, List.cons_append, ← ih]
    rw [hlexeme] at hl ⊢
    rw [List.cons_append, itemsFrom_token hl.at?, hof]

theorem Ends.read (h : Ends rest stop last) : itemsFrom 0 stop rest = [last] := by
  cases h with
  | whole => rfl
  | @stuck c rest pos hno h =>
    cases hat : Piece.at? c rest with
    | none => rw [itemsFrom, hat]
    | some piece =>
      have hl := Lexeme.longest_of_at? hat
      exact absurd hl.head (hno _ _ hl.lexeme)

/-- The items of a text are its maximal-munch reading, and nothing else is. The text is made of the
texts of the tokens, in order and each the longest that a rule of its class matches there, of gaps
around them, and of a rest; if the rest is empty, the tokens are followed by one end token, and
otherwise by the error that nothing can be read at its first character. -/
theorem tokenize_eq_iff_munched (text : String) (items : List Item) :
    tokenize text = items ↔
      ∃ ts last rest stop, items = ts.map .ok ++ [last] ∧ (∀ t ∈ ts, t.kind ≠ .endOfInput) ∧
        Covers rest stop .start ts text.toList ∧ Ends rest stop last := by
  constructor
  · rintro rfl
    obtain ⟨ts, last, rest, stop, hitems, hcovers, hends⟩ := reads_itemsFrom 0 .start text.toList
    exact ⟨ts, last, rest, stop, hitems, hcovers.kind, hcovers, hends⟩
  · rintro ⟨ts, last, rest, stop, rfl, -, hcovers, hends⟩
    rw [tokenize, hcovers.read, hends.read]

end Scriptlet
