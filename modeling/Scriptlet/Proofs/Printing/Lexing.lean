import Scriptlet.Proofs.Piece
import Scriptlet.Proofs.Numeral
import Scriptlet.Proofs.Printing

namespace Scriptlet
set_option autoImplicit true

def IsName (x : String) : Prop :=
  ∃ c cs, x.toList = c :: cs ∧ Piece.isNameStart c ∧ ∀ d ∈ cs, Piece.isNamePart d

def IsDigits (x : String) : Prop :=
  x.toList ≠ [] ∧ ∀ d ∈ x.toList, d.isDigit

theorem IsName.of_toList (h : x.toList = c :: cs) (hc : Piece.isNameStart c)
    (hcs : cs.all Piece.isNamePart) : IsName x :=
  ⟨c, cs, h, hc, by simpa using hcs⟩

theorem Keyword.isName_word (k : Keyword) : IsName k.word := by
  cases k <;> exact .of_toList rfl (by decide) (by decide)

theorem Connective.isName_word (op : Connective) : IsName op.word := by
  cases op <;> exact .of_toList rfl (by decide) (by decide)

theorem IsDigits.of_nonneg {i : Int} (h : 0 ≤ i) : IsDigits (toString i) := by
  rw [IsDigits, Integer.toList_toString h]
  refine ⟨Nat.toDigits_ne_nil, fun d hd => ?_⟩
  exact Nat.isDigit_of_mem_toDigits (by decide) (by decide) hd

/-- The texts of names and numbers are as the rules of tokens have them. -/
structure Token.Genuine (t : Token) : Prop where
  kind : t.kind ≠ .endOfInput
  name : t.kind = .identifier → IsName t.lexeme
  number : t.kind = .number → IsDigits t.lexeme

namespace Piece

theorem closing?_escape (cs : List Char) (seen : Nat) (rest : List Char) :
    closing? seen (cs.flatMap Text.escape ++ '"' :: rest) =
      some (seen + (cs.flatMap Text.escape).length + 1) := by
  induction cs generalizing seen with
  | nil => simp [closing?]
  | cons c cs ih =>
    rw [List.flatMap_cons, List.append_assoc, Text.escape]
    split
    · rw [List.cons_append, List.cons_append, List.nil_append, closing?, ih]
      simp
      omega
    · rename_i hc
      rw [List.singleton_append, closing?_cons (fun h => hc (.inr h)) (fun h => hc (.inl h)), ih]
      simp
      omega

end Piece

theorem Token.genuine_of_at? {kind : TokenKind} (h : Piece.at? c rest = some ⟨some kind, more⟩)
    (pos : Position) :
    Token.Genuine ⟨kind, String.ofList (c :: rest.take more), pos⟩ := by
  rcases Piece.at?_token h with rfl | ⟨rfl, hc, rfl⟩ | ⟨rfl, hc, rfl⟩ | ⟨hn, hi, he⟩
  · exact ⟨by simp, by simp, by simp⟩
  · refine ⟨by simp, by simp, fun _ => ⟨by simp, ?_⟩⟩
    intro d hd
    rw [String.toList_ofList] at hd
    rcases List.mem_cons.1 hd with rfl | hd
    · exact hc
    · exact Piece.take_run _ _ d hd
  · refine ⟨by simp, fun _ => ?_, by simp⟩
    exact ⟨c, _, String.toList_ofList, hc, Piece.take_run _ _⟩
  · exact ⟨he, fun h => absurd h hi, fun h => absurd h hn⟩

theorem itemsFrom_genuine (skip : Nat) (pos : Position) (cs : List Char) :
    ∃ (ts : List Token) (last : Item), itemsFrom skip pos cs = ts.map .ok ++ [last] ∧
      (∀ t ∈ ts, t.Genuine) ∧ ∀ t, last = .ok t → t.kind = .endOfInput := by
  induction cs generalizing skip pos with
  | nil =>
    refine ⟨[], _, by rw [itemsFrom]; rfl, by simp, fun t ht => ?_⟩
    cases ht
    rfl
  | cons c rest ih =>
    cases skip with
    | succ skip => exact ih skip (pos.after c)
    | zero =>
      rw [itemsFrom]
      cases hat : Piece.at? c rest with
      | none => exact ⟨[], _, rfl, by simp, fun t ht => by cases ht⟩
      | some piece =>
        obtain ⟨kind, more⟩ := piece
        obtain ⟨ts, last, hts, hg, hl⟩ := ih more (pos.after c)
        cases kind with
        | none => exact ⟨ts, last, hts, hg, hl⟩
        | some kind =>
          refine ⟨_ :: ts, last, congrArg (_ :: ·) hts, ?_, hl⟩
          exact List.forall_mem_cons.2 ⟨Token.genuine_of_at? hat pos, hg⟩

namespace Word

/-- A word is read back where its separator follows. -/
def Lexes (w : Word) : Prop :=
  ∃ c cs, w.lexeme.toList = c :: cs ∧ Piece.isBlank c = false ∧
    ∀ rest, Piece.at? c (cs ++ w.separator :: rest) = some ⟨some w.kind, cs.length⟩

theorem Lexes.kind {w : Word} (h : w.Lexes) : w.kind ≠ .endOfInput := by
  obtain ⟨c, cs, -, -, hat⟩ := h
  rcases Piece.at?_token (hat []) with h | ⟨h, -⟩ | ⟨h, -⟩ | ⟨-, -, h⟩
  · simp [h]
  · simp [h]
  · simp [h]
  · exact h

theorem separator_cases (w : Word) : w.separator = '\n' ∨ w.separator = ' ' := by
  unfold separator
  split
  · exact .inl rfl
  · exact .inr rfl

theorem itemsFrom_separator (w : Word) (hr : ∀ c ∈ rest.head?, Piece.isBlank c = false)
    (pos : Position) : ∃ pos', itemsFrom 0 pos (w.separator :: rest) = itemsFrom 0 pos' rest := by
  have hrun : Piece.run Piece.isBlank rest = 0 := by
    cases rest with
    | nil => rfl
    | cons c rest => simp [Piece.run, hr c rfl]
  refine ⟨pos.after w.separator, ?_⟩
  rcases w.separator_cases with h | h
  · simp [h, itemsFrom, Piece.at?]
  · simp [h, itemsFrom, Piece.at?, Piece.isBlank, hrun]

theorem itemsFrom_chars {w : Word} (hw : w.Lexes)
    (hr : ∀ c ∈ rest.head?, Piece.isBlank c = false) (pos : Position) :
    ∃ t pos', t.word = w ∧ itemsFrom 0 pos (w.chars ++ rest) = .ok t :: itemsFrom 0 pos' rest := by
  obtain ⟨c, cs, hl, -, hat⟩ := hw
  have hskip := itemsFrom_skip (pos.after c) cs (w.separator :: rest)
  obtain ⟨pos', hsep⟩ := w.itemsFrom_separator hr ((pos.after c).afterAll cs)
  refine ⟨⟨w.kind, w.lexeme, pos⟩, pos', rfl, ?_⟩
  have htext : String.ofList (c :: (cs ++ w.separator :: rest).take cs.length) = w.lexeme := by
    rw [List.take_left, ← hl, String.ofList_toList]
  rw [chars, hl, List.cons_append, List.cons_append, List.append_assoc, List.singleton_append,
    itemsFrom, hat rest]
  simp only [htext, hskip, hsep]

theorem Lexes.head {w : Word} (h : w.Lexes) (rest : List Char) :
    ∀ c ∈ (w.chars ++ rest).head?, Piece.isBlank c = false := by
  obtain ⟨c, cs, hl, hc, -⟩ := h
  intro d hd
  rw [chars, hl] at hd
  cases hd
  exact hc

theorem lexes_name (h : IsName x) : (name x).Lexes := by
  obtain ⟨c, cs, hx, hc, hcs⟩ := h
  refine ⟨c, cs, hx, Piece.not_isBlank hc rfl rfl rfl, fun rest => ?_⟩
  have hsep : (name x).separator = ' ' := rfl
  rw [Piece.at?_nameStart hc, hsep, Piece.run_append hcs (by decide)]
  rfl

theorem lexes_number (h : IsDigits x) : Lexes ⟨.number, x⟩ := by
  obtain ⟨hne, hx⟩ := h
  obtain ⟨c, cs, hcs⟩ := List.exists_cons_of_ne_nil hne
  rw [hcs] at hx
  obtain ⟨hc, hds⟩ := List.forall_mem_cons.1 hx
  refine ⟨c, cs, hcs, Piece.not_isBlank hc rfl rfl rfl, fun rest => ?_⟩
  have hsep : separator ⟨.number, x⟩ = ' ' := rfl
  rw [Piece.at?_digit hc, hsep, Piece.run_append hds (by decide)]

theorem lexes_string (s : String) : Lexes ⟨.string, Text.quote s⟩ := by
  refine ⟨'"', s.toList.flatMap Text.escape ++ ['"'], String.toList_ofList, by decide, ?_⟩
  intro rest
  rw [List.append_assoc, List.singleton_append, Piece.at?_quote, Piece.closing?_escape]
  simp

theorem lexes_symbol {kind : TokenKind} (h : kind.symbol ≠ "") : (symbol kind).Lexes := by
  cases kind <;> first
    | exact absurd rfl h
    | exact ⟨_, _, rfl, by decide, fun rest => rfl⟩

/-- Words are read back, one token for each. -/
theorem itemsFrom_words (h : ∀ w ∈ ws, Lexes w) (pos : Position) :
    ∃ (ts : List Token) (stop : Token), ts.map Token.word = ws ∧ stop.kind = .endOfInput ∧
      itemsFrom 0 pos (ws.flatMap chars) = (ts ++ [stop]).map .ok := by
  induction ws generalizing pos with
  | nil => exact ⟨[], ⟨.endOfInput, "", pos⟩, rfl, rfl, by simp [itemsFrom]⟩
  | cons w ws ih =>
    obtain ⟨hw, hws⟩ := List.forall_mem_cons.1 h
    have hr : ∀ c ∈ (ws.flatMap chars).head?, Piece.isBlank c = false := by
      cases ws with
      | nil => simp
      | cons w' ws => exact (hws w' (List.mem_cons_self ..)).head _
    obtain ⟨t, pos', ht, hitems⟩ := itemsFrom_chars hw hr pos
    obtain ⟨ts, stop, hts, hstop, hrest⟩ := ih hws pos'
    refine ⟨t :: ts, stop, by rw [List.map_cons, ht, hts], hstop, ?_⟩
    rw [List.flatMap_cons, hitems, hrest]
    rfl

end Word

end Scriptlet
