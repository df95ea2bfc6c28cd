import Scriptlet.Proofs.Grammar.Acceptance
import Scriptlet.Proofs.Printing.Blocks

namespace Scriptlet
set_option autoImplicit true

theorem Draft.Spelled.not_read {d : Draft} (h : d.Spelled N all here)
    (hk : ∀ t ∈ here, t.kind ≠ .endOfInput) (e : LexError) (p : Program) :
    (d.read (some N) (here.map .ok ++ [.error e])).result ≠ .ok p := by
  induction here generalizing d with
  | nil => simp [Draft.read]
  | cons t here ih =>
    obtain ⟨ht, hk⟩ := List.forall_mem_cons.1 hk
    rw [List.map_cons, List.cons_append, Draft.read]
    cases hs : d.step (some N) t with
    | error e => simp
    | ok q =>
      have hspelled := h.step (.token ht) hs
      cases q with
      | more d' =>
        obtain ⟨ts, hts, hd⟩ := hspelled
        cases hts
        exact ih hd hk
      | finished p' => cases hspelled.1

theorem beforeEnd_append {ts : List Token} (h : ∀ t ∈ ts, t.kind ≠ .endOfInput)
    (hstop : stop.kind = .endOfInput) : beforeEnd (ts ++ [stop]) = ts := by
  apply beforeEnd_front h
  intro t ht
  cases ht
  exact hstop

theorem tokenize_genuine {text : String} (h : tokenize text = (ts ++ [stop]).map .ok) :
    (∀ t ∈ ts, t.Genuine) ∧ stop.kind = .endOfInput := by
  obtain ⟨ts', last, hitems, hg, hlast⟩ := itemsFrom_genuine 0 .start text.toList
  rw [tokenize, hitems, List.map_append] at h
  obtain ⟨hts, hstop⟩ := List.append_inj' h rfl
  obtain rfl := (List.map_inj_right fun _ _ => Except.ok.inj).1 hts
  exact ⟨hg, hlast stop (List.cons.inj hstop).1⟩

/-- A text is a program if all of it is tokens that spell it, and only then. -/
theorem parseText_ok_iff {text : String} :
    parseText text = .ok p ↔ ∃ ts stop, tokenize text = (ts ++ [stop]).map .ok ∧
      Program.SpelledBy maxNestingDepth p ts := by
  constructor
  · intro h
    obtain ⟨ts, last, hitems, hg, hlast⟩ := itemsFrom_genuine 0 .start text.toList
    have hk : ∀ t ∈ ts, t.kind ≠ .endOfInput := fun t ht => (hg t ht).kind
    rw [parseText, tokenize, hitems] at h
    cases last with
    | error e =>
      have hspelled : Draft.empty.Spelled maxNestingDepth ts ts :=
        .between (.outermost .nothing) rfl
      exact absurd h (hspelled.not_read hk e p)
    | ok stop =>
      have hparse := (Program.SpelledBy.parse_iff (ts ++ [stop]) p).1
      rw [List.map_append, beforeEnd_append hk (hlast stop rfl)] at hparse
      refine ⟨ts, stop, ?_, hparse h⟩
      rw [tokenize, hitems, List.map_append]
      rfl
  · intro ⟨ts, stop, hitems, hp⟩
    obtain ⟨hg, hstop⟩ := tokenize_genuine hitems
    have hk : ∀ t ∈ ts, t.kind ≠ .endOfInput := fun t ht => (hg t ht).kind
    rw [parseText, hitems, Program.SpelledBy.parse_iff, beforeEnd_append hk hstop]
    exact hp

theorem Program.SpelledBy.of_text {text : String} (h : parseText text = .ok p) :
    ∃ ts, (∀ t ∈ ts, t.Genuine) ∧ Program.SpelledBy maxNestingDepth p ts := by
  obtain ⟨ts, stop, hitems, hp⟩ := parseText_ok_iff.1 h
  exact ⟨ts, (tokenize_genuine hitems).1, hp⟩

theorem Program.parseText_text {p : Program} (h : Clause.Fits maxNestingDepth (.statements [] p)) :
    ∃ p', parseText p.text = .ok p' ∧ unplacedAll p' = unplacedAll p ∧
      ∃ ts, tokenizeAll p.text = .ok ts := by
  obtain ⟨ts, stop, hts, hstop, hitems⟩ := Word.itemsFrom_words h.lexes .start
  have htext : tokenize p.text = (ts ++ [stop]).map .ok := by
    rw [tokenize, Program.text, String.toList_ofList]
    exact hitems
  have hk : ∀ t ∈ ts, t.kind ≠ .endOfInput := by
    intro t ht
    have hw : t.word ∈ (Clause.statements [] p).words := by
      rw [← hts]
      exact List.mem_map_of_mem ht
    exact (h.lexes _ hw).kind
  have hwritten : Clause.IsWritten maxNestingDepth (ts ++ []) [] (.statements [] p) :=
    h.written hts trivial
  obtain ⟨p', hsame, hspelled⟩ := hwritten
  rw [List.append_nil] at hspelled
  refine ⟨p', ?_, hsame, ts ++ [stop], ?_⟩
  · rw [parseText, htext, Program.SpelledBy.parse_iff, beforeEnd_append hk hstop]
    exact hspelled
  · rw [tokenizeAll, htext, allTokens_map]

/-- The text of a program that was read is a program again, the same but for places. -/
theorem text_of_parseText_parses (text : String) (p : Program) (h : parseText text = .ok p) :
    ∃ p', parseText p.text = .ok p' ∧ unplacedAll p' = unplacedAll p ∧
      ∃ ts, tokenizeAll p.text = .ok ts := by
  obtain ⟨ts, hg, hspelled⟩ := Program.SpelledBy.of_text h
  exact Program.parseText_text (Clause.Spells.fits hspelled hg).1

def difference : Program :=
  [.print ⟨1, 1⟩ (.binary (.arithmetic .subtract) (.number 1)
    (.binary (.arithmetic .subtract) (.number 2) (.number 3)))]

theorem text_of_parseText_parses_difference :
    parseText "print (1) - (2 - 3)" = .ok difference ∧
      ∃ p', parseText "print 1 - ( 2 - 3 ) ;\n" = .ok p' ∧
        unplacedAll p' = unplacedAll difference := by
  have hread : parseText "print (1) - (2 - 3)" = .ok difference := by cbv
  have htext : difference.text = "print 1 - ( 2 - 3 ) ;\n" := rfl
  obtain ⟨p', hp', hsame, -⟩ := text_of_parseText_parses _ difference hread
  rw [htext] at hp'
  exact ⟨hread, p', hp', hsame⟩

end Scriptlet
