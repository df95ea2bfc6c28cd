import Scriptlet.Proofs.Grammar.Extension
import Scriptlet.Proofs.Grammar.Transport
import Scriptlet.Proofs.Lexeme.Seam
import Scriptlet.Proofs.Printing.RoundTrip

namespace Scriptlet
set_option autoImplicit true

namespace Position

theorem below_after (pos : Position) (k : Nat) (c : Char) :
    (pos.below k).after c = (pos.after c).below k := by
  unfold after
  split
  · rw [below, below, Nat.add_right_comm]
  · rfl

theorem after_line (pos : Position) (c : Char) :
    (pos.after c).line = pos.line + [c].count '\n' := by
  unfold after
  split
  · simp_all
  · simp_all

theorem afterAll_line (pos : Position) (cs : List Char) :
    (pos.afterAll cs).line = pos.line + cs.count '\n' := by
  induction cs generalizing pos with
  | nil => rfl
  | cons c cs ih =>
    rw [afterAll_cons, ih, after_line, Nat.add_assoc, ← List.count_append]
    rfl

theorem start_afterAll_lineFeed (cs : List Char) :
    (start.afterAll cs).after '\n' = start.below (1 + cs.count '\n') := by
  have hline := start.afterAll_line cs
  change Position.mk ((start.afterAll cs).line + 1) 1 = _
  rw [hline, below]
  congr 1
  omega

end Position

def Token.below (k : Nat) (t : Token) : Token :=
  { t with position := t.position.below k }

theorem Token.matches_below (k : Nat) (t : Token) :
    t.Matches (fun a b => b = a.below k) (t.below k) :=
  ⟨rfl, rfl, rfl⟩

theorem matches_map_below (k : Nat) (ts : List Token) :
    List.Forall₂ (Token.Matches fun a b => b = a.below k) ts (ts.map (Token.below k)) := by
  rw [List.forall₂_map_right_iff, List.forall₂_same]
  exact fun t _ => t.matches_below k

/-- A text is read alike wherever it starts. -/
theorem itemsFrom_below {cs : List Char} {ts : List Token}
    (h : itemsFrom skip pos cs = ts.map .ok) (k : Nat) :
    itemsFrom skip (pos.below k) cs = (ts.map (Token.below k)).map .ok := by
  induction cs generalizing skip pos ts with
  | nil =>
    rw [itemsFrom] at h ⊢
    cases ts with
    | nil => cases h
    | cons t ts =>
      obtain ⟨ht, hnone⟩ := List.cons.inj h
      obtain rfl := Except.ok.inj ht
      obtain rfl := List.map_eq_nil_iff.1 hnone.symm
      rfl
  | cons c cs ih =>
    cases skip with
    | succ skip =>
      rw [itemsFrom] at h ⊢
      rw [Position.below_after]
      exact ih h
    | zero =>
      rw [itemsFrom] at h ⊢
      rw [Position.below_after]
      cases hat : Piece.at? c cs with
      | none =>
        rw [hat] at h
        cases ts <;> cases h
      | some piece =>
        obtain ⟨_ | kind, more⟩ := piece
        · rw [hat] at h
          exact ih h
        · rw [hat] at h
          cases ts with
          | nil => cases h
          | cons t ts =>
            obtain ⟨ht, hitems⟩ := List.cons.inj h
            obtain rfl := Except.ok.inj ht
            exact congrArg (_ :: ·) (ih hitems)

theorem Program.SpelledBy.closed (h : Program.SpelledBy n p ts)
    (hconnective : ∀ t ∈ ts.head?, ∀ op : Connective, ¬ t.isKeyword op.word) : Closed ts := by
  intro t ht
  refine ⟨?_, hconnective t ht⟩
  cases h with
  | nothing => cases ht
  | separator hk hss =>
    cases ht
    simp [hk]
  | more hc hs hss =>
    cases ht
    simp [hs.kind]

theorem parseText_joined {first second : String} (h : parseText first = .ok p)
    (h' : parseText second = .ok q)
    (hconnective : ∀ t, (tokenize second).head? = some (.ok t) →
      ∀ op : Connective, ¬ t.isKeyword op.word) :
    parseText (first ++ "\n" ++ second) =
      .ok (p ++ movedAll (Position.below (1 + first.toList.count '\n')) q) := by
  obtain ⟨ts, stop, hitems, hp⟩ := parseText_ok_iff.1 h
  obtain ⟨us, stop', hitems', hq⟩ := parseText_ok_iff.1 h'
  generalize hk : 1 + first.toList.count '\n' = k
  apply parseText_ok_iff.2
  refine ⟨ts ++ us.map (Token.below k), stop'.below k, ?_, ?_⟩
  · have htext : (first ++ "\n" ++ second).toList = first.toList ++ '\n' :: second.toList := by simp
    have hseam : itemsFrom 0 (Position.start.afterAll first.toList) ('\n' :: second.toList) =
        itemsFrom 0 (Position.start.below k) second.toList := by
      rw [← hk, ← Position.start_afterAll_lineFeed]
      rfl
    rw [tokenize, htext, itemsFrom_append hitems, hseam, itemsFrom_below hitems']
    simp
  · obtain ⟨q', hmatch, hq'⟩ := hq.transport (matches_map_below k us)
    rw [hmatch.eq_movedAll] at hq'
    -- An expression at the end of the first program must not go on with the second one.
    have hclosed : Closed (us.map (Token.below k)) := by
      apply hq'.closed
      intro t ht op
      rw [List.head?_map] at ht
      obtain ⟨u, hu, rfl⟩ := Option.map_eq_some_iff.1 ht
      obtain ⟨us', rfl⟩ := List.head?_eq_some_iff.1 hu
      rw [(u.matches_below k).isKeyword]
      apply hconnective
      rw [hitems']
      rfl
    have hp' := Clause.Spells.extend hp hclosed
    exact hp'.append hq'

end Scriptlet
