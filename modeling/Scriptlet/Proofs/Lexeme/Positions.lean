import Mathlib
import Scriptlet.Proofs.Lexeme.Cover

namespace Scriptlet
set_option autoImplicit true

namespace Position

/-- The place behind the text `before`, by what is counted in it: line feeds, and the characters
that no line feed follows. -/
def behind (before : List Char) : Position :=
  ⟨1 + before.count '\n', 1 + (before.rtakeWhile (· ≠ '\n')).length⟩

theorem behind_after (before : List Char) (c : Char) :
    (behind before).after c = behind (before ++ [c]) := by
  unfold after behind
  by_cases hc : c = '\n'
  · subst hc
    simp [Nat.add_assoc]
  · have hlast : (before ++ [c]).rtakeWhile (· ≠ '\n') = before.rtakeWhile (· ≠ '\n') ++ [c] :=
      List.rtakeWhile_concat_pos _ _ _ (by simpa using hc)
    rw [if_neg hc, hlast]
    simp [hc, Nat.add_assoc]

theorem behind_afterAll (before cs : List Char) :
    (behind before).afterAll cs = behind (before ++ cs) := by
  induction cs generalizing before with
  | nil => rw [afterAll_nil, List.append_nil]
  | cons c cs ih => rw [afterAll_cons, behind_after, ih, List.append_assoc, List.singleton_append]

/-- Going on character by character leads to the place that the counts give. -/
theorem start_afterAll (cs : List Char) : start.afterAll cs = behind cs :=
  behind_afterAll [] cs

end Position

def Item.position : Item → Position
  | .ok t => t.position
  | .error e => e.position

/-- What stands in the text from an item on: its lexeme or bad character first, or nothing at the
end of the input. -/
inductive Item.Heads : Item → List Char → Prop
  | token (ht : t.kind ≠ .endOfInput) (hne : t.lexeme.toList ≠ []) :
      Heads (.ok t) (t.lexeme.toList ++ after)
  | stop : Heads (.ok ⟨.endOfInput, "", pos⟩) []
  | character : Heads (.error (.unexpectedCharacter c pos)) (c :: after)

theorem Covers.split (h : Covers rest stop pos (ts ++ t :: us) text) :
    ∃ after, Covers (t.lexeme.toList ++ after) t.position pos ts text ∧
      Lexeme (some t.kind) t.lexeme.toList := by
  induction ts generalizing pos text with
  | nil =>
    cases h with
    | token hw hp hl h => exact ⟨_, .last hw hp, hl.lexeme⟩
  | cons u ts ih =>
    cases h with
    | token hw hp hl h =>
      obtain ⟨after, hcovers, hlexeme⟩ := ih h
      exact ⟨after, .token hw hp hl hcovers, hlexeme⟩

theorem Covers.increasing (h : Covers rest stop pos ts text) :
    ts.Pairwise fun t u => t.position.Before u.position := by
  induction ts using List.reverseRecOn generalizing rest stop with
  | nil => exact .nil
  | append_singleton ts t ih =>
    obtain ⟨after, hcovers, -⟩ := h.split
    have hlast : ∀ u ∈ ts, ∀ v ∈ [t], u.position.Before v.position := by
      intro u hu v hv
      rw [List.mem_singleton.1 hv]
      exact hcovers.before u hu
    exact List.pairwise_append.2 ⟨ih hcovers, List.pairwise_singleton _ t, hlast⟩

theorem Ends.heads (h : Ends rest stop last) : last.Heads rest ∧ last.position = stop := by
  cases h with
  | whole => exact ⟨.stop, rfl⟩
  | stuck hno h => exact ⟨.character, rfl⟩

/-- In front of an item of a stream stand the tokens in front of it and gaps, and nothing else. -/
theorem tokenize_split (h : tokenize text = front ++ item :: back) :
    ∃ ts behind, front = ts.map .ok ∧ Covers behind item.position .start ts text.toList ∧
      item.Heads behind := by
  obtain ⟨us, last, rest, stop, hitems, hcovers, hends⟩ := reads_itemsFrom 0 .start text.toList
  have hsplit : front ++ item :: back = us.map .ok ++ [last] := h.symm.trans hitems
  obtain ⟨hheads, hposition⟩ := hends.heads
  rcases List.eq_nil_or_concat back with rfl | ⟨inner, final, rfl⟩
  · obtain ⟨rfl, hitem⟩ := List.append_inj' hsplit rfl
    obtain rfl := List.singleton_inj.1 hitem
    rw [← hposition] at hcovers
    exact ⟨us, rest, rfl, hcovers, hheads⟩
  · rw [List.concat_eq_append, ← List.cons_append, ← List.append_assoc] at hsplit
    obtain ⟨hinner, -⟩ := List.append_inj' hsplit rfl
    obtain ⟨ts, later, rfl, rfl, hlater⟩ := List.map_eq_append_iff.1 hinner.symm
    obtain ⟨t, vs, rfl, rfl, -⟩ := List.map_eq_cons_iff.1 hlater
    obtain ⟨after, hsplit, hlexeme⟩ := hcovers.split
    exact ⟨ts, _, rfl, hsplit, .token hlexeme.ne_endOfInput hlexeme.ne_nil⟩

theorem Covers.position_eq (h : Covers behind pos .start ts text) :
    ∃ before, text = before ++ behind ∧ pos = .behind before := by
  obtain ⟨before, htext, hpos⟩ := h.stop_eq
  rw [Position.start_afterAll] at hpos
  exact ⟨before, htext, hpos⟩

theorem tokenize_increasing (text : String) :
    (tokenize text).Pairwise fun a b => a.position.Before b.position := by
  obtain ⟨ts, last, rest, stop, hitems, hcovers, hends⟩ := reads_itemsFrom 0 .start text.toList
  obtain ⟨-, hposition⟩ := hends.heads
  have htokens : (ts.map Except.ok : List Item).Pairwise fun a b => a.position.Before b.position :=
    List.pairwise_map.2 hcovers.increasing
  have hlast : ∀ a ∈ (ts.map Except.ok : List Item), ∀ b ∈ [last],
      a.position.Before b.position := by
    intro a ha b hb
    obtain ⟨t, ht, rfl⟩ := List.mem_map.1 ha
    rw [List.mem_singleton.1 hb, hposition]
    exact hcovers.before t ht
  rw [tokenize, hitems]
  exact List.pairwise_append.2 ⟨htokens, List.pairwise_singleton _ last, hlast⟩

/-- Each token, the end token and the error included, names the place where its lexeme or its
character starts: behind the tokens in front of it and the gaps, by the line feeds up to there and
the characters since the last of them. From item to item the places go on. -/
theorem tokenize_positions_exact (text : String) :
    (∀ front item back, tokenize text = front ++ item :: back →
      ∃ ts before behind, front = ts.map .ok ∧ text.toList = before ++ behind ∧
        Covers behind item.position .start ts text.toList ∧ item.Heads behind ∧
        item.position = .behind before) ∧
      (tokenize text).Pairwise fun a b => a.position.Before b.position := by
  refine ⟨?_, tokenize_increasing text⟩
  intro front item back h
  obtain ⟨ts, behind, hfront, hcovers, hheads⟩ := tokenize_split h
  obtain ⟨before, htext, hposition⟩ := hcovers.position_eq
  exact ⟨ts, before, behind, hfront, htext, hcovers, hheads, hposition⟩

def multilineString : String :=
  "# é\r\n\t\"a\nü\" x"

theorem tokenize_positions_exact_multilineString :
    ∃ ts before behind, ([.ok ⟨.string, "\"a\nü\"", ⟨2, 2⟩⟩] : List Item) = ts.map .ok ∧
      multilineString.toList = before ++ behind ∧
      Covers behind ⟨3, 4⟩ .start ts multilineString.toList ∧
      Item.Heads (.ok ⟨.identifier, "x", ⟨3, 4⟩⟩) behind ∧ ⟨3, 4⟩ = Position.behind before := by
  have hitems : tokenize multilineString = [.ok ⟨.string, "\"a\nü\"", ⟨2, 2⟩⟩] ++
      .ok ⟨.identifier, "x", ⟨3, 4⟩⟩ :: [.ok ⟨.endOfInput, "", ⟨3, 5⟩⟩] := by cbv
  exact (tokenize_positions_exact multilineString).1 _ _ _ hitems

end Scriptlet
