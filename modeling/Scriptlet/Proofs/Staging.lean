import Mathlib
import Scriptlet.Proofs.Recall
import Scriptlet.Proofs.Lexeme.Cover

namespace Scriptlet
set_option autoImplicit true

/-- How often a reading asks its stream for the next item, the time included when it learns that
there is none. -/
def Draft.asks (limit : Option Nat) (d : Draft) : List Item → Nat
  | [] | .error _ :: _ => 1
  | .ok t :: rest =>
    match d.step limit t with
    | .ok (.more d) => d.asks limit rest + 1
    | _ => 1

namespace Draft

theorem read_tokens (limit : Option Nat) (d : Draft) (ts : List Token) (e : LexError) :
    (d.read limit (ts.map .ok)).result ≠ .error (.lexical e) := by
  induction ts generalizing d with
  | nil =>
    rw [List.map_nil, read]
    cases d.step limit .missingEnd <;> simp [Except.map, Except.mapError]
  | cons t ts ih =>
    rw [List.map_cons, read]
    cases hs : d.step limit t with
    | error s => simp
    | ok q =>
      cases q with
      | more d' => exact ih d'
      | finished p => simp

theorem Recalls.read_on {d : Draft} (h : d.Recalls P) (limit : Option Nat) {ts : List Token}
    (hts : ∀ t ∈ ts, P t ∧ t.kind ≠ .endOfInput) (items : List Item) :
    (∃ d' : Draft, d'.Recalls P ∧ d.read limit (ts.map .ok ++ items) = d'.read limit items) ∨
      ∃ s, (d.read limit (ts.map .ok ++ items)).result = .error (.structural s) ∧ s.Refers P := by
  induction ts generalizing d with
  | nil => exact .inl ⟨d, h, rfl⟩
  | cons t ts ih =>
    obtain ⟨⟨ht, hk⟩, hts⟩ := List.forall_mem_cons.1 hts
    have hstep := h.step ht limit
    rw [List.map_cons, List.cons_append, read]
    cases hs : d.step limit t with
    | error s =>
      rw [hs] at hstep
      exact .inr ⟨s, rfl, hstep⟩
    | ok q =>
      rw [hs] at hstep
      cases q with
      | more d' => exact ih hstep hts
      -- Only an end token finishes a program.
      | finished p => exact absurd hstep hk

theorem Recalls.read_stuck {d : Draft} (h : d.Recalls P) (limit : Option Nat) (e : LexError)
    {ts : List Token} (hts : ∀ t ∈ ts, P t ∧ t.kind ≠ .endOfInput) :
    (d.read limit (ts.map .ok ++ [.error e])).result = .error (.lexical e) ∨
      ∃ s, (d.read limit (ts.map .ok ++ [.error e])).result = .error (.structural s) ∧
        s.Refers P := by
  refine (h.read_on limit hts [.error e]).imp_left ?_
  rintro ⟨d', -, hread⟩
  exact congrArg Reading.result hread

theorem read_unread (limit : Option Nat) (d : Draft) (items : List Item) :
    (d.read limit items).unread = items.drop (d.asks limit items) := by
  induction items generalizing d with
  | nil => rfl
  | cons item rest ih =>
    cases item with
    | error e => rfl
    | ok t =>
      rw [read, asks]
      cases hs : d.step limit t with
      | error s => rfl
      | ok q =>
        cases q with
        | more d' => exact ih d'
        | finished p => rfl

/-- A reading is decided by the answers to what it asks. -/
theorem read_congr {limit : Option Nat} {d : Draft} {items items' : List Item}
    (h : ∀ k < d.asks limit items, items'[k]? = items[k]?) :
    (d.read limit items').result = (d.read limit items).result ∧
      d.asks limit items' = d.asks limit items := by
  induction items generalizing d items' with
  | nil =>
    have hnone : items'[0]? = none := h 0 Nat.one_pos
    obtain rfl : items' = [] := List.length_eq_zero_iff.1 (by simpa using hnone)
    exact ⟨rfl, rfl⟩
  | cons item rest ih =>
    have hpos : 0 < d.asks limit (item :: rest) := by
      unfold asks
      split
      · exact Nat.one_pos
      · exact Nat.one_pos
      · split
        · exact Nat.succ_pos _
        · exact Nat.one_pos
    -- At least the head is asked for, so it is the same in both streams.
    obtain ⟨rest', rfl⟩ : ∃ rest', items' = item :: rest' := by
      have hhead := h 0 hpos
      cases items' with
      | nil => cases hhead
      | cons item' rest' => exact ⟨rest', by cases hhead; rfl⟩
    cases item with
    | error e => exact ⟨rfl, rfl⟩
    | ok t =>
      rw [read, read, asks, asks]
      rw [asks] at h
      cases hs : d.step limit t with
      | error s => exact ⟨rfl, rfl⟩
      | ok q =>
        cases q with
        | more d' =>
          rw [hs] at h
          have hrest := ih (d := d') fun k hk => h (k + 1) (Nat.succ_lt_succ hk)
          exact ⟨hrest.1, congrArg (· + 1) hrest.2⟩
        | finished p => exact ⟨rfl, rfl⟩

theorem recalls_empty (P : Token → Prop) : empty.Recalls P :=
  ⟨fun _ hb => absurd hb List.not_mem_nil, trivial⟩

end Draft

/-- A text is read to its end before anything is wrong with its tokens, or is wrong in its tokens
first; a lexical error is never passed over. -/
theorem tokenizeAll_or_staged (text : String) :
    (∃ ts, tokenizeAll text = .ok ts ∧ ∀ e, parseText text ≠ .error (.lexical e)) ∨
      ∃ e, tokenizeAll text = .error e ∧ (parseText text = .error (.lexical e) ∨
        ∃ s, parseText text = .error (.structural s) ∧ s.position.Before e.position) := by
  obtain ⟨ts, last, rest, stop, hitems, hcovers, hends⟩ := reads_itemsFrom 0 .start text.toList
  have htokens : tokenize text = ts.map .ok ++ [last] := hitems
  unfold tokenizeAll parseText parse readProgram
  rw [htokens]
  cases hends with
  | whole =>
    refine .inl ⟨ts ++ [⟨.endOfInput, "", stop⟩], ?_, fun e => ?_⟩
    · exact (congrArg allTokens (by simp)).trans (allTokens_map _)
    · have h := Draft.empty.read_tokens (some maxNestingDepth) (ts ++ [⟨.endOfInput, "", stop⟩]) e
      rwa [List.map_append] at h
  | @stuck c rest stop hno h =>
    let e : LexError := .unexpectedCharacter c stop
    refine .inr ⟨e, allTokens_stuck ts e, ?_⟩
    have hread := (Draft.recalls_empty (· ∈ ts)).read_stuck (some maxNestingDepth) e
      fun t ht => ⟨ht, hcovers.kind t ht⟩
    refine hread.imp_right ?_
    rintro ⟨s, hs, hrefers⟩
    obtain ⟨t, ht, hp⟩ := hrefers.position
    exact ⟨s, hs, hp ▸ hcovers.before t ht⟩

/-- Errors are staged although the text is split on demand, and a reading that fails depends on
nothing that it did not ask its stream for. -/
theorem parseText_staged (text : String) (items items' : List Item) :
    (∀ p, parseText text = .ok p → ∃ ts, tokenizeAll text = .ok ts) ∧
      (∀ e, parseText text = .error (.lexical e) → tokenizeAll text = .error e) ∧
      (∀ e, tokenizeAll text = .error e → parseText text = .error (.lexical e) ∨
        ∃ s, parseText text = .error (.structural s) ∧ s.position.Before e.position) ∧
      (readProgram items).unread = items.drop (Draft.empty.asks (some maxNestingDepth) items) ∧
      ∀ e, (readProgram items).result = .error e →
        (∀ k < Draft.empty.asks (some maxNestingDepth) items, items'[k]? = items[k]?) →
        readProgram items' =
            ⟨.error e, items'.drop (Draft.empty.asks (some maxNestingDepth) items)⟩ ∧
          Draft.empty.asks (some maxNestingDepth) items' =
            Draft.empty.asks (some maxNestingDepth) items := by
  have hstaged := tokenizeAll_or_staged text
  refine ⟨fun p hp => ?_, fun e he => ?_, fun e he => ?_, Draft.read_unread _ _ _,
    fun e he h => ?_⟩
  · rcases hstaged with ⟨ts, hts, -⟩ | ⟨e, -, he | ⟨s, hs, -⟩⟩
    · exact ⟨ts, hts⟩
    · rw [hp] at he
      cases he
    · rw [hp] at hs
      cases hs
  · rcases hstaged with ⟨ts, -, hne⟩ | ⟨e', he', h | ⟨s, hs, -⟩⟩
    · exact absurd he (hne e)
    · rw [he] at h
      cases h
      exact he'
    · rw [he] at hs
      cases hs
  · rcases hstaged with ⟨ts, hts, -⟩ | ⟨e', he', h⟩
    · rw [he] at hts
      cases hts
    · rw [he] at he'
      cases he'
      exact h
  · obtain ⟨hresult, hasks⟩ := Draft.read_congr h
    have herror : (readProgram items').result = .error e := hresult.trans he
    have hunread := Draft.read_unread (some maxNestingDepth) .empty items'
    rw [hasks] at hunread
    exact ⟨by rw [← herror, ← hunread]; rfl, hasks⟩

def misplaced : Token := ⟨.rightParen, ")", ⟨1, 7⟩⟩

/-- A numeral out of range is passed over for the character behind it, a misplaced parenthesis is
not, and whatever stands behind that one is left in the stream. -/
theorem parseText_staged_misplaced :
    (∃ ts, tokenizeAll "print 1" = .ok ts) ∧
      tokenizeAll "print 9223372036854775808 @" = .error (.unexpectedCharacter '@' ⟨1, 27⟩) ∧
      (∃ s, parseText "print ) @" = .error (.structural s) ∧ s.position.Before ⟨1, 9⟩) ∧
      readProgram [.ok ⟨.identifier, "print", ⟨1, 1⟩⟩, .ok misplaced, .error (.scanner "" ⟨1, 9⟩)] =
        ⟨.error (.structural (.unexpectedToken "an expression" misplaced)),
          [.error (.scanner "" ⟨1, 9⟩)]⟩ := by
  have hok : parseText "print 1" = .ok [.print ⟨1, 1⟩ (.number 1)] := by cbv
  have hlate : parseText "print 9223372036854775808 @" =
      .error (.lexical (.unexpectedCharacter '@' ⟨1, 27⟩)) := by cbv
  have hall : tokenizeAll "print ) @" = .error (.unexpectedCharacter '@' ⟨1, 9⟩) := by cbv
  have hearly : parseText "print ) @" =
      .error (.structural (.unexpectedToken "an expression" misplaced)) := by cbv
  let items : List Item := [.ok ⟨.identifier, "print", ⟨1, 1⟩⟩, .ok misplaced]
  let stuck : Item := .error (.scanner "" ⟨1, 9⟩)
  have hread : (readProgram items).result =
      .error (.structural (.unexpectedToken "an expression" misplaced)) := by cbv
  have hasks : Draft.empty.asks (some maxNestingDepth) items = 2 := by cbv
  refine ⟨(parseText_staged "print 1" [] []).1 _ hok,
    (parseText_staged "print 9223372036854775808 @" [] []).2.1 _ hlate, ?_, ?_⟩
  · rcases (parseText_staged "print ) @" [] []).2.2.1 _ hall with h | h
    · rw [hearly] at h
      cases h
    · exact h
  · have hsame : ∀ k < Draft.empty.asks (some maxNestingDepth) items,
        (items ++ [stuck])[k]? = items[k]? := by
      rw [hasks]
      exact fun k hk => List.getElem?_append_left hk
    have hfails := ((parseText_staged "" items (items ++ [stuck])).2.2.2.2 _ hread hsame).1
    rw [hasks] at hfails
    exact hfails

/-- Where a stream runs dry, the items that were pulled from it do not decide. -/
theorem dry_stream_undecided : ¬ ∀ (pulled rest : List Item) (e : ParseError),
    readProgram (pulled ++ rest) = ⟨.error e, rest⟩ →
      ∀ rest', readProgram (pulled ++ rest') = ⟨.error e, rest'⟩ := by
  intro h
  let word : Item := .ok ⟨.identifier, "print", ⟨1, 1⟩⟩
  have hdry : readProgram [word] =
      ⟨.error (.structural (.unexpectedToken "an expression" .missingEnd)), []⟩ := by cbv
  let rest' : List Item := [.ok ⟨.number, "1", ⟨1, 7⟩⟩, .ok ⟨.endOfInput, "", ⟨1, 8⟩⟩]
  have hmore : (readProgram (word :: rest')).result = .ok [.print ⟨1, 1⟩ (.number 1)] := by cbv
  have hfails := congrArg Reading.result (h [word] [] _ hdry rest')
  cases hmore.symm.trans hfails

end Scriptlet
