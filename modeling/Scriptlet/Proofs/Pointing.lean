import Mathlib
import Scriptlet.Proofs.Lexeme.Positions
import Scriptlet.Proofs.Reading
import Scriptlet.Proofs.Staging

namespace Scriptlet
set_option autoImplicit true

/-- The token is one of the text, and the text from its place on is `behind`. -/
structure Token.Within (text : String) (behind : List Char) (t : Token) : Prop where
  mem : .ok t ∈ tokenize text
  heads : Item.Heads (.ok t) behind

/-- What the text from the place of an error on has to do with the error: it starts with the bad
character, with the token that the error shows, with the word of the construct that lacks its end,
or with whatever token was one level too deep. -/
inductive ParseError.PointsAt (text : String) (behind : List Char) : ParseError → Prop
  | character (h : behind.head? = some c) :
      PointsAt text behind (.lexical (.unexpectedCharacter c pos))
  | unexpectedToken (h : t.Within text behind) :
      PointsAt text behind (.structural (.unexpectedToken expected t))
  | invalidStatement (h : t.Within text behind) :
      PointsAt text behind (.structural (.invalidStatement t))
  | numberOutOfRange (h : t.Within text behind) :
      PointsAt text behind (.structural (.numberOutOfRange t))
  | missingEnd {t : Token} {construct : Construct} (h : t.Within text behind)
      (hw : t.isKeyword construct.keyword.word) :
      PointsAt text behind (.structural (.missingEnd construct t.position))
  | missingFunctionEnd {t : Token} (h : t.Within text behind)
      (hw : t.isKeyword Keyword.function.word) :
      PointsAt text behind (.structural (.missingFunctionEnd name t.position))
  | nestingTooDeep {t : Token} (h : t.Within text behind) :
      PointsAt text behind (.structural (.nestingTooDeep limit t.position))

theorem Draft.Recalls.read_stopped {d : Draft} (h : d.Recalls P) (limit : Option Nat) {stop : Token}
    (hp : P stop) (hstop : stop.kind = .endOfInput) {ts : List Token}
    (hts : ∀ t ∈ ts, P t ∧ t.kind ≠ .endOfInput)
    (he : (d.read limit (ts.map .ok ++ [.ok stop])).result = .error e) :
    ∃ s, e = .structural s ∧ s.Refers P := by
  rcases h.read_on limit hts [.ok stop] with ⟨d', hd', hread⟩ | ⟨s, hs, hrefers⟩
  · have hstep := hd'.step hp limit
    rw [hread, read] at he
    rcases d'.step_stops limit with ⟨p, hfinished⟩ | herror
    · rw [hfinished stop hstop] at he
      cases he
    · obtain ⟨s, hs⟩ := herror stop hstop
      rw [hs] at he hstep
      exact ⟨s, (Except.error.inj he).symm, hstep⟩
  · exact ⟨s, Except.error.inj (he.symm.trans hs), hrefers⟩

/-- A text that is no program is stopped at what no token starts with, or at an error that tells of
its tokens. -/
theorem parseText_error (h : parseText text = .error e) :
    (∃ front e', tokenize text = front ++ [.error e'] ∧ e = .lexical e') ∨
      ∃ s, e = .structural s ∧ s.Refers fun t => .ok t ∈ tokenize text := by
  obtain ⟨ts, last, rest, stop, hitems, hcovers, hends⟩ := reads_itemsFrom 0 .start text.toList
  have htokens : tokenize text = ts.map .ok ++ [last] := hitems
  have hrecalls : Draft.empty.Recalls fun t => .ok t ∈ tokenize text := Draft.recalls_empty _
  have hmem : ∀ t ∈ ts, .ok t ∈ tokenize text ∧ t.kind ≠ .endOfInput := by
    intro t ht
    rw [htokens]
    exact ⟨List.mem_append_left _ (List.mem_map_of_mem ht), hcovers.kind t ht⟩
  unfold parseText parse readProgram at h
  cases hends with
  | whole =>
    have hlast : .ok ⟨.endOfInput, "", stop⟩ ∈ tokenize text := by
      rw [htokens]
      exact List.mem_append_right _ (List.mem_singleton_self _)
    rw [htokens] at h
    exact .inr (hrecalls.read_stopped (some maxNestingDepth) hlast rfl hmem h)
  | @stuck c rest stop hno hc =>
    let e' : LexError := .unexpectedCharacter c stop
    have hread := hrecalls.read_stuck (some maxNestingDepth) e' hmem
    rw [← htokens, h] at hread
    rcases hread with he | ⟨s, he, hrefers⟩
    · exact .inl ⟨ts.map .ok, e', htokens, Except.error.inj he⟩
    · exact .inr ⟨s, Except.error.inj he, hrefers⟩

theorem Token.within_of_mem {text : String} {t : Token} (h : .ok t ∈ tokenize text) :
    ∃ before behind, text.toList = before ++ behind ∧ t.position = .behind before ∧
      t.Within text behind := by
  obtain ⟨front, back, hsplit⟩ := List.append_of_mem h
  obtain ⟨ts, behind, -, hcovers, hheads⟩ := tokenize_split hsplit
  obtain ⟨before, htext, hposition⟩ := hcovers.position_eq
  exact ⟨before, behind, htext, hposition, h, hheads⟩

theorem SyntaxError.Refers.points {e : SyntaxError} (h : e.Refers fun t => .ok t ∈ tokenize text) :
    ∃ before behind, text.toList = before ++ behind ∧ e.position = .behind before ∧
      (ParseError.structural e).PointsAt text behind := by
  have hpoints {t : Token} (ht : .ok t ∈ tokenize text) (hposition : t.position = e.position)
      (hat : ∀ behind, t.Within text behind → (ParseError.structural e).PointsAt text behind) :
      ∃ before behind, text.toList = before ++ behind ∧ e.position = .behind before ∧
        (ParseError.structural e).PointsAt text behind := by
    obtain ⟨before, behind, htext, hbehind, hwithin⟩ := Token.within_of_mem ht
    exact ⟨before, behind, htext, hposition.symm.trans hbehind, hat behind hwithin⟩
  cases h with
  | unexpectedToken ht => exact hpoints ht rfl fun _ => .unexpectedToken
  | invalidStatement ht => exact hpoints ht rfl fun _ => .invalidStatement
  | numberOutOfRange ht => exact hpoints ht rfl fun _ => .numberOutOfRange
  | nestingTooDeep ht => exact hpoints ht rfl fun _ => .nestingTooDeep
  | missingEnd h =>
    obtain ⟨t, ht, hword, rfl⟩ := h
    exact hpoints ht rfl fun _ hwithin => .missingEnd hwithin hword
  | missingFunctionEnd h =>
    obtain ⟨t, ht, hword, rfl⟩ := h
    exact hpoints ht rfl fun _ hwithin => .missingFunctionEnd hwithin hword

/-- The place that an error names is one of the text, counted from one, and what the error tells of
stands there. -/
theorem parseText_error_points (text : String) (e : ParseError) (h : parseText text = .error e) :
    ∃ before behind, text.toList = before ++ behind ∧ e.position = .behind before ∧
      1 ≤ e.position.line ∧ 1 ≤ e.position.column ∧ e.position ≠ ⟨0, 0⟩ ∧
      e.PointsAt text behind := by
  have hpoints : ∃ before behind, text.toList = before ++ behind ∧ e.position = .behind before ∧
      e.PointsAt text behind := by
    rcases parseText_error h with ⟨front, e', hitems, rfl⟩ | ⟨s, rfl, hrefers⟩
    · obtain ⟨ts, behind, -, hcovers, hheads⟩ := tokenize_split hitems
      obtain ⟨before, htext, hposition⟩ := hcovers.position_eq
      cases hheads with
      | character => exact ⟨before, _, htext, hposition, .character rfl⟩
    · exact hrefers.points
  obtain ⟨before, behind, htext, hposition, hpointsAt⟩ := hpoints
  refine ⟨before, behind, htext, hposition, ?_, ?_, ?_, hpointsAt⟩
  · rw [hposition]
    exact Nat.le_add_right 1 _
  · rw [hposition]
    exact Nat.le_add_right 1 _
  · rw [hposition]
    intro hzero
    have hline := congrArg Position.line hzero
    exact absurd hline (Nat.ne_of_gt (Nat.add_pos_left Nat.one_pos _))

/-- A loop without an end, behind a string over two lines. -/
theorem parseText_error_points_openLoop :
    ∃ before behind, "print \"a\nb\" While 1 log 2".toList = before ++ behind ∧
      (⟨2, 4⟩ : Position) = .behind before ∧
      ParseError.PointsAt "print \"a\nb\" While 1 log 2" behind
        (.structural (.missingEnd .loop ⟨2, 4⟩)) := by
  have herror : parseText "print \"a\nb\" While 1 log 2" =
      .error (.structural (.missingEnd .loop ⟨2, 4⟩)) := by cbv
  obtain ⟨before, behind, htext, hposition, -, -, -, hpoints⟩ := parseText_error_points _ _ herror
  exact ⟨before, behind, htext, hposition, hpoints⟩

end Scriptlet
