import Mathlib
import Scriptlet.Proofs.Completion.Earliest
import Scriptlet.Proofs.Descent.Statements
import Scriptlet.Proofs.Descent.Taking

namespace Scriptlet
set_option autoImplicit true

namespace Draft

section
variable {limit : Option Nat} {d d' : Draft} {ts : List Item} {t e : Token}

theorem step_past_end (ht : t.kind = .endOfInput) : d.step limit t ≠ .ok (.more d') := by
  intro h
  exact (Leads.step h .refl).kind t List.mem_cons_self ht

theorem step_finished (h : d.step limit t = .ok (.finished p)) : t.kind = .endOfInput := by
  have hsteps := d.steps_step limit t
  generalize d.step limit t = r at h hsteps
  induction hsteps with
  | takes htakes =>
    cases htakes with
    | finish ht hblocks => exact ht
    | _ => cases h
  | passes hpasses hsteps ih => exact ih h

theorem unread_end (he : e.kind = .endOfInput) (limit : Option Nat) (d : Draft)
    (rest : List Item) : (d.read limit (.ok e :: rest)).unread = rest := by
  rw [read]
  cases hs : d.step limit e with
  | error s => rfl
  | ok q =>
    cases q with
    | more d' => exact absurd hs (step_past_end he)
    | finished p => rfl

theorem asks_end_le (he : e.kind = .endOfInput) (limit : Option Nat) (d : Draft)
    (ts rest : List Item) : d.asks limit (ts ++ .ok e :: rest) ≤ ts.length + 1 := by
  induction ts generalizing d with
  | nil =>
    rw [List.nil_append, asks]
    split
    · exact absurd ‹_› (step_past_end he)
    · exact Nat.le_refl 1
  | cons item ts ih =>
    cases item with
    | error stuck => exact Nat.le_add_left 1 _
    | ok t =>
      rw [List.cons_append, asks]
      split
      · exact Nat.succ_le_succ (ih _)
      · exact Nat.le_add_left 1 _

/-- What stands behind the first end token is left in the stream and decides nothing. -/
theorem read_end (he : e.kind = .endOfInput) (limit : Option Nat) (d : Draft)
    (ts rest : List Item) :
    d.read limit (ts ++ .ok e :: rest) =
        ⟨(d.read limit (ts ++ [.ok e])).result, (d.read limit (ts ++ [.ok e])).unread ++ rest⟩ ∧
      d.asks limit (ts ++ .ok e :: rest) = d.asks limit (ts ++ [.ok e]) := by
  have hsplit : ts ++ .ok e :: rest = (ts ++ [.ok e]) ++ rest := by simp
  have hle : d.asks limit (ts ++ [.ok e]) ≤ (ts ++ [(.ok e : Item)]).length := by
    rw [List.length_append]
    exact asks_end_le he limit d ts []
  have hasked : ∀ k < d.asks limit (ts ++ [.ok e]),
      (ts ++ .ok e :: rest)[k]? = (ts ++ [.ok e])[k]? := by
    intro k hk
    rw [hsplit, List.getElem?_append_left (Nat.lt_of_lt_of_le hk hle)]
  obtain ⟨hresult, hasks⟩ := read_congr hasked
  have hunread := d.read_unread limit (ts ++ .ok e :: rest)
  rw [hasks, hsplit, List.drop_append_of_le_length hle, ← hsplit, ← read_unread] at hunread
  exact ⟨by rw [← hresult, ← hunread], hasks⟩

/-- A stream that runs dry is read as if the missing end stood there. -/
theorem read_missingEnd (limit : Option Nat) (d : Draft) (ts : List Item) :
    (d.read limit (ts ++ [.ok .missingEnd])).result = (d.read limit ts).result := by
  induction ts generalizing d with
  | nil =>
    rw [List.nil_append, read, read]
    cases hs : d.step limit .missingEnd with
    | error s => rfl
    | ok q =>
      cases q with
      | more d' => exact absurd hs (step_past_end rfl)
      | finished p => rfl
  | cons item ts ih =>
    cases item with
    | error stuck => rfl
    | ok t =>
      rw [List.cons_append, read, read]
      cases hs : d.step limit t with
      | error s => rfl
      | ok q =>
        cases q with
        | more d' => exact ih d'
        | finished p => rfl

/-- Where a stream cannot be read on: at its end, at an error in it, or at a token that is refused
or finishes a program. -/
def StuckAt (limit : Option Nat) (d : Draft) (items : List Item) : Prop :=
  ∀ t, items.head? = some (.ok t) → ∀ d', d.step limit t ≠ .ok (.more d')

/-- The tokens of a stream are read one after the other, up to where it cannot be read on. -/
theorem leads_stuckAt (limit : Option Nat) (d : Draft) (items : List Item) :
    ∃ taken d' left, items = taken.map .ok ++ left ∧ d.Leads limit taken d' ∧
      d'.StuckAt limit left := by
  induction items generalizing d with
  | nil => exact ⟨[], d, [], rfl, .refl, nofun⟩
  | cons item rest ih =>
    cases item with
    | error stuck => exact ⟨[], d, .error stuck :: rest, rfl, .refl, nofun⟩
    | ok t =>
      by_cases hs : ∃ d', d.step limit t = .ok (.more d')
      · obtain ⟨d₁, hs⟩ := hs
        obtain ⟨taken, d₂, left, hsplit, hleads, hstuck⟩ := ih d₁
        exact ⟨t :: taken, d₂, left, congrArg (.ok t :: ·) hsplit, .step hs hleads, hstuck⟩
      · refine ⟨[], d, .ok t :: rest, rfl, .refl, ?_⟩
        rintro u hu d' hs'
        cases hu
        exact hs ⟨d', hs'⟩

theorem StuckAt.read_ok {left rest : List Item} (h : d.StuckAt limit left)
    (hleft : ∀ t, .ok t ∈ left → t.kind ≠ .endOfInput)
    (hok : (d.read limit (left ++ rest)).result = .ok p) : left = [] := by
  cases left with
  | nil => rfl
  | cons item left =>
    cases item with
    | error stuck => cases hok
    | ok t =>
      rw [List.cons_append, read] at hok
      cases hs : d.step limit t with
      | error s =>
        rw [hs] at hok
        cases hok
      | ok q =>
        cases q with
        | more d' => exact absurd hs (h t rfl d')
        | finished p => exact absurd (step_finished hs) (hleft t List.mem_cons_self)

end

end Draft

/-- What stands behind the first end token of a stream decides nothing about the program. -/
theorem parse_end {e : Token} (he : e.kind = .endOfInput) (ts rest : List Item) :
    parse (ts ++ .ok e :: rest) = parse (ts ++ [.ok e]) := by
  unfold parse readProgram
  rw [(Draft.read_end he _ .empty ts rest).1]

theorem Draft.Leads.parse_ok {d : Draft} {taken : List Token} {left rest : List Item} {e : Token}
    (h : Draft.empty.Leads (some maxNestingDepth) taken d)
    (hstuck : d.StuckAt (some maxNestingDepth) left)
    (hleft : ∀ t, .ok t ∈ left → t.kind ≠ .endOfInput) (he : e.kind = .endOfInput)
    (hp : parse (taken.map .ok ++ left ++ .ok e :: rest) = .ok p) :
    left = [] ∧ Program.SpelledBy maxNestingDepth p taken ∧
      (readProgram (taken.map .ok ++ left ++ .ok e :: rest)).unread = rest := by
  have hread := h.read (left ++ .ok e :: rest)
  rw [← List.append_assoc] at hread
  have hok : (d.read (some maxNestingDepth) (left ++ .ok e :: rest)).result = .ok p := hread ▸ hp
  obtain rfl : left = [] := hstuck.read_ok hleft hok
  refine ⟨rfl, ?_, ?_⟩
  · have hend : ∀ t ∈ [e].head?, t.kind = .endOfInput := by simpa using he
    have hmap : taken.map .ok ++ [] ++ [.ok e] = (taken ++ [e]).map (.ok : Token → Item) := by simp
    rw [← beforeEnd_front h.kind hend]
    exact (Program.SpelledBy.parse_iff _ p).1 (hmap ▸ (parse_end he _ rest).symm.trans hp)
  · rw [readProgram, hread]
    exact Draft.unread_end he _ d rest

/-- The first end token of a stream is final, and one that is missing is made up: what stands behind
it is neither read nor pulled, by the descent as little as by the drafts. The tokens in front of it
are taken one after the other up to where the reading stops; of a program they are taken all. -/
theorem parse_end_final {ts : List Item} {e : Token}
    (hts : ∀ t, .ok t ∈ ts → t.kind ≠ .endOfInput) (he : e.kind = .endOfInput)
    (rest : List Item) :
    parse (ts ++ .ok e :: rest) = parse (ts ++ [.ok e]) ∧
      (readProgram (ts ++ .ok e :: rest)).unread =
        (readProgram (ts ++ [.ok e])).unread ++ rest ∧
      Draft.empty.asks (some maxNestingDepth) (ts ++ .ok e :: rest) =
        Draft.empty.asks (some maxNestingDepth) (ts ++ [.ok e]) ∧
      Draft.empty.asks (some maxNestingDepth) (ts ++ .ok e :: rest) ≤ ts.length + 1 ∧
      (Descent.whole maxNestingDepth (ts ++ .ok e :: rest)).1 = parse (ts ++ [.ok e]) ∧
      (Descent.whole maxNestingDepth (ts ++ .ok e :: rest)).2.unread =
        (readProgram (ts ++ [.ok e])).unread ++ rest ∧
      (∃ taken left, ts = taken.map .ok ++ left ∧
        Descent.Took maxNestingDepth (ts ++ .ok e :: rest) taken ∧
        ∀ p, parse (ts ++ .ok e :: rest) = .ok p → left = []) ∧
      parse ts = parse (ts ++ [.ok .missingEnd]) ∧
      ∃ taken d left, ts = taken.map .ok ++ left ∧
        Draft.empty.Leads (some maxNestingDepth) taken d ∧
        d.StuckAt (some maxNestingDepth) left ∧
        ∀ p, parse (ts ++ .ok e :: rest) = .ok p →
          left = [] ∧ Program.SpelledBy maxNestingDepth p taken ∧
          (readProgram (ts ++ .ok e :: rest)).unread = rest := by
  obtain ⟨hread, hasks⟩ := Draft.read_end he (some maxNestingDepth) .empty ts rest
  have hresult := parse_end he ts rest
  have hunread : (readProgram (ts ++ .ok e :: rest)).unread =
      (readProgram (ts ++ [.ok e])).unread ++ rest := by
    unfold readProgram
    rw [hread]
  have hwhole := (Prod.mk.inj (Descent.whole_reads maxNestingDepth (ts ++ .ok e :: rest))).1
  have hwholeResult : (Descent.whole maxNestingDepth (ts ++ .ok e :: rest)).1 =
      parse (ts ++ .ok e :: rest) := congrArg Reading.result hwhole
  have hwholeUnread : (Descent.whole maxNestingDepth (ts ++ .ok e :: rest)).2.unread =
      (readProgram (ts ++ .ok e :: rest)).unread := congrArg Reading.unread hwhole
  obtain ⟨taken, d, left, hsplit, hleads, hstuck⟩ :=
    Draft.leads_stuckAt (some maxNestingDepth) .empty ts
  have hleft : ∀ t, .ok t ∈ left → t.kind ≠ .endOfInput :=
    fun t ht => hts t (hsplit ▸ List.mem_append_right _ ht)
  have hprogram (p : Program) (hp : parse (ts ++ .ok e :: rest) = .ok p) :
      left = [] ∧ Program.SpelledBy maxNestingDepth p taken ∧
        (readProgram (ts ++ .ok e :: rest)).unread = rest := by
    rw [hsplit] at hp ⊢
    exact hleads.parse_ok hstuck hleft he hp
  refine ⟨hresult, hunread, hasks, Draft.asks_end_le he _ .empty ts rest,
    hwholeResult.trans hresult, hwholeUnread.trans hunread, ?_,
    (Draft.read_missingEnd _ .empty ts).symm, taken, d, left, hsplit, hleads, hstuck, hprogram⟩
  obtain ⟨taken', left', hsplit', htook, hall⟩ := Descent.exists_took maxNestingDepth he ts rest
  refine ⟨taken', left', hsplit', htook, fun p hp => ?_⟩
  exact hall p (hwholeResult.trans hp) (hwholeUnread.trans (hprogram p hp).2.2)

def pastEnd : List Item :=
  [.ok ⟨.identifier, "print", ⟨1, 1⟩⟩, .ok ⟨.number, "1", ⟨1, 7⟩⟩, .ok ⟨.endOfInput, "", ⟨1, 8⟩⟩,
    .error (.unexpectedCharacter '@' ⟨1, 9⟩), .ok ⟨.rightParen, ")", ⟨2, 1⟩⟩]

/-- The program is read as if nothing stood behind its end, and without the end as well. -/
theorem parse_end_final_pastEnd :
    parse pastEnd = .ok [.print ⟨1, 1⟩ (.number 1)] ∧
      (readProgram pastEnd).unread = pastEnd.drop 3 ∧
      parse (pastEnd.take 2) = .ok [.print ⟨1, 1⟩ (.number 1)] := by
  have hts : ∀ t, .ok t ∈ pastEnd.take 2 → t.kind ≠ .endOfInput := by
    intro t ht
    simp only [pastEnd, List.take_succ_cons, List.take_zero, List.mem_cons, Except.ok.injEq,
      List.not_mem_nil, or_false] at ht
    rcases ht with rfl | rfl <;> decide
  obtain ⟨hresult, hunread, -, -, -, -, -, hmissing, -⟩ :=
    parse_end_final (e := ⟨.endOfInput, "", ⟨1, 8⟩⟩) hts rfl (pastEnd.drop 3)
  have hshort : parse (pastEnd.take 3) = .ok [.print ⟨1, 1⟩ (.number 1)] := by cbv
  have hdry : (readProgram (pastEnd.take 3)).unread = [] := by cbv
  have hmade : parse (pastEnd.take 2 ++ [.ok .missingEnd]) = .ok [.print ⟨1, 1⟩ (.number 1)] := by
    cbv
  refine ⟨hresult.trans hshort, ?_, hmissing.trans hmade⟩
  exact hunread.trans (congrArg (· ++ pastEnd.drop 3) hdry)

end Scriptlet
