import Mathlib
import Scriptlet.Proofs.Completion
import Scriptlet.Proofs.Completion.Unclosed
import Scriptlet.Proofs.Completion.Offender
import Scriptlet.Proofs.Grammar.Acceptance
import Scriptlet.Proofs.Nesting
import Scriptlet.Proofs.Staging

namespace Scriptlet
set_option autoImplicit true

namespace Draft

/-- Reading the tokens takes one draft to the other. -/
inductive Leads (limit : Option Nat) : Draft → List Token → Draft → Prop
  | refl : Leads limit d [] d
  | step {d d₁ d₂ : Draft} {t : Token} {ts : List Token} (hs : d.step limit t = .ok (.more d₁))
      (h : Leads limit d₁ ts d₂) : Leads limit d (t :: ts) d₂

section
variable {limit : Option Nat} {d d' : Draft} {ts : List Token}

theorem Leads.read (h : d.Leads limit ts d') (items : List Item) :
    d.read limit (ts.map .ok ++ items) = d'.read limit items := by
  induction h with
  | refl => rfl
  | step hs h ih =>
    rw [List.map_cons, List.cons_append, Draft.read, hs]
    exact ih

theorem Leads.outcome (h : d.Leads limit ts d') (stop : Token) :
    d.outcome limit stop ts = d'.outcome limit stop [] := by
  induction h with
  | refl => rfl
  | step hs h ih => exact (outcome_cons hs _).trans ih

theorem Leads.kind (h : d.Leads limit ts d') : ∀ t ∈ ts, t.kind ≠ .endOfInput := by
  induction h with
  | refl => exact fun t ht => absurd ht List.not_mem_nil
  | @step d d₁ d₂ t ts hs h ih =>
    refine List.forall_mem_cons.2 ⟨fun ht => ?_, ih⟩
    rcases d.step_stops limit with ⟨p, hp⟩ | he
    · rw [hp t ht] at hs
      cases hs
    · obtain ⟨e, he⟩ := he t ht
      rw [he] at hs
      cases hs

theorem Leads.unbounded (h : d.Leads (some N) ts d') : d.Leads none ts d' := by
  induction h with
  | refl => exact .refl
  | @step d d₁ d₂ t ts hs h ih =>
    have hbounds := step_bounds N d t
    rw [hs] at hbounds
    generalize hr : d.step none t = r, d.opens? t = o at hbounds
    cases hbounds with
    | granted hN => exact .step hr ih
    | still => exact .step hr ih

theorem Leads.spelled (h : d.Leads (some N) ts d') (hd : d.Spelled N all (ts ++ here)) :
    d'.Spelled N all here := by
  have hkind := h.kind
  induction h with
  | refl => exact hd
  | step hs h ih =>
    obtain ⟨ht, hkind⟩ := List.forall_mem_cons.1 hkind
    obtain ⟨ts', hts, hd'⟩ := hd.step (.token ht) hs
    cases hts
    exact ih hd' hkind

/-- A reading that fails does so at one token, which stands for the end of the stream where that
runs dry. -/
theorem read_stuck (h : (d.read limit (ts.map .ok)).result = .error (.structural e)) :
    ∃ front d' t rest, ts ++ [.missingEnd] = front ++ t :: rest ∧ d.Leads limit front d' ∧
      d'.step limit t = .error e ∧ d.asks limit (ts.map .ok) = front.length + 1 := by
  induction ts generalizing d with
  | nil =>
    rw [List.map_nil, read] at h
    cases hs : d.step limit .missingEnd with
    | error s =>
      rw [hs] at h
      cases h
      exact ⟨[], d, .missingEnd, [], rfl, .refl, hs, rfl⟩
    | ok q =>
      rw [hs] at h
      cases h
  | cons t ts ih =>
    rw [List.map_cons, read] at h
    rw [List.map_cons, asks]
    cases hs : d.step limit t with
    | error s =>
      rw [hs] at h
      cases h
      exact ⟨[], d, t, ts ++ [.missingEnd], rfl, .refl, hs, rfl⟩
    | ok q =>
      rw [hs] at h
      cases q with
      | finished p => cases h
      | more d₁ =>
        obtain ⟨front, d', u, rest, hsplit, hleads, hstep, hasks⟩ := ih h
        refine ⟨t :: front, d', u, rest, congrArg (t :: ·) hsplit, .step hs hleads, hstep, ?_⟩
        exact congrArg (· + 1) hasks

/-- The tokens that were read can go on to a program, as far as the bound allows. -/
theorem Leads.completed (h : empty.Leads (some N) ts d) (hd : d.Completable) :
    ∃ more, (∃ p, (empty.read (some N) ((ts ++ more).map .ok)).result = .ok p) ∨
      ∃ pos, (empty.read (some N) ((ts ++ more).map .ok)).result =
        .error (.structural (.nestingTooDeep N pos)) := by
  obtain ⟨more, p, hp⟩ := hd
  refine ⟨more ++ [Token.missingEnd], ?_⟩
  have hread := h.unbounded.read ((more ++ [Token.missingEnd]).map .ok)
  rw [← List.map_append] at hread
  have hlevels : empty.levels ≤ N := Nat.zero_le N
  rcases read_bounded hlevels ((ts ++ (more ++ [Token.missingEnd])).map .ok) with
    ⟨hsame, -⟩ | ⟨before, o, after, -, -, -, -, hdeep⟩
  · rw [hsame, hread]
    exact .inl ⟨p, hp⟩
  · rw [hdeep]
    exact .inr ⟨o.token.position, rfl⟩

theorem Leads.stands (h : empty.Leads (some N) ts d) (hs : Steps (some N) t d (.error e))
    (hu : e.IsUnclosed) : ∃ reversed n b outer, Stands N ts reversed n (b :: outer) [] := by
  have hspelled : empty.Spelled N ts (ts ++ []) := by
    rw [List.append_nil]
    exact .between (.outermost .nothing) rfl
  exact hs.unclosed_stands rfl hu (h.spelled hspelled)

theorem Leads.innermost (h : empty.Leads (some N) ts d) {stop : Token} {reversed : List Statement}
    (hs : d.step (some N) stop = .error e) (hstop : stop.kind = .endOfInput)
    (hstands : Stands N ts reversed n (b :: outer) []) : e = b.header.unclosed b.pos := by
  have hend : Detached [] := fun u hu => by cases hu
  have hread := (h.outcome stop).symm.trans (hstands.isRead hstop hend)
  rw [outcome_nil, outcome_nil, hs] at hread
  simpa [Draft.step, betweenStatements, hstop, Except.map] using hread

end

end Draft

theorem drop_of_split {ts front rest : List Token} {stop : Token}
    (h : ts ++ [.missingEnd] = front ++ stop :: rest) (hstop : stop.kind = .endOfInput) :
    ts = front ++ ts.drop front.length ∧
      ∀ t ∈ (ts.drop front.length).head?, t.kind = .endOfInput := by
  rcases List.eq_nil_or_concat rest with rfl | ⟨rest, last, rfl⟩
  · obtain ⟨rfl, -⟩ := List.append_inj' h rfl
    simp
  · rw [List.concat_eq_append, ← List.cons_append, ← List.append_assoc] at h
    obtain ⟨rfl, -⟩ := List.append_inj' h rfl
    simp [hstop]

theorem closed_ends {ends : List Token} (h : ∀ t ∈ ends, t.isKeyword "end") : Closed ends := by
  intro t ht
  obtain ⟨hk, hw⟩ := Token.isKeyword_iff.1 (h t (List.mem_of_mem_head? ht))
  refine ⟨by simp [hk], fun op hop => ?_⟩
  rw [(Token.isKeyword_iff.1 hop).2] at hw
  cases op <;> exact absurd hw (by decide +kernel)

/-- Tokens that stand in open blocks are mended by as many ends as there are of these. -/
theorem Stands.parse_mended {front ends rest : List Token}
    (h : Stands maxNestingDepth front reversed n blocks [])
    (hfront : ∀ t ∈ front, t.kind ≠ .endOfInput) (hends : ∀ t ∈ ends, t.isKeyword "end")
    (hlength : ends.length = blocks.length) (hrest : ∀ t ∈ rest.head?, t.kind = .endOfInput) :
    ∃ p, parse ((front ++ ends ++ rest).map .ok) = .ok p := by
  obtain ⟨p, hp⟩ := (h.extend (closed_ends hends)).mended hends hlength
  refine ⟨p, (Program.SpelledBy.parse_iff _ p).2 ?_⟩
  rw [beforeEnd_front (fun t ht => ?_) hrest]
  · exact hp
  · rcases List.mem_append.1 ht with ht | ht
    · exact hfront t ht
    · rw [(Token.isKeyword_iff.1 (hends t ht)).1]
      decide

/-- The parser stops at the earliest token at which it can: the tokens before it can go on to a
program, as far as the bound on nesting allows, and with it nothing can. An error at the end of the
input, behind finished statements in open blocks, tells of the innermost of these, and is mended by
as many ends as there are of them. -/
theorem parse_stops_earliest (ts : List Token) (e : SyntaxError)
    (h : parse (ts.map .ok) = .error (.structural e)) (hnumeral : ∀ t, e ≠ .numberOutOfRange t)
    (hdepth : ∀ n pos, e ≠ .nestingTooDeep n pos) :
    ∃ front t rest, ts ++ [.missingEnd] = front ++ t :: rest ∧
      Draft.empty.asks (some maxNestingDepth) (ts.map .ok) = (front ++ [t]).length ∧
      (∀ expected u, e = .unexpectedToken expected u → u = t) ∧
      (∃ more, (∃ p, parse ((front ++ more).map .ok) = .ok p) ∨ ∃ pos,
        parse ((front ++ more).map .ok) =
          .error (.structural (.nestingTooDeep maxNestingDepth pos))) ∧
      (∀ more : List Item, parse ((front ++ [t]).map .ok ++ more) = .error (.structural e)) ∧
      (e.IsUnclosed → front = beforeEnd ts ∧
        (∃ reversed n b outer, Stands maxNestingDepth front reversed n (b :: outer) []) ∧
        ∀ reversed n b outer, Stands maxNestingDepth front reversed n (b :: outer) [] →
          e = b.header.unclosed b.pos ∧
          ∀ ends : List Token, (∀ u ∈ ends, u.isKeyword "end") →
            ends.length = (b :: outer).length →
            ∃ p, parse ((front ++ ends ++ ts.drop front.length).map .ok) = .ok p) := by
  obtain ⟨front, d, t, rest, hsplit, hleads, hstep, hasks⟩ := Draft.read_stuck h
  have hsteps := d.steps_step (some maxNestingDepth) t
  rw [hstep] at hsteps
  have hoffends := hsteps.offends
  refine ⟨front, t, rest, hsplit, ?_, ?_, ?_, ?_, ?_⟩
  · rw [hasks, List.length_append]
    rfl
  · rintro expected u rfl
    exact hoffends
  · apply hleads.completed
    apply d.completable
    intro site p n hphase hnone
    have hrange : d.step (some maxNestingDepth) t = .error (.numberOutOfRange n) := by
      simp [Draft.step, hphase, hnone]
    rw [hrange] at hstep
    exact hnumeral n (Except.error.inj hstep).symm
  · intro more
    have hread := hleads.read (.ok t :: more)
    rw [Draft.read, hstep] at hread
    rw [List.map_append, List.append_assoc]
    exact congrArg Reading.result hread
  · intro hunclosed
    -- Such an error is raised at the end of the input alone, so all in front of that was read.
    have hstop : t.kind = .endOfInput := by
      cases e <;> first | exact hoffends | exact hunclosed.elim
    have hkind := hleads.kind
    obtain ⟨hts, hdrop⟩ := drop_of_split hsplit hstop
    refine ⟨?_, hleads.stands hsteps hunclosed, ?_⟩
    · rw [hts, beforeEnd_front hkind hdrop]
    · intro reversed n b outer hstands
      refine ⟨hleads.innermost hstep hstop hstands, ?_⟩
      intro ends hends hlength
      exact hstands.parse_mended hkind hends hlength hdrop

def openBlocks : List Token :=
  [⟨.identifier, "while", ⟨1, 1⟩⟩, ⟨.number, "1", ⟨1, 7⟩⟩, ⟨.identifier, "if", ⟨2, 3⟩⟩,
    ⟨.identifier, "x", ⟨2, 6⟩⟩, ⟨.identifier, "print", ⟨3, 5⟩⟩, ⟨.identifier, "x", ⟨3, 11⟩⟩]

/-- The error tells of the test, which is the inner one. -/
theorem parse_stops_earliest_openBlocks :
    ∃ reversed n b outer, Stands maxNestingDepth openBlocks reversed n (b :: outer) [] ∧
      .missingEnd .test ⟨2, 3⟩ = b.header.unclosed b.pos := by
  have herror : parse (openBlocks.map .ok) = .error (.structural (.missingEnd .test ⟨2, 3⟩)) := by
    cbv
  obtain ⟨front, t, rest, -, -, -, -, -, hunclosed⟩ :=
    parse_stops_earliest openBlocks _ herror (fun t he => by cases he) fun n pos he => by cases he
  obtain ⟨hfront, ⟨reversed, n, b, outer, hstands⟩, htells⟩ := hunclosed trivial
  have hall : beforeEnd openBlocks = openBlocks := by cbv
  have he := (htells reversed n b outer hstands).1
  rw [hfront, hall] at hstands
  exact ⟨reversed, n, b, outer, hstands, he⟩

end Scriptlet
