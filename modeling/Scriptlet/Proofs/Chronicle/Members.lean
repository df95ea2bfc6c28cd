import Mathlib
import Scriptlet.Proofs.Chronicle

namespace Scriptlet
set_option autoImplicit true

section
variable {ω : Type} {host : Host ω} {m : Machine} {w : ω}

theorem Eval.mem_follow_iff {x : Eval α} {tell : α → Machine → ω → List (Incident ω)}
    {i : Incident ω} : i ∈ x.follow host tell m w ↔
      ∃ a n v, x.Yields host m w a n v ∧ i ∈ tell a n v := by
  unfold follow Yields
  rcases (x m).run host w with ⟨_ | ⟨e | a, n⟩, v⟩
  · simp
  · simp
  · constructor
    · exact fun h => ⟨a, n, v, rfl, h⟩
    · rintro ⟨_, _, _, h, hi⟩
      cases h
      exact hi

theorem Plan.mem_chronicle_iff {run : (a : Activity) → Eval a.Answer}
    {tell : Activity → Machine → ω → List (Incident ω)} {p : Plan α} {i : Incident ω} :
    i ∈ p.chronicle host run tell m w ↔
      ∃ a n v, p.Gets host run m w (.begins a) n v ∧ i ∈ tell a n v := by
  induction p generalizing m w with
  | done a =>
    constructor
    · exact fun h => absurd h List.not_mem_nil
    · rintro ⟨_, _, _, hgets, -⟩
      cases hgets
  | step q next ih =>
    rw [chronicle, Eval.mem_follow_iff]
    constructor
    · rintro ⟨b, n, v, hq, hi⟩
      obtain ⟨a, n', v', hgets, hi⟩ := (ih b).1 hi
      exact ⟨a, n', v', .step hq hgets, hi⟩
    · rintro ⟨a, n', v', hgets, hi⟩
      cases hgets with
      | step hq hgets => exact ⟨_, _, _, hq, (ih _).2 ⟨a, n', v', hgets, hi⟩⟩
  | sub b next ih =>
    rw [chronicle, List.mem_append, Eval.mem_follow_iff]
    constructor
    · rintro (hi | ⟨c, n, v, hb, hi⟩)
      · exact ⟨b, m, w, .begins, hi⟩
      · obtain ⟨a, n', v', hgets, hi⟩ := (ih c).1 hi
        exact ⟨a, n', v', .sub hb hgets, hi⟩
    · rintro ⟨a, n', v', hgets, hi⟩
      cases hgets with
      | begins => exact .inl hi
      | sub hb hgets => exact .inr ⟨_, _, _, hb, (ih _).2 ⟨a, n', v', hgets, hi⟩⟩
  | within name scope body next ihb ih =>
    rw [chronicle, List.mem_append, Eval.mem_follow_iff]
    constructor
    · rintro (hi | ⟨flow, n, v, hb, hi⟩)
      · obtain ⟨a, n', v', hgets, hi⟩ := ihb.1 hi
        exact ⟨a, n', v', .inside hgets, hi⟩
      · obtain ⟨a, n', v', hgets, hi⟩ := (ih flow).1 hi
        exact ⟨a, n', v', .within hb hgets, hi⟩
    · rintro ⟨a, n', v', hgets, hi⟩
      cases hgets with
      | inside hgets => exact .inl (ihb.2 ⟨a, n', v', hgets, hi⟩)
      | within hb hgets => exact .inr ⟨_, _, _, hb, (ih _).2 ⟨a, n', v', hgets, hi⟩⟩

/-- The incident is that the activity begins, or that it leaves something behind itself. -/
inductive Moment.Makes (host : Host ω) (c : Moment ω) : Incident ω → Prop
  | begins : Makes host c (.begins c)
  | does (h : c.deed? host = some d) : Makes host c (.does d)

/-- The tale of an activity tells of all that begins in its course, and of nothing else. -/
theorem Activity.mem_chronicle_iff {k : Nat} {a : Activity} {i : Incident ω} :
    i ∈ a.chronicle host k m w ↔
      ∃ c, (Moment.mk k a m w).Reaches host c ∧ c.Makes host i := by
  induction k generalizing a m w with
  | zero =>
    rw [chronicle, List.mem_singleton]
    constructor
    · rintro rfl
      exact ⟨_, .refl, .begins⟩
    · rintro ⟨c, hc, hmakes⟩
      -- Nothing begins in the course of an activity without fuel, and it leaves nothing behind.
      cases hc with
      | refl =>
        cases hmakes with
        | begins => rfl
        | does hd => cases hd
      | head hopens => cases hopens
  | succ k ih =>
    rw [chronicle, List.mem_cons, List.mem_append, Plan.mem_chronicle_iff, told?, List.mem_map]
    constructor
    · rintro (rfl | ⟨b, n, v, hgets, hi⟩ | ⟨d, hd, rfl⟩)
      · exact ⟨_, .refl, .begins⟩
      · obtain ⟨c, hc, hmakes⟩ := ih.1 hi
        exact ⟨c, .head (.intro hgets) hc, hmakes⟩
      · exact ⟨_, .refl, .does (Option.mem_toList.1 hd)⟩
    · rintro ⟨c, hc, hmakes⟩
      cases hc with
      | refl =>
        cases hmakes with
        | begins => exact .inl rfl
        | does hd => exact .inr (.inr ⟨_, Option.mem_toList.2 hd, rfl⟩)
      | head hopens hc =>
        obtain ⟨hgets⟩ := hopens
        exact .inr (.inl ⟨_, _, _, hgets, ih.2 ⟨c, hc, hmakes⟩⟩)

theorem Program.mem_chronicle_iff {fuel : Nat} {p : Program} {i : Incident ω} :
    i ∈ Program.chronicle host fuel p m w ↔
      ∃ c : Moment ω, c.Reached host fuel p m w ∧ c.Makes host i := by
  rw [chronicle, Plan.mem_chronicle_iff]
  constructor
  · rintro ⟨a, n, v, hgets, hi⟩
    obtain ⟨c, hc, hmakes⟩ := Activity.mem_chronicle_iff.1 hi
    exact ⟨c, ⟨a, n, v, hgets, hc⟩, hmakes⟩
  · rintro ⟨c, ⟨a, n, v, hgets, hc⟩, hmakes⟩
    exact ⟨a, n, v, hgets, Activity.mem_chronicle_iff.2 ⟨c, hc, hmakes⟩⟩

theorem Program.begins_mem_chronicle_iff {fuel : Nat} {p : Program} {c : Moment ω} :
    .begins c ∈ Program.chronicle host fuel p m w ↔ c.Reached host fuel p m w := by
  rw [Program.mem_chronicle_iff]
  constructor
  · rintro ⟨c, hc, ⟨⟩⟩
    exact hc
  · exact fun hc => ⟨c, hc, .begins⟩

theorem Program.mem_deeds_chronicle_iff {fuel : Nat} {p : Program} {d : Deed} :
    d ∈ deeds (Program.chronicle host fuel p m w) ↔
      ∃ c : Moment ω, c.Reached host fuel p m w ∧ c.deed? host = some d := by
  have hdoes : d ∈ deeds (Program.chronicle host fuel p m w) ↔
      .does d ∈ Program.chronicle host fuel p m w := by
    rw [deeds, List.mem_filterMap]
    constructor
    · rintro ⟨i, hi, hd⟩
      cases i with
      | begins c => cases hd
      | does d =>
        cases hd
        exact hi
    · exact fun hi => ⟨_, hi, rfl⟩
  rw [hdoes, Program.mem_chronicle_iff]
  constructor
  · rintro ⟨c, hc, hmakes⟩
    cases hmakes with
    | does hd => exact ⟨c, hc, hd⟩
  · rintro ⟨c, hc, hd⟩
    exact ⟨c, hc, .does hd⟩

end

end Scriptlet
