import Scriptlet.Program.Reading
import Scriptlet.Proofs.Transition

namespace Scriptlet
set_option autoImplicit true

/-- An expression or a block is about to open: how many are open, the token at hand, and the items
that were not pulled yet. -/
structure Opening where
  level : Nat
  token : Token
  unread : List Item

namespace Draft

/-- How many expressions and blocks are open when `t` opens the second part of a write, if it
does. -/
def contentOpens (d : Draft) (t : Token) : Option Nat :=
  if t.kind = .semicolon then none else some d.blocks.length

def slotOpens (d : Draft) : Slot → Token → Option Nat
  | .ifCondition, _ | .loopCondition, _ => some d.blocks.length
  | .writePath _, t => d.contentOpens t
  | _, _ => none

def closeOpens (d : Draft) (site : Site) (t : Token) : Option Nat :=
  match site.enclosures with
  | [] => d.slotOpens site.slot t
  | _ :: _ => none

def factorOpens (d : Draft) (site : Site) (pending : Pending) (e : Expression) (t : Token) :
    Option Nat :=
  match pending.extend? e t with
  | some _ => none
  | none => d.closeOpens site t

/-- How many expressions and blocks are open when `t` opens one more, if it does. -/
def opens? (d : Draft) (t : Token) : Option Nat :=
  match d.phase with
  | .firstStatementArgument _ _ => if t.kind = .rightParen then none else some d.blocks.length
  | .block _ _ => some d.blocks.length
  | .content _ _ _ => d.contentOpens t
  | .expression site => some (d.blocks.length + site.enclosures.length)
  | .firstArgument site _ _ =>
    if t.kind = .rightParen then none else some (d.blocks.length + site.depth)
  | .name site pending x =>
    if t.kind = .leftParen then none else d.factorOpens site pending (.var x) t
  | .numeral site pending n =>
    match Integer.ofNumeral? n.lexeme with
    | some value => d.factorOpens site pending (.number value) t
    | none => none
  | .factor site pending e => d.factorOpens site pending e t
  | _ => none

/-- What opens while a draft goes on reading, in order; the last of it may be one level too deep. -/
def openings (limit : Option Nat) (d : Draft) : List Item → List Opening
  | [] => (d.opens? .missingEnd).toList.map (⟨·, .missingEnd, []⟩)
  | .error _ :: _ => []
  | .ok t :: rest =>
    (d.opens? t).toList.map (⟨·, t, rest⟩) ++
      match d.step limit t with
      | .ok (.more d) => d.openings limit rest
      | _ => []

end Draft

/-- What a bound of `N` levels makes of the result `r` for the token `t`, which opens one more level
when so many are open. -/
inductive Bounds (N : Nat) (t : Token) (r : Except SyntaxError Progress) :
    Option Nat → Except SyntaxError Progress → Prop
  | refused (h : N ≤ level) : Bounds N t r (some level) (.error (.nestingTooDeep N t.position))
  | granted (h : level < N) : Bounds N t r (some level) r
  | still : Bounds N t r none r

/-- What came of a token has no more levels open than the bound allows, and complains of no other
bound. -/
def Shallow (limit : Option Nat) : Except SyntaxError Progress → Prop
  | .ok (.more d) => Allows limit d.levels
  | .ok (.finished _) => True
  | .error e => ∀ N pos, e = .nestingTooDeep N pos → limit = some N

namespace Draft

section
variable {N : Nat} {d : Draft} {t : Token} {phase : Phase}

theorem checkDepth_bounds (N level : Nat) (t : Token) (r : Except SyntaxError Progress) :
    Bounds N t r (some level) (checkDepth (some N) level t >>= fun _ => r) := by
  by_cases h : N ≤ level
  · rw [checkDepth, if_pos h]
    exact .refused h
  · rw [checkDepth, if_neg h]
    exact .granted (Nat.lt_of_not_le h)

theorem inExpression_bounds (N : Nat) (d : Draft) (site : Site) (t : Token) :
    Bounds N t (d.inExpression none site t) (some (d.blocks.length + site.enclosures.length))
      (d.inExpression (some N) site t) :=
  checkDepth_bounds ..

theorem inBlock_bounds (N : Nat) (d : Draft) (pos : Position) (header : Header) (t : Token) :
    Bounds N t (d.inBlock none pos header t) (some d.blocks.length)
      (d.inBlock (some N) pos header t) :=
  checkDepth_bounds ..

theorem inContent_bounds (N : Nat) (d : Draft) (pos : Position) (mode : WriteMode)
    (path : Expression) (t : Token) :
    Bounds N t (d.inContent none pos mode path t) (d.contentOpens t)
      (d.inContent (some N) pos mode path t) := by
  simp only [inContent, contentOpens]
  split
  · exact .still
  · exact d.inExpression_bounds N _ t

theorem fillSlot_bounds (N : Nat) (d : Draft) (pos : Position) (slot : Slot) (e : Expression)
    (t : Token) : Bounds N t (d.fillSlot none pos slot e t) (d.slotOpens slot t)
      (d.fillSlot (some N) pos slot e t) := by
  cases slot with
  | ifCondition => exact d.inBlock_bounds N pos _ t
  | loopCondition => exact d.inBlock_bounds N pos _ t
  | writePath mode => exact d.inContent_bounds N pos mode e t
  | _ => exact .still

theorem closeExpression_bounds (N : Nat) (d : Draft) (site : Site) (e : Expression) (t : Token) :
    Bounds N t (d.closeExpression none site e t) (d.closeOpens site t)
      (d.closeExpression (some N) site e t) := by
  unfold closeExpression closeOpens
  cases site.enclosures with
  | nil => exact d.fillSlot_bounds N site.pos site.slot e t
  | cons enclosure rest => cases enclosure <;> exact .still

theorem afterFactor_bounds (N : Nat) (d : Draft) (site : Site) (pending : Pending) (e : Expression)
    (t : Token) : Bounds N t (d.afterFactor none site pending e t) (d.factorOpens site pending e t)
      (d.afterFactor (some N) site pending e t) := by
  unfold afterFactor factorOpens
  cases pending.extend? e t with
  | some pending => exact .still
  | none => exact d.closeExpression_bounds N site _ t

/-- A bound changes what a token does in one way: one that opens a level beyond it is refused. -/
theorem step_bounds (N : Nat) (d : Draft) (t : Token) :
    Bounds N t (d.step none t) (d.opens? t) (d.step (some N) t) := by
  unfold step opens?
  cases d.phase with
  | firstStatementArgument pos f =>
    dsimp only
    split
    · exact .still
    · exact d.inExpression_bounds N _ t
  | block pos header => exact d.inBlock_bounds N pos header t
  | content pos mode path => exact d.inContent_bounds N pos mode path t
  | expression site => exact d.inExpression_bounds N site t
  | firstArgument site pending f =>
    dsimp only
    split
    · exact .still
    · exact d.inExpression_bounds N _ t
  | name site pending x =>
    dsimp only
    split
    · exact .still
    · exact d.afterFactor_bounds N site pending _ t
  | numeral site pending n =>
    dsimp only
    cases Integer.ofNumeral? n.lexeme with
    | none => exact .still
    | some v => exact d.afterFactor_bounds N site pending _ t
  | factor site pending e => exact d.afterFactor_bounds N site pending e t
  | _ => exact .still

theorem allows_add (h : Allows limit d.blocks.length) (s : Statement) :
    Allows limit (d.add s).levels := by
  apply h.mono
  unfold add
  cases d.blocks with
  | nil => exact Nat.le_refl 0
  | cons b outer => exact Nat.le_refl _

theorem Passes.allows (h : d.Passes limit t phase d') (hd : Allows limit (d.goto phase).levels) :
    Allows limit d'.levels := by
  have hblocks : Allows limit d.blocks.length := hd.mono (Nat.le_add_right _ _)
  cases h with
  | block h => exact h
  | expression h => exact h
  | @filled _ _ slot _ _ _ hf =>
    cases slot <;> cases hf <;> first | exact hblocks | exact allows_add hblocks _
  | _ => exact hd

theorem Takes.shallow (h : d.Takes limit t phase r) (hd : Allows limit (d.goto phase).levels) :
    Shallow limit r := by
  have hblocks : Allows limit d.blocks.length := hd.mono (Nat.le_add_right _ _)
  cases h with
  | tooDeep hN =>
    intro N pos he
    cases he
    exact hN
  | unexpected | noStatement | noCall | outOfRange => nofun
  | @unclosed _ b => cases b.header <;> nofun
  | finish => trivial
  | blockEnd ht hb =>
    rw [hb] at hblocks
    exact allows_add (d := ⟨d.reversed, _, .statement⟩) (hblocks.mono (Nat.le_succ _)) _
  | otherwise ht hb =>
    rw [hb] at hblocks
    exact hblocks.mono (Nat.le_succ _)
  | @keyword k => cases k <;> exact hblocks
  | noStatementArgument | target | lastStatementArgument => exact allows_add hblocks _
  | parensEnd | nextArgument | lastArgument | nextStatementArgument => exact hd.mono (Nat.le_succ _)
  | _ => exact hd

theorem Steps.shallow (h : Steps limit t d r) (hd : Allows limit d.levels) : Shallow limit r := by
  induction h with
  | takes h => exact h.shallow hd
  | passes h _ ih => exact ih (h.allows hd)

theorem slotOpens_le {slot : Slot} (h : d.slotOpens slot t = some level) :
    level ≤ d.blocks.length := by
  cases slot with
  | ifCondition | loopCondition => exact Nat.le_of_eq (Option.some.inj h).symm
  | writePath mode =>
    simp only [slotOpens, contentOpens] at h
    split at h
    · cases h
    · exact Nat.le_of_eq (Option.some.inj h).symm
  | _ => cases h

theorem factorOpens_le {site : Site} (h : d.factorOpens site pending e t = some level) :
    level ≤ d.blocks.length := by
  unfold factorOpens closeOpens at h
  split at h
  · cases h
  split at h
  · exact slotOpens_le h
  · cases h

theorem opens?_le (h : d.opens? t = some level) : level ≤ d.levels := by
  unfold levels
  unfold opens? at h
  cases hp : d.phase with
  | firstStatementArgument pos f =>
    simp only [hp] at h
    split at h
    · cases h
    · exact Nat.le_of_eq (Option.some.inj h).symm
  | block pos header =>
    simp only [hp] at h
    exact Nat.le_of_eq (Option.some.inj h).symm
  | content pos mode path =>
    simp only [hp] at h
    have hslot : d.slotOpens (.writePath mode) t = some level := h
    exact Nat.le_add_right_of_le (slotOpens_le hslot)
  | expression site =>
    simp only [hp] at h
    exact Nat.le_of_eq (Option.some.inj h).symm
  | firstArgument site pending f =>
    simp only [hp] at h
    split at h
    · cases h
    · exact Nat.le_of_eq (Option.some.inj h).symm
  | name site pending x =>
    simp only [hp] at h
    split at h
    · cases h
    · exact Nat.le_add_right_of_le (factorOpens_le h)
  | numeral site pending n =>
    simp only [hp] at h
    split at h
    · exact Nat.le_add_right_of_le (factorOpens_le h)
    · cases h
  | factor site pending e =>
    simp only [hp] at h
    exact Nat.le_add_right_of_le (factorOpens_le h)
  | _ =>
    simp only [hp] at h
    cases h

theorem read_unbounded (d : Draft) (items : List Item) (N : Nat) (pos : Position) :
    (d.read none items).result ≠ .error (.structural (.nestingTooDeep N pos)) := by
  have hstep (d : Draft) (t : Token) : d.step none t ≠ .error (.nestingTooDeep N pos) := by
    intro he
    have hnone : Allows none d.levels := nofun
    have hshallow := (d.steps_step none t).shallow hnone
    rw [he] at hshallow
    cases hshallow N pos rfl
  induction items generalizing d with
  | nil =>
    have he := hstep d .missingEnd
    rw [read]
    cases hs : d.step none .missingEnd with
    | error e =>
      intro h
      cases h
      exact he hs
    | ok q => nofun
  | cons item rest ih =>
    cases item with
    | error e => nofun
    | ok t =>
      have he := hstep d t
      rw [read]
      cases hs : d.step none t with
      | error e =>
        intro h
        cases h
        exact he hs
      | ok q =>
        cases q with
        | more d' => exact ih d'
        | finished p => nofun

theorem step_bounded (h : d.levels ≤ N) (t : Token) :
    (d.step (some N) t = d.step none t ∧ ∀ level ∈ d.opens? t, level < N) ∨
      d.opens? t = some N ∧ d.step (some N) t = .error (.nestingTooDeep N t.position) := by
  have hbounds := step_bounds N d t
  have hle (level : Nat) (ho : d.opens? t = some level) : level ≤ N :=
    Nat.le_trans (opens?_le ho) h
  generalize d.step (some N) t = r, d.opens? t = o at hbounds hle
  cases hbounds with
  | @refused level hN => exact .inr ⟨congrArg some (Nat.le_antisymm (hle level rfl) hN), rfl⟩
  | granted hN =>
    refine .inl ⟨rfl, fun level hlevel => ?_⟩
    cases hlevel
    exact hN
  | still => exact .inl ⟨rfl, nofun⟩

/-- A bound changes nothing in a reading that stays within it, and ends any other where that would
open the first level beyond it. -/
theorem read_bounded (h : d.levels ≤ N) (items : List Item) :
    (d.read (some N) items = d.read none items ∧
        d.openings (some N) items = d.openings none items ∧
        ∀ o ∈ d.openings none items, o.level < N) ∨
      ∃ before o after, d.openings none items = before ++ o :: after ∧ o.level = N ∧
        (∀ o ∈ before, o.level < N) ∧ d.openings (some N) items = before ++ [o] ∧
        d.read (some N) items =
          ⟨.error (.structural (.nestingTooDeep N o.token.position)), o.unread⟩ := by
  have hopened {d : Draft} {t : Token} (hlt : ∀ level ∈ d.opens? t, level < N)
      (rest : List Item) : ∀ o ∈ (d.opens? t).toList.map (Opening.mk · t rest), o.level < N := by
    intro o ho
    obtain ⟨level, hlevel, rfl⟩ := List.mem_map.1 ho
    exact hlt level (Option.mem_toList.1 hlevel)
  -- Up to the first level that is refused both readings are in the same draft, within the bound.
  induction items generalizing d with
  | nil =>
    rw [read, read, openings, openings]
    rcases step_bounded h .missingEnd with ⟨hs, hlt⟩ | ⟨ho, hs⟩
    · rw [hs]
      exact .inl ⟨rfl, rfl, hopened hlt []⟩
    · rw [hs, ho]
      exact .inr ⟨[], _, [], rfl, rfl, nofun, rfl, rfl⟩
  | cons item rest ih =>
    cases item with
    | error e => exact .inl ⟨rfl, rfl, nofun⟩
    | ok t =>
      rw [read, read, openings, openings]
      rcases step_bounded h t with ⟨hs, hlt⟩ | ⟨ho, hs⟩
      · have hopened := hopened hlt rest
        have hsome : Allows (some N) d.levels := fun N' hN' => Option.some.inj hN' ▸ h
        have hshallow := (d.steps_step (some N) t).shallow hsome
        rw [hs] at hshallow ⊢
        cases hr : d.step none t with
        | error e => exact .inl ⟨rfl, rfl, by simpa using hopened⟩
        | ok q =>
          cases q with
          | finished p => exact .inl ⟨rfl, rfl, by simpa using hopened⟩
          | more d' =>
            rw [hr] at hshallow
            dsimp only
            rcases ih (hshallow N rfl) with ⟨hread, hsame, hall⟩ |
              ⟨before, o, after, hsplit, hlevel, hbefore, hsame, hread⟩
            · refine .inl ⟨hread, congrArg _ hsame, ?_⟩
              intro o ho
              exact (List.mem_append.1 ho).elim (hopened o) (hall o)
            · refine .inr ⟨(d.opens? t).toList.map (⟨·, t, rest⟩) ++ before, o, after, ?_, hlevel,
                ?_, ?_, hread⟩
              · rw [hsplit, List.append_assoc]
              · intro o ho
                exact (List.mem_append.1 ho).elim (hopened o) (hbefore o)
              · rw [hsame, List.append_assoc]
      · rw [hs, ho]
        exact .inr ⟨[], _, _, rfl, rfl, nofun, rfl, rfl⟩

end

end Draft

end Scriptlet
