import Scriptlet.Proofs.Reading
import Scriptlet.Proofs.Descent

namespace Scriptlet
set_option autoImplicit true

/-- What reads the next token of a draft, and how many levels are open when that opens one more. -/
structure Reader where
  step : Token → Except SyntaxError Progress
  opens : Token → Option Nat

def Draft.reader (limit : Nat) (d : Draft) : Reader :=
  ⟨d.step (some limit), d.opens?⟩

/-- What comes of a stream that a reader goes on with at a cursor, and all that opens on the way. -/
def Cursor.outcome (limit : Nat) (r : Reader) (c : Cursor) : Reading × List Opening :=
  let seen := c.openings ++ (r.opens c.current).toList.map (⟨·, c.current, c.unread⟩)
  match r.step c.current with
  | .error e => (⟨.error (.structural e), c.unread⟩, seen)
  | .ok (.finished p) => (⟨.ok p, c.unread⟩, seen)
  | .ok (.more d) => (d.read (some limit) c.unread, seen ++ d.openings (some limit) c.unread)

/-- The descent `x` ends as `ok` says at the cursor `c`, or its failure is the outcome `out`. -/
def Descent.Yields (out : Reading × List Opening) (c : Cursor) (x : Descent α)
    (ok : α → Cursor → Prop) : Prop :=
  match x.run c with
  | (.ok a, c') => ok a c'
  | (.error e, c') => (⟨.error e, c'.unread⟩, c'.openings) = out

namespace Cursor

theorem outcome_congr {r r' : Reader} {c : Cursor} (hs : r.step c.current = r'.step c.current)
    (ho : r.opens c.current = r'.opens c.current) (limit : Nat) :
    c.outcome limit r = c.outcome limit r' := by
  simp only [outcome, hs, ho]

theorem outcome_error {r : Reader} {c : Cursor} (hs : r.step c.current = .error e)
    (ho : r.opens c.current = none) (limit : Nat) :
    c.outcome limit r = (⟨.error (.structural e), c.unread⟩, c.openings) := by
  simp [outcome, hs, ho]

theorem outcome_more {r : Reader} {c : Cursor} (hs : r.step c.current = .ok (.more d))
    (ho : r.opens c.current = none) (limit : Nat) :
    c.outcome limit r =
      (d.read (some limit) c.unread, c.openings ++ d.openings (some limit) c.unread) := by
  simp [outcome, hs, ho]

theorem outcome_reader (limit : Nat) (d : Draft) (t : Token) (rest : List Item) (depth : Nat)
    (openings : List Opening) :
    (Cursor.mk t rest depth openings).outcome limit (d.reader limit) =
      (d.read (some limit) (.ok t :: rest),
        openings ++ d.openings (some limit) (.ok t :: rest)) := by
  simp only [outcome, Draft.reader, Draft.read, Draft.openings]
  cases d.step (some limit) t with
  | error e => simp
  | ok q => cases q <;> simp

theorem outcome_dry (limit : Nat) (d : Draft) (depth : Nat) (openings : List Opening) :
    (Cursor.mk .missingEnd [] depth openings).outcome limit (d.reader limit) =
      (d.read (some limit) [], openings ++ d.openings (some limit) []) := by
  simp only [outcome, Draft.reader, Draft.read, Draft.openings]
  rcases d.step_stops (some limit) with ⟨p, hp⟩ | he
  · rw [hp _ rfl]
    rfl
  · obtain ⟨e, he⟩ := he .missingEnd rfl
    rw [he]
    rfl

end Cursor

namespace Descent

section
variable {limit : Nat} {out : Reading × List Opening} {c : Cursor} {r : Reader}

/-- What follows a part of a descent starts where that part ends, with as much counted as before it
and no more tokens left. -/
theorem Yields.bind {x : Descent α} {f : α → Descent β} {ok : α → Cursor → Prop}
    {ok' : β → Cursor → Prop} (hx : x.Yields out c ok)
    (hf : ∀ a c', c'.depth = c.depth → c'.size ≤ c.size → ok a c' → (f a).Yields out c' ok') :
    (x >>= f).Yields out c ok' := by
  have hd := x.balanced c
  have hs := x.forward c
  change match (x.bind f).run c with
    | (.ok b, c') => ok' b c'
    | (.error e, c') => (⟨.error e, c'.unread⟩, c'.openings) = out
  unfold Yields at hx
  unfold Descent.bind
  dsimp only
  generalize x.run c = q at hx hd hs ⊢
  obtain ⟨e | a, c'⟩ := q
  · exact hx
  · exact hf a c' hd hs hx

theorem Yields.pure {ok : α → Cursor → Prop} (h : ok a c) :
    Yields out c (Pure.pure a : Descent α) ok :=
  h

theorem Yields.peek {f : Token → Descent α} {ok : α → Cursor → Prop}
    (h : (f c.current).Yields out c ok) : (Descent.peek >>= f).Yields out c ok :=
  h

theorem Yields.imp {x : Descent α} {ok ok' : α → Cursor → Prop} (hx : x.Yields out c ok)
    (h : ∀ a c', ok a c' → ok' a c') : x.Yields out c ok' := by
  unfold Yields at hx ⊢
  generalize x.run c = q at hx ⊢
  obtain ⟨e | a, c'⟩ := q
  · exact hx
  · exact h a c' hx

theorem Yields.smaller {x : Descent α} {ok : α → Cursor → Prop} (hc : c.size < m)
    (hx : x.Yields out c ok) : x.Yields out c fun a c' => c'.size < m ∧ ok a c' := by
  have hs := x.forward c
  unfold Yields at hx ⊢
  generalize x.run c = q at hx hs ⊢
  obtain ⟨e | a, c'⟩ := q
  · exact hx
  · exact ⟨Nat.lt_of_le_of_lt hs hc, hx⟩

theorem Yields.fail {ok : α → Cursor → Prop} (h : c.outcome limit r = out)
    (hs : r.step c.current = .error e) (ho : r.opens c.current = none) :
    (Descent.fail e : Descent α).Yields out c ok :=
  (c.outcome_error hs ho limit).symm.trans h

theorem Yields.unexpected {ok : α → Cursor → Prop} (h : c.outcome limit r = out)
    (hs : r.step c.current = .error (.unexpectedToken expected c.current))
    (ho : r.opens c.current = none) : (Descent.unexpected expected : Descent α).Yields out c ok :=
  .peek (.fail h hs ho)

theorem Yields.take (h : c.outcome limit r = out) (hk : c.current.kind ≠ .endOfInput)
    (hs : r.step c.current = .ok (.more d)) (ho : r.opens c.current = none) :
    Descent.take.Yields out c fun t c' =>
      t = c.current ∧ c'.size < c.size ∧ c'.outcome limit (d.reader limit) = out := by
  rw [c.outcome_more hs ho] at h
  have hsize := c.size_advance_le
  unfold Yields Descent.take
  simp only [if_neg hk]
  have hone : c.size = c.unread.length + 1 := by rw [Cursor.size, if_neg hk]
  have hlt : c.advance.2.size < c.size := hone ▸ Nat.lt_succ_of_le hsize
  obtain ⟨t, unread, depth, openings⟩ := c
  cases unread with
  | nil => exact ⟨rfl, hlt, (Cursor.outcome_dry limit d depth openings).trans h⟩
  | cons item rest =>
    cases item with
    | error e =>
      rw [← h]
      simp [Cursor.advance, Draft.read, Draft.openings]
    | ok u => exact ⟨rfl, hlt, (Cursor.outcome_reader limit d u rest depth openings).trans h⟩

theorem Yields.expect (h : c.outcome limit r = out) (hk : kind ≠ .endOfInput)
    (hs : r.step c.current = if c.current.kind = kind then .ok (.more d) else
      .error (.unexpectedToken expected c.current)) (ho : r.opens c.current = none) :
    (Descent.expect kind expected).Yields out c fun t c' =>
      t = c.current ∧ c'.size < c.size ∧ c'.outcome limit (d.reader limit) = out := by
  apply Yields.peek
  split
  · rename_i hc
    rw [if_pos hc] at hs
    exact .take h (hc ▸ hk) hs ho
  · rename_i hc
    rw [if_neg hc] at hs
    exact .unexpected h hs ho

theorem Yields.next {x : Descent Token} {f : Token → Descent α} {ok : α → Cursor → Prop} {d : Draft}
    (hx : x.Yields out c fun t c' =>
      t = c.current ∧ c'.size < c.size ∧ c'.outcome limit (d.reader limit) = out)
    (hf : ∀ c', c'.depth = c.depth → c'.size < c.size → c'.outcome limit (d.reader limit) = out →
      (f c.current).Yields out c' ok) : (x >>= f).Yields out c ok := by
  refine hx.bind ?_
  rintro t c' hd _ ⟨rfl, hlt, h'⟩
  exact hf c' hd hlt h'

theorem Yields.nested {x : Descent α} {ok : α → Cursor → Prop} (inside : Reader)
    (h : c.outcome limit ⟨fun t => Draft.checkDepth (some limit) c.depth t >>= fun _ =>
      inside.step t, fun _ => some c.depth⟩ = out)
    (hnone : inside.opens c.current = none)
    (hx : ∀ c', c'.depth = c.depth + 1 → c'.size = c.size → c'.outcome limit inside = out →
      c.depth < limit → x.Yields out c' fun a c' => ok a { c' with depth := c'.depth - 1 }) :
    (Descent.nested limit x).Yields out c ok := by
  unfold Yields Descent.nested
  by_cases hd : limit ≤ c.depth
  · rw [← h]
    simp only [if_pos hd, Cursor.outcome, Draft.checkDepth]
    rfl
  · have hinside : ({ c.note with depth := c.depth + 1 } : Cursor).outcome limit inside = out := by
      rw [← h]
      simp only [Cursor.outcome, Cursor.note, Draft.checkDepth, if_neg hd, hnone]
      simp [Bind.bind, Except.bind]
    have hx := hx { c.note with depth := c.depth + 1 } rfl rfl hinside (Nat.lt_of_not_le hd)
    unfold Yields at hx
    simp only [if_neg hd]
    generalize x.run { c.note with depth := c.depth + 1 } = q at hx ⊢
    obtain ⟨e | a, c'⟩ := q
    · exact hx
    · exact hx

/-- A loop ends at `ok` if every round does or leads to the next one, which has fewer tokens. -/
theorem Yields.repeated {x : α → Descent (Option α)} {ok : α → Cursor → Prop}
    (inv : α → Cursor → Prop) (h : inv a c)
    (hx : ∀ a c', c'.depth = c.depth → inv a c' → (x a).Yields out c' fun next c'' =>
      match next with
      | none => ok a c''
      | some b => inv b c'' ∧ c''.size < c'.size) :
    (Descent.repeated x a).Yields out c ok := by
  -- A loop may go on once for each token that is left, and every round takes one.
  have hloop (n : Nat) : ∀ a c', c'.depth = c.depth → inv a c' → c'.size < n →
      (Descent.loop x n a).Yields out c' ok := by
    induction n with
    | zero =>
      intro a c' hd hi hn
      exact absurd hn (Nat.not_lt_zero _)
    | succ n ih =>
      intro a c' hd hi hn
      refine (hx a c' hd hi).bind fun next c'' hd' _ hnext => ?_
      cases next with
      | none => exact hnext
      | some b => exact ih b c'' (hd'.trans hd) hnext.1 (by omega)
  exact hloop (c.size + 1) a c rfl h (Nat.lt_succ_self _)

theorem Yields.skipSeparators (h : c.outcome limit r = out)
    (hr : ∀ t, t.kind = .semicolon →
      ∃ d, r.step t = .ok (.more d) ∧ r.opens t = none ∧ d.reader limit = r) :
    Descent.skipSeparators.Yields out c fun _ c' =>
      c'.current.kind ≠ .semicolon ∧ c'.outcome limit r = out := by
  refine Yields.repeated (fun _ c => c.outcome limit r = out) h fun _ c₁ _ h₁ => ?_
  apply Yields.peek
  split
  · rename_i hk
    obtain ⟨d, hs, ho, hd⟩ := hr c₁.current hk
    refine (Yields.take h₁ (by simp [hk]) hs ho).next fun c₂ _ hlt h₂ => ?_
    exact ⟨hd ▸ h₂, hlt⟩
  · rename_i hk
    exact ⟨hk, h₁⟩

end

section
variable {out : Reading × List Opening} {c : Cursor} (limit : Nat)

/-- A list is read by the readers `due`, before its next member, and `behind`, if a comma leads
from these back to those. -/
theorem Yields.separated {x : Descent α} (due behind : List α → Reader)
    (h : c.outcome limit (due []) = out)
    (hx : ∀ before c', c'.depth = c.depth → c'.outcome limit (due before) = out →
      x.Yields out c' fun a c'' => c''.outcome limit (behind (before ++ [a])) = out)
    (hcomma : ∀ before t, t.kind = .comma → ∃ d, (behind before).step t = .ok (.more d) ∧
      (behind before).opens t = none ∧ d.reader limit = due before) :
    (Descent.separated x).Yields out c fun xs c' =>
      c'.current.kind ≠ .comma ∧ c'.outcome limit (behind xs) = out := by
  refine (hx [] c rfl h).bind fun first c₁ hd₁ _ h₁ => ?_
  refine Yields.repeated (fun xs c => c.outcome limit (behind xs) = out) h₁
    fun before c₂ hd₂ h₂ => ?_
  apply Yields.peek
  split
  · rename_i hk
    obtain ⟨d, hs, ho, hdue⟩ := hcomma before c₂.current hk
    refine (Yields.take h₂ (by simp [hk]) hs ho).next fun c₃ hd₃ hlt h₃ => ?_
    have hd₃ := hd₃.trans (hd₂.trans hd₁)
    refine (hx before c₃ hd₃ (hdue ▸ h₃)).bind fun a c₄ _ hle h₄ => ?_
    exact ⟨h₄, Nat.lt_of_le_of_lt hle hlt⟩
  · rename_i hk
    exact ⟨hk, h₂⟩

theorem Yields.list {x : Descent α} (due behind : List α → Reader)
    (hempty : c.current.kind = .rightParen → c.outcome limit (behind []) = out)
    (hfirst : c.current.kind ≠ .rightParen → c.outcome limit (due []) = out)
    (hx : ∀ before c', c'.depth = c.depth → c'.outcome limit (due before) = out →
      x.Yields out c' fun a c'' => c''.outcome limit (behind (before ++ [a])) = out)
    (hcomma : ∀ before t, t.kind = .comma → ∃ d, (behind before).step t = .ok (.more d) ∧
      (behind before).opens t = none ∧ d.reader limit = due before) :
    (Descent.list x).Yields out c fun xs c' =>
      c'.current.kind ≠ .comma ∧ c'.outcome limit (behind xs) = out := by
  apply Yields.peek
  split
  · rename_i hk
    exact .pure ⟨by simp [hk], hempty hk⟩
  · rename_i hk
    exact .separated limit due behind (hfirst hk) hx hcomma

/-- A chain is read by the readers `due` and `behind` of an operand, if a left side that is pending
outside the operand is joined with it where it ends, and an operator makes one pending. -/
theorem Yields.chain {operator? : Token → Option β}
    {join : β → Expression → Expression → Expression} {operand : Descent Expression}
    (settled : Token → Prop) (due : Option (Expression × β) → Reader)
    (behind : Option (Expression × β) → Expression → Reader)
    (h : c.outcome limit (due none) = out)
    (hoperand : ∀ left c', c'.depth = c.depth → c'.outcome limit (due left) = out →
      operand.Yields out c' fun e c'' =>
        settled c''.current ∧ c''.outcome limit (behind left e) = out)
    (hjoin : ∀ a op b (c' : Cursor), settled c'.current →
      c'.outcome limit (behind (some (a, op)) b) = c'.outcome limit (behind none (join op a b)))
    (hoperator : ∀ a op t, settled t → operator? t = some op → t.kind ≠ .endOfInput ∧
      ∃ d, (behind none a).step t = .ok (.more d) ∧ (behind none a).opens t = none ∧
        d.reader limit = due (some (a, op))) :
    (Descent.chain operator? join operand).Yields out c fun e c' =>
      operator? c'.current = none ∧ settled c'.current ∧
        c'.outcome limit (behind none e) = out := by
  refine (hoperand none c rfl h).bind fun first c₁ hd₁ _ h₁ => ?_
  refine Yields.repeated (fun e c => settled c.current ∧ c.outcome limit (behind none e) = out) h₁
    fun left c₂ hd₂ h₂ => ?_
  obtain ⟨hsettled, h₂⟩ := h₂
  apply Yields.peek
  cases hop : operator? c₂.current with
  | none => exact ⟨hop, hsettled, h₂⟩
  | some op =>
    obtain ⟨hk, d, hs, ho, hdue⟩ := hoperator left op c₂.current hsettled hop
    refine (Yields.take h₂ hk hs ho).next fun c₃ hd₃ hlt h₃ => ?_
    have hd₃ := hd₃.trans (hd₂.trans hd₁)
    refine (hoperand _ c₃ hd₃ (hdue ▸ h₃)).bind fun right c₄ _ hle h₄ => ?_
    obtain ⟨hsettled₄, h₄⟩ := h₄
    have hjoined := hjoin left op right c₄ hsettled₄
    exact ⟨⟨hsettled₄, hjoined.symm.trans h₄⟩, Nat.lt_of_le_of_lt hle hlt⟩

end

end Descent

end Scriptlet
