import Scriptlet.Proofs.Descent

namespace Scriptlet
set_option autoImplicit true

namespace Descent

/-- A property of descents that they keep when they are put together, and that is one of all their
runs. -/
structure Closed (Φ : {α : Type} → Descent α → Prop) : Prop where
  pure : ∀ {α : Type} (a : α), Φ (Pure.pure a : Descent α)
  bind : ∀ {α β : Type} {x : Descent α} {f : α → Descent β}, Φ x → (∀ a, Φ (f a)) → Φ (x >>= f)
  peek : Φ peek
  fail : ∀ {α : Type} (e : SyntaxError), Φ (fail e : Descent α)
  take : Φ take
  nested : ∀ {α : Type} {x : Descent α} (limit : Nat), Φ x → Φ (nested limit x)
  ofRuns : ∀ {α : Type} {x : Descent α}, (∀ c, ∃ y : Descent α, Φ y ∧ y.run c = x.run c) → Φ x

namespace Closed

variable {Φ : {α : Type} → Descent α → Prop} (h : Closed Φ)

include h

theorem loop {x : α → Descent (Option α)} (hx : ∀ a, Φ (x a)) (n : Nat) (a : α) :
    Φ (loop x n a) := by
  induction n generalizing a with
  | zero => exact h.pure a
  | succ n ih =>
    apply h.bind (hx a)
    intro r
    cases r with
    | none => exact h.pure a
    | some b => exact ih b

theorem repeated {x : α → Descent (Option α)} (hx : ∀ a, Φ (x a)) (a : α) : Φ (repeated x a) :=
  h.ofRuns fun c => ⟨_, h.loop hx (c.size + 1) a, rfl⟩

theorem unexpected (expected : String) : Φ (unexpected expected : Descent α) :=
  h.bind h.peek fun t => h.fail (.unexpectedToken expected t)

theorem expect (kind : TokenKind) (expected : String) : Φ (expect kind expected) := by
  apply h.bind h.peek
  intro t
  split
  · exact h.take
  · exact h.unexpected expected

theorem skipSeparators : Φ skipSeparators := by
  apply h.repeated
  intro _
  apply h.bind h.peek
  intro t
  split
  · exact h.bind h.take fun _ => h.pure _
  · exact h.pure _

theorem list {x : Descent α} (hx : Φ x) : Φ (list x) := by
  apply h.bind h.peek
  intro t
  split
  · exact h.pure []
  apply h.bind hx
  intro first
  apply h.repeated
  intro before
  apply h.bind h.peek
  intro t
  split
  · apply h.bind h.take
    intro _
    exact h.bind hx fun next => h.pure _
  · exact h.pure none

theorem chain {operator? : Token → Option β} {join : β → Expression → Expression → Expression}
    {operand : Descent Expression} (hx : Φ operand) : Φ (chain operator? join operand) := by
  apply h.bind hx
  intro first
  apply h.repeated
  intro left
  apply h.bind h.peek
  intro t
  cases operator? t with
  | none => exact h.pure none
  | some op =>
    apply h.bind h.take
    intro _
    exact h.bind hx fun right => h.pure _

section
variable {inner : Descent Expression} (hinner : Φ inner)

include hinner

theorem callArguments : Φ (callArguments inner) := by
  apply h.bind (h.expect _ _)
  intro _
  apply h.bind (h.list hinner)
  intro es
  exact h.bind (h.expect _ _) fun _ => h.pure es

theorem factor : Φ (factor inner) := by
  apply h.bind h.peek
  intro t
  split
  · apply h.bind h.take
    intro _
    apply h.bind hinner
    intro e
    exact h.bind (h.expect _ _) fun _ => h.pure e
  · exact h.bind h.take fun t => h.pure _
  · apply h.bind h.take
    intro t
    cases Integer.ofNumeral? t.lexeme with
    | none => exact h.fail _
    | some value => exact h.pure _
  · apply h.bind h.take
    intro t
    apply h.bind h.peek
    intro next
    split
    · exact h.bind (h.callArguments hinner) fun es => h.pure _
    · exact h.pure _
  · exact h.unexpected _

theorem sum : Φ (sum inner) :=
  h.chain (h.chain (h.factor hinner))

theorem comparison : Φ (comparison inner) := by
  apply h.bind (h.sum hinner)
  intro left
  apply h.bind h.peek
  intro t
  cases t.comparison? with
  | none => exact h.pure left
  | some op =>
    apply h.bind h.take
    intro _
    exact h.bind (h.sum hinner) fun right => h.pure _

end

theorem expressionIn (limit n : Nat) : Φ (expressionIn limit n) := by
  induction n with
  | zero => exact h.nested limit (h.unexpected _)
  | succ n ih => exact h.nested limit (h.chain (h.comparison ih))

theorem expression (limit : Nat) : Φ (expression limit) :=
  h.expressionIn limit limit

section
variable {limit : Nat} {block : Bool → Descent (List Statement × Option Terminator)}
  (hblock : ∀ allowElse, Φ (block allowElse))

theorem write (pos : Position) (mode : WriteMode) : Φ (write limit pos mode) := by
  apply h.bind (h.expression limit)
  intro path
  apply h.bind h.skipSeparators
  intro _
  exact h.bind (h.expression limit) fun content => h.pure _

theorem read (pos : Position) : Φ (read limit pos) := by
  apply h.bind (h.expression limit)
  intro path
  apply h.bind h.skipSeparators
  intro _
  exact h.bind (h.expect _ _) fun target => h.pure _

theorem call (start : Token) : Φ (call limit start) := by
  apply h.bind h.peek
  intro t
  split
  · exact h.fail _
  · exact h.bind (h.callArguments (h.expression limit)) fun es => h.pure _

include hblock

theorem test (pos : Position) : Φ (test limit block pos) := by
  apply h.bind (h.expression limit)
  intro condition
  apply h.bind (hblock true)
  rintro ⟨body, _ | _ | _⟩
  · exact h.fail _
  · apply h.bind (hblock false)
    rintro ⟨otherwise, _ | terminator⟩
    · exact h.fail _
    · exact h.pure _
  · exact h.pure _

theorem whileLoop (pos : Position) : Φ (whileLoop limit block pos) := by
  apply h.bind (h.expression limit)
  intro condition
  apply h.bind (hblock false)
  rintro ⟨body, _ | terminator⟩
  · exact h.fail _
  · exact h.pure _

theorem function (pos : Position) : Φ (function block pos) := by
  apply h.bind (h.expect _ _)
  intro name
  apply h.bind (h.expect _ _)
  intro _
  apply h.bind (h.list (h.bind (h.expect _ _) fun x => h.pure _))
  intro parameters
  apply h.bind (h.expect _ _)
  intro _
  apply h.bind (hblock false)
  rintro ⟨body, _ | terminator⟩
  · exact h.fail _
  · exact h.pure _

theorem statement : Φ (statement limit block) := by
  have hexpression := h.expression limit
  apply h.bind h.peek
  intro start
  split
  · exact h.fail _
  apply h.bind h.take
  intro _
  cases Keyword.ofName? start.lexeme with
  | none => exact h.call start
  | some k =>
    cases k with
    | assign =>
      apply h.bind (h.expect _ _)
      intro x
      apply h.bind (h.expect _ _)
      intro _
      exact h.bind hexpression fun e => h.pure _
    | test => exact h.test hblock _
    | loop => exact h.whileLoop hblock _
    | write => exact h.write _ _
    | append => exact h.write _ _
    | read => exact h.read _
    | function => exact h.function hblock _
    | _ => exact h.bind hexpression fun e => h.pure _

end

theorem statementsUntil {stops : Token → Bool} {statement : Descent Statement}
    (hs : Φ statement) : Φ (statementsUntil stops statement) := by
  apply h.repeated
  intro before
  apply h.bind h.skipSeparators
  intro _
  apply h.bind h.peek
  intro t
  split
  · exact h.pure none
  · exact h.bind hs fun s => h.pure _

theorem blockIn (limit n : Nat) (allowElse : Bool) : Φ (blockIn limit n allowElse) := by
  induction n generalizing allowElse with
  | zero => exact h.nested limit (h.pure _)
  | succ n ih =>
    apply h.nested limit
    apply h.bind (h.statementsUntil (h.statement ih))
    intro body
    apply h.bind h.peek
    intro t
    split
    · exact h.pure _
    · exact h.bind h.take fun _ => h.pure _

theorem program (limit : Nat) : Φ (program limit) :=
  h.statementsUntil (h.statement (h.blockIn limit limit))

end Closed

/-- With a token at hand and items behind it, tokens are taken one after the other, and then the
other token is at hand with what is left behind it. The end of the input is never taken. -/
inductive Takes : Token → List Item → List Token → Token → List Item → Prop
  | nothing : Takes t items [] t items
  | next (ht : t.kind ≠ .endOfInput) (h : Takes u items taken v left) :
      Takes t (.ok u :: items) (t :: taken) v left
  | last (ht : t.kind ≠ .endOfInput) : Takes t [] [t] .missingEnd []

theorem Takes.trans (h : Takes t items taken u left) (h' : Takes u left taken' v left') :
    Takes t items (taken ++ taken') v left' := by
  induction h with
  | nothing => exact h'
  | next ht h ih => exact .next ht (ih h')
  | last ht =>
    cases h' with
    | nothing => exact .last ht
    | last hend => exact absurd rfl hend

theorem Takes.split (h : Takes t items taken u left) (he : e.kind = .endOfInput)
    {ts rest : List Item} (hitems : .ok t :: items = ts ++ .ok e :: rest) :
    ∃ ts', ts = taken.map .ok ++ ts' ∧ .ok u :: left = ts' ++ .ok e :: rest := by
  induction h generalizing ts with
  | nothing => exact ⟨ts, rfl, hitems⟩
  | @next t u items taken v left ht h ih =>
    cases ts with
    | nil =>
      cases hitems
      exact absurd he ht
    | cons item ts =>
      obtain ⟨hitem, hitems⟩ := List.cons.inj hitems
      obtain ⟨ts', rfl, hleft⟩ := ih hitems
      exact ⟨ts', congrArg (· :: _) hitem.symm, hleft⟩
  | last ht =>
    cases ts with
    | nil =>
      cases hitems
      exact absurd he ht
    | cons item ts => cases ts <;> cases hitems

/-- A run ended with the token at hand and the items behind it, or at an error right behind it. -/
inductive Ended {α : Type} : Token → List Item → Except ParseError α × Cursor → Prop
  | rests (hr : ∀ e, r ≠ .error (.lexical e)) : Ended t items (r, ⟨t, items, depth, openings⟩)
  | stuck (ht : t.kind ≠ .endOfInput) :
      Ended t (.error e :: items) (.error (.lexical e), ⟨t, items, depth, openings⟩)

/-- A descent moves on by taking tokens and in no other way. -/
def Steady (x : Descent α) : Prop :=
  ∀ c, ∃ taken t left, Takes c.current c.unread taken t left ∧ Ended t left (x.run c)

theorem Steady.bind {x : Descent α} {f : α → Descent β} (hx : x.Steady) (hf : ∀ a, (f a).Steady) :
    (x >>= f).Steady := by
  intro c
  obtain ⟨taken, t, left, htakes, hends⟩ := hx c
  change ∃ taken t left, Takes c.current c.unread taken t left ∧ Ended t left ((x.bind f).run c)
  unfold Descent.bind
  dsimp only
  generalize x.run c = out at hends
  cases hends with
  | stuck ht => exact ⟨taken, t, _, htakes, .stuck ht⟩
  | @rests r _ _ depth openings hr =>
    cases r with
    | error e =>
      refine ⟨taken, t, left, htakes, .rests fun e' he => hr e' ?_⟩
      cases he
      rfl
    | ok a =>
      obtain ⟨taken', t', left', htakes', hends'⟩ := hf a ⟨t, left, depth, openings⟩
      exact ⟨taken ++ taken', t', left', htakes.trans htakes', hends'⟩

theorem steady_take : take.Steady := by
  intro c
  unfold take
  dsimp only
  split
  · exact ⟨[], _, _, .nothing, .rests nofun⟩
  · rename_i ht
    obtain ⟨t, items, depth, openings⟩ := c
    cases items with
    | nil => exact ⟨[t], _, _, .last ht, .rests nofun⟩
    | cons item items =>
      cases item with
      | error e => exact ⟨[], t, _, .nothing, .stuck ht⟩
      | ok u => exact ⟨[t], u, items, .next ht .nothing, .rests nofun⟩

theorem Steady.nested {x : Descent α} (hx : x.Steady) (limit : Nat) : (nested limit x).Steady := by
  intro c
  unfold Descent.nested
  dsimp only
  split
  · exact ⟨[], _, _, .nothing, .rests nofun⟩
  · obtain ⟨taken, t, left, htakes, hends⟩ := hx { c.note with depth := c.depth + 1 }
    refine ⟨taken, t, left, htakes, ?_⟩
    generalize x.run _ = out at hends
    cases hends with
    | rests hr => exact .rests hr
    | stuck ht => exact .stuck ht

theorem closed_steady : Closed @Steady where
  pure _ _ := ⟨[], _, _, .nothing, .rests nofun⟩
  bind := Steady.bind
  peek _ := ⟨[], _, _, .nothing, .rests nofun⟩
  fail _ _ := ⟨[], _, _, .nothing, .rests nofun⟩
  take := steady_take
  nested limit hx := hx.nested limit
  ofRuns hx c := by
    obtain ⟨y, hy, hrun⟩ := hx c
    rw [← hrun]
    exact hy c

/-- These tokens the descent takes of a stream. -/
inductive Took (limit : Nat) : List Item → List Token → Prop
  | empty : Took limit [] []
  | stuck : Took limit (.error e :: rest) []
  | started (h : Takes t rest taken u left)
      (hends : Ended u left ((program limit).run ⟨t, rest, 0, []⟩)) :
      Took limit (.ok t :: rest) taken

theorem Ended.unread {t : Token} {left : List Item} {out : Except ParseError α × Cursor}
    (h : Ended t left out) (hok : out.1 = .ok a) : out.2.unread = left := by
  cases h with
  | rests hr => rfl
  | stuck ht => cases hok

/-- Of the tokens in front of the first end token of a stream, the descent takes one after the
other; it takes all if it has a program and nothing behind the end token is gone. -/
theorem exists_took (limit : Nat) (he : e.kind = .endOfInput) (ts rest : List Item) :
    ∃ taken left, ts = taken.map .ok ++ left ∧ Took limit (ts ++ .ok e :: rest) taken ∧
      ∀ p, (whole limit (ts ++ .ok e :: rest)).1 = .ok p →
        (whole limit (ts ++ .ok e :: rest)).2.unread = rest → left = [] := by
  have hstarted (t : Token) (items : List Item) (hitems : .ok t :: items = ts ++ .ok e :: rest) :
      ∃ taken left, ts = taken.map .ok ++ left ∧ Took limit (.ok t :: items) taken ∧
        ∀ p, (whole limit (.ok t :: items)).1 = .ok p →
          (whole limit (.ok t :: items)).2.unread = rest → left = [] := by
    obtain ⟨taken, u, left, htakes, hends⟩ := closed_steady.program limit ⟨t, items, 0, []⟩
    obtain ⟨ts', hts, hleft⟩ := htakes.split he hitems
    refine ⟨taken, ts', hts, .started htakes hends, fun p hp hunread => ?_⟩
    rw [whole, hends.unread hp] at hunread
    have hlength := congrArg List.length hleft
    rw [hunread, List.length_append, List.length_cons, List.length_cons] at hlength
    exact List.length_eq_zero_iff.1 (by omega)
  cases ts with
  | nil => exact hstarted e rest rfl
  | cons item ts =>
    cases item with
    | ok t => exact hstarted t _ rfl
    | error stuck => exact ⟨[], .error stuck :: ts, rfl, .stuck, fun p hp => by cases hp⟩

end Descent

end Scriptlet
