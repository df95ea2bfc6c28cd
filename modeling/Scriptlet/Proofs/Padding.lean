import Scriptlet.Proofs.Grammar.Acceptance
import Scriptlet.Proofs.Grammar.Extension

namespace Scriptlet
set_option autoImplicit true

def Statement.blocks : Statement → List (List Statement)
  | .ifThen _ _ body | .loop _ _ body | .function _ _ _ body => [body]
  | .ifElse _ _ body otherwise => [body, otherwise]
  | _ => []

/-- The statement is one of the list, or stands at some depth in a block of one of them. -/
inductive Statement.Within : Statement → List Statement → Prop
  | here (hs : s ∈ ss) : Within s ss
  | inside (hs : s' ∈ ss) (hb : body ∈ s'.blocks) (h : Within s body) : Within s ss

/-- Within the tokens of `ts` before `rest`, which spell the clause, `here` starts where separators
may stand: before a statement, where the statements of a block end or between the parts of a file
statement. -/
inductive Clause.Boundary : Nat → Clause → List Token → List Token → List Token → Prop
  | ifThen (ht : t.isKeyword Keyword.test.word) (hc : Phrase.Spells (n + 1) (.whole c) ts mid)
      (hb : Boundary n (.statements ["end", "else"] body) mid (u :: rest) here)
      (hu : u.isKeyword "end") :
      Boundary (n + 1) (.statement (.ifThen t.position c body)) (t :: ts) rest here
  | firstBranch (ht : t.isKeyword Keyword.test.word)
      (hc : Phrase.Spells (n + 1) (.whole c) ts mid)
      (hb : Boundary n (.statements ["end", "else"] body) mid (u :: mid') here)
      (hu : u.isKeyword "else")
      (ho : Clause.Spells n (.statements ["end"] otherwise) mid' (v :: rest))
      (hv : v.isKeyword "end") :
      Boundary (n + 1) (.statement (.ifElse t.position c body otherwise)) (t :: ts) rest here
  | otherBranch (ht : t.isKeyword Keyword.test.word)
      (hc : Phrase.Spells (n + 1) (.whole c) ts mid)
      (hb : Clause.Spells n (.statements ["end", "else"] body) mid (u :: mid'))
      (hu : u.isKeyword "else")
      (ho : Boundary n (.statements ["end"] otherwise) mid' (v :: rest) here)
      (hv : v.isKeyword "end") :
      Boundary (n + 1) (.statement (.ifElse t.position c body otherwise)) (t :: ts) rest here
  | loop (ht : t.isKeyword Keyword.loop.word) (hc : Phrase.Spells (n + 1) (.whole c) ts mid)
      (hb : Boundary n (.statements ["end"] body) mid (u :: rest) here) (hu : u.isKeyword "end") :
      Boundary (n + 1) (.statement (.loop t.position c body)) (t :: ts) rest here
  | function (ht : t.isKeyword Keyword.function.word) (hf : f.kind = .identifier)
      (hu : u.kind = .leftParen) (hxs : Parameters xs ts (v :: mid)) (hv : v.kind = .rightParen)
      (hb : Boundary n (.statements ["end"] body) mid (w :: rest) here) (hw : w.isKeyword "end") :
      Boundary (n + 1) (.statement (.function t.position f.lexeme xs body)) (t :: f :: u :: ts)
        rest here
  | write (ht : t.isKeyword mode.keyword.word) (hp : Phrase.Spells n (.whole path) ts mid)
      (hm : Apart mid here) (hm' : Apart here mid')
      (hc : Phrase.Spells n (.whole content) mid' rest) :
      Boundary n (.statement (.write t.position mode path content)) (t :: ts) rest here
  | read (ht : t.isKeyword Keyword.read.word) (hp : Phrase.Spells n (.whole path) ts mid)
      (hm : Apart mid here) (hm' : Apart here (x :: rest)) (hx : x.kind = .identifier) :
      Boundary n (.statement (.read t.position path x.lexeme)) (t :: ts) rest here
  | nothing : Boundary n (.statements closers []) here here here
  | separator (ht : t.kind = .semicolon)
      (hss : Boundary n (.statements closers ss) ts rest here) :
      Boundary n (.statements closers ss) (t :: ts) rest here
  | start (ht : ¬ t.Closes closers) (hs : Clause.Spells n (.statement s) (t :: ts) mid)
      (hss : Clause.Spells n (.statements closers ss) mid rest) :
      Boundary n (.statements closers (s :: ss)) (t :: ts) rest (t :: ts)
  | inside (ht : ¬ t.Closes closers) (hs : Boundary n (.statement s) (t :: ts) mid here)
      (hss : Clause.Spells n (.statements closers ss) mid rest) :
      Boundary n (.statements closers (s :: ss)) (t :: ts) rest here
  | behind (ht : ¬ t.Closes closers) (hs : Clause.Spells n (.statement s) (t :: ts) mid)
      (hss : Boundary n (.statements closers ss) mid rest here) :
      Boundary n (.statements closers (s :: ss)) (t :: ts) rest here

theorem Clause.Spells.boundary_end (h : Clause.Spells n (.statements closers ss) ts rest) :
    Clause.Boundary n (.statements closers ss) ts rest rest := by
  generalize hc : Clause.statements closers ss = c at h
  induction h generalizing ss with
  | nothing =>
    cases hc
    exact .nothing
  | separator ht _ ih =>
    cases hc
    exact .separator ht (ih rfl)
  | more ht hs _ _ ih =>
    cases hc
    exact .behind ht hs (ih rfl)
  | _ => cases hc

/-- The statement is one of those of the clause, or stands at some depth in a block of one. -/
def Clause.Holds (s : Statement) : Clause → Prop
  | .statement s' => ∃ body ∈ s'.blocks, s.Within body
  | .statements _ ss => s.Within ss

/-- Among the tokens of the clause some spell the statement. Separators may stand before them, and
wherever they may within the statement. -/
def Clause.Surrounds (s : Statement) (n : Nat) (c : Clause) (ts rest : List Token) : Prop :=
  ∃ k here behind, Clause.Spells k (.statement s) here behind ∧ Clause.Boundary n c ts rest here ∧
    ∀ inner, Clause.Boundary k (.statement s) here behind inner → Clause.Boundary n c ts rest inner

theorem Clause.Surrounds.imp (h : Clause.Surrounds s n c ts rest)
    (hc : ∀ {here}, Clause.Boundary n c ts rest here → Clause.Boundary n' c' ts' rest' here) :
    Clause.Surrounds s n' c' ts' rest' := by
  obtain ⟨k, here, behind, hs, hstart, hinner⟩ := h
  exact ⟨k, here, behind, hs, hc hstart, fun inner h => hc (hinner inner h)⟩

theorem Clause.Spells.surrounds (h : Clause.Spells n c ts rest) (hs : c.Holds s) :
    Clause.Surrounds s n c ts rest := by
  induction h with
  | ifThen ht hc hb hu ih =>
    obtain ⟨body, hbody, hwithin⟩ := hs
    obtain rfl := List.mem_singleton.1 hbody
    exact (ih hwithin).imp fun h => .ifThen ht hc h hu
  | ifElse ht hc hb hu ho hv ihb iho =>
    obtain ⟨body, hbody, hwithin⟩ := hs
    rcases List.mem_cons.1 hbody with rfl | hbody
    · exact (ihb hwithin).imp fun h => .firstBranch ht hc h hu ho hv
    · obtain rfl := List.mem_singleton.1 hbody
      exact (iho hwithin).imp fun h => .otherBranch ht hc hb hu h hv
  | loop ht hc hb hu ih =>
    obtain ⟨body, hbody, hwithin⟩ := hs
    obtain rfl := List.mem_singleton.1 hbody
    exact (ih hwithin).imp fun h => .loop ht hc h hu
  | function ht hf hu hxs hv hb hw ih =>
    obtain ⟨body, hbody, hwithin⟩ := hs
    obtain rfl := List.mem_singleton.1 hbody
    exact (ih hwithin).imp fun h => .function ht hf hu hxs hv h hw
  | nothing =>
    cases hs with
    | here hs => cases hs
    | inside hs => cases hs
  | separator ht _ ih => exact (ih hs).imp fun h => .separator ht h
  | more ht hs' hss ihs ihss =>
    cases hs with
    | here hs =>
      rcases List.mem_cons.1 hs with rfl | hs
      · exact ⟨_, _, _, hs', .start ht hs' hss, fun inner h => .inside ht h hss⟩
      · exact (ihss (.here hs)).imp fun h => .behind ht hs' h
    | inside hs hb hwithin =>
      rcases List.mem_cons.1 hs with rfl | hs
      · exact (ihs ⟨_, hb, hwithin⟩).imp fun h => .inside ht h hss
      · exact (ihss (.inside hs hb hwithin)).imp fun h => .behind ht hs' h
  | _ =>
    obtain ⟨body, hbody, -⟩ := hs
    cases hbody

section
variable {gap : List Token} (hgap : ∀ t ∈ gap, t.kind = .semicolon)
include hgap

theorem Refits.separators (here : List Token) : Refits here (gap ++ here) := by
  cases gap with
  | nil => exact .inl rfl
  | cons t gap =>
    refine .inr ?_
    rintro _ ⟨⟩
    have ht := hgap t List.mem_cons_self
    exact ⟨by simp [ht], fun op => by simp [Token.not_isKeyword, ht]⟩

theorem Apart.separators (h : Apart here rest) : Apart (gap ++ here) rest := by
  obtain ⟨gap', rfl, hgap'⟩ := h
  exact ⟨gap ++ gap', (List.append_assoc ..).symm, List.forall_mem_append.2 ⟨hgap, hgap'⟩⟩

theorem Clause.Spells.separators (h : Clause.Spells n (.statements closers ss) ts rest) :
    Clause.Spells n (.statements closers ss) (gap ++ ts) rest := by
  induction gap with
  | nil => exact h
  | cons t gap ih =>
    obtain ⟨ht, hgap⟩ := List.forall_mem_cons.1 hgap
    exact .separator ht (ih hgap)

theorem Apart.padded (hm : Apart mid here) (hm' : Apart here mid') :
    ∃ ts', SameFront mid here ts' (gap ++ here) ∧ Apart ts' mid' := by
  obtain ⟨front, rfl, hfront⟩ := hm
  exact ⟨front ++ (gap ++ here), ⟨front, rfl, rfl⟩, (hm'.separators hgap).separators hfront⟩

/-- Separators change nothing where they may stand. -/
theorem Clause.Boundary.padded (h : Clause.Boundary n c ts rest here) :
    ∃ ts', SameFront ts here ts' (gap ++ here) ∧ Clause.Spells n c ts' rest ∧
      c.StartsAlike ts ts' := by
  have hrefits := Refits.separators hgap
  induction h with
  | ifThen ht hc hb hu ih =>
    obtain ⟨mid', hbehind, hb', -⟩ := ih
    obtain ⟨ts', hfront, hc'⟩ := hc.refit (hbehind.refits (hrefits _))
    exact ⟨_, (hfront.trans hbehind).cons _, .ifThen ht hc' hb' hu, rfl⟩
  | firstBranch ht hc hb hu ho hv ih =>
    obtain ⟨mid', hbehind, hb', -⟩ := ih
    obtain ⟨ts', hfront, hc'⟩ := hc.refit (hbehind.refits (hrefits _))
    exact ⟨_, (hfront.trans hbehind).cons _, .ifElse ht hc' hb' hu ho hv, rfl⟩
  | otherBranch ht hc hb hu ho hv ih =>
    obtain ⟨last', hlast, ho', -⟩ := ih
    obtain ⟨mid', hbehind, hb', -⟩ := hb.refit (.cons _ _ last')
    obtain ⟨ts', hfront, hc'⟩ := hc.refit (hbehind.refits (.cons ..))
    exact ⟨_, ((hfront.trans hbehind).trans (hlast.cons _)).cons _,
      .ifElse ht hc' hb' hu ho' hv, rfl⟩
  | loop ht hc hb hu ih =>
    obtain ⟨mid', hbehind, hb', -⟩ := ih
    obtain ⟨ts', hfront, hc'⟩ := hc.refit (hbehind.refits (hrefits _))
    exact ⟨_, (hfront.trans hbehind).cons _, .loop ht hc' hb' hu, rfl⟩
  | @function _ _ v _ _ _ _ _ _ _ _ _ ht hf hu hxs hv hb hw ih =>
    obtain ⟨mid', hbehind, hb', -⟩ := ih
    obtain ⟨ts', hfront, hxs'⟩ := hxs.refit (v :: mid')
    exact ⟨_, (((hfront.trans (hbehind.cons _)).cons _).cons _).cons _,
      .function ht hf hu hxs' hv hb' hw, rfl⟩
  | write ht hp hm hm' hc =>
    obtain ⟨mid', hbehind, hm''⟩ := hm.padded hgap hm'
    obtain ⟨ts', hfront, hp'⟩ := hp.refit (hbehind.refits (hrefits _))
    exact ⟨_, (hfront.trans hbehind).cons _, .write ht hp' hm'' hc, rfl⟩
  | read ht hp hm hm' hx =>
    obtain ⟨mid', hbehind, hm''⟩ := hm.padded hgap hm'
    obtain ⟨ts', hfront, hp'⟩ := hp.refit (hbehind.refits (hrefits _))
    exact ⟨_, (hfront.trans hbehind).cons _, .read ht hp' hm'' hx, rfl⟩
  | nothing => exact ⟨_, .refl .., .separators hgap .nothing, trivial⟩
  | separator ht hss ih =>
    obtain ⟨ts', hfront, hss', -⟩ := ih
    exact ⟨_, hfront.cons _, .separator ht hss', trivial⟩
  | start ht hs hss => exact ⟨_, .refl .., .separators hgap (.more ht hs hss), trivial⟩
  | inside ht hs hss ih =>
    obtain ⟨ts', hfront, hs', hstart⟩ := ih
    exact ⟨ts', hfront, .more_refit ht hstart hs' hss, trivial⟩
  | behind ht hs hss ih =>
    obtain ⟨mid', hbehind, hss', -⟩ := ih
    obtain ⟨ts', hfront, hs', hstart⟩ := hs.refit (hbehind.refits (hrefits _))
    exact ⟨ts', hfront.trans hbehind, .more_refit ht hstart hs' hss', trivial⟩

end

theorem append_beforeEnd {front : List Token} (hfront : ∀ t ∈ front, t.kind ≠ .endOfInput)
    (rest : List Token) : beforeEnd (front ++ rest) = front ++ beforeEnd rest :=
  List.takeWhile_append_of_pos (by simpa using hfront)

/-- Separators may stand before each statement of an accepted program and within it, where its
blocks end or between its parts, and at the end of the input. Where they may, any number of them
leaves the program as it is. -/
theorem parse_padded (ts : List Token) (p : Program) (hp : parse (ts.map .ok) = .ok p) :
    (∀ s, s.Within p → Clause.Surrounds s maxNestingDepth (.statements [] p) (beforeEnd ts) []) ∧
      Clause.Boundary maxNestingDepth (.statements [] p) (beforeEnd ts) [] [] ∧
      ∀ front rest gap, ts = front ++ rest → (∀ t ∈ front, t.kind ≠ .endOfInput) →
        Clause.Boundary maxNestingDepth (.statements [] p) (beforeEnd ts) [] (beforeEnd rest) →
        (∀ t ∈ gap, t.kind = .semicolon) → parse ((front ++ gap ++ rest).map .ok) = .ok p := by
  have hspelled := (Program.SpelledBy.parse_iff ts p).1 hp
  refine ⟨fun s hs => hspelled.surrounds hs, hspelled.boundary_end, ?_⟩
  rintro front rest gap rfl hfront hplace hgap
  obtain ⟨ts', ⟨front', hsame, rfl⟩, hpadded, -⟩ := hplace.padded hgap
  rw [append_beforeEnd hfront] at hsame
  obtain rfl := List.append_cancel_right hsame
  rw [Program.SpelledBy.parse_iff, List.append_assoc, append_beforeEnd hfront, append_beforeEnd]
  · exact hpadded
  · intro t ht
    simp [hgap t ht]

def loopFront : List Token :=
  [⟨.identifier, "while", ⟨1, 1⟩⟩, ⟨.identifier, "x", ⟨1, 7⟩⟩]

def loopRest : List Token :=
  [⟨.identifier, "end", ⟨1, 9⟩⟩, ⟨.endOfInput, "", ⟨1, 12⟩⟩]

def loopGap : List Token :=
  List.replicate 2 ⟨.semicolon, ";", ⟨1, 8⟩⟩

/-- Two separators between a condition and the end of its block. -/
theorem parse_padded_loop : parse ((loopFront ++ loopGap ++ loopRest).map .ok) =
    .ok [.loop ⟨1, 1⟩ (.var "x") []] := by
  have hp : parse ((loopFront ++ loopRest).map .ok) = .ok [.loop ⟨1, 1⟩ (.var "x") []] := by cbv
  have hwhile : Token.isKeyword ⟨.identifier, "while", ⟨1, 1⟩⟩ Keyword.loop.word := by cbv
  have hend : Token.isKeyword ⟨.identifier, "end", ⟨1, 9⟩⟩ "end" := by cbv
  have hopens : ¬ Token.Closes ⟨.identifier, "while", ⟨1, 1⟩⟩ [] := by
    rintro ⟨w, hw, -⟩
    cases hw
  have hx : Phrase.Spells 63 (.operand .factor (.var "x"))
      [⟨.identifier, "x", ⟨1, 7⟩⟩, ⟨.identifier, "end", ⟨1, 9⟩⟩]
      [⟨.identifier, "end", ⟨1, 9⟩⟩] := by
    refine .var (t := ⟨.identifier, "x", ⟨1, 7⟩⟩) rfl ?_
    rintro _ ⟨⟩
    decide
  have hcondition : Phrase.Spells 64 (.whole (.var "x"))
      [⟨.identifier, "x", ⟨1, 7⟩⟩, ⟨.identifier, "end", ⟨1, 9⟩⟩]
      [⟨.identifier, "end", ⟨1, 9⟩⟩] := by
    refine .whole (.logic (.comparison (.sum (.term hx)))) ?_
    rintro _ ⟨⟩ op
    rw [Bool.not_eq_true]
    cases op <;> cbv
  have hplace : Clause.Boundary maxNestingDepth (.statements [] [.loop ⟨1, 1⟩ (.var "x") []])
      (beforeEnd (loopFront ++ loopRest)) [] (beforeEnd loopRest) :=
    .inside hopens (.loop hwhile hcondition .nothing hend) .nothing
  obtain ⟨-, -, hpadded⟩ := parse_padded _ _ hp
  exact hpadded loopFront loopRest loopGap rfl (by decide) hplace (by decide)

end Scriptlet
