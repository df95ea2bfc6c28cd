import Scriptlet.Proofs.Padding
import Scriptlet.Proofs.Pointing
import Scriptlet.Proofs.Printing.RoundTrip

namespace Scriptlet
set_option autoImplicit true

mutual

/-- A statement and those at all depths in its blocks, in the order in which a text has them. -/
def Statement.inOrder : Statement → List Statement
  | .ifThen pos c body => .ifThen pos c body :: inOrderAll body
  | .ifElse pos c body otherwise =>
    .ifElse pos c body otherwise :: (inOrderAll body ++ inOrderAll otherwise)
  | .loop pos c body => .loop pos c body :: inOrderAll body
  | .function pos f xs body => .function pos f xs body :: inOrderAll body
  | s => [s]

def inOrderAll : List Statement → List Statement
  | [] => []
  | s :: ss => s.inOrder ++ inOrderAll ss

end

namespace Statement

theorem inOrder_eq (s : Statement) : s.inOrder = s :: s.blocks.flatMap inOrderAll := by
  cases s <;> simp [inOrder, blocks]

theorem mem_inOrder_iff {s s' : Statement} :
    s ∈ s'.inOrder ↔ s = s' ∨ ∃ body ∈ s'.blocks, s ∈ inOrderAll body := by
  rw [inOrder_eq, List.mem_cons, List.mem_flatMap]

theorem mem_inOrderAll {s : Statement} {ss : List Statement} :
    s ∈ inOrderAll ss ↔ ∃ s' ∈ ss, s ∈ s'.inOrder := by
  induction ss with
  | nil => simp [inOrderAll]
  | cons s' ss ih => simp [inOrderAll, ih]

theorem sizeOf_block_lt {s : Statement} (h : body ∈ s.blocks) : sizeOf body < sizeOf s := by
  cases s with
  | ifElse pos c first second =>
    rcases List.mem_cons.1 h with rfl | h
    · simp +arith
    · obtain rfl := List.mem_singleton.1 h
      simp +arith
  | ifThen pos c inner | loop pos c inner | function pos f xs inner =>
    obtain rfl := List.mem_singleton.1 h
    simp +arith
  | _ => cases h

theorem within_of_mem_inOrderAll {s : Statement} {ss : List Statement} (h : s ∈ inOrderAll ss) :
    s.Within ss := by
  obtain ⟨s', hs', hs⟩ := mem_inOrderAll.1 h
  rcases mem_inOrder_iff.1 hs with rfl | ⟨body, hbody, hs⟩
  · exact .here hs'
  · exact .inside hs' hbody (within_of_mem_inOrderAll hs)
termination_by sizeOf ss
decreasing_by exact (sizeOf_block_lt hbody).trans (List.sizeOf_lt_of_mem hs')

theorem mem_inOrderAll_iff {s : Statement} {ss : List Statement} :
    s ∈ inOrderAll ss ↔ s.Within ss := by
  constructor
  · exact within_of_mem_inOrderAll
  · intro h
    induction h with
    | here hs => exact mem_inOrderAll.2 ⟨_, hs, mem_inOrder_iff.2 (.inl rfl)⟩
    | inside hs hb _ ih => exact mem_inOrderAll.2 ⟨_, hs, mem_inOrder_iff.2 (.inr ⟨_, hb, ih⟩)⟩

/-- The token may open the statement: it is the statement's own word, in any mixture of letter
cases, or the name that a call names. -/
def OpenedBy (t : Token) : Statement → Prop
  | .call _ callee _ => t.IsPlainName ∧ t.lexeme = callee
  | s => t.isKeyword s.name

theorem OpenedBy.kind {s : Statement} (h : s.OpenedBy t) : t.kind = .identifier := by
  cases s with
  | call pos callee es => exact h.1.1
  | _ => exact (Token.isKeyword_iff.1 h).1

/-- From the token on, which stands in `ts`, tokens spell the statement; the token opens it and
gives it its place. -/
structure OpensIn (ts : List Token) (s : Statement) (t : Token) : Prop where
  position : s.position = t.position
  opened : s.OpenedBy t
  spelled : ∃ n us behind, t :: us <:+ ts ∧ Clause.Spells n (.statement s) (t :: us) behind

theorem OpensIn.mono (h : OpensIn ts s t) (hts : ts <:+ ts') : OpensIn ts' s t := by
  obtain ⟨n, us, behind, hus, hs⟩ := h.spelled
  exact ⟨h.position, h.opened, n, us, behind, hus.trans hts, hs⟩

end Statement

section
variable {ss : List Statement} {openers : List Token}

theorem positions_eq_of_opensIn (h : List.Forall₂ (Statement.OpensIn ts) ss openers) :
    ss.map Statement.position = openers.map Token.position := by
  induction h with
  | nil => rfl
  | cons hs _ ih => rw [List.map_cons, List.map_cons, hs.position, ih]

theorem exists_opensIn (h : List.Forall₂ (Statement.OpensIn ts) ss openers) (hs : s ∈ ss) :
    ∃ t, s.OpensIn ts t := by
  induction h with
  | nil => cases hs
  | cons hopens _ ih =>
    rcases List.mem_cons.1 hs with rfl | hs
    · exact ⟨_, hopens⟩
    · exact ih hs

end

theorem Clause.Spells.opensIn (h : Clause.Spells n (.statement s) (t :: ts) rest) :
    s.OpensIn (t :: ts) t := by
  have hopens (hp : s.position = t.position) (ho : s.OpenedBy t) : s.OpensIn (t :: ts) t :=
    ⟨hp, ho, n, ts, rest, List.suffix_rfl, h⟩
  cases h with
  | call ht _ _ _ => exact hopens rfl ⟨ht, rfl⟩
  | @write _ _ _ _ _ _ _ mode _ ht _ _ _ =>
    cases mode with
    | replace => exact hopens rfl ht
    | extend => exact hopens rfl ht
  | _ => exact hopens rfl ‹_›

theorem SameFront.suffix (h : SameFront ts rest ts' rest') : rest <:+ ts := by
  obtain ⟨front, rfl, -⟩ := h
  exact List.suffix_append front rest

theorem Phrase.Spells.suffix (h : Phrase.Spells n p ts rest) : rest <:+ ts := by
  have hsame : Refits rest rest := .inl rfl
  obtain ⟨_, hfront, -⟩ := h.refit hsame
  exact hfront.suffix

theorem Parameters.suffix (h : Parameters xs ts rest) : rest <:+ ts := by
  obtain ⟨_, hfront, -⟩ := h.refit rest
  exact hfront.suffix

theorem Clause.Spells.suffix_tail (h : Clause.Spells n (.statement s) (t :: ts) rest) :
    rest <:+ ts := by
  have hclosed : Closed [] := fun u hu => by cases hu
  obtain ⟨ts', ⟨front, hts, hts'⟩, -, hstart⟩ := h.refit (.inr hclosed)
  cases front with
  | nil =>
    subst hts'
    cases hstart
  | cons u front =>
    obtain ⟨-, rfl⟩ := List.cons.inj hts
    exact List.suffix_append front rest

/-- Among the tokens of `ts` before `rest` stand, in the order of the statements, tokens that open
them. -/
def OpensAll (ss : List Statement) (ts rest : List Token) : Prop :=
  rest <:+ ts ∧ ∃ openers, List.Forall₂ (Statement.OpensIn ts) ss openers ∧
    (openers ++ rest).Sublist ts

namespace OpensAll

theorem nil (h : rest <:+ ts) : OpensAll [] ts rest :=
  ⟨h, [], .nil, h.sublist⟩

theorem within (h : OpensAll ss ts rest) (hts : ts <:+ ts') (hrest : rest' <:+ rest) :
    OpensAll ss ts' rest' := by
  obtain ⟨hbehind, openers, hopeners, hsub⟩ := h
  refine ⟨(hrest.trans hbehind).trans hts, openers, ?_, ?_⟩
  · exact hopeners.imp fun _ _ hopens => hopens.mono hts
  · exact ((List.Sublist.refl openers).append hrest.sublist).trans (hsub.trans hts.sublist)

theorem cons (hs : s.OpensIn (t :: ts) t) (h : OpensAll ss ts rest) :
    OpensAll (s :: ss) (t :: ts) rest := by
  obtain ⟨hbehind, openers, hopeners, hsub⟩ := h
  have hts : ts <:+ t :: ts := List.suffix_cons t ts
  refine ⟨hbehind.trans hts, t :: openers, .cons hs ?_, hsub.cons_cons t⟩
  exact hopeners.imp fun _ _ hopens => hopens.mono hts

theorem append (h : OpensAll ss ts mid) (h' : OpensAll ss' mid rest) :
    OpensAll (ss ++ ss') ts rest := by
  obtain ⟨hmid, openers, hopeners, hsub⟩ := h
  obtain ⟨hbehind, openers', hopeners', hsub'⟩ := h'
  refine ⟨hbehind.trans hmid, openers ++ openers', ?_, ?_⟩
  · exact List.rel_append hopeners (hopeners'.imp fun _ _ hopens => hopens.mono hmid)
  · rw [List.append_assoc]
    exact ((List.Sublist.refl openers).append hsub').trans hsub

end OpensAll

def Clause.inOrder : Clause → List Statement
  | .statement s => s.inOrder
  | .statements _ ss => inOrderAll ss

theorem Clause.Spells.opensAll_single (h : Clause.Spells n (.statement s) ts rest)
    (hs : s.inOrder = [s]) : OpensAll s.inOrder ts rest := by
  obtain ⟨t, ts, rfl⟩ := h.head
  rw [hs]
  exact .cons h.opensIn (.nil h.suffix_tail)

/-- The tokens that open the statements of a clause stand in the order of the statements. -/
theorem Clause.Spells.opensAll (h : Clause.Spells n c ts rest) : OpensAll c.inOrder ts rest := by
  induction h with
  | ifThen ht hc hb hu ih =>
    have hwhole := Clause.Spells.ifThen ht hc hb hu
    exact .cons hwhole.opensIn (ih.within hc.suffix (List.suffix_cons ..))
  | ifElse ht hc hb hu ho hv ihb iho =>
    have hwhole := Clause.Spells.ifElse ht hc hb hu ho hv
    have hblocks := (ihb.within List.suffix_rfl (List.suffix_cons ..)).append iho
    exact .cons hwhole.opensIn (hblocks.within hc.suffix (List.suffix_cons ..))
  | loop ht hc hb hu ih =>
    have hwhole := Clause.Spells.loop ht hc hb hu
    exact .cons hwhole.opensIn (ih.within hc.suffix (List.suffix_cons ..))
  | @function _ _ _ _ _ _ _ _ _ f u ht hf hu hxs hv hb hw ih =>
    have hwhole := Clause.Spells.function ht hf hu hxs hv hb hw
    have hbody := (List.suffix_cons ..).trans hxs.suffix
    have hfront := hbody.trans ((List.suffix_cons u _).trans (List.suffix_cons f _))
    exact .cons hwhole.opensIn (ih.within hfront (List.suffix_cons ..))
  | nothing => exact .nil List.suffix_rfl
  | separator ht _ ih => exact ih.within (List.suffix_cons ..) List.suffix_rfl
  | more ht hs hss ihs ihss => exact ihs.append ihss
  | assign ht hx hq he => exact (Clause.Spells.assign ht hx hq he).opensAll_single rfl
  | print ht he => exact (Clause.Spells.print ht he).opensAll_single rfl
  | log ht he => exact (Clause.Spells.log ht he).opensAll_single rfl
  | write ht hp hm hc => exact (Clause.Spells.write ht hp hm hc).opensAll_single rfl
  | read ht hp hm hx => exact (Clause.Spells.read ht hp hm hx).opensAll_single rfl
  | delete ht hp => exact (Clause.Spells.delete ht hp).opensAll_single rfl
  | call ht hu hes hv => exact (Clause.Spells.call ht hu hes hv).opensAll_single rfl
  | giveBack ht he => exact (Clause.Spells.giveBack ht he).opensAll_single rfl

/-- At the place of the statement the text has a token that opens it, the first of those that spell
it. -/
def Statement.StandsIn (text : String) (s : Statement) : Prop :=
  ∃ before t after front us stop n behind,
    text.toList = before ++ (t.lexeme.toList ++ after) ∧ s.position = .behind before ∧
    s.OpenedBy t ∧ tokenize text = (front ++ t :: us ++ [stop]).map .ok ∧
    Clause.Spells n (.statement s) (t :: us) behind

theorem Statement.OpensIn.standsIn (h : OpensIn ts s t)
    (hitems : tokenize text = (ts ++ [stop]).map .ok) : s.StandsIn text := by
  obtain ⟨n, us, behind, ⟨front, rfl⟩, hs⟩ := h.spelled
  have hmem : .ok t ∈ tokenize text := by
    rw [hitems]
    exact List.mem_map_of_mem (by simp)
  obtain ⟨before, rest, htext, hposition, -, hheads⟩ := Token.within_of_mem hmem
  cases hheads with
  | stop => exact absurd h.opened.kind nofun
  | @token _ after _ _ =>
    have hplace := h.position.trans hposition
    exact ⟨before, t, after, front, us, stop, n, behind, htext, hplace, h.opened, hitems, hs⟩

/-- In every program that is read, the places go on strictly from statement to statement, those in
blocks included, in the order of the text. At the place of each statement, however deep, the text
has its first token: its word, in any mixture of letter cases, or the name that it calls. -/
theorem parseText_statements_ordered (text : String) (p : Program) (h : parseText text = .ok p) :
    ((inOrderAll p).Pairwise fun s s' => s.position.Before s'.position) ∧
      ∀ s, s.Within p → s ∈ inOrderAll p ∧ s.StandsIn text := by
  obtain ⟨ts, stop, hitems, hspelled⟩ := parseText_ok_iff.1 h
  have hopens : OpensAll (inOrderAll p) ts [] := Clause.Spells.opensAll hspelled
  obtain ⟨-, openers, hopeners, hsub⟩ := hopens
  rw [List.append_nil] at hsub
  have htokens : ((ts ++ [stop]).map Token.position).Pairwise Position.Before := by
    have hitemwise := tokenize_increasing text
    rw [hitems, List.pairwise_map] at hitemwise
    exact List.pairwise_map.2 hitemwise
  constructor
  · rw [← List.pairwise_map, positions_eq_of_opensIn hopeners]
    exact htokens.sublist ((hsub.trans (List.sublist_append_left ts [stop])).map Token.position)
  · intro s hs
    have hlisted := Statement.mem_inOrderAll_iff.2 hs
    obtain ⟨t, hopens⟩ := exists_opensIn hopeners hlisted
    exact ⟨hlisted, hopens.standsIn hitems⟩

def branches : String :=
  "If 1\n\tshow()\nELSE\n Print 2;\nend RETURN 3"

theorem parseText_statements_ordered_branches :
    [⟨1, 1⟩, ⟨2, 2⟩, ⟨4, 2⟩, ⟨5, 5⟩].Pairwise Position.Before ∧
      (Statement.call ⟨2, 2⟩ "show" []).StandsIn branches := by
  have hread : parseText branches = .ok
      [.ifElse ⟨1, 1⟩ (.number 1) [.call ⟨2, 2⟩ "show" []] [.print ⟨4, 2⟩ (.number 2)],
        .giveBack ⟨5, 5⟩ (.number 3)] := by cbv
  obtain ⟨hordered, hstands⟩ := parseText_statements_ordered _ _ hread
  refine ⟨List.pairwise_map.2 hordered, (hstands _ ?_).2⟩
  exact .inside (List.mem_cons_self ..) (List.mem_cons_self ..) (.here (List.mem_cons_self ..))

end Scriptlet
