import Mathlib.Data.List.Forall2
import Scriptlet.Proofs.Grammar
import Scriptlet.Proofs.Places

namespace Scriptlet
set_option autoImplicit true

/-- The same token, but for its place, which `R` relates. -/
structure Token.Matches (R : Position → Position → Prop) (t t' : Token) : Prop where
  kind : t'.kind = t.kind
  lexeme : t'.lexeme = t.lexeme
  position : R t.position t'.position

inductive Clause.Matches (R : Position → Position → Prop) : Clause → Clause → Prop
  | statement (h : Statement.Matches R s s') : Matches R (.statement s) (.statement s')
  | statements (h : AllMatch R ss ss') :
      Matches R (.statements closers ss) (.statements closers ss')

variable {R : Position → Position → Prop}

namespace Token.Matches

variable {t t' : Token}

theorem isKeyword (h : t.Matches R t') (w : String) : t'.isKeyword w = t.isKeyword w := by
  rw [Token.isKeyword, Token.isKeyword, h.kind, h.lexeme]

theorem isPlainName (h : t.Matches R t') (ht : t.IsPlainName) : t'.IsPlainName := by
  obtain ⟨hkind, hk⟩ := ht
  refine ⟨h.kind.trans hkind, fun k => ?_⟩
  rw [h.isKeyword]
  exact hk k

theorem closes_iff (h : t.Matches R t') {closers : List String} :
    t'.Closes closers ↔ t.Closes closers := by
  simp only [Token.Closes, h.isKeyword]

end Token.Matches

theorem head?_matches {ts ts' : List Token} (h : List.Forall₂ (Token.Matches R) ts ts')
    {P : Token → Prop} (hP : ∀ t t', Token.Matches R t t' → P t → P t')
    (ht : ∀ t ∈ ts.head?, P t) : ∀ t ∈ ts'.head?, P t := by
  cases h with
  | nil => exact ht
  | cons h hs =>
    intro t ht'
    cases ht'
    exact hP _ _ h (ht _ rfl)

theorem Phrase.Spells.transport (h : Phrase.Spells n p ts rest)
    (hts : List.Forall₂ (Token.Matches R) ts ts') :
    ∃ rest', List.Forall₂ (Token.Matches R) rest rest' ∧ Phrase.Spells n p ts' rest' := by
  induction h generalizing ts' with
  | string ht =>
    cases hts with
    | cons h hrest =>
      rw [← h.lexeme]
      exact ⟨_, hrest, .string (h.kind.trans ht)⟩
  | number ht hv =>
    cases hts with
    | cons h hrest => exact ⟨_, hrest, .number (h.kind.trans ht) (h.lexeme.symm ▸ hv)⟩
  | var ht hr =>
    cases hts with
    | cons h hrest =>
      rw [← h.lexeme]
      refine ⟨_, hrest, .var (h.kind.trans ht) (head?_matches hrest ?_ hr)⟩
      exact fun u u' hu => hu.kind ▸ id
  | parens ht he hu ih =>
    cases hts with
    | cons h hts =>
      obtain ⟨_, ⟨⟩ | ⟨hu', hrest⟩, he'⟩ := ih hts
      exact ⟨_, hrest, .parens (h.kind.trans ht) he' (hu'.kind.trans hu)⟩
  | callNone ht hu hv =>
    obtain ⟨⟩ | ⟨h, ⟨⟩ | ⟨hu', ⟨⟩ | ⟨hv', hrest⟩⟩⟩ := hts
    rw [← h.lexeme]
    exact ⟨_, hrest, .callNone (h.kind.trans ht) (hu'.kind.trans hu) (hv'.kind.trans hv)⟩
  | call ht hu hes hv ih =>
    obtain ⟨⟩ | ⟨h, ⟨⟩ | ⟨hu', hts⟩⟩ := hts
    obtain ⟨_, ⟨⟩ | ⟨hv', hrest⟩, hes'⟩ := ih hts
    rw [← h.lexeme]
    exact ⟨_, hrest, .call (h.kind.trans ht) (hu'.kind.trans hu) hes' (hv'.kind.trans hv)⟩
  | term he ih =>
    obtain ⟨rest', hrest, he'⟩ := ih hts
    exact ⟨rest', hrest, .term he'⟩
  | product ha hop ht hb iha ihb =>
    obtain ⟨_, ⟨⟩ | ⟨h, hmid⟩, ha'⟩ := iha hts
    obtain ⟨rest', hrest, hb'⟩ := ihb hmid
    exact ⟨rest', hrest, .product ha' hop (h.kind.trans ht) hb'⟩
  | sum he ih =>
    obtain ⟨rest', hrest, he'⟩ := ih hts
    exact ⟨rest', hrest, .sum he'⟩
  | total ha hop ht hb iha ihb =>
    obtain ⟨_, ⟨⟩ | ⟨h, hmid⟩, ha'⟩ := iha hts
    obtain ⟨rest', hrest, hb'⟩ := ihb hmid
    exact ⟨rest', hrest, .total ha' hop (h.kind.trans ht) hb'⟩
  | comparison he ih =>
    obtain ⟨rest', hrest, he'⟩ := ih hts
    exact ⟨rest', hrest, .comparison he'⟩
  | compare ha ht hb iha ihb =>
    obtain ⟨_, ⟨⟩ | ⟨h, hmid⟩, ha'⟩ := iha hts
    obtain ⟨rest', hrest, hb'⟩ := ihb hmid
    exact ⟨rest', hrest, .compare ha' (h.kind.trans ht) hb'⟩
  | logic he ih =>
    obtain ⟨rest', hrest, he'⟩ := ih hts
    exact ⟨rest', hrest, .logic he'⟩
  | connect ha ht hb iha ihb =>
    obtain ⟨_, ⟨⟩ | ⟨h, hmid⟩, ha'⟩ := iha hts
    obtain ⟨rest', hrest, hb'⟩ := ihb hmid
    exact ⟨rest', hrest, .connect ha' ((h.isKeyword _).trans ht) hb'⟩
  | whole he hr ih =>
    obtain ⟨rest', hrest, he'⟩ := ih hts
    refine ⟨rest', hrest, .whole he' (head?_matches hrest ?_ hr)⟩
    intro u u' hu hconnective op
    rw [hu.isKeyword]
    exact hconnective op
  | last he ih =>
    obtain ⟨rest', hrest, he'⟩ := ih hts
    exact ⟨rest', hrest, .last he'⟩
  | more he ht hes ihe ihes =>
    obtain ⟨_, ⟨⟩ | ⟨h, hmid⟩, he'⟩ := ihe hts
    obtain ⟨rest', hrest, hes'⟩ := ihes hmid
    exact ⟨rest', hrest, .more he' (h.kind.trans ht) hes'⟩

theorem Names.transport (h : Names xs ts rest) (hts : List.Forall₂ (Token.Matches R) ts ts') :
    ∃ rest', List.Forall₂ (Token.Matches R) rest rest' ∧ Names xs ts' rest' := by
  induction h generalizing ts' with
  | last ht =>
    obtain ⟨⟩ | ⟨h, hrest⟩ := hts
    rw [← h.lexeme]
    exact ⟨_, hrest, .last (h.kind.trans ht)⟩
  | more ht hu hxs ih =>
    obtain ⟨⟩ | ⟨h, ⟨⟩ | ⟨hu', hts⟩⟩ := hts
    obtain ⟨rest', hrest, hxs'⟩ := ih hts
    rw [← h.lexeme]
    exact ⟨rest', hrest, .more (h.kind.trans ht) (hu'.kind.trans hu) hxs'⟩

theorem Parameters.transport (h : Parameters xs ts rest)
    (hts : List.Forall₂ (Token.Matches R) ts ts') :
    ∃ rest', List.Forall₂ (Token.Matches R) rest rest' ∧ Parameters xs ts' rest' := by
  rcases h with ⟨rfl, rfl⟩ | h
  · exact ⟨ts', hts, .inl ⟨rfl, rfl⟩⟩
  · obtain ⟨rest', hrest, h'⟩ := h.transport hts
    exact ⟨rest', hrest, .inr h'⟩

theorem Arguments.transport (h : Arguments n es ts rest)
    (hts : List.Forall₂ (Token.Matches R) ts ts') :
    ∃ rest', List.Forall₂ (Token.Matches R) rest rest' ∧ Arguments n es ts' rest' := by
  rcases h with ⟨rfl, rfl⟩ | h
  · exact ⟨ts', hts, .inl ⟨rfl, rfl⟩⟩
  · obtain ⟨rest', hrest, h'⟩ := h.transport hts
    exact ⟨rest', hrest, .inr h'⟩

theorem Apart.transport (h : Apart ts rest) (hts : List.Forall₂ (Token.Matches R) ts ts') :
    ∃ rest', List.Forall₂ (Token.Matches R) rest rest' ∧ Apart ts' rest' := by
  obtain ⟨gap, rfl, hgap⟩ := h
  induction gap generalizing ts' with
  | nil => exact ⟨ts', hts, [], rfl, by simp⟩
  | cons t gap ih =>
    obtain ⟨⟩ | ⟨h, hts⟩ := hts
    obtain ⟨ht, hgap⟩ := List.forall_mem_cons.1 hgap
    obtain ⟨rest', hrest, gap', rfl, hgap'⟩ := ih hgap hts
    exact ⟨rest', hrest, _ :: gap', rfl, List.forall_mem_cons.2 ⟨h.kind.trans ht, hgap'⟩⟩

theorem Clause.Spells.transport (h : Clause.Spells n c ts rest)
    (hts : List.Forall₂ (Token.Matches R) ts ts') :
    ∃ c' rest', c.Matches R c' ∧ List.Forall₂ (Token.Matches R) rest rest' ∧
      Clause.Spells n c' ts' rest' := by
  induction h generalizing ts' with
  | assign ht hx hq he =>
    obtain ⟨⟩ | ⟨h, ⟨⟩ | ⟨hx', ⟨⟩ | ⟨hq', hts⟩⟩⟩ := hts
    obtain ⟨rest', hrest, he'⟩ := he.transport hts
    have hs := Clause.Spells.assign ((h.isKeyword _).trans ht) (hx'.kind.trans hx)
      (hq'.kind.trans hq) he'
    rw [hx'.lexeme] at hs
    exact ⟨_, rest', .statement (.assign h.position), hrest, hs⟩
  | print ht he =>
    obtain ⟨⟩ | ⟨h, hts⟩ := hts
    obtain ⟨rest', hrest, he'⟩ := he.transport hts
    exact ⟨_, rest', .statement (.print h.position), hrest, .print ((h.isKeyword _).trans ht) he'⟩
  | log ht he =>
    obtain ⟨⟩ | ⟨h, hts⟩ := hts
    obtain ⟨rest', hrest, he'⟩ := he.transport hts
    exact ⟨_, rest', .statement (.log h.position), hrest, .log ((h.isKeyword _).trans ht) he'⟩
  | ifThen ht hc hb hu ih =>
    obtain ⟨⟩ | ⟨h, hts⟩ := hts
    obtain ⟨mid', hmid, hc'⟩ := hc.transport hts
    obtain ⟨_, _, ⟨⟩ | ⟨hbody⟩, ⟨⟩ | ⟨hu', hrest⟩, hb'⟩ := ih hmid
    refine ⟨_, _, .statement (.ifThen h.position hbody), hrest, ?_⟩
    exact .ifThen ((h.isKeyword _).trans ht) hc' hb' ((hu'.isKeyword _).trans hu)
  | ifElse ht hc hb hu ho hv ihb iho =>
    obtain ⟨⟩ | ⟨h, hts⟩ := hts
    obtain ⟨mid', hmid, hc'⟩ := hc.transport hts
    obtain ⟨_, _, ⟨⟩ | ⟨hbody⟩, ⟨⟩ | ⟨hu', hmid⟩, hb'⟩ := ihb hmid
    obtain ⟨_, _, ⟨⟩ | ⟨hotherwise⟩, ⟨⟩ | ⟨hv', hrest⟩, ho'⟩ := iho hmid
    refine ⟨_, _, .statement (.ifElse h.position hbody hotherwise), hrest, ?_⟩
    exact .ifElse ((h.isKeyword _).trans ht) hc' hb' ((hu'.isKeyword _).trans hu) ho'
      ((hv'.isKeyword _).trans hv)
  | loop ht hc hb hu ih =>
    obtain ⟨⟩ | ⟨h, hts⟩ := hts
    obtain ⟨mid', hmid, hc'⟩ := hc.transport hts
    obtain ⟨_, _, ⟨⟩ | ⟨hbody⟩, ⟨⟩ | ⟨hu', hrest⟩, hb'⟩ := ih hmid
    refine ⟨_, _, .statement (.loop h.position hbody), hrest, ?_⟩
    exact .loop ((h.isKeyword _).trans ht) hc' hb' ((hu'.isKeyword _).trans hu)
  | write ht hp hm hc =>
    obtain ⟨⟩ | ⟨h, hts⟩ := hts
    obtain ⟨mid', hmid, hp'⟩ := hp.transport hts
    obtain ⟨mid', hmid, hm'⟩ := hm.transport hmid
    obtain ⟨rest', hrest, hc'⟩ := hc.transport hmid
    refine ⟨_, rest', .statement (.write h.position), hrest, ?_⟩
    exact .write ((h.isKeyword _).trans ht) hp' hm' hc'
  | read ht hp hm hx =>
    obtain ⟨⟩ | ⟨h, hts⟩ := hts
    obtain ⟨mid', hmid, hp'⟩ := hp.transport hts
    obtain ⟨_, ⟨⟩ | ⟨hx', hrest⟩, hm'⟩ := hm.transport hmid
    have hs := Clause.Spells.read ((h.isKeyword _).trans ht) hp' hm' (hx'.kind.trans hx)
    rw [hx'.lexeme] at hs
    exact ⟨_, _, .statement (.read h.position), hrest, hs⟩
  | delete ht hp =>
    obtain ⟨⟩ | ⟨h, hts⟩ := hts
    obtain ⟨rest', hrest, hp'⟩ := hp.transport hts
    exact ⟨_, rest', .statement (.delete h.position), hrest,
      .delete ((h.isKeyword _).trans ht) hp'⟩
  | function ht hf hu hxs hv hb hw ih =>
    obtain ⟨⟩ | ⟨h, ⟨⟩ | ⟨hf', ⟨⟩ | ⟨hu', hts⟩⟩⟩ := hts
    obtain ⟨_, ⟨⟩ | ⟨hv', hmid⟩, hxs'⟩ := hxs.transport hts
    obtain ⟨_, _, ⟨⟩ | ⟨hbody⟩, ⟨⟩ | ⟨hw', hrest⟩, hb'⟩ := ih hmid
    have hs := Clause.Spells.function ((h.isKeyword _).trans ht) (hf'.kind.trans hf)
      (hu'.kind.trans hu) hxs' (hv'.kind.trans hv) hb' ((hw'.isKeyword _).trans hw)
    rw [hf'.lexeme] at hs
    exact ⟨_, _, .statement (.function h.position hbody), hrest, hs⟩
  | call ht hu hes hv =>
    obtain ⟨⟩ | ⟨h, ⟨⟩ | ⟨hu', hts⟩⟩ := hts
    obtain ⟨_, ⟨⟩ | ⟨hv', hrest⟩, hes'⟩ := hes.transport hts
    have hs := Clause.Spells.call (h.isPlainName ht) (hu'.kind.trans hu) hes' (hv'.kind.trans hv)
    rw [h.lexeme] at hs
    exact ⟨_, _, .statement (.call h.position), hrest, hs⟩
  | giveBack ht he =>
    obtain ⟨⟩ | ⟨h, hts⟩ := hts
    obtain ⟨rest', hrest, he'⟩ := he.transport hts
    exact ⟨_, rest', .statement (.giveBack h.position), hrest,
      .giveBack ((h.isKeyword _).trans ht) he'⟩
  | nothing => exact ⟨_, ts', .statements .nil, hts, .nothing⟩
  | separator ht hss ih =>
    obtain ⟨⟩ | ⟨h, hts⟩ := hts
    obtain ⟨_, rest', ⟨⟩ | ⟨hmatch⟩, hrest, hss'⟩ := ih hts
    exact ⟨_, rest', .statements hmatch, hrest, .separator (h.kind.trans ht) hss'⟩
  | more ht hs hss ihs ihss =>
    obtain ⟨_, mid', ⟨hmatch⟩ | ⟨⟩, hmid, hs'⟩ := ihs hts
    obtain ⟨_, rest', ⟨⟩ | ⟨hmatches⟩, hrest, hss'⟩ := ihss hmid
    obtain ⟨⟩ | ⟨h, -⟩ := hts
    refine ⟨_, rest', .statements (.cons hmatch hmatches), hrest, .more ?_ hs' hss'⟩
    rwa [h.closes_iff]

/-- What spells a program does so wherever its tokens stand, with the places of these. -/
theorem Program.SpelledBy.transport (h : Program.SpelledBy n p ts)
    (hts : List.Forall₂ (Token.Matches R) ts ts') :
    ∃ p', AllMatch R p p' ∧ Program.SpelledBy n p' ts' := by
  obtain ⟨_, _, ⟨⟩ | ⟨hmatch⟩, ⟨⟩, hp'⟩ := Clause.Spells.transport h hts
  exact ⟨_, hmatch, hp'⟩

end Scriptlet
