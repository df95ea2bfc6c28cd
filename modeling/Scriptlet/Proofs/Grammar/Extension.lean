import Scriptlet.Proofs.Grammar

namespace Scriptlet
set_option autoImplicit true

/-- Tokens with which no expression goes on that could end in front of them. -/
def Closed (more : List Token) : Prop :=
  ∀ u ∈ more.head?, u.kind ≠ .leftParen ∧ ∀ op : Connective, ¬ u.isKeyword op.word

/-- The tokens of `rest'` may follow what those of `rest` follow: they start alike, or no expression
goes on with them. -/
def Refits (rest rest' : List Token) : Prop :=
  rest'.head? = rest.head? ∨ Closed rest'

/-- What stands in `ts` before `rest` stands in `ts'` before `rest'`. -/
def SameFront (ts rest ts' rest' : List Token) : Prop :=
  ∃ front, ts = front ++ rest ∧ ts' = front ++ rest'

namespace SameFront

theorem refl (rest rest' : List Token) : SameFront rest rest rest' rest' :=
  ⟨[], rfl, rfl⟩

theorem cons (t : Token) (h : SameFront ts rest ts' rest') :
    SameFront (t :: ts) rest (t :: ts') rest' := by
  obtain ⟨front, rfl, rfl⟩ := h
  exact ⟨t :: front, rfl, rfl⟩

theorem one (t : Token) (rest rest' : List Token) :
    SameFront (t :: rest) rest (t :: rest') rest' :=
  (refl rest rest').cons t

theorem trans (h : SameFront ts mid ts' mid') (hmid : SameFront mid rest mid' rest') :
    SameFront ts rest ts' rest' := by
  obtain ⟨front, rfl, rfl⟩ := h
  obtain ⟨front', rfl, rfl⟩ := hmid
  exact ⟨front ++ front', (List.append_assoc ..).symm, (List.append_assoc ..).symm⟩

theorem refits (h : SameFront ts rest ts' rest') (hrest : Refits rest rest') : Refits ts ts' := by
  obtain ⟨front, rfl, rfl⟩ := h
  cases front with
  | nil => exact hrest
  | cons t front => exact .inl rfl

theorem append (h : SameFront ts rest ts' (rest ++ more)) : ts' = ts ++ more := by
  obtain ⟨front, rfl, rfl⟩ := h
  exact (List.append_assoc ..).symm

end SameFront

namespace Refits

theorem cons (t : Token) (rest rest' : List Token) : Refits (t :: rest) (t :: rest') :=
  .inl rfl

theorem append (rest : List Token) (hmore : Closed more) : Refits rest (rest ++ more) := by
  cases rest with
  | nil => exact .inr hmore
  | cons t rest => exact .inl rfl

theorem head? {P : Token → Prop} (h : Refits rest rest')
    (hclosed : Closed rest' → ∀ u ∈ rest'.head?, P u) (hrest : ∀ u ∈ rest.head?, P u) :
    ∀ u ∈ rest'.head?, P u := by
  rcases h with h | h
  · rw [h]
    exact hrest
  · exact hclosed h

end Refits

/-- A phrase does not look behind the token that follows it, and ends where it does not go on. -/
theorem Phrase.Spells.refit (h : Phrase.Spells n p ts rest) (hr : Refits rest rest') :
    ∃ ts', SameFront ts rest ts' rest' ∧ Phrase.Spells n p ts' rest' := by
  induction h generalizing rest' with
  | string ht => exact ⟨_, .one .., .string ht⟩
  | number ht hv => exact ⟨_, .one .., .number ht hv⟩
  | var ht hnext =>
    exact ⟨_, .one .., .var ht (hr.head? (fun hclosed u hu => (hclosed u hu).1) hnext)⟩
  | parens ht he hu ih =>
    obtain ⟨ts', hfront, he'⟩ := ih (.cons ..)
    exact ⟨_, (hfront.trans (.one ..)).cons _, .parens ht he' hu⟩
  | callNone ht hu hv => exact ⟨_, ((SameFront.one ..).cons _).cons _, .callNone ht hu hv⟩
  | call ht hu hes hv ih =>
    obtain ⟨ts', hfront, hes'⟩ := ih (.cons ..)
    exact ⟨_, ((hfront.trans (.one ..)).cons _).cons _, .call ht hu hes' hv⟩
  | term he ih =>
    obtain ⟨ts', hfront, he'⟩ := ih hr
    exact ⟨ts', hfront, .term he'⟩
  | product ha hop ht hb iha ihb =>
    obtain ⟨mid', hbehind, hb'⟩ := ihb hr
    obtain ⟨ts', hfront, ha'⟩ := iha (.cons ..)
    exact ⟨ts', hfront.trans (hbehind.cons _), .product ha' hop ht hb'⟩
  | sum he ih =>
    obtain ⟨ts', hfront, he'⟩ := ih hr
    exact ⟨ts', hfront, .sum he'⟩
  | total ha hop ht hb iha ihb =>
    obtain ⟨mid', hbehind, hb'⟩ := ihb hr
    obtain ⟨ts', hfront, ha'⟩ := iha (.cons ..)
    exact ⟨ts', hfront.trans (hbehind.cons _), .total ha' hop ht hb'⟩
  | comparison he ih =>
    obtain ⟨ts', hfront, he'⟩ := ih hr
    exact ⟨ts', hfront, .comparison he'⟩
  | compare ha ht hb iha ihb =>
    obtain ⟨mid', hbehind, hb'⟩ := ihb hr
    obtain ⟨ts', hfront, ha'⟩ := iha (.cons ..)
    exact ⟨ts', hfront.trans (hbehind.cons _), .compare ha' ht hb'⟩
  | logic he ih =>
    obtain ⟨ts', hfront, he'⟩ := ih hr
    exact ⟨ts', hfront, .logic he'⟩
  | connect ha ht hb iha ihb =>
    obtain ⟨mid', hbehind, hb'⟩ := ihb hr
    obtain ⟨ts', hfront, ha'⟩ := iha (.cons ..)
    exact ⟨ts', hfront.trans (hbehind.cons _), .connect ha' ht hb'⟩
  | whole he hnext ih =>
    obtain ⟨ts', hfront, he'⟩ := ih hr
    exact ⟨ts', hfront, .whole he' (hr.head? (fun hclosed u hu => (hclosed u hu).2) hnext)⟩
  | last he ih =>
    obtain ⟨ts', hfront, he'⟩ := ih hr
    exact ⟨ts', hfront, .last he'⟩
  | more he ht hes ihe ihes =>
    obtain ⟨mid', hbehind, hes'⟩ := ihes hr
    obtain ⟨ts', hfront, he'⟩ := ihe (.cons ..)
    exact ⟨ts', hfront.trans (hbehind.cons _), .more he' ht hes'⟩

theorem Names.refit (h : Names xs ts rest) (rest' : List Token) :
    ∃ ts', SameFront ts rest ts' rest' ∧ Names xs ts' rest' := by
  induction h with
  | last ht => exact ⟨_, .one .., .last ht⟩
  | more ht hu hxs ih =>
    obtain ⟨ts', hfront, hxs'⟩ := ih
    exact ⟨_, (hfront.cons _).cons _, .more ht hu hxs'⟩

theorem Parameters.refit (h : Parameters xs ts rest) (rest' : List Token) :
    ∃ ts', SameFront ts rest ts' rest' ∧ Parameters xs ts' rest' := by
  rcases h with ⟨rfl, rfl⟩ | h
  · exact ⟨rest', .refl .., .inl ⟨rfl, rfl⟩⟩
  · obtain ⟨ts', hfront, hxs⟩ := h.refit rest'
    exact ⟨ts', hfront, .inr hxs⟩

theorem Arguments.refit (h : Arguments n es ts rest) (hr : Refits rest rest') :
    ∃ ts', SameFront ts rest ts' rest' ∧ Arguments n es ts' rest' := by
  rcases h with ⟨rfl, rfl⟩ | h
  · exact ⟨rest', .refl .., .inl ⟨rfl, rfl⟩⟩
  · obtain ⟨ts', hfront, hes⟩ := h.refit hr
    exact ⟨ts', hfront, .inr hes⟩

theorem Apart.refit (h : Apart ts rest) (rest' : List Token) :
    ∃ ts', SameFront ts rest ts' rest' ∧ Apart ts' rest' := by
  obtain ⟨gap, rfl, hgap⟩ := h
  exact ⟨gap ++ rest', ⟨gap, rfl, rfl⟩, gap, rfl, hgap⟩

def Clause.StartsAlike (ts ts' : List Token) : Clause → Prop
  | .statement _ => ts'.head? = ts.head?
  | .statements .. => True

theorem Clause.Spells.more_refit (ht : ¬ t.Closes closers)
    (hstart : (Clause.statement s).StartsAlike (t :: ts) ts')
    (hs : Clause.Spells n (.statement s) ts' mid)
    (hss : Clause.Spells n (.statements closers ss) mid rest) :
    Clause.Spells n (.statements closers (s :: ss)) ts' rest := by
  obtain ⟨u, us, rfl⟩ := hs.head
  cases hstart
  exact .more ht hs hss

theorem Clause.Spells.refit (h : Clause.Spells n c ts rest) (hr : Refits rest rest') :
    ∃ ts', SameFront ts rest ts' rest' ∧ Clause.Spells n c ts' rest' ∧ c.StartsAlike ts ts' := by
  induction h generalizing rest' with
  | assign ht hx hq he =>
    obtain ⟨ts', hfront, he'⟩ := he.refit hr
    exact ⟨_, ((hfront.cons _).cons _).cons _, .assign ht hx hq he', rfl⟩
  | print ht he =>
    obtain ⟨ts', hfront, he'⟩ := he.refit hr
    exact ⟨_, hfront.cons _, .print ht he', rfl⟩
  | log ht he =>
    obtain ⟨ts', hfront, he'⟩ := he.refit hr
    exact ⟨_, hfront.cons _, .log ht he', rfl⟩
  | ifThen ht hc hb hu ih =>
    obtain ⟨mid', hbehind, hb', -⟩ := ih (.cons ..)
    obtain ⟨ts', hfront, hc'⟩ := hc.refit (hbehind.refits (.cons ..))
    exact ⟨_, ((hfront.trans hbehind).trans (.one ..)).cons _, .ifThen ht hc' hb' hu, rfl⟩
  | ifElse ht hc hb hu ho hv ihb iho =>
    obtain ⟨last', hlast, ho', -⟩ := iho (.cons _ _ rest')
    obtain ⟨mid', hbehind, hb', -⟩ := ihb (.cons ..)
    obtain ⟨ts', hfront, hc'⟩ := hc.refit (hbehind.refits (.cons ..))
    have hall := (hfront.trans hbehind).trans ((hlast.trans (.one ..)).cons _)
    exact ⟨_, hall.cons _, .ifElse ht hc' hb' hu ho' hv, rfl⟩
  | loop ht hc hb hu ih =>
    obtain ⟨mid', hbehind, hb', -⟩ := ih (.cons ..)
    obtain ⟨ts', hfront, hc'⟩ := hc.refit (hbehind.refits (.cons ..))
    exact ⟨_, ((hfront.trans hbehind).trans (.one ..)).cons _, .loop ht hc' hb' hu, rfl⟩
  | write ht hp hm hc =>
    obtain ⟨last', hlast, hc'⟩ := hc.refit hr
    obtain ⟨mid', hbehind, hm'⟩ := hm.refit last'
    obtain ⟨ts', hfront, hp'⟩ := hp.refit (hbehind.refits (hlast.refits hr))
    exact ⟨_, ((hfront.trans hbehind).trans hlast).cons _, .write ht hp' hm' hc', rfl⟩
  | @read _ _ _ _ x _ _ ht hp hm hx =>
    obtain ⟨mid', hbehind, hm'⟩ := hm.refit (x :: rest')
    obtain ⟨ts', hfront, hp'⟩ := hp.refit (hbehind.refits (.cons ..))
    exact ⟨_, ((hfront.trans hbehind).trans (.one ..)).cons _, .read ht hp' hm' hx, rfl⟩
  | delete ht hp =>
    obtain ⟨ts', hfront, hp'⟩ := hp.refit hr
    exact ⟨_, hfront.cons _, .delete ht hp', rfl⟩
  | @function _ _ v _ _ _ w _ _ _ _ ht hf hu hxs hv hb hw ih =>
    obtain ⟨mid', hbehind, hb', -⟩ := ih (.cons w _ rest')
    obtain ⟨ts', hfront, hxs'⟩ := hxs.refit (v :: mid')
    have hall := hfront.trans ((hbehind.trans (.one ..)).cons _)
    exact ⟨_, ((hall.cons _).cons _).cons _, .function ht hf hu hxs' hv hb' hw, rfl⟩
  | call ht hu hes hv =>
    obtain ⟨ts', hfront, hes'⟩ := hes.refit (.cons ..)
    exact ⟨_, ((hfront.trans (.one ..)).cons _).cons _, .call ht hu hes' hv, rfl⟩
  | giveBack ht he =>
    obtain ⟨ts', hfront, he'⟩ := he.refit hr
    exact ⟨_, hfront.cons _, .giveBack ht he', rfl⟩
  | nothing => exact ⟨rest', .refl .., .nothing, trivial⟩
  | separator ht hss ih =>
    obtain ⟨ts', hfront, hss', -⟩ := ih hr
    exact ⟨_, hfront.cons _, .separator ht hss', trivial⟩
  | more ht hs hss ihs ihss =>
    obtain ⟨mid', hbehind, hss', -⟩ := ihss hr
    obtain ⟨ts', hfront, hs', hstart⟩ := ihs (hbehind.refits hr)
    exact ⟨ts', hfront.trans hbehind, .more_refit ht hstart hs' hss', trivial⟩

section
variable {more : List Token}

theorem Phrase.Spells.extend (h : Phrase.Spells n p ts rest) (hmore : Closed more) :
    Phrase.Spells n p (ts ++ more) (rest ++ more) := by
  obtain ⟨ts', hfront, h'⟩ := h.refit (.append rest hmore)
  exact hfront.append ▸ h'

theorem Parameters.extend (h : Parameters xs ts rest) (more : List Token) :
    Parameters xs (ts ++ more) (rest ++ more) := by
  obtain ⟨ts', hfront, h'⟩ := h.refit (rest ++ more)
  exact hfront.append ▸ h'

/-- What spells a clause does so in front of tokens with which no expression at its end goes on. -/
theorem Clause.Spells.extend (h : Clause.Spells n c ts rest) (hmore : Closed more) :
    Clause.Spells n c (ts ++ more) (rest ++ more) := by
  obtain ⟨ts', hfront, h', -⟩ := h.refit (.append rest hmore)
  exact hfront.append ▸ h'

end

end Scriptlet
