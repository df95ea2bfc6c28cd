import Scriptlet.Proofs.Printing.Lexing

namespace Scriptlet
set_option autoImplicit true

def Expression.precedence : Expression → Precedence
  | .binary (.arithmetic op) _ _ => op.precedence
  | .binary (.comparison _) _ _ => .comparison
  | .logical .. => .logic
  | _ => .factor

def Statement.opening : Statement → String
  | .call _ f _ => f
  | s => s.name

/-- A phrase can be written with at most `n` expressions open at once if it has only the parentheses
that are forced, and its names and numbers can be written at all. -/
inductive Phrase.Fits : Nat → Phrase → Prop
  | string : Fits n (.operand l (.string s))
  | number (hv : 0 ≤ Int64.toInt v) : Fits n (.operand l (.number v))
  | var (hx : IsName x) : Fits n (.operand l (.var x))
  | callNone (hf : IsName f) : Fits n (.operand l (.call f []))
  | call (hf : IsName f) (hes : Fits n (.list es)) : Fits n (.operand l (.call f es))
  | arithmetic (hl : op.precedence.rank ≤ Precedence.rank l)
      (ha : Fits n (.operand op.precedence a)) (hb : Fits n (.operand op.precedence.tighter b)) :
      Fits n (.operand l (.binary (.arithmetic op) a b))
  | comparison (hl : Precedence.comparison.rank ≤ l.rank) (ha : Fits n (.operand .sum a))
      (hb : Fits n (.operand .sum b)) : Fits n (.operand l (.binary (.comparison op) a b))
  | logic (hl : Precedence.logic.rank ≤ l.rank) (ha : Fits n (.operand .logic a))
      (hb : Fits n (.operand .comparison b)) : Fits n (.operand l (.logical op a b))
  | enclosed (hl : l.rank < e.precedence.rank) (he : Fits n (.whole e)) : Fits n (.operand l e)
  | whole (he : Fits n (.operand .logic e)) : Fits (n + 1) (.whole e)
  | last (he : Fits n (.whole e)) : Fits n (.list [e])
  | more (he : Fits n (.whole e)) (hes : Fits n (.list es)) : Fits n (.list (e :: es))

/-- A clause can be written with at most `n` expressions and blocks open at once. -/
inductive Clause.Fits : Nat → Clause → Prop
  | assign (hx : IsName x) (he : Phrase.Fits n (.whole e)) : Fits n (.statement (.assign pos x e))
  | print (he : Phrase.Fits n (.whole e)) : Fits n (.statement (.print pos e))
  | log (he : Phrase.Fits n (.whole e)) : Fits n (.statement (.log pos e))
  | ifThen (hc : Phrase.Fits (n + 1) (.whole c)) (hb : Fits n (.statements ["end", "else"] body)) :
      Fits (n + 1) (.statement (.ifThen pos c body))
  | ifElse (hc : Phrase.Fits (n + 1) (.whole c)) (hb : Fits n (.statements ["end", "else"] body))
      (ho : Fits n (.statements ["end"] otherwise)) :
      Fits (n + 1) (.statement (.ifElse pos c body otherwise))
  | loop (hc : Phrase.Fits (n + 1) (.whole c)) (hb : Fits n (.statements ["end"] body)) :
      Fits (n + 1) (.statement (.loop pos c body))
  | write (hp : Phrase.Fits n (.whole path)) (hc : Phrase.Fits n (.whole content)) :
      Fits n (.statement (.write pos mode path content))
  | read (hp : Phrase.Fits n (.whole path)) (hx : IsName x) :
      Fits n (.statement (.read pos path x))
  | delete (hp : Phrase.Fits n (.whole path)) : Fits n (.statement (.delete pos path))
  | function (hf : IsName f) (hxs : ∀ x ∈ xs, IsName x) (hb : Fits n (.statements ["end"] body)) :
      Fits (n + 1) (.statement (.function pos f xs body))
  | call (hf : IsName f) (hk : Keyword.ofName? f = none)
      (hes : es = [] ∨ Phrase.Fits n (.list es)) : Fits n (.statement (.call pos f es))
  | giveBack (he : Phrase.Fits n (.whole e)) : Fits n (.statement (.giveBack pos e))
  | nothing : Fits n (.statements closers [])
  | more (hc : ∀ w ∈ closers, s.opening.toLower ≠ String.toLower w) (hs : Fits n (.statement s))
      (hss : Fits n (.statements closers ss)) : Fits n (.statements closers (s :: ss))

namespace Phrase

theorem Fits.mono (h : Fits n p) (hnm : n ≤ m) : Fits m p := by
  induction h generalizing m with
  | string => exact .string
  | number hv => exact .number hv
  | var hx => exact .var hx
  | callNone hf => exact .callNone hf
  | call hf hes ih => exact .call hf (ih hnm)
  | arithmetic hl ha hb iha ihb => exact .arithmetic hl (iha hnm) (ihb hnm)
  | comparison hl ha hb iha ihb => exact .comparison hl (iha hnm) (ihb hnm)
  | logic hl ha hb iha ihb => exact .logic hl (iha hnm) (ihb hnm)
  | enclosed hl he ih => exact .enclosed hl (ih hnm)
  | whole he ih =>
    obtain ⟨m, rfl⟩ := Nat.exists_eq_add_one_of_ne_zero (show m ≠ 0 by omega)
    exact .whole (ih (by omega))
  | last he ih => exact .last (ih hnm)
  | more he hes ih ihs => exact .more (ih hnm) (ihs hnm)

/-- An operand that needs no parentheses at a level is written there as where all operators are. -/
theorem Fits.tighten (h : Fits n (.operand .logic e)) (hl : e.precedence.rank ≤ l.rank) :
    Fits n (.operand l e) := by
  cases h with
  | string => exact .string
  | number hv => exact .number hv
  | var hx => exact .var hx
  | callNone hf => exact .callNone hf
  | call hf hes => exact .call hf hes
  | arithmetic _ ha hb => exact .arithmetic hl ha hb
  | comparison _ ha hb => exact .comparison hl ha hb
  | logic _ ha hb => exact .logic hl ha hb
  | enclosed hlt he =>
    have hle : e.precedence.rank ≤ Precedence.logic.rank := by cases e.precedence <;> decide
    exact absurd hlt (Nat.not_lt.2 hle)

/-- Parentheses are not missed where they are not forced. -/
theorem Fits.parens (h : Fits n (.whole e)) : Fits n (.operand l e) := by
  by_cases hl : l.rank < e.precedence.rank
  · exact .enclosed hl h
  · cases h with
    | whole he => exact (he.tighten (Nat.le_of_not_lt hl)).mono (Nat.le_succ _)

theorem Fits.loosen (h : Fits n (.operand l e)) (hl : l.rank ≤ l'.rank) :
    Fits n (.operand l' e) := by
  cases h with
  | string => exact .string
  | number hv => exact .number hv
  | var hx => exact .var hx
  | callNone hf => exact .callNone hf
  | call hf hes => exact .call hf hes
  | arithmetic h ha hb => exact .arithmetic (Nat.le_trans h hl) ha hb
  | comparison h ha hb => exact .comparison (Nat.le_trans h hl) ha hb
  | logic h ha hb => exact .logic (Nat.le_trans h hl) ha hb
  | enclosed _ he => exact he.parens

end Phrase

theorem IsDigits.nonneg (h : IsDigits x) (hv : Integer.Numeral x.toList i) : 0 ≤ i := by
  obtain ⟨-, hx⟩ := h
  generalize x.toList = cs at hx hv
  cases hv with
  | plain hne hd => exact Int.natCast_nonneg _
  | plus hne hd => exact absurd (hx '+' (List.mem_cons_self ..)) (by decide)
  | minus hne hd => exact absurd (hx '-' (List.mem_cons_self ..)) (by decide)

/-- What genuine tokens spell fits into the room that they took, since parentheses that are forced
stand in them too. -/
theorem Phrase.Spells.fits (h : Phrase.Spells n p ts rest) (hg : ∀ t ∈ ts, t.Genuine) :
    p.Fits n ∧ ∀ t ∈ rest, t.Genuine := by
  induction h with
  | string ht => exact ⟨.string, (List.forall_mem_cons.1 hg).2⟩
  | number ht hv =>
    obtain ⟨htg, hg⟩ := List.forall_mem_cons.1 hg
    exact ⟨.number ((htg.number ht).nonneg hv), hg⟩
  | var ht hr =>
    obtain ⟨htg, hg⟩ := List.forall_mem_cons.1 hg
    exact ⟨.var (htg.name ht), hg⟩
  | parens ht he hu ih =>
    -- The expression had room within its parentheses, so it has it within forced ones or none.
    obtain ⟨hfit, hg⟩ := ih (List.forall_mem_cons.1 hg).2
    exact ⟨hfit.parens, (List.forall_mem_cons.1 hg).2⟩
  | callNone ht hu hv =>
    simp only [List.forall_mem_cons] at hg
    exact ⟨.callNone (hg.1.name ht), hg.2.2.2⟩
  | call ht hu hes hv ih =>
    simp only [List.forall_mem_cons] at hg
    obtain ⟨hfit, hg'⟩ := ih hg.2.2
    exact ⟨.call (hg.1.name ht) hfit, (List.forall_mem_cons.1 hg').2⟩
  | term he ih | sum he ih | comparison he ih | logic he ih =>
    obtain ⟨hfit, hg⟩ := ih hg
    exact ⟨hfit.loosen (by decide), hg⟩
  | product ha hop ht hb iha ihb =>
    obtain ⟨hfita, hg⟩ := iha hg
    obtain ⟨hfitb, hg⟩ := ihb (List.forall_mem_cons.1 hg).2
    refine ⟨.arithmetic (Nat.le_of_eq (congrArg Precedence.rank hop)) ?_ ?_, hg⟩
    · rwa [hop]
    · rwa [hop]
  | total ha hop ht hb iha ihb =>
    obtain ⟨hfita, hg⟩ := iha hg
    obtain ⟨hfitb, hg⟩ := ihb (List.forall_mem_cons.1 hg).2
    refine ⟨.arithmetic (Nat.le_of_eq (congrArg Precedence.rank hop)) ?_ ?_, hg⟩
    · rwa [hop]
    · rwa [hop]
  | compare ha ht hb iha ihb =>
    obtain ⟨hfita, hg⟩ := iha hg
    obtain ⟨hfitb, hg⟩ := ihb (List.forall_mem_cons.1 hg).2
    exact ⟨.comparison (Nat.le_refl _) hfita hfitb, hg⟩
  | connect ha ht hb iha ihb =>
    obtain ⟨hfita, hg⟩ := iha hg
    obtain ⟨hfitb, hg⟩ := ihb (List.forall_mem_cons.1 hg).2
    exact ⟨.logic (Nat.le_refl _) hfita hfitb, hg⟩
  | whole he hr ih =>
    obtain ⟨hfit, hg⟩ := ih hg
    exact ⟨.whole hfit, hg⟩
  | last he ih =>
    obtain ⟨hfit, hg⟩ := ih hg
    exact ⟨.last hfit, hg⟩
  | more he ht hes ih ihs =>
    obtain ⟨hfit, hg⟩ := ih hg
    obtain ⟨hfits, hg⟩ := ihs (List.forall_mem_cons.1 hg).2
    exact ⟨.more hfit hfits, hg⟩

theorem Names.fit (h : Names xs ts rest) (hg : ∀ t ∈ ts, t.Genuine) :
    (∀ x ∈ xs, IsName x) ∧ ∀ t ∈ rest, t.Genuine := by
  induction h with
  | last ht =>
    obtain ⟨htg, hg⟩ := List.forall_mem_cons.1 hg
    exact ⟨by simpa using htg.name ht, hg⟩
  | more ht hu hxs ih =>
    simp only [List.forall_mem_cons] at hg
    obtain ⟨hxs, hg'⟩ := ih hg.2.2
    exact ⟨List.forall_mem_cons.2 ⟨hg.1.name ht, hxs⟩, hg'⟩

theorem Parameters.fit (h : Parameters xs ts rest) (hg : ∀ t ∈ ts, t.Genuine) :
    (∀ x ∈ xs, IsName x) ∧ ∀ t ∈ rest, t.Genuine := by
  rcases h with ⟨rfl, rfl⟩ | h
  · exact ⟨by simp, hg⟩
  · exact h.fit hg

theorem Arguments.fit (h : Arguments n es ts rest) (hg : ∀ t ∈ ts, t.Genuine) :
    (es = [] ∨ Phrase.Fits n (.list es)) ∧ ∀ t ∈ rest, t.Genuine := by
  rcases h with ⟨rfl, rfl⟩ | h
  · exact ⟨.inl rfl, hg⟩
  · exact ⟨.inr (h.fits hg).1, (h.fits hg).2⟩

theorem Apart.genuine (h : Apart ts rest) (hg : ∀ t ∈ ts, t.Genuine) :
    ∀ t ∈ rest, t.Genuine := by
  obtain ⟨gap, rfl, -⟩ := h
  exact fun t ht => hg t (List.mem_append_right gap ht)

theorem Clause.Spells.kind (h : Clause.Spells n (.statement s) (t :: ts) rest) :
    t.kind = .identifier := by
  cases h with
  | call ht hu hes hv => exact ht.1
  | assign ht | print ht | log ht | ifThen ht | ifElse ht | loop ht | write ht | read ht | delete ht
  | function ht | giveBack ht => exact (Token.isKeyword_iff.1 ht).1

theorem Clause.Spells.opening (h : Clause.Spells n (.statement s) (t :: ts) rest) :
    t.lexeme.toLower = s.opening.toLower := by
  cases h with
  | call ht hu hes hv => rfl
  | @write _ _ _ _ _ _ _ mode _ ht hp hm hc =>
    cases mode <;> exact (Token.isKeyword_iff.1 ht).2
  | assign ht | print ht | log ht | ifThen ht | ifElse ht | loop ht | read ht | delete ht
  | function ht | giveBack ht => exact (Token.isKeyword_iff.1 ht).2

theorem Clause.Spells.fits (h : Clause.Spells n c ts rest) (hg : ∀ t ∈ ts, t.Genuine) :
    c.Fits n ∧ ∀ t ∈ rest, t.Genuine := by
  induction h with
  | assign ht hx hq he =>
    simp only [List.forall_mem_cons] at hg
    obtain ⟨hfit, hg'⟩ := he.fits hg.2.2.2
    exact ⟨.assign (hg.2.1.name hx) hfit, hg'⟩
  | print ht he =>
    obtain ⟨hfit, hg⟩ := he.fits (List.forall_mem_cons.1 hg).2
    exact ⟨.print hfit, hg⟩
  | log ht he =>
    obtain ⟨hfit, hg⟩ := he.fits (List.forall_mem_cons.1 hg).2
    exact ⟨.log hfit, hg⟩
  | ifThen ht hc hb hu ih =>
    obtain ⟨hfit, hg⟩ := hc.fits (List.forall_mem_cons.1 hg).2
    obtain ⟨hbody, hg⟩ := ih hg
    exact ⟨.ifThen hfit hbody, (List.forall_mem_cons.1 hg).2⟩
  | ifElse ht hc hb hu ho hv ihb iho =>
    obtain ⟨hfit, hg⟩ := hc.fits (List.forall_mem_cons.1 hg).2
    obtain ⟨hbody, hg⟩ := ihb hg
    obtain ⟨hother, hg⟩ := iho (List.forall_mem_cons.1 hg).2
    exact ⟨.ifElse hfit hbody hother, (List.forall_mem_cons.1 hg).2⟩
  | loop ht hc hb hu ih =>
    obtain ⟨hfit, hg⟩ := hc.fits (List.forall_mem_cons.1 hg).2
    obtain ⟨hbody, hg⟩ := ih hg
    exact ⟨.loop hfit hbody, (List.forall_mem_cons.1 hg).2⟩
  | write ht hp hm hc =>
    obtain ⟨hfit, hg⟩ := hp.fits (List.forall_mem_cons.1 hg).2
    obtain ⟨hfit', hg⟩ := hc.fits (hm.genuine hg)
    exact ⟨.write hfit hfit', hg⟩
  | read ht hp hm hx =>
    obtain ⟨hfit, hg⟩ := hp.fits (List.forall_mem_cons.1 hg).2
    obtain ⟨hxg, hg⟩ := List.forall_mem_cons.1 (hm.genuine hg)
    exact ⟨.read hfit (hxg.name hx), hg⟩
  | delete ht hp =>
    obtain ⟨hfit, hg⟩ := hp.fits (List.forall_mem_cons.1 hg).2
    exact ⟨.delete hfit, hg⟩
  | function ht hf hu hxs hv hb hw ih =>
    simp only [List.forall_mem_cons] at hg
    obtain ⟨hnames, hg'⟩ := hxs.fit hg.2.2.2
    obtain ⟨hbody, hg'⟩ := ih (List.forall_mem_cons.1 hg').2
    exact ⟨.function (hg.2.1.name hf) hnames hbody, (List.forall_mem_cons.1 hg').2⟩
  | call ht hu hes hv =>
    simp only [List.forall_mem_cons] at hg
    obtain ⟨hfit, hg'⟩ := hes.fit hg.2.2
    obtain ⟨hi, hk⟩ := Token.isPlainName_iff.1 ht
    exact ⟨.call (hg.1.name hi) hk hfit, (List.forall_mem_cons.1 hg').2⟩
  | giveBack ht he =>
    obtain ⟨hfit, hg⟩ := he.fits (List.forall_mem_cons.1 hg).2
    exact ⟨.giveBack hfit, hg⟩
  | nothing => exact ⟨.nothing, hg⟩
  | separator ht hss ih => exact ih (List.forall_mem_cons.1 hg).2
  | @more n s t ts mid closers ss rest ht hs hss ihs ihss =>
    obtain ⟨hfit, hg'⟩ := ihs hg
    obtain ⟨hfits, hg'⟩ := ihss hg'
    refine ⟨.more (fun w hw hl => ht ⟨w, hw, ?_⟩) hfit hfits, hg'⟩
    exact Token.isKeyword_iff.2 ⟨hs.kind, hs.opening.trans hl⟩

end Scriptlet
