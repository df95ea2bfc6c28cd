import Scriptlet.Proofs.Grammar.Steps

namespace Scriptlet
set_option autoImplicit true

/-- A left side that waits for its right side: an operand of a level and an operator that `writes`
accepts, or nothing. -/
def Pending.Behind (n : Nat) (l : Precedence) (writes : α → Token → Prop) (ts here : List Token) :
    Option (Expression × α) → Prop
  | none => ts = here
  | some (e, op) => ∃ t, Phrase.Spells n (.operand l e) ts (t :: here) ∧ writes op t

/-- The tokens of an expression before `here` spell what is pending in it. -/
def Pending.Spelled (n : Nat) (p : Pending) (ts here : List Token) : Prop :=
  ∃ a b c, Behind n .logic (fun op t => t.isKeyword op.word) ts a p.logic ∧
    Behind n .sum (fun op t => t.kind = op.kind) a b p.comparison ∧
    Behind n .sum (fun op t => op.precedence = .sum ∧ t.kind = op.kind) b c p.sum ∧
    Behind n .term (fun op t => op.precedence = .term ∧ t.kind = op.kind) c here p.term

/-- The tokens of `ts` before `here` are names, each with a comma behind it. -/
inductive NamesBefore : List String → List Token → List Token → Prop
  | nil : NamesBefore [] ts ts
  | cons (ht : t.kind = .identifier) (hu : u.kind = .comma) (hxs : NamesBefore xs ts here) :
      NamesBefore (t.lexeme :: xs) (t :: u :: ts) here

/-- The tokens of `ts` before `here` are expressions, each with a comma behind it. -/
inductive ListBefore (n : Nat) : List Expression → List Token → List Token → Prop
  | nil : ListBefore n [] ts ts
  | cons (he : Phrase.Spells n (.whole e) ts (t :: mid)) (ht : t.kind = .comma)
      (hes : ListBefore n es mid here) : ListBefore n (e :: es) ts here

/-- What surrounds an expression within the one that starts at `ts`, up to `here`, where the inner
one starts. The outer one has room for `n` open expressions and leaves room for `m` inside. -/
inductive Enclosed (n : Nat) : List Enclosure → Nat → List Token → List Token → Prop
  | nil : Enclosed n [] n ts ts
  | parens (he : Enclosed n outer (m + 1) ts mid) (hp : p.Spelled m mid (t :: here))
      (ht : t.kind = .leftParen) : Enclosed n (.parens p :: outer) m ts here
  | argument (he : Enclosed n outer (m + 1) ts mid) (hp : p.Spelled m mid (t :: u :: mid'))
      (ht : t.kind = .identifier) (hu : u.kind = .leftParen) (hes : ListBefore m es mid' here) :
      Enclosed n (.argument p t.lexeme es :: outer) m ts here

/-- The tokens of a statement before `here`, where the expression in the slot starts. -/
inductive Slot.Spelled (n : Nat) : Position → Slot → List Token → List Token → Prop
  | keyword (ht : t.isKeyword (Keyword.word k))
      (hk : k.phase t.position = .expression ⟨t.position, slot, []⟩) :
      Spelled n t.position slot (t :: here) here
  | assign (ht : t.isKeyword Keyword.assign.word) (hx : x.kind = .identifier)
      (hq : q.kind = .equal) : Spelled n t.position (.assign x.lexeme) (t :: x :: q :: here) here
  | content (ht : t.isKeyword (WriteMode.keyword mode).word)
      (hp : Phrase.Spells n (.whole path) ts mid) (hm : Apart mid here) :
      Spelled n t.position (.writeContent mode path) (t :: ts) here
  | argument (ht : t.IsPlainName) (hu : u.kind = .leftParen) (hes : ListBefore n es ts here) :
      Spelled n t.position (.argument t.lexeme es) (t :: u :: ts) here

def Site.Spelled (n : Nat) (site : Site) (m : Nat) (ts here : List Token) : Prop :=
  ∃ start, site.slot.Spelled n site.pos ts start ∧ Enclosed n site.enclosures m start here

inductive Header.Spelled : Nat → Position → Header → List Token → List Token → Prop
  | ifThen (ht : t.isKeyword Keyword.test.word) (hc : Phrase.Spells n (.whole c) ts here) :
      Spelled n t.position (.ifThen c) (t :: ts) here
  | ifElse (hh : Spelled (n + 1) pos (.ifThen c) ts mid)
      (hb : Clause.Spells n (.statements ["end", "else"] body) mid (u :: here))
      (hu : u.isKeyword "else") : Spelled (n + 1) pos (.ifElse c body) ts here
  | loop (ht : t.isKeyword Keyword.loop.word) (hc : Phrase.Spells n (.whole c) ts here) :
      Spelled n t.position (.loop c) (t :: ts) here
  | function (ht : t.isKeyword Keyword.function.word) (hf : f.kind = .identifier)
      (hu : u.kind = .leftParen) (hxs : Parameters xs ts (v :: here)) (hv : v.kind = .rightParen) :
      Spelled n t.position (.function f.lexeme xs) (t :: f :: u :: ts) here

/-- The tokens of a statement before `here`, where the next token is due in a phase. -/
inductive Phase.Spelled (n : Nat) : Phase → List Token → List Token → Prop
  | callee (ht : t.IsPlainName) : Spelled n (.callee t) (t :: here) here
  | firstStatementArgument (ht : t.IsPlainName) (hu : u.kind = .leftParen) :
      Spelled n (.firstStatementArgument t.position t.lexeme) (t :: u :: here) here
  | assignName (ht : t.isKeyword Keyword.assign.word) :
      Spelled n (.assignName t.position) (t :: here) here
  | assignEqual (ht : t.isKeyword Keyword.assign.word) (hx : x.kind = .identifier) :
      Spelled n (.assignEqual t.position x.lexeme) (t :: x :: here) here
  | functionName (ht : t.isKeyword Keyword.function.word) :
      Spelled n (.functionName t.position) (t :: here) here
  | functionParen (ht : t.isKeyword Keyword.function.word) (hf : f.kind = .identifier) :
      Spelled n (.functionParen t.position f.lexeme) (t :: f :: here) here
  | firstParameter (ht : t.isKeyword Keyword.function.word) (hf : f.kind = .identifier)
      (hu : u.kind = .leftParen) :
      Spelled n (.firstParameter t.position f.lexeme) (t :: f :: u :: here) here
  | parameter (ht : t.isKeyword Keyword.function.word) (hf : f.kind = .identifier)
      (hu : u.kind = .leftParen) (hxs : NamesBefore xs ts here) :
      Spelled n (.parameter t.position f.lexeme xs) (t :: f :: u :: ts) here
  | parameterEnd (ht : t.isKeyword Keyword.function.word) (hf : f.kind = .identifier)
      (hu : u.kind = .leftParen) (hxs : NamesBefore xs ts (x :: here)) (hx : x.kind = .identifier) :
      Spelled n (.parameterEnd t.position f.lexeme (xs ++ [x.lexeme])) (t :: f :: u :: ts) here
  | block (hh : Header.Spelled n pos header ts here) : Spelled n (.block pos header) ts here
  | content (ht : t.isKeyword (WriteMode.keyword mode).word)
      (hp : Phrase.Spells n (.whole path) ts mid) (hm : Apart mid here) :
      Spelled n (.content t.position mode path) (t :: ts) here
  | target (ht : t.isKeyword Keyword.read.word) (hp : Phrase.Spells n (.whole path) ts mid)
      (hm : Apart mid here) : Spelled n (.target t.position path) (t :: ts) here
  | expression (hs : site.Spelled n m ts here) : Spelled n (.expression site) ts here
  | operand (hs : site.Spelled n (m + 1) ts first) (hp : p.Spelled m first here) :
      Spelled n (.operand site p) ts here
  | name (hs : site.Spelled n (m + 1) ts first) (hp : p.Spelled m first (t :: here))
      (ht : t.kind = .identifier) : Spelled n (.name site p t.lexeme) ts here
  | firstArgument (hs : site.Spelled n (m + 1) ts first) (hp : p.Spelled m first (t :: u :: here))
      (ht : t.kind = .identifier) (hu : u.kind = .leftParen) :
      Spelled n (.firstArgument site p t.lexeme) ts here
  | numeral (hs : site.Spelled n (m + 1) ts first) (hp : p.Spelled m first (t :: here))
      (ht : t.kind = .number) : Spelled n (.numeral site p t) ts here
  | factor (hs : site.Spelled n (m + 1) ts first) (hp : p.Spelled m first mid)
      (he : Phrase.Spells m (.operand .factor e) mid here) : Spelled n (.factor site p e) ts here

/-- The tokens of `all` before `here` are finished statements and, in the innermost of the open
blocks, there is room for `n` more levels. -/
inductive Stands (N : Nat) (all : List Token) (reversed : List Statement) :
    Nat → List OpenBlock → List Token → Prop
  | outermost (hss : Clause.Spells N (.statements [] reversed.reverse) all here) :
      Stands N all reversed N [] here
  | block (ho : Stands N all reversed (n + 1) outer ts)
      (hc : ∀ t ∈ ts.head?, ¬ t.Closes (closersIn outer))
      (hh : header.Spelled (n + 1) pos ts mid)
      (hb : Clause.Spells n (.statements header.closers body.reverse) mid here) :
      Stands N all reversed n (⟨pos, header, body⟩ :: outer) here

namespace Draft

/-- Between statements, at a place where nothing closes the innermost block. -/
structure Starts (N : Nat) (all : List Token) (n : Nat) (d : Draft) (ts : List Token) : Prop where
  stands : Stands N all d.reversed n d.blocks ts
  opens : ∀ t ∈ ts.head?, ¬ t.Closes (closersIn d.blocks)

/-- The tokens of `all` before `here` spell what the draft holds. -/
inductive Spelled (N : Nat) (all : List Token) (d : Draft) (here : List Token) : Prop
  | between (h : Stands N all d.reversed n d.blocks here) (hp : d.phase = .statement)
  | within (h : d.Starts N all n ts) (hp : d.phase.Spelled n ts here)

end Draft

/-- The next token is `t`, which ends the input when there is none. -/
inductive Next (t : Token) : List Token → Prop
  | token (ht : t.kind ≠ .endOfInput) : Next t (t :: ts)
  | stop (ht : t.kind = .endOfInput) : Next t []

/-- What the token `t` at `here` makes of a draft is spelled by the tokens up to it. -/
def Progress.Spelled (N : Nat) (all : List Token) (t : Token) (here : List Token) : Progress → Prop
  | .more d => ∃ ts, here = t :: ts ∧ d.Spelled N all ts
  | .finished p => here = [] ∧ Program.SpelledBy N p all

namespace Pending

theorem extend?_cases {p : Pending} (h : p.extend? e t = some q) :
    (∃ op, Arithmetic.precedence op = .term ∧ t.kind = op.kind ∧
      q = { p with term := some (p.asTerm e, op) }) ∨
    (∃ op, Arithmetic.precedence op = .sum ∧ t.kind = op.kind ∧
      q = { p with sum := some (p.asSum e, op), term := none }) ∨
    (∃ op, p.comparison = none ∧ t.kind = Comparison.kind op ∧
      q = ⟨p.logic, some (p.asSum e, op), none, none⟩) ∨
    ∃ op : Connective, t.isKeyword op.word ∧ q = p.connect e op := by
  have compare {op : Comparison} (h : p.compare? e op = some q) :
      p.comparison = none ∧ q = ⟨p.logic, some (p.asSum e, op), none, none⟩ := by
    unfold compare? at h
    split at h
    · cases h
    · exact ⟨‹_›, (Option.some.inj h).symm⟩
  unfold extend? at h
  split at h
  · exact .inl ⟨.multiply, rfl, ‹_›, (Option.some.inj h).symm⟩
  · exact .inl ⟨.divide, rfl, ‹_›, (Option.some.inj h).symm⟩
  · exact .inr (.inl ⟨.add, rfl, ‹_›, (Option.some.inj h).symm⟩)
  · exact .inr (.inl ⟨.subtract, rfl, ‹_›, (Option.some.inj h).symm⟩)
  · exact .inr (.inr (.inl ⟨.greater, (compare h).1, ‹_›, (compare h).2⟩))
  · exact .inr (.inr (.inl ⟨.less, (compare h).1, ‹_›, (compare h).2⟩))
  · exact .inr (.inr (.inl ⟨.greaterEqual, (compare h).1, ‹_›, (compare h).2⟩))
  · exact .inr (.inr (.inl ⟨.lessEqual, (compare h).1, ‹_›, (compare h).2⟩))
  · exact .inr (.inr (.inl ⟨.equal, (compare h).1, ‹_›, (compare h).2⟩))
  · exact .inr (.inr (.inl ⟨.notEqual, (compare h).1, ‹_›, (compare h).2⟩))
  · refine .inr (.inr (.inr ?_))
    split at h
    · exact ⟨.and, ‹_›, (Option.some.inj h).symm⟩
    · split at h
      · exact ⟨.or, ‹_›, (Option.some.inj h).symm⟩
      · cases h

theorem empty_spelled (n : Nat) (ts : List Token) : empty.Spelled n ts ts :=
  ⟨ts, ts, ts, rfl, rfl, rfl, rfl⟩

section
variable {n : Nat} {ts here rest : List Token} {e : Expression}

theorem Behind.joinTerm {left : Option (Expression × Arithmetic)}
    (h : Behind n .term (fun op t => op.precedence = .term ∧ t.kind = op.kind) ts here left)
    (he : Phrase.Spells n (.operand .factor e) here rest) :
    Phrase.Spells n (.operand .term (joinArithmetic left e)) ts rest := by
  cases left with
  | none =>
    obtain rfl := h
    exact .term he
  | some left =>
    obtain ⟨t, ha, hop, ht⟩ := h
    exact .product ha hop ht he

theorem Behind.joinSum {left : Option (Expression × Arithmetic)}
    (h : Behind n .sum (fun op t => op.precedence = .sum ∧ t.kind = op.kind) ts here left)
    (he : Phrase.Spells n (.operand .term e) here rest) :
    Phrase.Spells n (.operand .sum (joinArithmetic left e)) ts rest := by
  cases left with
  | none =>
    obtain rfl := h
    exact .sum he
  | some left =>
    obtain ⟨t, ha, hop, ht⟩ := h
    exact .total ha hop ht he

theorem Behind.joinComparison {left : Option (Expression × Comparison)}
    (h : Behind n .sum (fun op t => t.kind = op.kind) ts here left)
    (he : Phrase.Spells n (.operand .sum e) here rest) :
    Phrase.Spells n (.operand .comparison (Pending.joinComparison left e)) ts rest := by
  cases left with
  | none =>
    obtain rfl := h
    exact .comparison he
  | some left =>
    obtain ⟨t, ha, ht⟩ := h
    exact .compare ha ht he

theorem Behind.joinLogic {left : Option (Expression × Connective)}
    (h : Behind n .logic (fun op t => t.isKeyword op.word) ts here left)
    (he : Phrase.Spells n (.operand .comparison e) here rest) :
    Phrase.Spells n (.operand .logic (Pending.joinLogic left e)) ts rest := by
  cases left with
  | none =>
    obtain rfl := h
    exact .logic he
  | some left =>
    obtain ⟨t, ha, ht⟩ := h
    exact .connect ha ht he

theorem Spelled.asWhole {p : Pending} (h : p.Spelled n ts here)
    (he : Phrase.Spells n (.operand .factor e) here rest) :
    Phrase.Spells n (.operand .logic (p.asWhole e)) ts rest := by
  obtain ⟨a, b, c, hl, hc, hs, ht⟩ := h
  exact hl.joinLogic (hc.joinComparison (hs.joinSum (ht.joinTerm he)))

/-- A factor and an operator make a left side, joined with all that binds no looser. -/
theorem Spelled.extend {p : Pending} (h : p.Spelled n ts here)
    (he : Phrase.Spells n (.operand .factor e) here (t :: rest)) (hq : p.extend? e t = some q) :
    q.Spelled n ts rest := by
  have hwhole := h.asWhole he
  obtain ⟨a, b, c, hl, hc, hs, ht⟩ := h
  have hterm := ht.joinTerm he
  have hsum := hs.joinSum hterm
  rcases extend?_cases hq with ⟨op, hop, hk, rfl⟩ | ⟨op, hop, hk, rfl⟩ | ⟨op, hn, hk, rfl⟩ |
    ⟨op, hk, rfl⟩
  · exact ⟨a, b, c, hl, hc, hs, t, hterm, hop, hk⟩
  · exact ⟨a, b, rest, hl, hc, ⟨t, hsum, hop, hk⟩, rfl⟩
  · rw [hn] at hc
    obtain rfl : a = b := hc
    exact ⟨a, rest, rest, hl, ⟨t, hsum, hk⟩, rfl, rfl⟩
  · exact ⟨rest, rest, rest, ⟨t, hwhole, hk⟩, rfl, rfl, rfl⟩

end

end Pending

section
variable {n : Nat} {ts mid here rest : List Token}

theorem NamesBefore.snoc (h : NamesBefore xs ts (x :: u :: here)) (hx : x.kind = .identifier)
    (hu : u.kind = .comma) : NamesBefore (xs ++ [x.lexeme]) ts here := by
  generalize hm : x :: u :: here = mid at h
  induction h with
  | nil =>
    subst hm
    exact .cons hx hu .nil
  | cons ht hv hxs ih => exact .cons ht hv (ih hm)

theorem NamesBefore.names (h : NamesBefore xs ts (x :: here)) (hx : x.kind = .identifier) :
    Names (xs ++ [x.lexeme]) ts here := by
  generalize hm : x :: here = mid at h
  induction h with
  | nil =>
    subst hm
    exact .last hx
  | cons ht hu hxs ih => exact .more ht hu (ih hm)

theorem ListBefore.snoc (h : ListBefore n es ts mid)
    (he : Phrase.Spells n (.whole e) mid (t :: here)) (ht : t.kind = .comma) :
    ListBefore n (es ++ [e]) ts here := by
  induction h with
  | nil => exact .cons he ht .nil
  | cons hf hu hes ih => exact .cons hf hu (ih he)

theorem ListBefore.list (h : ListBefore n es ts here)
    (he : Phrase.Spells n (.whole e) here rest) : Phrase.Spells n (.list (es ++ [e])) ts rest := by
  induction h with
  | nil => exact .last he
  | cons hf hu hes ih => exact .more hf hu (ih he)

theorem Apart.refl (ts : List Token) : Apart ts ts :=
  ⟨[], rfl, fun _ h => by cases h⟩

theorem Apart.snoc (h : Apart ts (t :: here)) (ht : t.kind = .semicolon) : Apart ts here := by
  obtain ⟨gap, rfl, hg⟩ := h
  refine ⟨gap ++ [t], by simp, fun u hu => ?_⟩
  rcases List.mem_append.1 hu with hu | hu
  · exact hg u hu
  · rw [List.mem_singleton.1 hu, ht]

theorem Enclosed.room (h : Enclosed n es m ts here) : m + es.length = n := by
  induction h with
  | nil => rfl
  | parens he hp ht ih | argument he hp ht hu hes ih =>
    rw [List.length_cons]
    omega

theorem Clause.Spells.append (h : Clause.Spells n (.statements closers ss) ts mid)
    (h' : Clause.Spells n (.statements closers ss') mid rest) :
    Clause.Spells n (.statements closers (ss ++ ss')) ts rest := by
  generalize hc : Clause.statements closers ss = c at h
  induction h generalizing ss with
  | nothing =>
    cases hc
    exact h'
  | separator ht hss ih =>
    cases hc
    exact .separator ht (ih h' rfl)
  | more ht hs hss ihs ihss =>
    cases hc
    exact .more ht hs (ihss h' rfl)
  | _ => cases hc

theorem Header.Spelled.complete {header : Header} (h : header.Spelled (n + 1) pos ts mid)
    (hb : Clause.Spells n (.statements header.closers body) mid (u :: rest))
    (hu : u.isKeyword "end") :
    Clause.Spells (n + 1) (.statement (header.complete pos body)) ts rest := by
  cases h with
  | ifThen ht hc => exact .ifThen ht hc hb hu
  | ifElse hh hthen helse =>
    cases hh with
    | ifThen ht hc => exact .ifElse ht hc hthen helse hb hu
  | loop ht hc => exact .loop ht hc hb hu
  | function ht hf hp hxs hv => exact .function ht hf hp hxs hv hb hu

end

section
variable {N n : Nat} {all ts here : List Token}

theorem Stands.room (h : Stands N all reversed n blocks here) : n + blocks.length = N := by
  induction h with
  | outermost hss => rfl
  | block ho hc hh hb ih =>
    rw [List.length_cons]
    omega

theorem Stands.separator (h : Stands N all reversed n blocks (t :: here))
    (ht : t.kind = .semicolon) : Stands N all reversed n blocks here := by
  cases h with
  | outermost hss =>
    have happ := hss.append (.separator ht .nothing)
    rw [List.append_nil] at happ
    exact .outermost happ
  | block ho hc hh hb =>
    have happ := hb.append (.separator ht .nothing)
    rw [List.append_nil] at happ
    exact .block ho hc hh happ

namespace Draft

theorem Starts.goto {d : Draft} {phase : Phase} (h : d.Starts N all n ts)
    (hp : phase.Spelled n ts here) : (d.goto phase).Spelled N all here :=
  .within ⟨h.stands, h.opens⟩ hp

theorem Starts.add {d : Draft} (h : d.Starts N all n ts)
    (hs : Clause.Spells n (.statement s) ts here) :
    Stands N all (d.add s).reversed n (d.add s).blocks here := by
  obtain ⟨reversed, blocks, phase⟩ := d
  obtain ⟨hst, ho⟩ := h
  obtain ⟨t, ts, rfl⟩ := hs.head
  have hone {closers : List String} (hc : ¬ t.Closes closers) :
      Clause.Spells n (.statements closers [s]) (t :: ts) here := .more hc hs .nothing
  cases hst with
  | outermost hss =>
    have happ := hss.append (hone (ho t rfl))
    rw [← List.reverse_cons] at happ
    exact .outermost happ
  | block hob hc hh hb =>
    have happ := hb.append (hone (ho t rfl))
    rw [← List.reverse_cons] at happ
    exact .block hob hc hh happ

end Draft

end

end Scriptlet
