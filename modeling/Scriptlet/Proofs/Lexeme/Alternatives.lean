import Scriptlet.Proofs.Lexeme

namespace Scriptlet
set_option autoImplicit true

/-- A rule of the grammar of tokens. Of two alternatives the first one that matches is taken, and a
repetition goes on as long as it can. -/
inductive Rule
  | char (p : Char → Bool)
  | seq (first second : Rule)
  | alt (first second : Rule)
  | star (r : Rule)
  | absent (r : Rule)

namespace Rule

/-- How many characters are taken by so many rounds of `f`, or by fewer where it fails. -/
def repeated (f : List Char → Option Nat) : Nat → List Char → Nat
  | 0, _ => 0
  | rounds + 1, cs =>
    match f cs with
    | none => 0
    | some n => n + repeated f rounds (cs.drop n)

/-- How many characters at the head of a text a rule takes, if it matches. No rule is repeated that
takes none, so that there are no more rounds than characters. -/
@[simp] def taken? : Rule → List Char → Option Nat
  | char _, [] => none
  | char p, c :: _ => if p c then some 1 else none
  | seq first second, cs =>
    (first.taken? cs).bind fun n => (second.taken? (cs.drop n)).map (n + ·)
  | alt first second, cs => (first.taken? cs).orElse fun _ => second.taken? cs
  | star r, cs => some (repeated r.taken? cs.length cs)
  | absent r, cs => if (r.taken? cs).isSome then none else some 0

@[simp] def lit (c : Char) : Rule :=
  char (· = c)

def any : Rule :=
  char fun _ => true

def plus (r : Rule) : Rule :=
  seq r (star r)

def skip : Rule :=
  plus (alt (lit ' ') (alt (lit '\t') (lit '\r')))

def comment : Rule :=
  seq (lit '#') (star (seq (absent (lit '\n')) any))

/-- What stands between the quotes of a string, one round of it. -/
def stringPart : Rule :=
  alt (seq (lit '\\') any) (seq (absent (alt (lit '"') (lit '\\'))) any)

def string : Rule :=
  seq (lit '"') (seq (star stringPart) (lit '"'))

def number : Rule :=
  plus (char Char.isDigit)

def ident : Rule :=
  seq (alt (char Char.isAlpha) (lit '_')) (star (alt (char Char.isAlphanum) (lit '_')))

/-- The alternatives for a token, in the order in which they are tried, each with the class of its
token, which is `none` for what is skipped. -/
def alternatives : List (Option TokenKind × Rule) :=
  [(none, skip),
    (none, lit '\n'),
    (none, comment),
    (some .equalEqual, seq (lit '=') (lit '=')),
    (some .greaterEqual, seq (lit '>') (lit '=')),
    (some .lessEqual, seq (lit '<') (lit '=')),
    (some .notEqual, seq (lit '!') (lit '=')),
    (some .greater, lit '>'),
    (some .less, lit '<'),
    (some .string, string),
    (some .number, number),
    (some .identifier, ident),
    (some .plus, lit '+'),
    (some .minus, lit '-'),
    (some .star, lit '*'),
    (some .slash, lit '/'),
    (some .equal, lit '='),
    (some .semicolon, lit ';'),
    (some .leftParen, lit '('),
    (some .rightParen, lit ')'),
    (some .comma, lit ',')]

/-- The class of the first alternative that matches at the head of a text, and how many characters
it takes. -/
def token? (cs : List Char) : Option (Option TokenKind × Nat) :=
  alternatives.findSome? fun x => (x.2.taken? cs).map (x.1, ·)

theorem repeated_char (p : Char → Bool) (cs : List Char) (h : cs.length ≤ rounds) :
    repeated (char p).taken? rounds cs = Piece.run p cs := by
  induction cs generalizing rounds with
  | nil => cases rounds <;> rfl
  | cons c cs ih =>
    obtain _ | rounds := rounds
    · cases h
    · have hrest := ih (Nat.le_of_succ_le_succ h)
      by_cases hc : p c
      · simp [repeated, Piece.run, hc, hrest, Nat.add_comm 1]
      · simp [repeated, Piece.run, hc]

theorem taken?_star {r : Rule} (h : r.taken? = (char p).taken?) (cs : List Char) :
    (star r).taken? cs = some (Piece.run p cs) := by
  rw [taken?, h, repeated_char p cs (Nat.le_refl _)]

theorem taken?_plus {r : Rule} (h : r.taken? = (char p).taken?) (hc : p c) (rest : List Char) :
    (plus r).taken? (c :: rest) = some (Piece.run p rest + 1) := by
  have hfirst : (char p).taken? (c :: rest) = some 1 := if_pos hc
  rw [plus, taken?, h, hfirst, Option.bind_some, List.drop_one, List.tail_cons, taken?_star h,
    Option.map_some, Nat.add_comm]

theorem stringPart_plain {c : Char} (hq : c ≠ '"') (hb : c ≠ '\\') (rest : List Char) :
    stringPart.taken? (c :: rest) = some 1 := by
  simp [stringPart, any, hq, hb]

theorem taken?_closing (seen : Nat) (rest : List Char) (h : rest.length ≤ rounds) :
    ((lit '"').taken? (rest.drop (repeated stringPart.taken? rounds rest))).map
      (seen + repeated stringPart.taken? rounds rest + ·) = Piece.closing? seen rest := by
  fun_induction Piece.closing? seen rest generalizing rounds with
  | case1 seen =>
    rcases rounds with _ | rounds
    · rfl
    · rfl
  | case2 seen rest =>
    rcases rounds with _ | rounds
    · rfl
    · rfl
  | case3 seen =>
    rcases rounds with _ | rounds
    · cases h
    · rfl
  | case4 seen c rest ih =>
    rcases rounds with _ | rounds
    · cases h
    · have hrest : rest.length ≤ rounds := by
        simp only [List.length_cons] at h
        omega
      have hpair : stringPart.taken? ('\\' :: c :: rest) = some 2 := rfl
      rw [repeated, hpair, ← ih hrest]
      dsimp only
      rw [← List.drop_drop, ← Nat.add_assoc]
      rfl
  | case5 seen c rest hq hlast hpair ih =>
    have hb : c ≠ '\\' := by
      intro hc
      cases rest with
      | nil => exact hlast hc rfl
      | cons d rest => exact hpair d rest hc rfl
    rcases rounds with _ | rounds
    · cases h
    · rw [repeated, stringPart_plain hq hb, ← ih (Nat.le_of_succ_le_succ h)]
      dsimp only
      rw [← List.drop_drop, ← Nat.add_assoc]
      rfl

theorem taken?_string (rest : List Char) :
    string.taken? ('"' :: rest) = (Piece.closing? 0 rest).map (· + 1) := by
  have hfirst : (lit '"').taken? ('"' :: rest) = some 1 := rfl
  rw [string, taken?, hfirst, Option.bind_some, List.drop_one, List.tail_cons, taken?, taken?,
    Option.bind_some, ← taken?_closing 0 rest (Nat.le_refl _), Option.map_map, Option.map_map]
  apply congrArg (Option.map · _)
  funext n
  simp only [Function.comp_apply]
  omega

theorem taken?_comment (rest : List Char) :
    comment.taken? ('#' :: rest) = some (Piece.run (· ≠ '\n') rest + 1) := by
  have hpart : (seq (absent (lit '\n')) any).taken? = (char (· ≠ '\n')).taken? := by
    funext cs
    cases cs with
    | nil => rfl
    | cons c cs => by_cases hc : c = '\n' <;> simp [any, hc]
  have hfirst : (lit '#').taken? ('#' :: rest) = some 1 := rfl
  rw [comment, taken?, hfirst, Option.bind_some, List.drop_one, List.tail_cons, taken?_star hpart,
    Option.map_some, Nat.add_comm]

theorem taken?_skip {c : Char} (hc : Piece.isBlank c) (rest : List Char) :
    skip.taken? (c :: rest) = some (Piece.run Piece.isBlank rest + 1) := by
  refine taken?_plus ?_ hc rest
  funext cs
  cases cs with
  | nil => rfl
  | cons d cs =>
    by_cases hspace : d = ' ' <;> by_cases htab : d = '\t' <;> by_cases hreturn : d = '\r' <;>
      simp [Piece.isBlank, hspace, htab, hreturn]

theorem taken?_ident {c : Char} (hc : Piece.isNameStart c) (rest : List Char) :
    ident.taken? (c :: rest) = some (Piece.run Piece.isNamePart rest + 1) := by
  have hpart : (alt (char Char.isAlphanum) (lit '_')).taken? =
      (char Piece.isNamePart).taken? := by
    funext cs
    cases cs with
    | nil => rfl
    | cons d cs =>
      by_cases hd : d.isAlphanum <;> simp [Piece.isNamePart, hd]
  have hfirst : (alt (char Char.isAlpha) (lit '_')).taken? (c :: rest) = some 1 := by
    by_cases ha : c.isAlpha
    · simp [ha]
    · have hunderscore : c = '_' := by simpa [Piece.isNameStart, ha] using hc
      simp [hunderscore]
  rw [ident, taken?, hfirst, Option.bind_some, List.drop_one, List.tail_cons, taken?_star hpart,
    Option.map_some, Nat.add_comm]

theorem token?_of_first (earlier : List (Option TokenKind × Rule))
    (halternatives : alternatives = earlier ++ (kind, r) :: later)
    (hearlier : ∀ x ∈ earlier, x.2.taken? cs = none) (hr : r.taken? cs = some n) :
    token? cs = some (kind, n) := by
  have hnone : earlier.findSome? (fun x => (x.2.taken? cs).map (x.1, ·)) = none := by
    apply List.findSome?_eq_none_iff.2
    intro x hx
    rw [hearlier x hx]
    rfl
  rw [token?, halternatives, List.findSome?_append, hnone, Option.none_or, List.findSome?_cons]
  dsimp only
  rw [hr]
  rfl

theorem token?_quote (rest : List Char) :
    token? ('"' :: rest) = (string.taken? ('"' :: rest)).map (some .string, ·) := by
  cases hs : string.taken? ('"' :: rest) with
  | some n =>
    apply token?_of_first (alternatives.take 9) rfl _ hs
    simp [alternatives, skip, plus, comment]
  | none =>
    simp [token?, alternatives, skip, plus, comment, number, ident, hs]

theorem token?_digit {c : Char} (hc : c.isDigit) (rest : List Char) :
    token? (c :: rest) = some (some .number, Piece.run Char.isDigit rest + 1) := by
  have hne (d : Char) (hd : d.isDigit = false) : c ≠ d := Piece.ne_of_eq_false hc hd
  apply token?_of_first (alternatives.take 10) rfl _ (taken?_plus rfl hc rest)
  simp [alternatives, skip, plus, comment, string, hne ' ' rfl, hne '\t' rfl, hne '\r' rfl,
    hne '\n' rfl, hne '#' rfl, hne '=' rfl, hne '>' rfl, hne '<' rfl, hne '!' rfl, hne '"' rfl]

theorem token?_nameStart {c : Char} (hc : Piece.isNameStart c) (rest : List Char) :
    token? (c :: rest) = some (some .identifier, Piece.run Piece.isNamePart rest + 1) := by
  have hne (d : Char) (hd : Piece.isNameStart d = false) : c ≠ d := Piece.ne_of_eq_false hc hd
  apply token?_of_first (alternatives.take 11) rfl _ (taken?_ident hc rest)
  simp [alternatives, skip, plus, comment, string, number, hne ' ' rfl, hne '\t' rfl,
    hne '\r' rfl, hne '\n' rfl, hne '#' rfl, hne '=' rfl, hne '>' rfl, hne '<' rfl, hne '!' rfl,
    hne '"' rfl, Piece.not_isDigit_of_isNameStart hc]

theorem token?_punctuation (hc : c ∈ Piece.punctuation) (rest : List Char) :
    token? (c :: rest) = (Piece.at? c rest).map fun piece => (piece.kind, piece.more + 1) := by
  rw [Piece.at?_punctuation hc]
  simp only [Piece.punctuation, List.mem_cons, List.not_mem_nil, or_false] at hc
  rcases rest with _ | ⟨d, rest⟩
  · rcases hc with rfl | rfl | rfl | rfl | rfl | rfl | rfl | rfl | rfl | rfl | rfl | rfl <;> rfl
  · by_cases hd : d = '='
    · subst hd
      rcases hc with rfl | rfl | rfl | rfl | rfl | rfl | rfl | rfl | rfl | rfl | rfl | rfl <;> rfl
    · have hpair : Piece.pair? c d = none := by
        unfold Piece.pair?
        split <;> first | rfl | exact absurd rfl hd
      rw [List.head?_cons, Option.bind_some, hpair]
      rcases hc with rfl | rfl | rfl | rfl | rfl | rfl | rfl | rfl | rfl | rfl | rfl | rfl <;>
        simp [token?, alternatives, skip, plus, comment, string, number, ident, hd, Piece.symbol?]

theorem token?_foreign {c : Char} (h : ¬ Piece.IsOpening c) (rest : List Char) :
    token? (c :: rest) = none := by
  simp only [Piece.IsOpening, Piece.punctuation, Piece.isNameStart, List.mem_append, List.mem_cons,
    List.not_mem_nil, or_false, not_or, Bool.or_eq_true, decide_eq_true_eq] at h
  simp [token?, alternatives, skip, plus, comment, string, number, ident, h]

/-- The first alternative that matches is the piece that is read, or no alternative does and none
is. -/
theorem token?_eq (c : Char) (rest : List Char) :
    token? (c :: rest) = (Piece.at? c rest).map fun piece => (piece.kind, piece.more + 1) := by
  by_cases hc : Piece.IsOpening c
  · rcases hc with hc | hc | hc
    · rcases List.mem_append.1 hc with hc | hc
      · simp only [List.mem_cons, List.not_mem_nil, or_false] at hc
        have hblank {c : Char} (hc : Piece.isBlank c) : token? (c :: rest) =
            (Piece.at? c rest).map fun piece => (piece.kind, piece.more + 1) := by
          rw [Piece.at?_blank hc]
          exact token?_of_first [] rfl nofun (taken?_skip hc rest)
        rcases hc with rfl | rfl | rfl | rfl | rfl | rfl
        · exact hblank rfl
        · exact hblank rfl
        · exact hblank rfl
        · rfl
        · exact token?_of_first (alternatives.take 2) rfl (by
            simp [alternatives, skip, plus]) (taken?_comment rest)
        · rw [token?_quote, taken?_string, Piece.at?_quote, Option.map_map, Option.map_map]
          rfl
      · exact token?_punctuation hc rest
    · rw [token?_digit hc, Piece.at?_digit hc]
      rfl
    · rw [token?_nameStart hc, Piece.at?_nameStart hc]
      rfl
  · rw [token?_foreign hc, Piece.at?_foreign hc]
    rfl

end Rule

/-- The place behind a piece of text, by what is counted in it: with line feeds, so many lines
further down, behind the characters that stand behind the last of them; without, so many columns
further on. -/
def Position.advanceOver (p : Position) (cs : List Char) : Position :=
  if '\n' ∈ cs then ⟨p.line + cs.count '\n', (cs.reverse.takeWhile (· ≠ '\n')).length + 1⟩
  else ⟨p.line, p.column + cs.length⟩

/-- Counting leads to where going on character by character does. -/
theorem Position.advanceOver_eq (p : Position) (cs : List Char) :
    p.advanceOver cs = p.afterAll cs := by
  induction cs generalizing p with
  | nil => rfl
  | cons c cs ih =>
    rw [afterAll_cons, ← ih]
    unfold advanceOver after
    by_cases hcs : '\n' ∈ cs
    · have hshort : (cs.reverse.takeWhile (· ≠ '\n')).length ≠ cs.reverse.length := by
        intro hlength
        have hall : (cs.reverse.takeWhile (· ≠ '\n')).all (· ≠ '\n') = true := List.all_takeWhile
        rw [(List.takeWhile_prefix _).eq_of_length hlength] at hall
        exact of_decide_eq_true (List.all_eq_true.1 hall '\n' (List.mem_reverse.2 hcs)) rfl
      rw [if_pos (.tail _ hcs), if_pos hcs, List.reverse_cons, List.takeWhile_append, if_neg hshort]
      by_cases hc : c = '\n'
      · simp [hc, Nat.add_assoc, Nat.add_comm 1]
      · simp [hc]
    · by_cases hc : c = '\n'
      · subst hc
        have hnone := List.count_eq_zero_of_not_mem hcs
        have hall (d : Char) (hd : d ∈ cs.reverse) : decide (d ≠ '\n') = true := by
          apply decide_eq_true
          rintro rfl
          exact hcs (List.mem_reverse.1 hd)
        rw [if_pos (.head _), if_neg hcs, if_pos rfl, List.reverse_cons,
          List.takeWhile_append_of_pos hall]
        simp [hnone, Nat.add_comm]
      · have hnone : '\n' ∉ c :: cs := by simp [Ne.symm hc, hcs]
        rw [if_neg hnone, if_neg hcs, if_neg hc, List.length_cons, Nat.add_assoc, Nat.add_comm 1]

/-- One item, or what is skipped, and on behind it: the stream goes by the alternatives. -/
theorem itemsFrom_matched (h : Rule.token? (c :: rest) = some (kind, n)) (pos : Position) :
    itemsFrom 0 pos (c :: rest) =
      (kind.map fun kind => .ok ⟨kind, String.ofList ((c :: rest).take n), pos⟩).toList ++
        itemsFrom 0 (pos.advanceOver ((c :: rest).take n)) ((c :: rest).drop n) := by
  rw [Rule.token?_eq] at h
  obtain ⟨⟨kind', more⟩, hat, hpiece⟩ := Option.map_eq_some_iff.1 h
  cases hpiece
  have htake : (c :: rest).take (more + 1) = c :: rest.take more := rfl
  have hskip : itemsFrom more (pos.after c) rest =
      itemsFrom 0 ((pos.after c).afterAll (rest.take more)) (rest.drop more) := by
    have hexplains := Piece.at?_explains c rest
    rw [hat] at hexplains
    obtain ⟨-, hmore⟩ := hexplains
    have hread := itemsFrom_skip (pos.after c) (rest.take more) (rest.drop more)
    rwa [List.length_take_of_le hmore, List.take_append_drop] at hread
  rw [itemsFrom, hat, Position.advanceOver_eq, htake, Position.afterAll_cons, List.drop_succ_cons,
    ← hskip]
  cases kind' <;> rfl

theorem itemsFrom_unmatched (h : Rule.token? (c :: rest) = none) (pos : Position) :
    itemsFrom 0 pos (c :: rest) = [.error (.unexpectedCharacter c pos)] := by
  rw [Rule.token?_eq, Option.map_eq_none_iff] at h
  rw [itemsFrom, h]

end Scriptlet
