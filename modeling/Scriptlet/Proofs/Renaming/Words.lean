import Mathlib
import Scriptlet.Proofs.Renaming.Stream

namespace Scriptlet
set_option autoImplicit true

variable {limit : Option Nat} {t u : Token}

/-- The tokens are the same but for the case of letters. -/
structure Token.SpellsLike (t u : Token) : Prop where
  kind : u.kind = t.kind
  position : u.position = t.position
  lexeme : u.lexeme.toLower = t.lexeme.toLower

namespace Token.SpellsLike

theorem isKeyword (h : t.SpellsLike u) (w : String) : u.isKeyword w = t.isKeyword w := by
  rw [Token.isKeyword, Token.isKeyword, h.kind, h.lexeme]

theorem closes_iff (h : t.SpellsLike u) {closers : List String} :
    u.Closes closers ↔ t.Closes closers := by
  simp only [Token.Closes, h.isKeyword]

theorem extend? (h : t.SpellsLike u) (p : Pending) (e : Expression) :
    p.extend? e u = p.extend? e t := by
  simp only [Pending.extend?, h.kind, h.isKeyword]

end Token.SpellsLike

theorem Draft.checkDepth_allows (h : Allows limit (depth + 1)) (t : Token) :
    checkDepth limit depth t = .ok () := by
  cases limit with
  | none => rfl
  | some N => exact if_neg (Nat.not_le_of_lt (h N rfl))

namespace Draft

variable {d d' : Draft} {phase : Phase}

theorem step_block_allows (h : Allows limit (d.blocks.length + 1)) (pos : Position)
    (header : Header) (t : Token) : (d.goto (.block pos header)).step limit t =
      (d.openBlock pos header).step limit t := by
  change (do checkDepth limit d.blocks.length t
             (d.openBlock pos header).betweenStatements t) = _
  rw [checkDepth_allows h]
  rfl

theorem fillSlot_fill? {slot : Slot} (hf : d.fill? pos e slot = some d') :
    d.fillSlot limit pos slot e = d'.step limit := by
  cases slot <;> cases hf
  case ifCondition | loopCondition | writePath | readPath => rfl
  all_goals exact (step_add limit d _).symm

theorem Passes.step (h : d.Passes limit t phase d') :
    (d.goto phase).step limit t = d'.step limit t := by
  cases h with
  | block h => exact step_block_allows h ..
  | @expression site h =>
    have hgranted : checkDepth limit (d.blocks.length + site.enclosures.length) t = .ok () :=
      checkDepth_allows h t
    change (do checkDepth limit (d.blocks.length + site.enclosures.length) t
               d.operand site .empty t) = _
    rw [hgranted]
    rfl
  | content ht => exact if_neg ht
  | firstStatementArgument ht => exact if_neg ht
  | firstArgument ht => exact step_firstArgument ht ..
  | name ht => exact step_name ht ..
  | numeral hv => exact step_numeral hv ..
  | @filled e pos slot _ p hx hf =>
    change d.afterFactor limit ⟨pos, slot, []⟩ p e t = _
    rw [afterFactor, hx]
    exact congrFun (fillSlot_fill? hf) t

theorem Passes.spelledLike (h : d.Passes limit t phase d') (hu : t.SpellsLike u) :
    d.Passes limit u phase d' := by
  cases h with
  | block h => exact .block h
  | expression h => exact .expression h
  | content ht => exact .content (hu.kind ▸ ht)
  | firstStatementArgument ht => exact .firstStatementArgument (hu.kind ▸ ht)
  | firstArgument ht => exact .firstArgument (hu.kind ▸ ht)
  | name ht => exact .name (hu.kind ▸ ht)
  | numeral hv => exact .numeral hv
  | filled hx hf => exact .filled ((hu.extend? ..).trans hx) hf

/-- The draft reads the token as a word of the language, which opens a statement, ends a block or
connects operands. -/
inductive ReadsWord (limit : Option Nat) (t : Token) : Draft → Prop
  | opens {d : Draft} {k : Keyword} (ht : t.isKeyword k.word) :
      ReadsWord limit t (d.goto .statement)
  | closes {d : Draft} (ht : t.Closes (closersIn d.blocks)) : ReadsWord limit t (d.goto .statement)
  | connects {d : Draft} {op : Connective} (ht : t.isKeyword op.word) :
      ReadsWord limit t (d.goto (.factor site p e))
  | passes {d d' : Draft} {phase : Phase} (hd : d.Passes limit t phase d')
      (h : ReadsWord limit t d') : ReadsWord limit t (d.goto phase)

theorem step_closes (ht : t.Closes (closersIn d.blocks)) (hu : t.SpellsLike u) :
    (d.goto .statement).step limit u = (d.goto .statement).step limit t := by
  obtain ⟨reversed, blocks, phase⟩ := d
  obtain ⟨w, hw, hk⟩ := ht
  have hname := (Token.isKeyword_iff.1 hk).1
  cases blocks with
  | nil => cases hw
  | cons b outer =>
    obtain ⟨pos, header, body⟩ := b
    simp only [step, goto, betweenStatements, hu.kind, hu.isKeyword, hname]
    cases header with
    | ifThen c =>
      rcases List.mem_cons.1 hw with rfl | hw
      · simp only [hk, if_true]
      · obtain rfl := List.mem_singleton.1 hw
        simp only [hk, if_true]
    | _ =>
      obtain rfl := List.mem_singleton.1 hw
      simp only [hk, if_true]

/-- A word of the language is read in the same way in every spelling. -/
theorem ReadsWord.step {d : Draft} (h : d.ReadsWord limit t) (hu : t.SpellsLike u) :
    d.step limit u = d.step limit t := by
  induction h with
  | @opens d k ht =>
    by_cases hc : t.Closes (closersIn d.blocks)
    · exact step_closes hc hu
    · rw [step_keyword ht hc, step_keyword ((hu.isKeyword _).trans ht) (mt hu.closes_iff.1 hc),
        hu.position]
  | closes ht => exact step_closes ht hu
  | @connects site p e d op ht =>
    have hp := Pending.extend?_connective p e ht
    rw [step_operator hp, step_operator ((hu.extend? p e).trans hp)]
  | passes hd _ ih => rw [(hd.spelledLike hu).step, ih, hd.step]

/-- Of two streams the second spells words that the draft reads in the first in other cases. -/
inductive Respelt (limit : Option Nat) : Draft → List Item → List Item → Prop
  | same {d : Draft} : Respelt limit d items items
  | token {t : Token} {d d' : Draft} (h : d.step limit t = .ok (.more d'))
      (hrest : Respelt limit d' rest rest') : Respelt limit d (.ok t :: rest) (.ok t :: rest')
  | word {t u : Token} {d d' : Draft} (h : d.step limit t = .ok (.more d'))
      (hword : d.ReadsWord limit t) (hu : t.SpellsLike u) (hrest : Respelt limit d' rest rest') :
      Respelt limit d (.ok t :: rest) (.ok u :: rest')

theorem Respelt.read {d : Draft} (h : Respelt limit d items items') :
    (d.read limit items').result = (d.read limit items).result := by
  induction h with
  | same => rfl
  | token h _ ih =>
    simp only [Draft.read, h]
    exact ih
  | word h hword hu _ ih =>
    simp only [Draft.read, hword.step hu, h]
    exact ih

end Draft

theorem respells_toLower : Respells String.toLower := by
  intro x
  simp only [String.toLower, String.map_map]
  congr 1
  exact funext Char.toLower_toLower_eq_toLower

/-- The case of letters matters in names alone: what spells them anew spells those of the program
or the error anew, and the words of the language may be spelled in any case. -/
theorem parse_respelled (items : List Item) :
    (∀ ρ, Respells ρ → parse (items.map (Item.renamed ρ)) = renamedResult ρ (parse items)) ∧
      parse (items.map (Item.renamed String.toLower)) =
        renamedResult String.toLower (parse items) ∧
      ∀ items', Draft.empty.Respelt (some maxNestingDepth) items items' →
        parse items' = parse items := by
  have hrenamed (ρ : String → String) (hρ : Respells ρ) :
      parse (items.map (Item.renamed ρ)) = renamedResult ρ (parse items) := by
    apply Draft.read_renamed (d := .empty) hρ
    intro start h
    cases h
  exact ⟨hrenamed, hrenamed _ respells_toLower, fun items' h => h.read⟩

/-- A word and a connective in capitals, around names that spell words. -/
theorem parse_respelled_print :
    parse (tokenize "print print and set") =
        renamedResult String.toLower (parse (tokenize "PRINT Print AND Set")) ∧
      parse (tokenize "print Print and Set") = parse (tokenize "PRINT Print AND Set") ∧
      parse (tokenize "PRINT Print AND Set") =
        .ok [.print ⟨1, 1⟩ (.logical .and (.var "Print") (.var "Set"))] := by
  have hitems : tokenize "PRINT Print AND Set" = [.ok ⟨.identifier, "PRINT", ⟨1, 1⟩⟩,
      .ok ⟨.identifier, "Print", ⟨1, 7⟩⟩, .ok ⟨.identifier, "AND", ⟨1, 13⟩⟩,
      .ok ⟨.identifier, "Set", ⟨1, 17⟩⟩, .ok ⟨.endOfInput, "", ⟨1, 20⟩⟩] := by cbv
  have hlower : tokenize "print print and set" =
      (tokenize "PRINT Print AND Set").map (Item.renamed String.toLower) := by cbv
  have hwords : tokenize "print Print and Set" = [.ok ⟨.identifier, "print", ⟨1, 1⟩⟩,
      .ok ⟨.identifier, "Print", ⟨1, 7⟩⟩, .ok ⟨.identifier, "and", ⟨1, 13⟩⟩,
      .ok ⟨.identifier, "Set", ⟨1, 17⟩⟩, .ok ⟨.endOfInput, "", ⟨1, 20⟩⟩] := by cbv
  have hrespelt : Draft.empty.Respelt (some maxNestingDepth) (tokenize "PRINT Print AND Set")
      (tokenize "print Print and Set") := by
    have hprint : Token.isKeyword ⟨.identifier, "PRINT", ⟨1, 1⟩⟩ Keyword.print.word := by cbv
    have hand : Token.isKeyword ⟨.identifier, "AND", ⟨1, 13⟩⟩ Connective.and.word := by cbv
    have hopens (t : Token) : ¬ t.Closes (closersIn Draft.empty.blocks) := by
      rintro ⟨w, hw, -⟩
      cases hw
    rw [hitems, hwords]
    refine .word (Draft.step_keyword hprint (hopens _) _) (.opens (d := .empty) hprint)
      ⟨rfl, rfl, by cbv⟩ ?_
    refine .token rfl (.word ((Draft.step_name (by decide) ..).trans
      (Draft.step_operator (Pending.extend?_connective _ _ hand) ..)) ?_ ⟨rfl, rfl, by cbv⟩ .same)
    exact .passes (.name (by decide)) (.connects hand)
  obtain ⟨hrenamed, -, hsame⟩ := parse_respelled (tokenize "PRINT Print AND Set")
  refine ⟨?_, hsame _ hrespelt, by cbv⟩
  rw [hlower]
  exact hrenamed _ respells_toLower

end Scriptlet
