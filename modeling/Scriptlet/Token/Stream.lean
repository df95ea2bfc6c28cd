import Scriptlet.Token.Piece

namespace Scriptlet

/-- The items of a text that is read from `pos` on, when its first `skip` characters belong to a
piece that was read before. -/
def itemsFrom : Nat → Position → List Char → List Item
  | _, pos, [] => [.ok ⟨.endOfInput, "", pos⟩]
  | skip + 1, pos, c :: rest => itemsFrom skip (pos.after c) rest
  | 0, pos, c :: rest =>
    match Piece.at? c rest with
    | none => [.error (.unexpectedCharacter c pos)]
    | some ⟨none, more⟩ => itemsFrom more (pos.after c) rest
    | some ⟨some kind, more⟩ =>
      .ok ⟨kind, String.ofList (c :: rest.take more), pos⟩ :: itemsFrom more (pos.after c) rest

theorem itemsFrom_skip (pos : Position) (cs rest : List Char) :
    itemsFrom cs.length pos (cs ++ rest) = itemsFrom 0 (pos.afterAll cs) rest := by
  induction cs generalizing pos with
  | nil => rfl
  | cons c cs ih => exact ih (pos.after c)

/-- The stream of a text: its tokens in order, then either one end token or the first error. -/
def tokenize (text : String) : List Item :=
  itemsFrom 0 .start text.toList

def allTokens : List Item → Except LexError (List Token)
  | [] => .ok []
  | .error e :: _ => .error e
  | .ok t :: rest => (allTokens rest).map (t :: ·)

theorem allTokens_map (ts : List Token) : allTokens (ts.map .ok) = .ok ts := by
  induction ts with
  | nil => rfl
  | cons t ts ih =>
    rw [List.map_cons, allTokens, ih]
    rfl

theorem allTokens_stuck (ts : List Token) (e : LexError) :
    allTokens (ts.map .ok ++ [.error e]) = .error e := by
  induction ts with
  | nil => rfl
  | cons t ts ih =>
    rw [List.map_cons, List.cons_append, allTokens, ih]
    rfl

/-- All tokens of a text, the end token included, or the first error in it. -/
def tokenizeAll (text : String) : Except LexError (List Token) :=
  allTokens (tokenize text)

end Scriptlet
