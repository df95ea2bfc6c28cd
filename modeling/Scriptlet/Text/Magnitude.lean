namespace Scriptlet.Text

/-- Whether an exponent, or nothing, is written. -/
def isExponent : List Char → Bool
  | [] => true
  | e :: cs =>
    let digits := if cs.head? = some '+' || cs.head? = some '-' then cs.tail else cs
    (e = 'e' || e = 'E') && digits ≠ [] && digits.all Char.isDigit

/-- Whether digits are written, with a point and an exponent or without. -/
def isDecimal (cs : List Char) : Bool :=
  let whole := cs.takeWhile Char.isDigit
  match cs.drop whole.length with
  | '.' :: cs =>
    let part := cs.takeWhile Char.isDigit
    whole ++ part ≠ [] && isExponent (cs.drop part.length)
  | cs => whole ≠ [] && isExponent cs

/-- Whether the size of a number is written, which may be infinite or not a number at all. -/
def isMagnitude (cs : List Char) : Bool :=
  isDecimal cs || ["inf", "infinity", "nan"].contains (String.ofList (cs.map Char.toLower))

end Scriptlet.Text
