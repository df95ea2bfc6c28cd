import Scriptlet.Proofs.Printing.RoundTrip

namespace Scriptlet
set_option autoImplicit true

mutual

def Expression.height : Expression → Nat
  | .string _ | .number _ | .var _ => 1
  | .binary _ left right | .logical _ left right => max left.height right.height + 1
  | .call _ es => heightEach es + 1

def heightEach : List Expression → Nat
  | [] => 0
  | e :: es => max e.height (heightEach es)

end

/-- The operators of one level that follow each other up to the outermost one. -/
def Expression.row : Expression → Nat
  | e@(.binary _ left _) | e@(.logical _ left _) =>
    if left.precedence = e.precedence then left.row + 1 else 1
  | .string _ | .number _ | .var _ | .call .. => 1

mutual

/-- The height of the tree if all operators of a row count as one. -/
def Expression.levels : Expression → Nat
  | .string _ | .number _ | .var _ => 1
  | e@(.binary _ left right) | e@(.logical _ left right) =>
    max (if left.precedence = e.precedence then left.levels else left.levels + 1)
      (right.levels + 1)
  | .call _ es => levelsEach es + 1

def levelsEach : List Expression → Nat
  | [] => 0
  | e :: es => max e.levels (levelsEach es)

end

mutual

def Expression.longestRow : Expression → Nat
  | .string _ | .number _ | .var _ => 1
  | e@(.binary _ left right) | e@(.logical _ left right) =>
    max e.row (max left.longestRow right.longestRow)
  | .call _ es => max 1 (longestRowEach es)

def longestRowEach : List Expression → Nat
  | [] => 0
  | e :: es => max e.longestRow (longestRowEach es)

end

mutual

def Statement.expressions : Statement → List Expression
  | .assign _ _ e | .print _ e | .log _ e | .read _ e _ | .delete _ e | .giveBack _ e => [e]
  | .write _ _ path content => [path, content]
  | .call _ _ es => es
  | .ifThen _ c body | .loop _ c body => c :: expressionsIn body
  | .ifElse _ c body otherwise => c :: (expressionsIn body ++ expressionsIn otherwise)
  | .function _ _ _ body => expressionsIn body

def expressionsIn : List Statement → List Expression
  | [] => []
  | s :: ss => s.expressions ++ expressionsIn ss

end

theorem Expression.row_le (e : Expression) : e.row ≤ e.longestRow := by
  cases e with
  | string s => exact Nat.le_refl 1
  | number n => exact Nat.le_refl 1
  | var x => exact Nat.le_refl 1
  | binary op left right => exact Nat.le_max_left ..
  | logical op left right => exact Nat.le_max_left ..
  | call f es => exact Nat.le_max_left ..

/-- An operator adds one to the height of its sides: in a row of the left side it adds to the row,
and otherwise a level, which makes up for a row of each side. -/
theorem Expression.joined_height_le {left right : Expression} (l : Precedence)
    (hleft : left.height + R ≤ left.levels * R + left.row) (hl : left.row ≤ R)
    (hright : right.height + R ≤ right.levels * R + right.row) (hr : right.row ≤ R) :
    max left.height right.height + 1 + R ≤
      max (if left.precedence = l then left.levels else left.levels + 1) (right.levels + 1) * R +
        if left.precedence = l then left.row + 1 else 1 := by
  rw [← Nat.mul_max_mul_right, Nat.add_one_mul]
  split
  · omega
  · rw [Nat.add_one_mul]
    omega

theorem Expression.leaf_height_le (R : Nat) : 1 + R ≤ 1 * R + 1 := by
  omega

mutual

theorem Expression.height_le (e : Expression) (h : e.longestRow ≤ R) :
    e.height + R ≤ e.levels * R + e.row := by
  cases e with
  | string s => exact Expression.leaf_height_le R
  | number n => exact Expression.leaf_height_le R
  | var x => exact Expression.leaf_height_le R
  | binary op left right =>
    obtain ⟨hl, hr⟩ := Nat.max_le.1 (Nat.max_le.1 h).2
    exact Expression.joined_height_le _ (left.height_le hl) (left.row_le.trans hl)
      (right.height_le hr) (right.row_le.trans hr)
  | logical op left right =>
    obtain ⟨hl, hr⟩ := Nat.max_le.1 (Nat.max_le.1 h).2
    exact Expression.joined_height_le _ (left.height_le hl) (left.row_le.trans hl)
      (right.height_le hr) (right.row_le.trans hr)
  | call f es =>
    have hes := heightEach_le es (Nat.max_le.1 h).2
    rw [Expression.height, Expression.levels, Expression.row, Nat.add_one_mul]
    omega

theorem heightEach_le (es : List Expression) (h : longestRowEach es ≤ R) :
    heightEach es ≤ levelsEach es * R := by
  cases es with
  | nil => exact Nat.zero_le _
  | cons e es =>
    obtain ⟨he, hes⟩ := Nat.max_le.1 h
    have hfirst := e.height_le he
    have hrow := e.row_le
    rw [heightEach, levelsEach, ← Nat.mul_max_mul_right]
    have hothers := heightEach_le es hes
    omega

end

def Clause.expressions : Clause → List Expression
  | .statement s => s.expressions
  | .statements _ ss => expressionsIn ss

mutual

theorem Statement.expressions_unplaced (s : Statement) :
    s.unplaced.expressions = s.expressions := by
  cases s with
  | ifThen pos c body =>
    simp only [Statement.unplaced, Statement.expressions, expressionsIn_unplacedAll body]
  | ifElse pos c body otherwise =>
    simp only [Statement.unplaced, Statement.expressions, expressionsIn_unplacedAll body,
      expressionsIn_unplacedAll otherwise]
  | loop pos c body =>
    simp only [Statement.unplaced, Statement.expressions, expressionsIn_unplacedAll body]
  | function pos f xs body =>
    simp only [Statement.unplaced, Statement.expressions, expressionsIn_unplacedAll body]
  | _ => rfl

theorem expressionsIn_unplacedAll (ss : List Statement) :
    expressionsIn (unplacedAll ss) = expressionsIn ss := by
  cases ss with
  | nil => rfl
  | cons s ss =>
    rw [unplacedAll, expressionsIn, expressionsIn, s.expressions_unplaced,
      expressionsIn_unplacedAll ss]

end

end Scriptlet
