import Mathlib.Data.List.Infix

namespace Pamodbus.Lib.Stream

variable {α : Type}

/-- The pieces lie in the stream one behind the other, each of them unbroken. -/
inductive Pieces : List (List α) → List α → Prop
  | nil (xs : List α) : Pieces [] xs
  | cons (gap piece : List α) {pieces : List (List α)} {rest : List α}
    (h : Pieces pieces rest) : Pieces (piece :: pieces) (gap ++ piece ++ rest)

variable {pieces pieces' : List (List α)} {piece xs ys : List α}

theorem pieces_one (pre piece suf : List α) : Pieces [piece] (pre ++ piece ++ suf) :=
  .cons pre piece (.nil suf)

theorem Pieces.skip (gap : List α) (h : Pieces pieces xs) : Pieces pieces (gap ++ xs) := by
  cases h with
  | nil => exact .nil _
  | cons gap' piece h =>
    rw [← List.append_assoc, ← List.append_assoc]
    exact .cons (gap ++ gap') piece h

theorem Pieces.append (h : Pieces pieces xs) (h' : Pieces pieces' ys) :
    Pieces (pieces ++ pieces') (xs ++ ys) := by
  induction h with
  | nil xs => exact h'.skip xs
  | cons gap piece h ih =>
    rw [List.cons_append, List.append_assoc]
    exact .cons gap piece ih

end Pamodbus.Lib.Stream
