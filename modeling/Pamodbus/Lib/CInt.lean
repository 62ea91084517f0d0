import Mathlib.Algebra.Order.Ring.Int

namespace Pamodbus.Lib.CInt

/-- Conversion to the 64-bit unsigned `size_t`. -/
def sizeT (x : Int) : Nat := (x % 2 ^ 64).toNat

/-- The value of a 32-bit `int` expression: signed overflow is undefined. -/
def intExpr (x : Int) : Option Int := if -2 ^ 31 ≤ x ∧ x < 2 ^ 31 then some x else none

/-- Conversion to the 32-bit `int`, modulo `2 ^ 32`. -/
def int32 (x : Int) : Int := (x + 2 ^ 31) % 2 ^ 32 - 2 ^ 31

theorem sizeT_natCast (n : Nat) (h : n < 2 ^ 64) : sizeT n = n := by
  rw [sizeT, Int.emod_eq_of_lt (by omega) (by exact_mod_cast h), Int.toNat_natCast]

theorem sizeT_add {x : Int} {n : Nat} (k : Nat) (hx : sizeT x = n) (h : n + k < 2 ^ 64) :
    sizeT (x + k) = n + k := by
  simp only [sizeT] at hx ⊢
  omega

theorem intExpr_eq (x : Int) (h0 : -2 ^ 31 ≤ x) (h1 : x < 2 ^ 31) : intExpr x = some x :=
  if_pos ⟨h0, h1⟩

theorem intExpr_some {x y : Int} (h : intExpr x = some y) : (-2 ^ 31 ≤ x ∧ x < 2 ^ 31) ∧ y = x := by
  rw [intExpr] at h
  split at h
  · next hx => exact ⟨hx, (Option.some.inj h).symm⟩
  · cases h

theorem int32_eq (x : Int) (h0 : -2 ^ 31 ≤ x) (h1 : x < 2 ^ 31) : int32 x = x := by
  rw [int32]
  omega

theorem int32_bounds (x : Int) : -2 ^ 31 ≤ int32 x ∧ int32 x < 2 ^ 31 := by
  rw [int32]
  omega

end Pamodbus.Lib.CInt
