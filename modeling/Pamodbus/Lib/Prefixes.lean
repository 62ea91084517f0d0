import Mathlib.Data.List.Infix

namespace Pamodbus.Lib.Prefixes

variable {α : Type} {p : List α → Bool} {least n : Nat} {xs ys : List α}

/-- Length of the shortest prefix, of `least` elements at least, that satisfies `p`. -/
def shortest (p : List α → Bool) (least : Nat) (xs : List α) : Option Nat :=
  (List.range' least (xs.length + 1 - least)).find? fun n => p (xs.take n)

/-- The whole list satisfies `p`, and no proper prefix does. -/
structure First (p : List α → Bool) (least : Nat) (xs : List α) : Prop where
  long : least ≤ xs.length
  holds : p xs = true
  before : ∀ k, least ≤ k → k < xs.length → p (xs.take k) = false

theorem shortest_eq_none_iff :
    shortest p least xs = none ↔ ∀ k, least ≤ k → k ≤ xs.length → p (xs.take k) = false := by
  rw [shortest, List.find?_eq_none]
  constructor
  · intro h k hk hl
    have hmem : k ∈ List.range' least (xs.length + 1 - least) :=
      List.mem_range'_1.mpr ⟨hk, by omega⟩
    exact Bool.eq_false_iff.mpr (h k hmem)
  · intro h k hmem
    obtain ⟨hk, hl⟩ := List.mem_range'_1.mp hmem
    exact Bool.eq_false_iff.mp (h k hk (by omega))

theorem shortest_eq_some_iff :
    shortest p least xs = some n ↔ n ≤ xs.length ∧ First p least (xs.take n) := by
  rw [shortest, List.find?_range'_eq_some]
  constructor
  · rintro ⟨hp, hmem, hbefore⟩
    obtain ⟨hleast, hn⟩ := List.mem_range'_1.mp hmem
    have hlen : (xs.take n).length = n := List.length_take_of_le (by omega)
    refine ⟨by omega, by omega, hp, fun k hk hl => ?_⟩
    rw [List.take_take, min_eq_left (by omega)]
    exact Bool.not_eq_true' _ ▸ hbefore k hk (by omega)
  · rintro ⟨hn, hlong, hp, hbefore⟩
    have hlen : (xs.take n).length = n := List.length_take_of_le hn
    refine ⟨hp, List.mem_range'_1.mpr ⟨by omega, by omega⟩, fun k hk hl => ?_⟩
    have h := hbefore k hk (by omega)
    rw [List.take_take, min_eq_left (by omega)] at h
    rw [h]
    rfl

theorem shortest_nil (hpos : 0 < least) : shortest p least ([] : List α) = none :=
  shortest_eq_none_iff.mpr fun k hk hl => by
    rw [List.length_nil] at hl
    omega

theorem First.shortest_append (h : First p least xs) (ys : List α) :
    shortest p least (xs ++ ys) = some xs.length := by
  rw [shortest_eq_some_iff, List.take_left, List.length_append]
  exact ⟨Nat.le_add_right _ _, h⟩

theorem First.shortest_take (h : First p least xs) (hn : n < xs.length) :
    shortest p least (xs.take n) = none := by
  rw [shortest_eq_none_iff]
  intro k hk hl
  rw [List.length_take_of_le (by omega)] at hl
  rw [List.take_take, min_eq_left hl]
  exact h.before k hk (by omega)

theorem First.shortest_prefix (h : First p least xs) (hy : ys <+: xs) (hne : ys ≠ xs) :
    shortest p least ys = none := by
  rw [List.prefix_iff_eq_take.mp hy]
  refine h.shortest_take ?_
  rcases lt_or_eq_of_le hy.length_le with hlt | heq
  · exact hlt
  · exact absurd (hy.eq_of_length heq) hne

end Pamodbus.Lib.Prefixes
