import Pamodbus.Lib.Cells
import Pamodbus.Lib.Words
import Mathlib.Data.List.GetD
import Mathlib.Data.Nat.Bitwise

namespace Pamodbus.Lib.Banks

open Pamodbus.Lib.Cells Pamodbus.Lib.Words

variable {α : Type}

/-- A bank of items is a function from addresses. -/
def readRange (m : Nat → α) (a n : Nat) : List α := (List.range n).map fun i => m (a + i)

/-- What a write of `xs` from `a` on puts at `k`. -/
def written (a : Nat) (xs : List α) (k : Nat) : Option α := if a ≤ k then xs[k - a]? else none

def writeRange (m : Nat → α) (a : Nat) (xs : List α) : Nat → α :=
  fun k => (written a xs k).getD (m k)

@[simp] theorem readRange_length (m : Nat → α) (a n : Nat) : (readRange m a n).length = n := by
  simp [readRange]

theorem readRange_getElem? (m : Nat → α) (a n i : Nat) (hi : i < n) :
    (readRange m a n)[i]? = some (m (a + i)) := by
  simp [readRange, hi]

theorem readRange_cons (m : Nat → α) (a n : Nat) :
    readRange m a (n + 1) = m a :: readRange m (a + 1) n := by
  simp [readRange, List.range_succ_eq_map, Function.comp_def, Nat.add_right_comm, Nat.add_assoc]

theorem eq_readRange {m : Nat → α} {a n : Nat} {xs : List α} (hl : xs.length = n)
    (h : ∀ i x, xs[i]? = some x → x = m (a + i)) : xs = readRange m a n := by
  apply List.ext_getElem (by rw [hl, readRange_length])
  intro i hi hi'
  rw [h i xs[i] (List.getElem?_eq_getElem hi)]
  simp [readRange]

@[simp] theorem writeRange_nil (m : Nat → α) (a : Nat) : writeRange m a [] = m := by
  funext k
  simp [writeRange, written]

theorem writeRange_singleton (m : Nat → α) (a : Nat) (x : α) :
    writeRange m a [x] = Function.update m a x := by
  funext k
  rw [writeRange, written, Function.update_apply]
  rcases Nat.lt_trichotomy k a with h | rfl | h
  · rw [if_neg (by omega), if_neg (by omega)]
    rfl
  · simp
  · rw [if_pos (by omega), if_neg (by omega), List.getElem?_eq_none (by simp; omega)]
    rfl

theorem writeRange_append (m : Nat → α) (a : Nat) (xs ys : List α) :
    writeRange m a (xs ++ ys) = writeRange (writeRange m a xs) (a + xs.length) ys := by
  funext k
  rw [writeRange, writeRange, writeRange, written, written, written]
  by_cases ha : a ≤ k
  · rw [if_pos ha, if_pos ha]
    by_cases hk : a + xs.length ≤ k
    · have hnone : xs[k - a]? = none := List.getElem?_eq_none (by omega)
      rw [if_pos hk, List.getElem?_append_right (by omega), hnone, Option.getD_none, Nat.sub_sub]
    · rw [if_neg hk, List.getElem?_append_left (by omega), Option.getD_none]
  · rw [if_neg ha, if_neg (by omega), if_neg ha, Option.getD_none, Option.getD_none]

theorem writeRange_cons (m : Nat → α) (a : Nat) (x : α) (xs : List α) :
    writeRange m a (x :: xs) = writeRange (Function.update m a x) (a + 1) xs := by
  rw [← writeRange_singleton]
  exact writeRange_append m a [x] xs

theorem writeRange_writeRange (m : Nat → α) (a : Nat) (xs : List α) :
    writeRange (writeRange m a xs) a xs = writeRange m a xs := by
  funext k
  rw [writeRange, writeRange]
  cases written a xs k with
  | none => rfl
  | some x => rfl

theorem foldl_last {S R : Type} (next : S → R → S) (item : S → α) (write : R → Option α)
    (h : ∀ s r, item (next s r) = (write r).getD (item s)) (s : S) (rs : List R) :
    item (rs.foldl next s) = (rs.filterMap write).getLast?.getD (item s) := by
  induction rs generalizing s with
  | nil => rfl
  | cons r rs ih =>
    rw [List.foldl_cons, ih, h, List.filterMap_cons]
    cases write r with
    | none => rfl
    | some x => rw [List.getLast?_cons, Option.getD_some, Option.getD_some]

def cells (xs : List α) (d : α) : Nat → α := fun k => xs[k]?.getD d

theorem cells_set (xs : List α) (d x : α) (i : Nat) (h : i < xs.length) :
    cells (xs.set i x) d = Function.update (cells xs d) i x := by
  funext k
  rw [cells, Function.update_apply, cells]
  by_cases hk : k = i
  · rw [if_pos hk, hk, List.getElem?_set_self h, Option.getD_some]
  · rw [if_neg hk, List.getElem?_set_ne (Ne.symm hk)]

def packByte (xs : List Bool) (j : Nat) : UInt8 :=
  UInt8.ofNat (Nat.ofBits fun k : Fin 8 => xs[8 * j + k]?.getD false)

def packBits (xs : List Bool) : List UInt8 := (List.range ((xs.length + 7) / 8)).map (packByte xs)

@[simp] theorem packBits_length (xs : List Bool) :
    (packBits xs).length = (xs.length + 7) / 8 := by
  simp [packBits]

theorem packByte_testBit (xs : List Bool) (j k : Nat) (hk : k < 8) :
    (packByte xs j).toNat.testBit k = xs[8 * j + k]?.getD false := by
  rw [packByte, UInt8.toNat_ofNat', Nat.mod_eq_of_lt (Nat.ofBits_lt_two_pow _),
    Nat.testBit_ofBits_lt _ _ hk]

theorem bitAt_packBits (xs : List Bool) (i : Nat) :
    bitAt (packBits xs) i = xs[i]?.getD false := by
  rw [bitAt, packBits]
  by_cases h : i / 8 < (xs.length + 7) / 8
  · rw [List.getElem?_map, List.getElem?_range h, Option.map_some, Option.getD_some,
      packByte_testBit _ _ _ (Nat.mod_lt _ (by decide)), Nat.div_add_mod]
  · rw [List.getElem?_eq_none (by simpa using h), List.getElem?_eq_none (by omega)]
    simp

theorem bitAt_ext {bs cs : List UInt8} (hl : bs.length = cs.length)
    (h : ∀ i, bitAt bs i = bitAt cs i) : bs = cs := by
  apply List.ext_getElem hl
  intro j hj hj'
  rw [← UInt8.toNat_inj]
  apply Nat.eq_of_testBit_eq
  intro k
  by_cases hk : k < 8
  · have hbit := h (8 * j + k)
    rwa [bitAt, bitAt, Nat.mul_add_div (by decide), Nat.div_eq_of_lt hk, Nat.add_zero,
      Nat.mul_add_mod, Nat.mod_eq_of_lt hk, List.getElem?_eq_getElem hj,
      List.getElem?_eq_getElem hj', Option.getD_some, Option.getD_some] at hbit
  · have hlt (b : UInt8) : b.toNat < 2 ^ k :=
      b.toNat_lt.trans_le (Nat.pow_le_pow_right (by decide) (by omega))
    rw [Nat.testBit_lt_two_pow (hlt _), Nat.testBit_lt_two_pow (hlt _)]

theorem bitAt_patch {n : Nat} (v : List.Vector UInt8 n) (xs : List UInt8) (i : Nat)
    (hi : i / 8 < xs.length) (h : xs.length ≤ n) : bitAt (patch v xs).toList i = bitAt xs i := by
  apply bitAt_congr
  rw [patch_toList, overlay_getElem? _ _ _ hi (by simpa using h)]

def setBit (bs : List UInt8) (i : Nat) (on : Bool) : List UInt8 :=
  let b := bs[i / 8]?.getD 0
  bs.set (i / 8) (if on then b ||| bitMask (i % 8) else b &&& ~~~ bitMask (i % 8))

@[simp] theorem setBit_length (bs : List UInt8) (i : Nat) (on : Bool) :
    (setBit bs i on).length = bs.length := by
  simp [setBit]

theorem clear_testBit (b : UInt8) (k j : Nat) (hk : k < 8) (hj : j < 8) :
    (b &&& ~~~ bitMask k).toNat.testBit j = (b.toNat.testBit j && !decide (j = k)) := by
  rw [← bitMask_testBit k j hk]
  simp only [← UInt8.toNat_toBitVec, BitVec.testBit_toNat, UInt8.toBitVec_and, UInt8.toBitVec_not,
    BitVec.getLsbD_and, BitVec.getLsbD_not, hj, decide_true, Bool.true_and]

theorem bitAt_setBit (bs : List UInt8) (i : Nat) (on : Bool) (h : i / 8 < bs.length) :
    bitAt (setBit bs i on) = Function.update (bitAt bs) i on := by
  have hm : i % 8 < 8 := Nat.mod_lt _ (by decide)
  funext j
  rw [Function.update_apply]
  cases on with
  | true =>
    rw [setBit, if_pos rfl, bitAt_set bs i j _ (by rw [List.getElem?_eq_getElem h]; rfl)]
    by_cases hj : j = i
    · simp [hj]
    · simp [hj]
  | false =>
    rw [setBit, if_neg (by decide)]
    by_cases hd : i / 8 = j / 8
    · rw [bitAt, bitAt, ← hd, List.getElem?_set_self h, Option.getD_some,
        clear_testBit _ _ _ hm (Nat.mod_lt _ (by decide))]
      by_cases hj : j = i
      · simp [hj]
      · have hne : j % 8 ≠ i % 8 := by omega
        simp [hj, hne]
    · rw [bitAt, bitAt, List.getElem?_set_ne hd, if_neg]
      rintro rfl
      exact hd rfl

end Pamodbus.Lib.Banks
