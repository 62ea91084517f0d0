import Mathlib.Data.Nat.Bitwise

namespace Pamodbus.Lib.Words

def hiByte (v : UInt16) : UInt8 := ((v >>> 8) &&& 0xFF).toUInt8

def loByte (v : UInt16) : UInt8 := (v &&& 0xFF).toUInt8

def word (h l : UInt8) : UInt16 := (h.toUInt16 <<< 8) ||| l.toUInt16

theorem hiByte_toNat (v : UInt16) : (hiByte v).toNat = v.toNat / 256 := by
  have hv := v.toNat_lt
  have h : v.toNat / 2 ^ 8 &&& 255 = v.toNat / 2 ^ 8 % 2 ^ 8 :=
    Nat.and_two_pow_sub_one_eq_mod _ 8
  simp only [hiByte, UInt16.toNat_toUInt8, UInt16.toNat_and, UInt16.toNat_shiftRight,
    UInt16.reduceToNat, Nat.reduceMod, Nat.shiftRight_eq_div_pow, h]
  omega

theorem loByte_toNat (v : UInt16) : (loByte v).toNat = v.toNat % 256 := by
  have h : v.toNat &&& 255 = v.toNat % 2 ^ 8 := Nat.and_two_pow_sub_one_eq_mod _ 8
  simp only [loByte, UInt16.toNat_toUInt8, UInt16.toNat_and, UInt16.reduceToNat, h]
  omega

theorem word_toNat (h l : UInt8) : (word h l).toNat = 256 * h.toNat + l.toNat := by
  have hh := h.toNat_lt
  have hl := l.toNat_lt
  have ho : h.toNat <<< 8 + l.toNat = h.toNat <<< 8 ||| l.toNat :=
    Nat.shiftLeft_add_eq_or_of_lt (by omega) h.toNat
  have hs : h.toNat <<< 8 % 2 ^ 16 = h.toNat <<< 8 := by
    rw [Nat.shiftLeft_eq]
    omega
  simp only [word, UInt16.toNat_or, UInt16.toNat_shiftLeft, UInt8.toNat_toUInt16,
    UInt16.reduceToNat, Nat.reduceMod, hs]
  rw [← ho, Nat.shiftLeft_eq]
  omega

@[simp] theorem word_bytes (v : UInt16) : word (hiByte v) (loByte v) = v := by
  apply UInt16.toNat_inj.mp
  rw [word_toNat, hiByte_toNat, loByte_toNat]
  omega

@[simp] theorem hiByte_word (h l : UInt8) : hiByte (word h l) = h := by
  have hl := l.toNat_lt
  apply UInt8.toNat_inj.mp
  rw [hiByte_toNat, word_toNat]
  omega

@[simp] theorem loByte_word (h l : UInt8) : loByte (word h l) = l := by
  have hl := l.toNat_lt
  apply UInt8.toNat_inj.mp
  rw [loByte_toNat, word_toNat]
  omega

theorem word_injective {h l h' l' : UInt8} (he : word h l = word h' l') : h = h' ∧ l = l' := by
  constructor
  · rw [← hiByte_word h l, he, hiByte_word]
  · rw [← loByte_word h l, he, loByte_word]

/-- Bit `i` of a byte table, least significant bit of each byte first. -/
def bitAt (bs : List UInt8) (i : Nat) : Bool := (bs[i / 8]?.getD 0).toNat.testBit (i % 8)

theorem bitAt_congr {bs cs : List UInt8} {i : Nat} (h : bs[i / 8]? = cs[i / 8]?) :
    bitAt bs i = bitAt cs i := by
  rw [bitAt, bitAt, h]

@[simp] theorem bitAt_replicate_zero (n i : Nat) : bitAt (List.replicate n 0) i = false := by
  simp only [bitAt, List.getElem?_replicate]
  split <;> simp

/-- The byte with only bit `k` set. -/
def bitMask (k : Nat) : UInt8 := UInt8.ofNat (1 <<< k)

theorem bitMask_testBit (k j : Nat) (hk : k < 8) :
    (bitMask k).toNat.testBit j = decide (j = k) := by
  have hp : 2 ^ k < 2 ^ 8 := Nat.pow_lt_pow_right (by decide) hk
  rw [bitMask, UInt8.toNat_ofNat', Nat.one_shiftLeft, Nat.mod_eq_of_lt hp, Nat.testBit_two_pow]
  simp only [eq_comm]

theorem bitAt_set (bs : List UInt8) (i j : Nat) (b : UInt8) (hb : bs[i / 8]? = some b) :
    bitAt (bs.set (i / 8) (b ||| bitMask (i % 8))) j = (bitAt bs j || decide (j = i)) := by
  have hi : i / 8 < bs.length := (List.getElem?_eq_some_iff.mp hb).1
  have hm : i % 8 < 8 := Nat.mod_lt _ (by decide)
  by_cases h : i / 8 = j / 8
  · rw [bitAt, bitAt, ← h, List.getElem?_set_self hi, hb, Option.getD_some, Option.getD_some,
      UInt8.toNat_or, Nat.testBit_or, bitMask_testBit _ _ hm]
    congr 1
    apply decide_eq_decide.mpr
    omega
  · rw [bitAt, bitAt, List.getElem?_set_ne h]
    have hne : j ≠ i := by
      rintro rfl
      exact h rfl
    simp only [hne, decide_false, Bool.or_false]

end Pamodbus.Lib.Words
