import Pamodbus.CrcBitSerial
import Pamodbus.RawScan

namespace Pamodbus.CrcErrors

open Pamodbus.Lib.Cells Pamodbus.Lib.Crc Pamodbus.Lib.Words
open Pamodbus.Context Pamodbus.Crc16 Pamodbus.CrcBitSerial Pamodbus.RawScan

/-- What arrives of a frame when the bits set in `e` have changed on the line. -/
def corrupted (frame e : Bytes) : Bytes := List.zipWith (· ^^^ ·) frame e

def Burst (e : Bytes) : Prop :=
  ∃ k, ∀ i, (lineBits e)[i]? = some true → k ≤ i ∧ i < k + 16

def changed (e : Bytes) : Nat := (lineBits e).count true

theorem byteBits_xor (a b : UInt8) :
    byteBits (a ^^^ b) = List.zipWith xor (byteBits a) (byteBits b) := by
  rw [byteBits, byteBits, byteBits, List.zipWith_map]
  simp [List.zipWith_self, UInt8.toNat_xor, Nat.testBit_xor]

theorem lineBits_corrupted (frame e : Bytes) (h : frame.length = e.length) :
    lineBits (corrupted frame e) = List.zipWith xor (lineBits frame) (lineBits e) := by
  induction frame generalizing e with
  | nil => rfl
  | cons b frame ih =>
    cases e with
    | nil => cases h
    | cons x e =>
      rw [corrupted, List.zipWith_cons_cons, ← corrupted, lineBits_cons, lineBits_cons,
        lineBits_cons, ih e (Nat.succ.inj h), byteBits_xor, List.zipWith_append (by simp)]

/-- An error changes the check value by what it would have alone, in a register that starts at 0. -/
theorem crc16_corrupted (frame e : Bytes) (h : frame.length = e.length) :
    (crc16 (corrupted frame e)).toBitVec =
      (crc16 frame).toBitVec ^^^ remainder polynomial 0 (lineBits e) := by
  have hxor : remainder polynomial _ _ = _ :=
    remainder_xor (0xFFFF : UInt16).toBitVec 0 (lineBits frame) (lineBits e) (by simp [h])
  rw [crc16, crc16_remainder, lineBits_corrupted frame e h, crc16, crc16_remainder, ← hxor]
  rfl

theorem crcValid_iff (frame : Bytes) (h : 2 ≤ frame.length) :
    crcValid frame = true ↔ crc16 frame = 0 := by
  obtain ⟨lo, hi, htail⟩ : ∃ lo hi, frame.drop (frame.length - 2) = [lo, hi] := by
    apply List.length_eq_two.mp
    rw [List.length_drop]
    omega
  have hsplit : frame.take (frame.length - 2) ++ [lo, hi] = frame := by
    rw [← htail, List.take_append_drop]
  rw [crcValid, decide_eq_true_eq, htail, crcBytes_eq_iff, ← crc16_eq_zero_iff, hsplit]

theorem corrupted_valid_iff (m e : Bytes) (h : e.length = m.length + 2) :
    crcValid (corrupted (m ++ crcBytes m) e) = true ↔
      remainder polynomial 0#16 (lineBits e) = 0#16 := by
  have hlen : (m ++ crcBytes m).length = e.length := by rw [h, List.length_append, crcBytes_length]
  have hclean : (crc16 (m ++ crcBytes m)).toBitVec = 0#16 :=
    congrArg _ ((crc16_eq_zero_iff m _ _).mpr (word_bytes (crc16 m)).symm)
  have hlong : 2 ≤ (corrupted (m ++ crcBytes m) e).length := by
    rw [corrupted, List.length_zipWith, hlen, min_self]
    omega
  rw [crcValid_iff _ hlong, ← UInt16.toBitVec_inj, crc16_corrupted _ _ hlen, hclean,
    BitVec.zero_xor]
  rfl

theorem lineBits_set (e : Bytes) (h : ∃ b ∈ e, b ≠ 0) : true ∈ lineBits e := by
  obtain ⟨b, hb, hne⟩ := h
  obtain ⟨i, hi⟩ := Nat.exists_testBit_of_ne_zero fun hz => hne (UInt8.toNat_inj.mp hz)
  rw [← byteBits_getD] at hi
  have hlt : i < (byteBits b).length := by
    by_contra hge
    rw [List.getD_eq_default _ _ (not_lt.mp hge)] at hi
    cases hi
  rw [List.getD_eq_getElem _ _ hlt] at hi
  exact List.mem_flatMap.mpr ⟨b, hb, hi ▸ List.getElem_mem hlt⟩

/-- Whatever the message: errors within 16 bits, errors in an odd number of bits, and errors in two
bits of a frame of at most 256 bytes are seen. -/
theorem errors_detected (m e : Bytes) (hlen : e.length = m.length + 2) (hset : ∃ b ∈ e, b ≠ 0)
    (h : Burst e ∨ Odd (changed e) ∨ changed e = 2 ∧ m.length + 2 ≤ 256) :
    crcValid (corrupted (m ++ crcBytes m) e) = false := by
  rw [← Bool.not_eq_true, corrupted_valid_iff m e hlen]
  rcases h with ⟨k, hburst⟩ | hodd | ⟨hpair, hshort⟩
  · exact burst_remainder (by decide) k (lineBits_set e hset) hburst
  · exact odd_remainder (by decide) (by decide) hodd
  · refine pair_remainder (by decide) 2047 (by decide +kernel) hpair ?_
    rw [lineBits_length]
    omega

/-- The first bit of a request and the last bit of its check value. -/
theorem far_bits_detected :
    crcValid (corrupted ([0x01, 0x03, 0x00, 0x00, 0x00, 0x0A] ++
      crcBytes [0x01, 0x03, 0x00, 0x00, 0x00, 0x0A]) [0x01, 0, 0, 0, 0, 0, 0, 0x80]) = false :=
  errors_detected _ _ rfl ⟨0x01, by decide, by decide⟩ (.inr (.inr ⟨by decide, by decide⟩))

end Pamodbus.CrcErrors
