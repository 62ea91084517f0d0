import Pamodbus.Lib.Crc
import Pamodbus.Crc16

namespace Pamodbus.CrcBitSerial

open Pamodbus.Lib.Cells Pamodbus.Lib.Crc Pamodbus.Lib.Words
open Pamodbus.Context Pamodbus.Crc16

def shiftOut (crc : UInt16) : UInt16 :=
  if crc &&& 1 = 1 then (crc >>> 1) ^^^ 0xA001 else crc >>> 1

def bitSerialByte (crc : UInt16) (b : UInt8) : UInt16 := shiftOut^[8] (crc ^^^ b.toUInt16)

def bitSerial (msg : Bytes) : UInt16 := msg.foldl bitSerialByte 0xFFFF

abbrev polynomial : BitVec 16 := 0xA001

theorem shiftOut_toBitVec (crc : UInt16) :
    (shiftOut crc).toBitVec = shift polynomial crc.toBitVec := by
  have hlow : crc &&& 1 = 1 ↔ crc.toBitVec.getLsbD 0 = true := by
    have hone : (1 : UInt16).toNat = 1 := rfl
    rw [← UInt16.toNat_inj, UInt16.toNat_and, hone, Nat.and_one_is_mod,
      BitVec.getLsbD, Nat.testBit_zero, decide_eq_true_eq, UInt16.toNat_toBitVec]
  rw [shiftOut, shift]
  by_cases h : crc &&& 1 = 1
  · rw [if_pos h, if_pos (hlow.mp h)]
    rfl
  · rw [if_neg h, if_neg (mt hlow.mpr h)]
    rfl

theorem shiftOuts_toBitVec (n : Nat) (crc : UInt16) :
    (shiftOut^[n] crc).toBitVec = (shift polynomial)^[n] crc.toBitVec :=
  Function.Semiconj.iterate_right shiftOut_toBitVec n crc

theorem crc16Table_toList :
    crc16Table.toList = (List.range 256).map fun i => shiftOut^[8] (UInt16.ofNat i) := by
  decide +kernel

theorem crc16Table_get (b : UInt8) : crc16Table.get b.toFin = shiftOut^[8] b.toUInt16 := by
  rw [List.Vector.get_eq_get_toList]
  simp [crc16Table_toList]

theorem crc16Step_eq (crc : UInt16) (b : UInt8) : crc16Step crc b = bitSerialByte crc b := by
  have hhigh : (crc >>> 8).toBitVec = (crc ^^^ b.toUInt16).toBitVec >>> 8 := by
    apply BitVec.eq_of_getLsbD_eq
    intro i hi
    simp
  have hlow : ((crc ^^^ b.toUInt16) &&& 0xFF).toUInt8.toUInt16.toBitVec =
      ((crc ^^^ b.toUInt16).toBitVec.setWidth 8).setWidth 16 := by
    generalize crc ^^^ b.toUInt16 = v
    apply BitVec.eq_of_toNat_eq
    rw [UInt16.toNat_toBitVec, UInt8.toNat_toUInt16, ← loByte, loByte_toNat, BitVec.toNat_setWidth,
      BitVec.toNat_setWidth, UInt16.toNat_toBitVec]
    omega
  apply UInt16.toBitVec_inj.mp
  rw [crc16Step, crc16Table_get, bitSerialByte, shiftOuts_toBitVec, shifts_split,
    UInt16.toBitVec_xor, shiftOuts_toBitVec, hhigh, hlow]

theorem crc16_eq (msg : Bytes) : crc16 msg = bitSerial msg := by
  have hstep : crc16Step = bitSerialByte := by
    funext crc b
    exact crc16Step_eq crc b
  rw [crc16, hstep, bitSerial]

def byteBits (b : UInt8) : List Bool := (List.range 8).map b.toNat.testBit

def lineBits (data : Bytes) : List Bool := data.flatMap byteBits

theorem lineBits_cons (b : UInt8) (data : Bytes) :
    lineBits (b :: data) = byteBits b ++ lineBits data := List.flatMap_cons

@[simp] theorem byteBits_length (b : UInt8) : (byteBits b).length = 8 := by simp [byteBits]

@[simp] theorem lineBits_length (data : Bytes) : (lineBits data).length = 8 * data.length := by
  induction data with
  | nil => rfl
  | cons b data ih =>
    rw [lineBits_cons, List.length_append, ih, byteBits_length, List.length_cons]
    omega

theorem byteBits_getD (b : UInt8) (i : Nat) : (byteBits b).getD i false = b.toNat.testBit i := by
  by_cases hi : i < 8
  · rw [List.getD_eq_getElem _ _ (by simpa using hi)]
    simp [byteBits]
  · have hb : b.toNat < 2 ^ i :=
      b.toNat_lt.trans_le (Nat.pow_le_pow_right (by decide) (not_lt.mp hi))
    rw [List.getD_eq_default _ _ (by simpa using hi), Nat.testBit_lt_two_pow hb]

theorem byte_row (b : UInt8) : row 16 (byteBits b) = b.toUInt16.toBitVec := by
  apply BitVec.eq_of_getLsbD_eq
  intro i hi
  rw [row_getLsbD, decide_eq_true hi, Bool.true_and, byteBits_getD, BitVec.getLsbD,
    UInt16.toNat_toBitVec, UInt8.toNat_toUInt16]

theorem word_row (hi lo : UInt8) : row 16 (lineBits [lo, hi]) = (word hi lo).toBitVec := by
  apply BitVec.eq_of_getLsbD_eq
  intro i hi'
  have hbits : lineBits [lo, hi] = byteBits lo ++ byteBits hi := by simp [lineBits]
  have hword : (word hi lo).toNat = 2 ^ 8 * hi.toNat + lo.toNat := word_toNat hi lo
  rw [row_getLsbD, decide_eq_true hi', Bool.true_and, hbits, BitVec.getLsbD, UInt16.toNat_toBitVec,
    hword, Nat.testBit_two_pow_mul_add _ lo.toNat_lt]
  by_cases hlow : i < 8
  · rw [if_pos hlow, List.getD_append _ _ _ _ (by simpa using hlow), byteBits_getD]
  · rw [if_neg hlow, List.getD_append_right _ _ _ _ (by simpa using hlow), byteBits_length,
      byteBits_getD]

theorem crc16Step_remainder (crc : UInt16) (b : UInt8) :
    (crc16Step crc b).toBitVec = remainder polynomial crc.toBitVec (byteBits b) := by
  rw [crc16Step_eq, bitSerialByte, shiftOuts_toBitVec, UInt16.toBitVec_xor,
    remainder_row _ (by simp), byteBits_length, byte_row]

theorem crc16_remainder (crc : UInt16) (msg : Bytes) :
    (msg.foldl crc16Step crc).toBitVec = remainder polynomial crc.toBitVec (lineBits msg) := by
  induction msg generalizing crc with
  | nil => rfl
  | cons b msg ih =>
    rw [List.foldl_cons, ih, crc16Step_remainder, lineBits_cons, remainder_append]

theorem crc16_eq_zero_iff (msg : Bytes) (hi lo : UInt8) :
    crc16 (msg ++ [lo, hi]) = 0 ↔ crc16 msg = word hi lo := by
  rw [crc16, List.foldl_append, ← crc16, ← UInt16.toBitVec_inj, crc16_remainder,
    remainder_row _ (by simp), word_row, ← UInt16.toBitVec_inj]
  exact (shifts_eq_zero_iff (by decide) _ _).trans BitVec.xor_eq_zero_iff

/-- For every message `pa_crc16` computes what the polynomial defines, and of a message with its
check value behind it 0. -/
theorem paCrc16_bitSerial (msg : Bytes) :
    paCrc16 msg msg.length = some (bitSerial msg) ∧
      paCrc16 (msg ++ crcBytes msg) (msg.length + 2) = some 0 := by
  have hlen (data : Bytes) : paCrc16 data data.length = some (crc16 data) := by
    rw [paCrc16_eq data _ le_rfl, List.take_length]
  refine ⟨?_, ?_⟩
  · rw [hlen, crc16_eq]
  · have hzero : crc16 (msg ++ crcBytes msg) = 0 :=
      (crc16_eq_zero_iff msg _ _).mpr (word_bytes (crc16 msg)).symm
    rw [← hzero, ← hlen, List.length_append, crcBytes_length]

end Pamodbus.CrcBitSerial
