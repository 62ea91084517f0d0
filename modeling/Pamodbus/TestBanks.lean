import Pamodbus.DataModel

namespace Pamodbus.TestBanks

open Pamodbus.Lib.Banks Pamodbus.Lib.Words
open Pamodbus.Context Pamodbus.DataModel

variable {n m : Nat}

/-- `n` bytes of coils and `m` registers. -/
structure Banks (n m : Nat) where
  testCoils : List.Vector UInt8 n
  testHoldingRegs : List.Vector UInt16 m

def setCoil (coils : List.Vector UInt8 n) (a : Nat) (on : Bool) : List.Vector UInt8 n :=
  ⟨setBit coils.toList a on, by simp⟩

def setRegister (regs : List.Vector UInt16 m) (a : Nat) (value : UInt16) : List.Vector UInt16 m :=
  ⟨regs.toList.set a value, by simp⟩

theorem setCoil_bits (coils : List.Vector UInt8 n) (a : Nat) (on : Bool) (h : a < 8 * n) :
    bitAt (setCoil coils a on).toList = Function.update (bitAt coils.toList) a on :=
  bitAt_setBit _ _ _ (by rw [List.Vector.toList_length]; omega)

theorem setRegister_cells (regs : List.Vector UInt16 m) (a : Nat) (value : UInt16) (h : a < m) :
    cells (setRegister regs a value).toList 0 = Function.update (cells regs.toList 0) a value :=
  cells_set _ _ _ _ (by rw [List.Vector.toList_length]; exact h)

/-- The loop of `test_read_coils_cb` over `count` coils, into `len` cleared bytes. -/
def loadCoils (coils : Bytes) (addr : UInt16) (len : Nat) : (count : Nat) → Bytes
  | 0 => List.replicate len 0
  | i + 1 =>
    let values := loadCoils coils addr len i
    if bitAt coils (addr + UInt16.ofNat i).toNat then setBit values i true else values

theorem loadCoils_length (coils : Bytes) (addr : UInt16) (len count : Nat) :
    (loadCoils coils addr len count).length = len := by
  induction count with
  | zero => simp [loadCoils]
  | succ i ih =>
    rw [loadCoils]
    split
    · rw [setBit_length, ih]
    · exact ih

def testReadCoilsCb : ReadCoilsFn (Banks n m) := fun addr count b =>
  (0, ⟨loadCoils b.testCoils.toList addr (coilBytes count) count.toNat, loadCoils_length ..⟩, b)

def testWriteSingleCoilCb : WriteSingleCoilFn (Banks n m) := fun addr value b =>
  if 8 * n ≤ addr.toNat then (-1, b)
  else (0, ⟨setCoil b.testCoils addr.toNat (decide (value ≠ 0)), b.testHoldingRegs⟩)

/-- The loop of `test_write_multiple_coils_cb` over `count` coils from the `i`-th on. -/
def storeCoils (addr : UInt16) (values : Bytes) :
    (count i : Nat) → List.Vector UInt8 n → Int × List.Vector UInt8 n
  | 0, _, coils => (0, coils)
  | count + 1, i, coils =>
    let a := (addr + UInt16.ofNat i).toNat
    if 8 * n ≤ a then (-1, coils)
    else storeCoils addr values count (i + 1) (setCoil coils a (bitAt values i))

def testWriteMultipleCoilsCb : WriteMultipleCoilsFn (Banks n m) := fun addr count values b =>
  let (ret, coils) := storeCoils addr values count.toNat 0 b.testCoils
  (ret, ⟨coils, b.testHoldingRegs⟩)

def testReadHoldingCb : ReadRegistersFn (Banks n m) := fun addr count b =>
  if m < addr.toNat + count.toNat then (-1, List.Vector.replicate _ 0, b)
  else (0, List.Vector.ofFn fun i => b.testHoldingRegs.toList[addr.toNat + i]?.getD 0, b)

/-- The loop of `test_write_holding_cb`. -/
def storeRegisters : (a : Nat) → (values : List UInt16) → List.Vector UInt16 m →
    List.Vector UInt16 m
  | _, [], regs => regs
  | a, v :: values, regs => storeRegisters (a + 1) values (setRegister regs a v)

def testWriteHoldingCb : WriteMultipleRegistersFn (Banks n m) := fun addr count values b =>
  if m < addr.toNat + count.toNat then (-1, b)
  else (0, ⟨b.testCoils, storeRegisters addr.toNat (values.take count.toNat) b.testHoldingRegs⟩)

def writeSingleRegisterCb : WriteSingleRegisterFn (Banks n m) := fun addr value b =>
  if m ≤ addr.toNat then (-1, b)
  else (0, ⟨b.testCoils, setRegister b.testHoldingRegs addr.toNat value⟩)

def bankCallbacks : Callbacks (Banks n m) where
  readCoilsCb := some testReadCoilsCb
  readDiscreteInputsCb := none
  readHoldingRegistersCb := some testReadHoldingCb
  readInputRegistersCb := none
  writeSingleCoilCb := some testWriteSingleCoilCb
  writeSingleRegisterCb := some writeSingleRegisterCb
  writeMultipleCoilsCb := some testWriteMultipleCoilsCb
  writeMultipleRegistersCb := some testWriteHoldingCb

def Banks.view (b : Banks n m) : Data :=
  ⟨bitAt b.testCoils.toList, cells b.testHoldingRegs.toList 0⟩

theorem index_toNat (addr : UInt16) (i : Nat) (h : addr.toNat + i < 65536) :
    (addr + UInt16.ofNat i).toNat = addr.toNat + i := by
  rw [UInt16.toNat_add, UInt16.toNat_ofNat']
  omega

theorem loadCoils_bits (coils : Bytes) (addr : UInt16) (len count : Nat) (hl : count ≤ 8 * len)
    (ha : addr.toNat + count ≤ 65536) (j : Nat) :
    bitAt (loadCoils coils addr len count) j =
      (decide (j < count) && bitAt coils (addr.toNat + j)) := by
  induction count with
  | zero => simp [loadCoils]
  | succ i ih =>
    have hbit := ih (by omega) (by omega)
    have hi : i / 8 < (loadCoils coils addr len i).length := by
      rw [loadCoils_length]
      omega
    rw [loadCoils, index_toNat addr i (by omega)]
    by_cases hj : j = i
    · subst hj
      split
      next hon => simp [bitAt_setBit _ _ _ hi, hon]
      next hoff => simp [hbit, hoff]
    · have hlt : j < i ↔ j < i + 1 := by omega
      split
      · rw [bitAt_setBit _ _ _ hi, Function.update_of_ne hj, hbit]
        simp only [hlt]
      · rw [hbit]
        simp only [hlt]

theorem storeCoils_bits (addr : UInt16) (values : Bytes) (count i : Nat)
    (coils : List.Vector UInt8 n) (hin : addr.toNat + i + count ≤ 8 * n) (hn : n ≤ 8192) :
    (storeCoils addr values count i coils).1 = 0 ∧
      bitAt (storeCoils addr values count i coils).2.toList =
        writeRange (bitAt coils.toList) (addr.toNat + i) (readRange (bitAt values) i count) := by
  induction count generalizing i coils with
  | zero => exact ⟨rfl, by simp [storeCoils, readRange]⟩
  | succ count ih =>
    rw [storeCoils, index_toNat addr i (by omega)]
    rw [if_neg (by omega)]
    have ih := ih (i + 1) (setCoil coils (addr.toNat + i) (bitAt values i)) (by omega)
    refine ⟨ih.1, ?_⟩
    rw [ih.2, readRange_cons, writeRange_cons, setCoil_bits _ _ _ (by omega)]
    rfl

theorem storeRegisters_cells (a : Nat) (values : List UInt16) (regs : List.Vector UInt16 m)
    (hin : a + values.length ≤ m) :
    cells (storeRegisters a values regs).toList 0 =
      writeRange (cells regs.toList 0) a values := by
  induction values generalizing a regs with
  | nil => simp [storeRegisters]
  | cons v values ih =>
    rw [List.length_cons] at hin
    rw [storeRegisters, ih (a + 1) _ (by omega), writeRange_cons,
      setRegister_cells _ _ _ (by omega)]

theorem bankCallbacks_backed (hn : n ≤ 8192) :
    Backed (bankCallbacks : Callbacks (Banks n m)) Banks.view (8 * n) m where
  readCoils := by
    refine ⟨_, rfl, fun addr count b hin => ⟨rfl, ?_, rfl⟩⟩
    apply bitAt_ext
    · rw [packBits_length, readRange_length]
      exact loadCoils_length ..
    · intro j
      have hbit := loadCoils_bits b.testCoils.toList addr (coilBytes count) count.toNat
        (by rw [coilBytes]; omega) (by omega) j
      change bitAt (loadCoils _ _ _ _) j = _
      rw [hbit, bitAt_packBits]
      by_cases hj : j < count.toNat
      · rw [readRange_getElem? _ _ _ _ hj, decide_eq_true hj]
        rfl
      · rw [List.getElem?_eq_none (by simpa using hj), decide_eq_false hj]
        rfl
  readHoldingRegisters := by
    refine ⟨_, rfl, fun addr count b hin => ?_⟩
    rw [testReadHoldingCb, if_neg (by omega)]
    refine ⟨rfl, eq_readRange (by simp) fun i x hx => ?_, rfl⟩
    rw [List.Vector.toList_ofFn, List.getElem?_ofFn] at hx
    split at hx
    · exact (Option.some.inj hx).symm
    · cases hx
  writeSingleCoil := by
    refine ⟨_, rfl, fun addr value b hin => ?_⟩
    rw [testWriteSingleCoilCb, if_neg (by omega)]
    refine ⟨rfl, ?_⟩
    rw [Data.writeCoils, writeRange_singleton, Banks.view, setCoil_bits _ _ _ hin]
    rfl
  writeSingleRegister := by
    refine ⟨_, rfl, fun addr value b hin => ?_⟩
    rw [writeSingleRegisterCb, if_neg (by omega)]
    refine ⟨rfl, ?_⟩
    rw [Data.writeRegisters, writeRange_singleton, Banks.view, setRegister_cells _ _ _ hin]
    rfl
  writeMultipleCoils := by
    refine ⟨_, rfl, fun addr count values b hin hl => ?_⟩
    obtain ⟨hret, hbits⟩ := storeCoils_bits addr values count.toNat 0 b.testCoils (by omega) hn
    refine ⟨hret, ?_⟩
    rw [Data.writeCoils, testWriteMultipleCoilsCb, Banks.view, hbits]
    rfl
  writeMultipleRegisters := by
    refine ⟨_, rfl, fun addr count values b hin hl => ?_⟩
    rw [testWriteHoldingCb, if_neg (by omega), List.take_of_length_le (by omega)]
    refine ⟨rfl, ?_⟩
    rw [Data.writeRegisters, Banks.view, storeRegisters_cells _ _ _ (by omega)]
    rfl

end Pamodbus.TestBanks
