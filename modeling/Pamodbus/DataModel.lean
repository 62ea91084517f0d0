import Pamodbus.Builders
import Pamodbus.Lib.Banks

namespace Pamodbus.DataModel

open Pamodbus.Lib.Banks Pamodbus.Lib.Words
open Pamodbus.Context Pamodbus.Builders

variable {σ : Type}

structure Data where
  coils : Nat → Bool
  registers : Nat → UInt16

/-- The packed coils of a write come as they stand on the line, with any
filling of the last byte. -/
inductive Request
  | readCoils (addr count : UInt16)
  | readHoldingRegisters (addr count : UInt16)
  | writeSingleCoil (addr : UInt16) (value : Bool)
  | writeSingleRegister (addr value : UInt16)
  | writeMultipleCoils (addr count : UInt16) (packed : Bytes)
  | writeMultipleRegisters (addr count : UInt16) (values : List UInt16)
  | readWriteMultipleRegisters (readAddr readCount writeAddr writeCount : UInt16)
      (values : List UInt16)

def coilWord (value : Bool) : UInt16 := if value then 0xFF00 else 0

def Request.pdu : Request → Bytes
  | .readCoils addr count => [0x01] ++ put16 addr ++ put16 count
  | .readHoldingRegisters addr count => [0x03] ++ put16 addr ++ put16 count
  | .writeSingleCoil addr value => [0x05] ++ put16 addr ++ put16 (coilWord value)
  | .writeSingleRegister addr value => [0x06] ++ put16 addr ++ put16 value
  | .writeMultipleCoils addr count packed =>
    writeHeader 0x0F addr count (coilBytes count) ++ packed
  | .writeMultipleRegisters addr count values =>
    writeHeader 0x10 addr count (count.toNat * 2) ++ registerBytes values
  | .readWriteMultipleRegisters readAddr readCount writeAddr writeCount values =>
    readWriteHeader readAddr readCount writeAddr writeCount ++ registerBytes values

/-- A well-formed request whose ranges lie inside of banks of these sizes. -/
def Request.Valid (coils registers : Nat) : Request → Prop
  | .readCoils addr count =>
    1 ≤ count.toNat ∧ count.toNat ≤ 264 ∧ addr.toNat + count.toNat ≤ coils
  | .readHoldingRegisters addr count =>
    1 ≤ count.toNat ∧ count.toNat ≤ 125 ∧ addr.toNat + count.toNat ≤ registers
  | .writeSingleCoil addr _ => addr.toNat < coils
  | .writeSingleRegister addr _ => addr.toNat < registers
  | .writeMultipleCoils addr count packed =>
    1 ≤ count.toNat ∧ count.toNat ≤ 264 ∧ packed.length = coilBytes count ∧
      addr.toNat + count.toNat ≤ coils
  | .writeMultipleRegisters addr count values =>
    1 ≤ count.toNat ∧ count.toNat ≤ 123 ∧ values.length = count.toNat ∧
      addr.toNat + count.toNat ≤ registers
  | .readWriteMultipleRegisters readAddr readCount writeAddr writeCount values =>
    1 ≤ readCount.toNat ∧ readCount.toNat ≤ 125 ∧
      readAddr.toNat + readCount.toNat ≤ registers ∧
      1 ≤ writeCount.toNat ∧ writeCount.toNat ≤ 121 ∧ values.length = writeCount.toNat ∧
      writeAddr.toNat + writeCount.toNat ≤ registers

instance (coils registers : Nat) : (req : Request) → Decidable (req.Valid coils registers)
  | .readCoils .. | .readHoldingRegisters .. => inferInstanceAs (Decidable (_ ∧ _ ∧ _))
  | .writeSingleCoil .. | .writeSingleRegister .. => inferInstanceAs (Decidable (_ < _))
  | .writeMultipleCoils .. | .writeMultipleRegisters .. =>
    inferInstanceAs (Decidable (_ ∧ _ ∧ _ ∧ _))
  | .readWriteMultipleRegisters .. => inferInstanceAs (Decidable (_ ∧ _ ∧ _ ∧ _ ∧ _ ∧ _ ∧ _))

namespace Data

def writeCoils (m : Data) (addr : UInt16) (values : List Bool) : Data :=
  { m with coils := writeRange m.coils addr.toNat values }

def writeRegisters (m : Data) (addr : UInt16) (values : List UInt16) : Data :=
  { m with registers := writeRange m.registers addr.toNat values }

def readCoils (m : Data) (addr count : UInt16) : Bytes :=
  [UInt8.ofNat (coilBytes count)] ++ packBits (readRange m.coils addr.toNat count.toNat)

def readRegisters (m : Data) (addr count : UInt16) : Bytes :=
  [UInt8.ofNat (count.toNat * 2)] ++ registerBytes (readRange m.registers addr.toNat count.toNat)

def next (m : Data) : Request → Data
  | .readCoils _ _ | .readHoldingRegisters _ _ => m
  | .writeSingleCoil addr value => m.writeCoils addr [value]
  | .writeSingleRegister addr value => m.writeRegisters addr [value]
  | .writeMultipleCoils addr count packed =>
    m.writeCoils addr (readRange (bitAt packed) 0 count.toNat)
  | .writeMultipleRegisters addr _ values => m.writeRegisters addr values
  | .readWriteMultipleRegisters _ _ writeAddr _ values => m.writeRegisters writeAddr values

def answer (m : Data) : Request → Bytes
  | .readCoils addr count => [0x01] ++ m.readCoils addr count
  | .readHoldingRegisters addr count => [0x03] ++ m.readRegisters addr count
  | .writeSingleCoil addr value => [0x05] ++ put16 addr ++ put16 (coilWord value)
  | .writeSingleRegister addr value => [0x06] ++ put16 addr ++ put16 value
  | .writeMultipleCoils addr count _ => [0x0F] ++ put16 addr ++ put16 count
  | .writeMultipleRegisters addr count _ => [0x10] ++ put16 addr ++ put16 count
  | .readWriteMultipleRegisters readAddr readCount writeAddr _ values =>
    [0x17] ++ (m.writeRegisters writeAddr values).readRegisters readAddr readCount

/-- Requests one after the other: what is answered, and the banks at the end. -/
def run (m : Data) : List Request → List Bytes × Data
  | [] => ([], m)
  | req :: reqs =>
    let (answers, m') := (m.next req).run reqs
    (m.answer req :: answers, m')

end Data

/-- Callbacks over banks of these sizes. `view` shows what the application state
holds in them. -/
structure Backed (cbs : Callbacks σ) (view : σ → Data) (coils registers : Nat) : Prop where
  readCoils : ∃ cb, cbs.readCoilsCb = some cb ∧ ∀ addr count app,
    addr.toNat + count.toNat ≤ coils → (cb addr count app).1 = 0 ∧
      (cb addr count app).2.1.toList =
        packBits (readRange (view app).coils addr.toNat count.toNat) ∧
      view (cb addr count app).2.2 = view app
  readHoldingRegisters : ∃ cb, cbs.readHoldingRegistersCb = some cb ∧ ∀ addr count app,
    addr.toNat + count.toNat ≤ registers → (cb addr count app).1 = 0 ∧
      (cb addr count app).2.1.toList =
        readRange (view app).registers addr.toNat count.toNat ∧
      view (cb addr count app).2.2 = view app
  writeSingleCoil : ∃ cb, cbs.writeSingleCoilCb = some cb ∧ ∀ addr value app,
    addr.toNat < coils → (cb addr value app).1 = 0 ∧
      view (cb addr value app).2 = (view app).writeCoils addr [decide (value ≠ 0)]
  writeSingleRegister : ∃ cb, cbs.writeSingleRegisterCb = some cb ∧ ∀ addr value app,
    addr.toNat < registers → (cb addr value app).1 = 0 ∧
      view (cb addr value app).2 = (view app).writeRegisters addr [value]
  writeMultipleCoils : ∃ cb, cbs.writeMultipleCoilsCb = some cb ∧ ∀ addr count values app,
    addr.toNat + count.toNat ≤ coils → values.length = coilBytes count →
      (cb addr count values app).1 = 0 ∧
      view (cb addr count values app).2 =
        (view app).writeCoils addr (readRange (bitAt values) 0 count.toNat)
  writeMultipleRegisters : ∃ cb, cbs.writeMultipleRegistersCb = some cb ∧
    ∀ addr count values app,
      addr.toNat + count.toNat ≤ registers → values.length = count.toNat →
        (cb addr count values app).1 = 0 ∧
        view (cb addr count values app).2 = (view app).writeRegisters addr values

end Pamodbus.DataModel
