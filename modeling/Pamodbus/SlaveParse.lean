import Pamodbus.Builders

namespace Pamodbus.SlaveParse

open Pamodbus.Lib.Cells Pamodbus.Lib.Procedure Pamodbus.Lib.Words
open Pamodbus.Context

variable {σ : Type}

def get16 (buf : Bytes) (i : Nat) : Option UInt16 := do
  return word (← buf[i]?) (← buf[i + 1]?)

/-- `ctx->slave_coil_data[off + i] = xs[i]` for every `i`. -/
def coilStore (off : Nat) (xs : Bytes) : Proc SlaveRequest Unit :=
  update fun r => (put r.slaveCoilData off xs).map fun d => { r with slaveCoilData := d }

/-- `ctx->slave_reg_data[off + i] = xs[i]` for every `i`. -/
def regStore (off : Nat) (xs : List UInt16) : Proc SlaveRequest Unit :=
  update fun r => (put r.slaveRegData off xs).map fun d => { r with slaveRegData := d }

/-- The loop `ctx->slave_reg_data[i] = get16(pdu + off + i * 2)`. -/
def getRegisters (pdu : Bytes) (off n : Nat) : Proc SlaveRequest Unit :=
  loop (fun i => do
    let v ← access (get16 pdu (off + i * 2))
    regStore i [v]) n

def setAddr (addr : UInt16) : Proc SlaveRequest Unit := modify fun r => { r with slaveAddr := addr }

def setCount (count : UInt16) : Proc SlaveRequest Unit :=
  modify fun r => { r with slaveCount := count }

def setRegCount (n : UInt16) : Proc SlaveRequest Unit :=
  modify fun r => { r with slaveRegCount := n }

def setValid : Proc SlaveRequest Unit := modify fun r => { r with slaveDataValid := true }

def parseRead (maxCount : Nat) (pdu : Bytes) (pduLen : Nat) : Proc SlaveRequest Int := do
  if pduLen < 5 then return paErrProtocol
  setAddr (← access (get16 pdu 1))
  let count ← access (get16 pdu 3)
  setCount count
  if count.toNat < 1 ∨ maxCount < count.toNat then return paErrBadParam
  return paOk

def parseWriteSingleCoil (pdu : Bytes) (pduLen : Nat) : Proc SlaveRequest Int := do
  if pduLen < 5 then return paErrProtocol
  setAddr (← access (get16 pdu 1))
  setCount 1
  let value ← access (get16 pdu 3)
  coilStore 0 [if value = 0xFF00 then 1 else 0]
  modify fun r => { r with slaveCoilCount := 1 }
  setValid
  return paOk

def parseWriteSingleRegister (pdu : Bytes) (pduLen : Nat) : Proc SlaveRequest Int := do
  if pduLen < 5 then return paErrProtocol
  setAddr (← access (get16 pdu 1))
  setCount 1
  regStore 0 [← access (get16 pdu 3)]
  setRegCount 1
  setValid
  return paOk

def parseBare (pduLen : Nat) : Proc SlaveRequest Int := do
  if pduLen < 1 then return paErrProtocol
  setAddr 0
  setCount 0
  return paOk

def parseDiagnostic (pdu : Bytes) (pduLen : Nat) : Proc SlaveRequest Int := do
  if pduLen < 5 then return paErrProtocol
  setAddr (← access (get16 pdu 1))
  setCount 0
  regStore 0 [← access (get16 pdu 3)]
  setRegCount 1
  setValid
  return paOk

def parseWriteMultipleCoils (pdu : Bytes) (pduLen : Nat) : Proc SlaveRequest Int := do
  if pduLen < 6 then return paErrProtocol
  setAddr (← access (get16 pdu 1))
  let count ← access (get16 pdu 3)
  setCount count
  if count.toNat < 1 ∨ 1968 < count.toNat then return paErrBadParam
  let byteCount := (← access pdu[5]?).toNat
  if pduLen < 6 + byteCount then return paErrProtocol
  if 33 < byteCount then return paErrProtocol
  coilStore 0 (← access (block pdu 6 byteCount))
  modify fun r => { r with slaveCoilCount := r.slaveCount }
  setValid
  return paOk

def parseWriteMultipleRegisters (pdu : Bytes) (pduLen : Nat) : Proc SlaveRequest Int := do
  if pduLen < 6 then return paErrProtocol
  setAddr (← access (get16 pdu 1))
  let count ← access (get16 pdu 3)
  setCount count
  if count.toNat < 1 ∨ 123 < count.toNat then return paErrBadParam
  let byteCount := (← access pdu[5]?).toNat
  if pduLen < 6 + byteCount then return paErrProtocol
  let regCount := byteCount / 2
  if 128 < regCount then return paErrProtocol
  setRegCount (UInt16.ofNat regCount)
  getRegisters pdu 6 regCount
  setValid
  return paOk

def parseFileRecord (pdu : Bytes) (pduLen : Nat) : Proc SlaveRequest Int := do
  if pduLen < 2 then return paErrProtocol
  let byteCount := (← access pdu[1]?).toNat
  if pduLen < 2 + byteCount then return paErrProtocol
  setAddr 0
  setCount 0
  let regCount := byteCount / 2
  if 128 < regCount then return paErrProtocol
  setRegCount (UInt16.ofNat regCount)
  getRegisters pdu 2 regCount
  setValid
  return paOk

def parseMaskWriteRegister (pdu : Bytes) (pduLen : Nat) : Proc SlaveRequest Int := do
  if pduLen < 7 then return paErrProtocol
  setAddr (← access (get16 pdu 1))
  setCount 1
  regStore 0 [← access (get16 pdu 3)]
  regStore 1 [← access (get16 pdu 5)]
  setRegCount 2
  setValid
  return paOk

def parseReadWriteRegisters (pdu : Bytes) (pduLen : Nat) : Proc SlaveRequest Int := do
  if pduLen < 11 then return paErrProtocol
  let readAddr ← access (get16 pdu 1)
  let readCount ← access (get16 pdu 3)
  let writeAddr ← access (get16 pdu 5)
  let writeCount ← access (get16 pdu 7)
  if readCount.toNat < 1 ∨ 125 < readCount.toNat then return paErrBadParam
  if writeCount.toNat < 1 ∨ 121 < writeCount.toNat then return paErrBadParam
  let byteCount := (← access pdu[9]?).toNat
  if pduLen < 10 + byteCount then return paErrProtocol
  setAddr readAddr
  setCount readCount
  let wc := byteCount / 2
  if 128 < wc then return paErrProtocol
  -- the write address and count travel in the coil storage
  coilStore 0 [hiByte writeAddr]
  coilStore 1 [loByte writeAddr]
  coilStore 2 [hiByte writeCount]
  coilStore 3 [loByte writeCount]
  setRegCount (UInt16.ofNat wc)
  getRegisters pdu 10 wc
  setValid
  return paOk

def parseReadFifoQueue (pdu : Bytes) (pduLen : Nat) : Proc SlaveRequest Int := do
  if pduLen < 3 then return paErrProtocol
  setAddr (← access (get16 pdu 1))
  setCount 0
  return paOk

/-- The switch of `parse_slave_request`. -/
def parseRequest (fc : UInt8) (pdu : Bytes) (pduLen : Nat) : Proc SlaveRequest Int :=
  match fc with
  | 0x01 | 0x02 => parseRead 2000 pdu pduLen
  | 0x03 | 0x04 => parseRead 125 pdu pduLen
  | 0x05 => parseWriteSingleCoil pdu pduLen
  | 0x06 => parseWriteSingleRegister pdu pduLen
  | 0x07 | 0x0B | 0x0C => parseBare pduLen
  | 0x08 => parseDiagnostic pdu pduLen
  | 0x0F => parseWriteMultipleCoils pdu pduLen
  | 0x10 => parseWriteMultipleRegisters pdu pduLen
  | 0x11 => parseBare pduLen
  | 0x14 | 0x15 => parseFileRecord pdu pduLen
  | 0x16 => parseMaskWriteRegister pdu pduLen
  | 0x17 => parseReadWriteRegisters pdu pduLen
  | 0x18 => parseReadFifoQueue pdu pduLen
  | _ => return paErrProtocol

def onRequest (p : Proc SlaveRequest Int) : Proc (PaModbus σ) Int :=
  focus (·.request) (fun r ctx => { ctx with request := r }) p

/-- `pdu` is the memory from the PDU's start on, `pduLen` its stated length. -/
def parseSlaveRequest (pdu : Bytes) (pduLen : Nat) : Proc (PaModbus σ) Int := do
  if pduLen < 1 then return paErrProtocol
  let fc ← access pdu[0]?
  modify fun ctx => { ctx with
    lastFunction := fc, request := { ctx.request with slaveDataValid := false } }
  if fc &&& 0x80 ≠ 0 then return paErrProtocol
  onRequest (parseRequest fc pdu pduLen)

theorem get16_eq (buf : Bytes) (i : Nat) (h l : UInt8) (hh : buf[i]? = some h)
    (hl : buf[i + 1]? = some l) : get16 buf i = some (word h l) := by
  simp [get16, hh, hl]

theorem get16_some (buf : Bytes) (i : Nat) (h : i + 1 < buf.length) :
    ∃ v, get16 buf i = some v := by
  obtain ⟨b, hb⟩ := getElem?_some buf i (by omega)
  obtain ⟨c, hc⟩ := getElem?_some buf (i + 1) h
  exact ⟨_, get16_eq buf i b c hb hc⟩

theorem get16_put16 (pre post : Bytes) (v : UInt16) (i : Nat) (hi : i = pre.length) :
    get16 (pre ++ Builders.put16 v ++ post) i = some v := by
  subst hi
  have hh : (pre ++ Builders.put16 v ++ post)[pre.length]? = some (hiByte v) := by
    simp [Builders.put16]
  have hl : (pre ++ Builders.put16 v ++ post)[pre.length + 1]? = some (loByte v) := by
    simp [Builders.put16]
  rw [get16_eq _ _ _ _ hh hl, word_bytes]

theorem wordPair_fields (fc : UInt8) (u v : UInt16) (rest : Bytes) :
    get16 ([fc] ++ Builders.put16 u ++ Builders.put16 v ++ rest) 1 = some u ∧
      get16 ([fc] ++ Builders.put16 u ++ Builders.put16 v ++ rest) 3 = some v := by
  constructor
  · exact get16_put16 [fc] (Builders.put16 v ++ rest) u 1 rfl
  · exact get16_put16 ([fc] ++ Builders.put16 u) rest v 3 rfl

theorem writeHeader_fields (fc : UInt8) (addr count : UInt16) (n : Nat) (rest : Bytes)
    (hn : n < 256) :
    get16 (Builders.writeHeader fc addr count n ++ rest) 1 = some addr ∧
      get16 (Builders.writeHeader fc addr count n ++ rest) 3 = some count ∧
      ∃ bc, (Builders.writeHeader fc addr count n ++ rest)[5]? = some bc ∧ bc.toNat = n := by
  obtain ⟨ha, hc⟩ := wordPair_fields fc addr count ([UInt8.ofNat n] ++ rest)
  refine ⟨ha, hc, _, rfl, ?_⟩
  rw [UInt8.toNat_ofNat']
  omega

theorem readWriteHeader_fields (readAddr readCount writeAddr writeCount : UInt16) (rest : Bytes)
    (hn : writeCount.toNat < 128) :
    let pdu := Builders.readWriteHeader readAddr readCount writeAddr writeCount ++ rest
    get16 pdu 1 = some readAddr ∧ get16 pdu 3 = some readCount ∧ get16 pdu 5 = some writeAddr ∧
      get16 pdu 7 = some writeCount ∧
      ∃ bc, pdu[9]? = some bc ∧ bc.toNat = writeCount.toNat * 2 := by
  have hread : [0x17] ++ Builders.put16 readAddr ++ Builders.put16 readCount =
      [0x17, hiByte readAddr, loByte readAddr, hiByte readCount, loByte readCount] := rfl
  obtain ⟨ha, hc⟩ := wordPair_fields 0x17 readAddr readCount
    (Builders.put16 writeAddr ++ Builders.put16 writeCount ++
      [UInt8.ofNat (writeCount.toNat * 2)] ++ rest)
  refine ⟨ha, hc, ?_, ?_, _, rfl, ?_⟩
  · exact get16_put16 [0x17, hiByte readAddr, loByte readAddr, hiByte readCount, loByte readCount]
      (Builders.put16 writeCount ++ [UInt8.ofNat (writeCount.toNat * 2)] ++ rest) writeAddr 5 rfl
  · exact get16_put16 ([0x17, hiByte readAddr, loByte readAddr, hiByte readCount,
      loByte readCount] ++ Builders.put16 writeAddr)
      ([UInt8.ofNat (writeCount.toNat * 2)] ++ rest) writeCount 7 rfl
  · rw [UInt8.toNat_ofNat']
    omega

end Pamodbus.SlaveParse
