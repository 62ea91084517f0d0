import Pamodbus.SlaveParse
import Mathlib.Data.Vector.Defs

namespace Pamodbus.Respond

open Pamodbus.Lib.Cells Pamodbus.Lib.Procedure Pamodbus.Lib.Words
open Pamodbus.Context Pamodbus.Framer Pamodbus.Builders

variable {σ : Type} {n : Nat}

/-- What the memory of local variables holds before they are written: cell `i`
of the array set up at step `k` of a loop (`k = 0` outside of loops). -/
abbrev Residue := Nat → Nat → UInt16

def uninit (n : Nat) (cells : Nat → UInt16) : List.Vector UInt16 n :=
  List.Vector.ofFn fun i => cells i

-- A read callback fills a local array. A write callback is handed an array, of
-- which it has the cells that its count covers: fewer than it asks for when the
-- array ends before that, and nothing is read unless the callback reads it.

def readBits (call : Call) (cb : ReadCoilsFn σ) (addr count : UInt16) (arr : List.Vector UInt8 n) :
    Proc (World σ) (Int × List.Vector UInt8 n) := do
  let (ret, values, app) := cb addr count (← get).app
  modify fun w => w.called call ret app
  return (ret, ← access (put arr 0 values.toList))

def readRegisters (call : Call) (cb : ReadRegistersFn σ) (addr count : UInt16)
    (arr : List.Vector UInt16 n) : Proc (World σ) (Int × List.Vector UInt16 n) := do
  let (ret, values, app) := cb addr count (← get).app
  modify fun w => w.called call ret app
  return (ret, ← access (put arr 0 values.toList))

def writeCoil (cb : WriteSingleCoilFn σ) (addr : UInt16) (value : UInt8) :
    Proc (World σ) Int := do
  let (ret, app) := cb addr value (← get).app
  modify fun w => w.called (.writeSingleCoil addr value) ret app
  return ret

def writeRegister (cb : WriteSingleRegisterFn σ) (addr value : UInt16) : Proc (World σ) Int := do
  let (ret, app) := cb addr value (← get).app
  modify fun w => w.called (.writeSingleRegister addr value) ret app
  return ret

def writeCoils (cb : WriteMultipleCoilsFn σ) (addr count : UInt16) (data : Bytes) :
    Proc (World σ) Int := do
  let values := data.take (coilBytes count)
  let (ret, app) := cb addr count values (← get).app
  modify fun w => w.called (.writeMultipleCoils addr count values) ret app
  return ret

def writeRegisters (cb : WriteMultipleRegistersFn σ) (addr count : UInt16) (data : List UInt16) :
    Proc (World σ) Int := do
  let values := data.take count.toNat
  let (ret, app) := cb addr count values (← get).app
  modify fun w => w.called (.writeMultipleRegisters addr count values) ret app
  return ret

-- One definition for each case of the switch: the length of the PDU it has built, or the value
-- with which `pa_modbus_slave_respond` returns there.

def respondReadBits (fc : UInt8) (cb : Option (ReadCoilsFn σ)) (call : UInt16 → UInt16 → Call) :
    Proc (World σ) (Except Int Nat) := do
  let req := (← get).ctx.request
  let byteCount := (req.slaveCount.toNat + 7) / 8
  match cb with
  | none => return .error paErrState
  | some cb =>
    let (ret, coilData) ← readBits (call req.slaveAddr req.slaveCount) cb req.slaveAddr
      req.slaveCount (List.Vector.replicate 33 0)
    if ret ≠ 0 then return .error paErrCallback
    txStore 0 [fc]
    txStore 1 [UInt8.ofNat byteCount]
    txStore 2 (← access (block coilData.toList 0 byteCount))
    return .ok (2 + byteCount)

def respondReadRegisters (residue : Residue) (fc : UInt8) (cb : Option (ReadRegistersFn σ))
    (call : UInt16 → UInt16 → Call) : Proc (World σ) (Except Int Nat) := do
  let req := (← get).ctx.request
  let byteCount := req.slaveCount.toNat * 2
  match cb with
  | none => return .error paErrState
  | some cb =>
    let (ret, regData) ← readRegisters (call req.slaveAddr req.slaveCount) cb req.slaveAddr
      req.slaveCount (uninit 128 (residue 0))
    if ret ≠ 0 then return .error paErrCallback
    txStore 0 [fc]
    txStore 1 [UInt8.ofNat byteCount]
    putRegisters 2 regData.toList req.slaveCount.toNat
    return .ok (2 + byteCount)

def respondWriteSingleCoil (fc : UInt8) : Proc (World σ) (Except Int Nat) := do
  let ctx := (← get).ctx
  match ctx.callbacks.writeSingleCoilCb with
  | none => return .error paErrState
  | some cb =>
    let value ← access ctx.request.slaveCoilData.toList[0]?
    let ret ← writeCoil cb ctx.request.slaveAddr value
    if ret ≠ 0 then return .error paErrCallback
    txStore 0 [fc]
    txStore 1 (put16 ctx.request.slaveAddr)
    txStore 3 (put16 (if value ≠ 0 then 0xFF00 else 0x0000))
    return .ok 5

def respondWriteSingleRegister (fc : UInt8) : Proc (World σ) (Except Int Nat) := do
  let ctx := (← get).ctx
  match ctx.callbacks.writeSingleRegisterCb with
  | none => return .error paErrState
  | some cb =>
    let value ← access ctx.request.slaveRegData.toList[0]?
    let ret ← writeRegister cb ctx.request.slaveAddr value
    if ret ≠ 0 then return .error paErrCallback
    txStore 0 [fc]
    txStore 1 (put16 ctx.request.slaveAddr)
    txStore 3 (put16 value)
    return .ok 5

def respondExceptionStatus (residue : Residue) (fc : UInt8) : Proc (World σ) (Except Int Nat) := do
  match (← get).ctx.callbacks.readCoilsCb with
  | none => return .error paErrState
  | some cb =>
    let status : List.Vector UInt8 1 := ⟨[(residue 0 0).toUInt8], rfl⟩
    let (ret, status) ← readBits (.readCoils 0 8) cb 0 8 status
    if ret ≠ 0 then return .error paErrCallback
    txStore 0 [fc]
    txStore 1 [← access status.toList[0]?]
    return .ok 2

def respondDiagnostic (fc : UInt8) : Proc (World σ) (Except Int Nat) := do
  let req := (← get).ctx.request
  txStore 0 [fc]
  txStore 1 (put16 req.slaveAddr)
  txStore 3 (put16 (← access req.slaveRegData.toList[0]?))
  return .ok 5

def respondComEventCounter (residue : Residue) (fc : UInt8) : Proc (World σ) (Except Int Nat) := do
  match (← get).ctx.callbacks.readHoldingRegistersCb with
  | none => return .error paErrState
  | some cb =>
    let (ret, regs) ← readRegisters (.readHoldingRegisters 0xFFFE 2) cb 0xFFFE 2
      (uninit 2 (residue 0))
    if ret ≠ 0 then return .error paErrCallback
    txStore 0 [fc]
    putRegisters 1 regs.toList 2
    return .ok 5

def respondComEventLog (residue : Residue) (fc : UInt8) : Proc (World σ) (Except Int Nat) := do
  match (← get).ctx.callbacks.readHoldingRegistersCb with
  | none => return .error paErrState
  | some cb =>
    let (ret, regs) ← readRegisters (.readHoldingRegisters 0xFFFC 5) cb 0xFFFC 5
      (uninit 5 (residue 0))
    if ret ≠ 0 then return .error paErrCallback
    txStore 0 [fc]
    txStore 1 [10]
    putRegisters 2 regs.toList 5
    return .ok (2 + 10)

def respondWriteMultipleCoils (fc : UInt8) : Proc (World σ) (Except Int Nat) := do
  let ctx := (← get).ctx
  match ctx.callbacks.writeMultipleCoilsCb with
  | none => return .error paErrState
  | some cb =>
    let ret ← writeCoils cb ctx.request.slaveAddr ctx.request.slaveCount
      ctx.request.slaveCoilData.toList
    if ret ≠ 0 then return .error paErrCallback
    txStore 0 [fc]
    txStore 1 (put16 ctx.request.slaveAddr)
    txStore 3 (put16 ctx.request.slaveCount)
    return .ok 5

def respondWriteMultipleRegisters (fc : UInt8) : Proc (World σ) (Except Int Nat) := do
  let ctx := (← get).ctx
  match ctx.callbacks.writeMultipleRegistersCb with
  | none => return .error paErrState
  | some cb =>
    let ret ← writeRegisters cb ctx.request.slaveAddr ctx.request.slaveCount
      ctx.request.slaveRegData.toList
    if ret ≠ 0 then return .error paErrCallback
    txStore 0 [fc]
    txStore 1 (put16 ctx.request.slaveAddr)
    txStore 3 (put16 ctx.request.slaveCount)
    return .ok 5

def respondReportServerId (residue : Residue) (fc : UInt8) : Proc (World σ) (Except Int Nat) := do
  match (← get).ctx.callbacks.readHoldingRegistersCb with
  | none => return .error paErrState
  | some cb =>
    let (ret, regs) ← readRegisters (.readHoldingRegisters 0xFFF0 64) cb 0xFFF0 64
      (uninit 64 (residue 0))
    if ret ≠ 0 then return .error paErrCallback
    let byteCount := min (loByte (← access regs.toList[0]?)).toNat 126
    txStore 0 [fc]
    txStore 1 [UInt8.ofNat byteCount]
    putRegisters 2 (regs.toList.drop 1) (min ((byteCount + 1) / 2) 63)
    return .ok (2 + byteCount)

/-- The loop of Read File Record. Each round moves on by seven bytes, so
`rounds` does not run out when it starts above the length of the request. -/
def readFileRecords (residue : Residue) (cb : ReadRegistersFn σ) :
    (rounds reqOffset offset : Nat) → (respByteCount : UInt8) → Proc (World σ) (Except Int UInt8)
  | 0, _, _, _ => access none
  | rounds + 1, reqOffset, offset, respByteCount => do
    let ctx := (← get).ctx
    let regs := ctx.request.slaveRegData.toList
    let limit := ctx.request.slaveRegCount.toNat * 2
    if limit ≤ reqOffset then return .ok respByteCount
    if limit < reqOffset + 7 then return .ok respByteCount
    let refType := hiByte (← access regs[reqOffset / 2]?)
    let _fileNum ← access regs[reqOffset / 2 + 1]?
    let recNum ← access regs[reqOffset / 2 + 2]?
    let recLen ← access regs[reqOffset / 2 + 3]?
    let recLen : UInt16 := if 64 < recLen.toNat then 64 else recLen
    let (ret, dataRegs) ← readRegisters (.readHoldingRegisters recNum recLen) cb recNum recLen
      (uninit 64 (residue reqOffset))
    if ret ≠ 0 then return .error paErrCallback
    let subByteCount := UInt8.ofNat (recLen.toNat * 2 + 1)
    if ctx.txbuf.cells.length < offset + 1 + subByteCount.toNat then return .ok respByteCount
    txStore offset [subByteCount]
    txStore (offset + 1) [refType]
    putRegisters (offset + 2) dataRegs.toList recLen.toNat
    readFileRecords residue cb rounds (reqOffset + 7) (offset + 2 + recLen.toNat * 2)
      (respByteCount + UInt8.ofNat (1 + subByteCount.toNat))

def respondReadFileRecord (residue : Residue) (fc : UInt8) : Proc (World σ) (Except Int Nat) := do
  let ctx := (← get).ctx
  match ctx.callbacks.readHoldingRegistersCb with
  | none => return .error paErrState
  | some cb =>
    txStore 0 [fc]
    match ← readFileRecords residue cb (ctx.request.slaveRegCount.toNat * 2 + 1) 0 2 0 with
    | .error ret => return .error ret
    | .ok respByteCount =>
      txStore 1 [respByteCount]
      return .ok (2 + respByteCount.toNat)

def writeFileRecords (residue : Residue) (cb : WriteMultipleRegistersFn σ) :
    (rounds offset : Nat) → Proc (World σ) (Except Int Unit)
  | 0, _ => access none
  | rounds + 1, offset => do
    let req := (← get).ctx.request
    let regs := req.slaveRegData.toList
    let regCount := req.slaveRegCount.toNat
    if regCount * 2 ≤ offset then return .ok ()
    if regCount * 2 < offset + 7 then return .ok ()
    let _refType := hiByte (← access regs[offset / 2]?)
    let _fileNum ← access regs[offset / 2 + 1]?
    let recNum ← access regs[offset / 2 + 2]?
    let recLen ← access regs[offset / 2 + 3]?
    let recLen : UInt16 := if 64 < recLen.toNat then 64 else recLen
    let copied ← access (block regs (offset / 2 + 4) (min recLen.toNat (regCount - (offset / 2 + 4))))
    let dataRegs ← access (put (uninit 64 (residue offset)) 0 copied)
    let ret ← writeRegisters cb recNum recLen dataRegs.toList
    if ret ≠ 0 then return .error paErrCallback
    writeFileRecords residue cb rounds (offset + 7 + recLen.toNat * 2)

def respondWriteFileRecord (residue : Residue) (fc : UInt8) : Proc (World σ) (Except Int Nat) := do
  let ctx := (← get).ctx
  let regCount := ctx.request.slaveRegCount.toNat
  match ctx.callbacks.writeMultipleRegistersCb with
  | none => return .error paErrState
  | some cb =>
    match ← writeFileRecords residue cb (regCount * 2 + 1) 0 with
    | .error ret => return .error ret
    | .ok () =>
      let reqByteCount := UInt8.ofNat (regCount * 2)
      txStore 0 [fc]
      txStore 1 [reqByteCount]
      putRegisters 2 ctx.request.slaveRegData.toList regCount
      return .ok (2 + reqByteCount.toNat)

/-- The read-modify-write step of Mask Write Register. A missing or failing
read callback leaves the register alone. -/
def maskWrite (residue : Residue) (cb : WriteSingleRegisterFn σ) (andMask orMask : UInt16) :
    Proc (World σ) (Except Int Unit) := do
  let ctx := (← get).ctx
  match ctx.callbacks.readHoldingRegistersCb with
  | none => return .ok ()
  | some rcb =>
    let (ret, cur) ← readRegisters (.readHoldingRegisters ctx.request.slaveAddr 1) rcb
      ctx.request.slaveAddr 1 (uninit 1 (residue 0))
    if ret ≠ 0 then return .ok ()
    let curVal ← access cur.toList[0]?
    let ret ← writeRegister cb ctx.request.slaveAddr ((curVal &&& andMask) ||| orMask)
    if ret ≠ 0 then return .error paErrCallback
    return .ok ()

def respondMaskWriteRegister (residue : Residue) (fc : UInt8) :
    Proc (World σ) (Except Int Nat) := do
  let ctx := (← get).ctx
  match ctx.callbacks.writeSingleRegisterCb with
  | none => return .error paErrState
  | some cb =>
    let andMask ← access ctx.request.slaveRegData.toList[0]?
    let orMask ← access ctx.request.slaveRegData.toList[1]?
    match ← maskWrite residue cb andMask orMask with
    | .error ret => return .error ret
    | .ok () =>
      txStore 0 [fc]
      txStore 1 (put16 ctx.request.slaveAddr)
      txStore 3 (put16 andMask)
      txStore 5 (put16 orMask)
      return .ok 7

def respondReadWriteRegisters (residue : Residue) (fc : UInt8) :
    Proc (World σ) (Except Int Nat) := do
  let ctx := (← get).ctx
  let coils := ctx.request.slaveCoilData.toList
  match ctx.callbacks.readHoldingRegistersCb, ctx.callbacks.writeMultipleRegistersCb with
  | some rcb, some wcb =>
    let writeAddr := word (← access coils[0]?) (← access coils[1]?)
    let writeCount := word (← access coils[2]?) (← access coils[3]?)
    let ret ← writeRegisters wcb writeAddr writeCount ctx.request.slaveRegData.toList
    if ret ≠ 0 then return .error paErrCallback
    let readCount := ctx.request.slaveCount
    let byteCount := readCount.toNat * 2
    let (ret, regData) ← readRegisters (.readHoldingRegisters ctx.request.slaveAddr readCount) rcb
      ctx.request.slaveAddr readCount (uninit 128 (residue 0))
    if ret ≠ 0 then return .error paErrCallback
    txStore 0 [fc]
    txStore 1 [UInt8.ofNat byteCount]
    putRegisters 2 regData.toList readCount.toNat
    return .ok (2 + byteCount)
  | _, _ => return .error paErrState

def respondReadFifoQueue (residue : Residue) (fc : UInt8) : Proc (World σ) (Except Int Nat) := do
  let ctx := (← get).ctx
  match ctx.callbacks.readHoldingRegistersCb with
  | none => return .error paErrState
  | some cb =>
    let (ret, fifoData) ← readRegisters (.readHoldingRegisters ctx.request.slaveAddr 128) cb
      ctx.request.slaveAddr 128 (uninit 128 (residue 0))
    if ret ≠ 0 then return .error paErrCallback
    let fifoCount := min (← access fifoData.toList[0]?).toNat 127
    let byteCount := fifoCount * 2 + 2
    txStore 0 [fc]
    txStore 1 (put16 (UInt16.ofNat byteCount))
    txStore 3 (put16 (UInt16.ofNat fifoCount))
    putRegisters 5 (fifoData.toList.drop 1) fifoCount
    return .ok (2 + byteCount)

/-- The switch of `pa_modbus_slave_respond`. -/
def respondPdu (residue : Residue) (cbs : Callbacks σ) (fc : UInt8) :
    Proc (World σ) (Except Int Nat) :=
  match fc with
  | 0x01 => respondReadBits fc cbs.readCoilsCb .readCoils
  | 0x02 => respondReadBits fc cbs.readDiscreteInputsCb .readDiscreteInputs
  | 0x03 => respondReadRegisters residue fc cbs.readHoldingRegistersCb .readHoldingRegisters
  | 0x04 => respondReadRegisters residue fc cbs.readInputRegistersCb .readInputRegisters
  | 0x05 => respondWriteSingleCoil fc
  | 0x06 => respondWriteSingleRegister fc
  | 0x07 => respondExceptionStatus residue fc
  | 0x08 => respondDiagnostic fc
  | 0x0B => respondComEventCounter residue fc
  | 0x0C => respondComEventLog residue fc
  | 0x0F => respondWriteMultipleCoils fc
  | 0x10 => respondWriteMultipleRegisters fc
  | 0x11 => respondReportServerId residue fc
  | 0x14 => respondReadFileRecord residue fc
  | 0x15 => respondWriteFileRecord residue fc
  | 0x16 => respondMaskWriteRegister residue fc
  | 0x17 => respondReadWriteRegisters residue fc
  | 0x18 => respondReadFifoQueue residue fc
  | _ => return .error paErrProtocol

def paModbusSlaveRespond (residue : Residue) : Proc (World σ) Int := do
  let ctx := (← get).ctx
  match ← respondPdu residue ctx.callbacks ctx.lastFunction with
  | .error ret => return ret
  | .ok pduLen => finish pduLen

def paModbusSlaveRespondError (exceptionCode : UInt8) : Proc (World σ) Int := do
  txStore 0 [(← get).ctx.lastFunction ||| 0x80]
  txStore 1 [exceptionCode]
  finish 2

end Pamodbus.Respond
