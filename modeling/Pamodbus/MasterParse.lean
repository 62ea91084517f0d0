import Pamodbus.SlaveParse

namespace Pamodbus.MasterParse

open Pamodbus.Lib.Cells Pamodbus.Lib.Procedure Pamodbus.Lib.Words
open Pamodbus.Context Pamodbus.SlaveParse

variable {σ : Type}

/-- `ctx->last_coil_data[off + i] = xs[i]` for every `i`. -/
def coilStore (off : Nat) (xs : Bytes) : Proc MasterResult Unit :=
  update fun r => (put r.lastCoilData off xs).map fun d => { r with lastCoilData := d }

/-- `ctx->last_reg_data[off + i] = xs[i]` for every `i`. -/
def regStore (off : Nat) (xs : List UInt16) : Proc MasterResult Unit :=
  update fun r => (put r.lastRegData off xs).map fun d => { r with lastRegData := d }

def setCoilCount (n : Nat) : Proc MasterResult Unit :=
  modify fun r => { r with lastCoilCount := UInt16.ofNat n }

def setRegCount (n : Nat) : Proc MasterResult Unit :=
  modify fun r => { r with lastRegCount := UInt16.ofNat n }

/-- The loop `ctx->last_reg_data[i] = get16(pdu + 2 + i * 2)`. -/
def getRegisters (pdu : Bytes) (n : Nat) : Proc MasterResult Unit :=
  loop (fun i => do
    let v ← access (get16 pdu (2 + i * 2))
    regStore i [v]) n

def parseReadBits (pdu : Bytes) (pduLen : Nat) : Proc MasterResult Int := do
  if pduLen < 2 then return paErrProtocol
  let byteCount := (← access pdu[1]?).toNat
  if pduLen < 2 + byteCount then return paErrProtocol
  if 33 < byteCount then return paErrProtocol
  coilStore 0 (← access (block pdu 2 byteCount))
  setCoilCount (byteCount * 8)
  return paOk

def parseReadRegisters (pdu : Bytes) (pduLen : Nat) : Proc MasterResult Int := do
  if pduLen < 2 then return paErrProtocol
  let byteCount := (← access pdu[1]?).toNat
  if pduLen < 2 + byteCount then return paErrProtocol
  if 128 < byteCount / 2 then return paErrProtocol
  setRegCount (byteCount / 2)
  getRegisters pdu (byteCount / 2)
  return paOk

/-- The responses that repeat the request and carry no data. -/
def parseEcho (pduLen : Nat) : Proc MasterResult Int :=
  if pduLen < 5 then return paErrProtocol else return paOk

def parseExceptionStatus (pdu : Bytes) (pduLen : Nat) : Proc MasterResult Int := do
  if pduLen < 2 then return paErrProtocol
  coilStore 0 [← access pdu[1]?]
  setCoilCount 8
  return paOk

def parseDiagnostic (pdu : Bytes) (pduLen : Nat) : Proc MasterResult Int := do
  if pduLen < 5 then return paErrProtocol
  regStore 0 [← access (get16 pdu 3)]
  setRegCount 1
  return paOk

def parseComEventCounter (pdu : Bytes) (pduLen : Nat) : Proc MasterResult Int := do
  if pduLen < 5 then return paErrProtocol
  regStore 0 [← access (get16 pdu 1)]
  regStore 1 [← access (get16 pdu 3)]
  setRegCount 2
  return paOk

def parseComEventLog (pdu : Bytes) (pduLen : Nat) : Proc MasterResult Int := do
  if pduLen < 2 then return paErrProtocol
  let byteCount := (← access pdu[1]?).toNat
  if pduLen < 2 + byteCount then return paErrProtocol
  if 4 ≤ byteCount then
    regStore 0 [← access (get16 pdu 2)]
    regStore 1 [← access (get16 pdu 4)]
    setRegCount 2
    let logBytes := min (byteCount - 4) 33
    coilStore 0 (← access (block pdu 6 logBytes))
    setCoilCount (logBytes * 8)
  return paOk

def parseReportServerId (pdu : Bytes) (pduLen : Nat) : Proc MasterResult Int := do
  if pduLen < 2 then return paErrProtocol
  let byteCount := (← access pdu[1]?).toNat
  if pduLen < 2 + byteCount then return paErrProtocol
  let regCount := min ((byteCount + 1) / 2) 128
  setRegCount regCount
  loop (fun i => do
    let b ← access pdu[2 + i * 2]?
    if i * 2 + 1 < byteCount then
      regStore i [word b (← access pdu[2 + i * 2 + 1]?)]
    else
      regStore i [b.toUInt16]) regCount
  return paOk

def parseClampedRegisters (pdu : Bytes) (pduLen : Nat) : Proc MasterResult Int := do
  if pduLen < 2 then return paErrProtocol
  let byteCount := (← access pdu[1]?).toNat
  if pduLen < 2 + byteCount then return paErrProtocol
  let regCount := min (byteCount / 2) 128
  setRegCount regCount
  getRegisters pdu regCount
  return paOk

def parseWriteFileRecord (pdu : Bytes) (pduLen : Nat) : Proc MasterResult Int := do
  if pduLen < 2 then return paErrProtocol
  let byteCount := (← access pdu[1]?).toNat
  if pduLen < 2 + byteCount then return paErrProtocol
  return paOk

def parseMaskWriteRegister (pdu : Bytes) (pduLen : Nat) : Proc MasterResult Int := do
  if pduLen < 7 then return paErrProtocol
  regStore 0 [← access (get16 pdu 1)]
  regStore 1 [← access (get16 pdu 3)]
  regStore 2 [← access (get16 pdu 5)]
  setRegCount 3
  return paOk

def parseReadFifoQueue (pdu : Bytes) (pduLen : Nat) : Proc MasterResult Int := do
  if pduLen < 2 then return paErrProtocol
  let byteCount := (← access (get16 pdu 1)).toNat
  if pduLen < 2 + byteCount then return paErrProtocol
  let fifoCount := min (byteCount / 2) 128
  setRegCount fifoCount
  getRegisters pdu fifoCount
  return paOk

/-- The switch of `parse_master_response`. -/
def parseResponse (fc : UInt8) (pdu : Bytes) (pduLen : Nat) : Proc MasterResult Int :=
  match fc with
  | 0x01 | 0x02 => parseReadBits pdu pduLen
  | 0x03 | 0x04 => parseReadRegisters pdu pduLen
  | 0x05 | 0x06 => parseEcho pduLen
  | 0x07 => parseExceptionStatus pdu pduLen
  | 0x08 => parseDiagnostic pdu pduLen
  | 0x0B => parseComEventCounter pdu pduLen
  | 0x0C => parseComEventLog pdu pduLen
  | 0x0F | 0x10 => parseEcho pduLen
  | 0x11 => parseReportServerId pdu pduLen
  | 0x14 => parseClampedRegisters pdu pduLen
  | 0x15 => parseWriteFileRecord pdu pduLen
  | 0x16 => parseMaskWriteRegister pdu pduLen
  | 0x17 => parseClampedRegisters pdu pduLen
  | 0x18 => parseReadFifoQueue pdu pduLen
  | _ => return paErrProtocol

def onResult (p : Proc MasterResult Int) : Proc (PaModbus σ) Int :=
  focus (·.result) (fun r ctx => { ctx with result := r }) p

/-- `pdu` is the memory from the PDU's start on, `pduLen` its stated length. -/
def parseMasterResponse (pdu : Bytes) (pduLen : Nat) : Proc (PaModbus σ) Int := do
  if pduLen < 1 then return paErrProtocol
  let fc ← access pdu[0]?
  modify fun ctx => { ctx with lastFunction := fc }
  if fc &&& 0x80 ≠ 0 then
    if pduLen < 2 then return paErrProtocol
    let exception ← access pdu[1]?
    modify fun ctx => { ctx with
      result := { ctx.result with lastException := exception, lastError := paErrException } }
    return paErrException
  modify fun ctx => { ctx with
    result := { ctx.result with
      lastError := paOk, lastException := 0, lastCoilCount := 0, lastRegCount := 0 } }
  onResult (parseResponse fc pdu pduLen)

end Pamodbus.MasterParse
