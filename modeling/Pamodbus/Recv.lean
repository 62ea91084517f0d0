import Pamodbus.Feed

namespace Pamodbus.Recv

open Pamodbus.Lib.Cells Pamodbus.Lib.CInt Pamodbus.Lib.Procedure Pamodbus.Lib.Words
open Pamodbus.Context Pamodbus.Crc16 Pamodbus.FramerRtu Pamodbus.Framer Pamodbus.Feed

variable {σ : Type}

/-- What the tick and the receive callback answer in one call: the tick, and
the bytes copied (`none` for a negative return value). -/
structure Poll where
  tick : UInt32
  recv : Option Bytes

/-- How a call ends. `dispatched` is the framed message it handed to the
parser of its role, or the raw PDU that it copied out. -/
structure Outcome (σ : Type) where
  ret : Int
  ctx : PaModbus σ
  dispatched : Option Bytes

def paRxMode (ctx : PaModbus σ) : Mode :=
  if ctx.modeSet then ctx.mode
  else if ctx.callbacks.writeSingleCoilCb.isSome || ctx.callbacks.writeSingleRegisterCb.isSome ||
      ctx.callbacks.writeMultipleCoilsCb.isSome || ctx.callbacks.writeMultipleRegistersCb.isSome then
    .slave
  else .master

def accumulator (ctx : PaModbus σ) : Bytes := ctx.rxbuf.cells.take ctx.rxLen

/-- The loop of `pa_rx_scan_frame` from the offset where `data` starts. -/
def scanFrom (ctx : PaModbus σ) : (off : Nat) → (data : Bytes) → Option (Option (Nat × Nat))
  | _, [] => some none
  | off, b :: data => do
    match ← unwrap ctx (b :: data) with
    | .ok pdu pduLen =>
      let frameLen := sizeT (pdu + pduLen)
      let frameLen := if ctx.framerType = .rtu then sizeT (frameLen + 2) else frameLen
      return some (off, frameLen)
    | .ret _ => scanFrom ctx (off + 1) data

/-- Start and length of the first complete frame, `none` for `PA_WAIT`. -/
def paRxScanFrame (ctx : PaModbus σ) : Option (Option (Nat × Nat)) :=
  scanFrom ctx 0 (accumulator ctx)

def roleFeed (ctx : PaModbus σ) (data : Bytes) : Proc (PaModbus σ) Int :=
  if paRxMode ctx = .slave then paModbusSlaveFeed data else paModbusMasterFeed data

/-- Parse the message found and remove it with all that precedes it. -/
def dispatchFrame (ctx : PaModbus σ) (now : UInt32) (start frameLen : Nat) :
    Option (Outcome σ) := do
  let data ← block ctx.rxbuf.cells start frameLen
  let (ret, ctx) ← (roleFeed ctx data).run ctx
  let consumed := sizeT (start + frameLen)
  let remaining := sizeT ((ctx.rxLen : Int) - consumed)
  if 0 < remaining then
    let tail ← block ctx.rxbuf.cells consumed remaining
    let rxbuf ← ctx.rxbuf.store 0 tail
    return ⟨ret, { ctx with rxbuf := rxbuf, lastRxTick := now, rxLen := remaining }, some data⟩
  return ⟨ret, { ctx with rxLen := remaining }, some data⟩

/-- Nothing complete yet: guard against overflow, then against silence. -/
def keepWaiting (ctx : PaModbus σ) (now : UInt32) : Outcome σ :=
  if 0 < ctx.rxLen ∧ ctx.rxbuf.cells.length ≤ ctx.rxLen then
    ⟨paErrBufferFull, { ctx with rxLen := 0 }, none⟩
  else if ctx.ticksCb ∧ 0 < ctx.rxLen ∧ ctx.idleTimeoutTicks ≤ now - ctx.lastRxTick then
    ⟨paErrTimeout, { ctx with rxLen := 0 }, none⟩
  else ⟨paWait, ctx, none⟩

/-- The receive callback has copied `bytes` behind the valid ones. -/
def received (ctx : PaModbus σ) (bytes : Bytes) (now : UInt32) : Option (PaModbus σ) := do
  let rxbuf ← ctx.rxbuf.store ctx.rxLen bytes
  if 0 < bytes.length then
    return { ctx with rxbuf := rxbuf, rxLen := ctx.rxLen + bytes.length, lastRxTick := now }
  return ctx

def paModbusRecv (ctx : PaModbus σ) (poll : Poll) : Option (Outcome σ) := do
  if ¬ ctx.recvCb ∨ ctx.rxbuf.cells.length = 0 then return ⟨paErrState, ctx, none⟩
  let now := if ctx.ticksCb then poll.tick else 0
  match poll.recv with
  | none => return ⟨paErrCallback, ctx, none⟩
  | some bytes =>
    let ctx ← received ctx bytes now
    if 0 < ctx.rxLen then
      match ← paRxScanFrame ctx with
      | some (start, frameLen) => dispatchFrame ctx now start frameLen
      | none => return keepWaiting ctx now
    else return keepWaiting ctx now

/-- The loop of `pa_modbus_recv_raw` over `k` frame lengths. -/
def scanCrc (rxbuf : Bytes) : (frameLen : Nat) → (k : Nat) → Option (Option Nat)
  | _, 0 => some none
  | frameLen, k + 1 => do
    let crcReceived := word (← rxbuf[frameLen - 1]?) (← rxbuf[frameLen - 2]?)
    if (← paCrc16 rxbuf (frameLen - 2)) = crcReceived then return some frameLen
    scanCrc rxbuf (frameLen + 1) k

/-- Length of the first CRC-valid frame at the front of the buffer. -/
def rawScan (ctx : PaModbus σ) : Option (Option Nat) :=
  if 4 ≤ ctx.rxLen then scanCrc ctx.rxbuf.cells 4 (ctx.rxLen - 3) else some none

/-- `capacity` is what `*pdu_len` holds, `none` when an argument is NULL. -/
def paModbusRecvRaw (ctx : PaModbus σ) (poll : Poll) (capacity : Option Nat) :
    Option (Outcome σ) := do
  if ¬ ctx.recvCb then return ⟨paErrState, ctx, none⟩
  if ctx.rxbuf.cells.length = 0 then return ⟨paErrBadParam, ctx, none⟩
  let some capacity := capacity | return ⟨paErrBadParam, ctx, none⟩
  let now := if ctx.ticksCb then poll.tick else 0
  match poll.recv with
  | none => return ⟨paErrCallback, ctx, none⟩
  | some bytes =>
    let ctx ← received ctx bytes now
    match ← rawScan ctx with
    | some frameLen =>
      let pduLenOut := frameLen - 3
      if capacity < pduLenOut then return ⟨paErrBufferFull, ctx, none⟩
      let pdu ← block ctx.rxbuf.cells 1 pduLenOut
      return ⟨paOk, { ctx with rxLen := 0 }, some pdu⟩
    | none =>
      if ctx.rxbuf.cells.length ≤ ctx.rxLen then
        return ⟨paErrBufferFull, { ctx with rxLen := 0 }, none⟩
      if ctx.ticksCb ∧ 0 < ctx.rxLen ∧ ctx.idleTimeoutTicks ≤ now - ctx.lastRxTick then
        return ⟨paErrTimeout, { ctx with rxLen := 0 }, none⟩
      return ⟨paWait, ctx, none⟩

def recvRun : PaModbus σ → List Poll → Option (List (Outcome σ) × PaModbus σ)
  | ctx, [] => some ([], ctx)
  | ctx, poll :: polls => do
    let out ← paModbusRecv ctx poll
    let (outs, ctx') ← recvRun out.ctx polls
    return (out :: outs, ctx')

end Pamodbus.Recv
