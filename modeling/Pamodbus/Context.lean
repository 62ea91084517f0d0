import Pamodbus.Lib.Cells
import Pamodbus.Lib.Procedure
import Pamodbus.Lib.Words

namespace Pamodbus.Context

open Pamodbus.Lib Pamodbus.Lib.Cells Pamodbus.Lib.Procedure Pamodbus.Lib.Words

abbrev Bytes := List UInt8

inductive Framer
  | rtu
  | tcp
  deriving DecidableEq, Repr

inductive Mode
  | master
  | slave
  deriving DecidableEq, Repr

-- The values of `pa_error_t`.
abbrev paOk : Int := 0
abbrev paWait : Int := 1
abbrev paErrCrc : Int := -1
abbrev paErrTimeout : Int := -2
abbrev paErrInvalidSlave : Int := -3
abbrev paErrBadParam : Int := -4
abbrev paErrBufferFull : Int := -5
abbrev paErrException : Int := -6
abbrev paErrProtocol : Int := -7
abbrev paErrState : Int := -8
abbrev paErrCallback : Int := -9

/-- Bytes that `count` coils take, eight to a byte. -/
def coilBytes (count : UInt16) : Nat := (count.toNat + 7) / 8

/-- A callback receives its arguments and the application state behind its `userdata`. A read
callback fills exactly the elements it was asked for. -/
abbrev SendFn (σ : Type) := Bytes → σ → Int × σ
abbrev ReadCoilsFn (σ : Type) :=
  UInt16 → (count : UInt16) → σ → Int × List.Vector UInt8 (coilBytes count) × σ
abbrev ReadRegistersFn (σ : Type) :=
  UInt16 → (count : UInt16) → σ → Int × List.Vector UInt16 count.toNat × σ
abbrev WriteSingleCoilFn (σ : Type) := UInt16 → UInt8 → σ → Int × σ
abbrev WriteSingleRegisterFn (σ : Type) := UInt16 → UInt16 → σ → Int × σ
abbrev WriteMultipleCoilsFn (σ : Type) := UInt16 → UInt16 → List UInt8 → σ → Int × σ
abbrev WriteMultipleRegistersFn (σ : Type) := UInt16 → UInt16 → List UInt16 → σ → Int × σ

/-- The register access callbacks; `none` is one that is not registered. -/
structure Callbacks (σ : Type) where
  readCoilsCb : Option (ReadCoilsFn σ)
  readDiscreteInputsCb : Option (ReadCoilsFn σ)
  readHoldingRegistersCb : Option (ReadRegistersFn σ)
  readInputRegistersCb : Option (ReadRegistersFn σ)
  writeSingleCoilCb : Option (WriteSingleCoilFn σ)
  writeSingleRegisterCb : Option (WriteSingleRegisterFn σ)
  writeMultipleCoilsCb : Option (WriteMultipleCoilsFn σ)
  writeMultipleRegistersCb : Option (WriteMultipleRegistersFn σ)

structure MasterResult where
  lastError : Int
  lastException : UInt8
  lastCoilData : List.Vector UInt8 33
  lastRegData : List.Vector UInt16 128
  lastCoilCount : UInt16
  lastRegCount : UInt16
  deriving DecidableEq

structure SlaveRequest where
  slaveAddr : UInt16
  slaveCount : UInt16
  slaveCoilData : List.Vector UInt8 33
  slaveRegData : List.Vector UInt16 128
  slaveCoilCount : UInt16
  slaveRegCount : UInt16
  slaveDataValid : Bool
  deriving DecidableEq

/-- The context. A buffer comes with its size; a NULL one gives access to no
memory, and `txbufSet` tells it from an empty one. -/
structure PaModbus (σ : Type) where
  txbuf : Buffer UInt8
  txbufSet : Bool
  rxbuf : Buffer UInt8
  framerType : Framer
  slave : UInt8
  discoveryAddr : UInt8
  mode : Mode
  modeSet : Bool
  ticksCb : Bool
  idleTimeoutTicks : UInt32
  sendCb : Option (SendFn σ)
  recvCb : Bool
  callbacks : Callbacks σ
  txLen : Nat
  rxLen : Nat
  lastRxTick : UInt32
  lastFunction : UInt8
  result : MasterResult
  request : SlaveRequest

inductive Call
  | send (data : Bytes)
  | readCoils (addr count : UInt16)
  | readDiscreteInputs (addr count : UInt16)
  | readHoldingRegisters (addr count : UInt16)
  | readInputRegisters (addr count : UInt16)
  | writeSingleCoil (addr : UInt16) (value : UInt8)
  | writeSingleRegister (addr value : UInt16)
  | writeMultipleCoils (addr count : UInt16) (values : List UInt8)
  | writeMultipleRegisters (addr count : UInt16) (values : List UInt16)
  deriving DecidableEq, Repr

/-- A context with what lies outside it: the application state, the counter
`next_transaction_id` of the process, and the record of the callback
invocations with their return values. -/
structure World (σ : Type) where
  ctx : PaModbus σ
  app : σ
  nextTransactionId : UInt16
  calls : List (Call × Int)

variable {σ α : Type}

def noCallbacks : Callbacks σ := ⟨none, none, none, none, none, none, none, none⟩

def paModbusInit : PaModbus σ where
  txbuf := Buffer.empty
  txbufSet := false
  rxbuf := Buffer.empty
  framerType := .rtu
  slave := 0xFF
  discoveryAddr := 0
  mode := .master
  modeSet := false
  ticksCb := false
  idleTimeoutTicks := 10
  sendCb := none
  recvCb := false
  callbacks := noCallbacks
  txLen := 0
  rxLen := 0
  lastRxTick := 0
  lastFunction := 0
  result := ⟨paOk, 0, List.Vector.replicate 33 0, List.Vector.replicate 128 0, 0, 0⟩
  request := ⟨0, 0, List.Vector.replicate 33 0, List.Vector.replicate 128 0, 0, 0, false⟩

def paModbusSetFramer (framer : Framer) (ctx : PaModbus σ) : PaModbus σ :=
  { ctx with framerType := framer }

def paModbusSetTxbuf (buf : Option (Buffer UInt8)) (ctx : PaModbus σ) : PaModbus σ :=
  { ctx with txbuf := buf.getD Buffer.empty, txbufSet := buf.isSome }

def paModbusSetRxbuf (buf : Option (Buffer UInt8)) (ctx : PaModbus σ) : PaModbus σ :=
  { ctx with rxbuf := buf.getD Buffer.empty }

def paModbusSetSlave (slave : UInt8) (ctx : PaModbus σ) : PaModbus σ :=
  { ctx with slave := slave }

def paModbusSetDiscoveryAddr (addr : UInt8) (ctx : PaModbus σ) : PaModbus σ :=
  { ctx with discoveryAddr := addr }

def paModbusSetMode (mode : Mode) (ctx : PaModbus σ) : PaModbus σ :=
  { ctx with mode := mode, modeSet := true }

def paModbusSetTicksCb (ticks : Bool) (ctx : PaModbus σ) : PaModbus σ :=
  { ctx with ticksCb := ticks }

def paModbusSetRxIdleTimeout (ticks : UInt32) (ctx : PaModbus σ) : PaModbus σ :=
  { ctx with idleTimeoutTicks := ticks }

def paModbusRxReset (ctx : PaModbus σ) : PaModbus σ := { ctx with rxLen := 0 }

def paModbusSetSendCb (send : Option (SendFn σ)) (ctx : PaModbus σ) : PaModbus σ :=
  { ctx with sendCb := send }

def paModbusSetRecvCb (recv : Bool) (ctx : PaModbus σ) : PaModbus σ := { ctx with recvCb := recv }

def setCallbacks (f : Callbacks σ → Callbacks σ) (ctx : PaModbus σ) : PaModbus σ :=
  { ctx with callbacks := f ctx.callbacks }

def paModbusSetReadCoilsCb (cb : Option (ReadCoilsFn σ)) : PaModbus σ → PaModbus σ :=
  setCallbacks fun c => { c with readCoilsCb := cb }

def paModbusSetReadDiscreteInputsCb (cb : Option (ReadCoilsFn σ)) : PaModbus σ → PaModbus σ :=
  setCallbacks fun c => { c with readDiscreteInputsCb := cb }

def paModbusSetReadHoldingRegistersCb (cb : Option (ReadRegistersFn σ)) : PaModbus σ → PaModbus σ :=
  setCallbacks fun c => { c with readHoldingRegistersCb := cb }

def paModbusSetReadInputRegistersCb (cb : Option (ReadRegistersFn σ)) : PaModbus σ → PaModbus σ :=
  setCallbacks fun c => { c with readInputRegistersCb := cb }

def paModbusSetWriteSingleCoilCb (cb : Option (WriteSingleCoilFn σ)) : PaModbus σ → PaModbus σ :=
  setCallbacks fun c => { c with writeSingleCoilCb := cb }

def paModbusSetWriteSingleRegisterCb (cb : Option (WriteSingleRegisterFn σ)) :
    PaModbus σ → PaModbus σ :=
  setCallbacks fun c => { c with writeSingleRegisterCb := cb }

def paModbusSetWriteMultipleCoilsCb (cb : Option (WriteMultipleCoilsFn σ)) :
    PaModbus σ → PaModbus σ :=
  setCallbacks fun c => { c with writeMultipleCoilsCb := cb }

def paModbusSetWriteMultipleRegistersCb (cb : Option (WriteMultipleRegistersFn σ)) :
    PaModbus σ → PaModbus σ :=
  setCallbacks fun c => { c with writeMultipleRegistersCb := cb }

/-- A context after its usual setup, with zeroed buffers of the given sizes. -/
def station (framer : Framer) (slave : UInt8) (txSize rxSize : UInt16) : PaModbus σ :=
  paModbusSetSlave slave (paModbusSetRxbuf (some (Buffer.filled rxSize 0))
    (paModbusSetTxbuf (some (Buffer.filled txSize 0)) (paModbusSetFramer framer
      (paModbusSetRecvCb true paModbusInit))))

namespace World

def withTx (w : World σ) (b : Buffer UInt8) : World σ := { w with ctx := { w.ctx with txbuf := b } }

@[simp] theorem withTx_txbuf (w : World σ) (b : Buffer UInt8) : (w.withTx b).ctx.txbuf = b := rfl

@[simp] theorem withTx_framerType (w : World σ) (b : Buffer UInt8) :
    (w.withTx b).ctx.framerType = w.ctx.framerType := rfl

@[simp] theorem withTx_withTx (w : World σ) (b c : Buffer UInt8) :
    (w.withTx b).withTx c = w.withTx c := rfl

/-- Record a callback invocation and take over the application state it left. -/
def called (w : World σ) (call : Call) (ret : Int) (app : σ) : World σ :=
  { w with app := app, calls := w.calls ++ [(call, ret)] }

@[simp] theorem called_ctx (w : World σ) (call : Call) (ret : Int) (app : σ) :
    (w.called call ret app).ctx = w.ctx := rfl

@[simp] theorem called_app (w : World σ) (call : Call) (ret : Int) (app : σ) :
    (w.called call ret app).app = app := rfl

end World

/-- `ctx->txbuf[off + i] = xs[i]` for every `i`. -/
def txStore (off : Nat) (xs : Bytes) : Proc (World σ) Unit :=
  update fun w => (w.ctx.txbuf.store off xs).map w.withTx

theorem txStore_run (off : Nat) (xs : Bytes) (w : World σ) (b : Buffer UInt8)
    (h : w.ctx.txbuf.store off xs = some b) : (txStore off xs).run w = some ((), w.withTx b) := by
  rw [txStore, update_run, h]
  rfl

theorem txStore_inside {off : Nat} {xs : Bytes} {w w' : World σ}
    (h : (txStore off xs).run w = some ((), w')) :
    off + xs.length ≤ w.ctx.txbuf.cells.length ∧
      w'.ctx.txbuf.cells.length = w.ctx.txbuf.cells.length := by
  rw [txStore, update_run, Option.map_eq_some_iff] at h
  obtain ⟨w₁, hw, he⟩ := h
  obtain ⟨b, hb, rfl⟩ := Option.map_eq_some_iff.mp hw
  obtain rfl : w.withTx b = w' := congrArg Prod.snd he
  refine ⟨?_, Buffer.store_cells_length hb⟩
  by_contra hshort
  rw [Buffer.store_none _ _ _ (by omega)] at hb
  cases hb

/-- Everything stored so far is `xs`, from the start of the buffer. -/
def emit (xs : Bytes) : Proc (World σ) Unit :=
  update fun w =>
    if xs.length ≤ w.ctx.txbuf.cells.length then some (w.withTx (w.ctx.txbuf.patch xs)) else none

theorem emit_run (xs : Bytes) (w : World σ) (h : xs.length ≤ w.ctx.txbuf.cells.length) :
    (emit xs).run w = some ((), w.withTx (w.ctx.txbuf.patch xs)) := by
  rw [emit, update_run, if_pos h]
  rfl

theorem emit_overrun (xs : Bytes) (w : World σ) (h : w.ctx.txbuf.cells.length < xs.length) :
    (emit xs).run w = none := by
  rw [emit, update_run, if_neg (by omega)]
  rfl

theorem txStore_front (xs : Bytes) : (txStore 0 xs : Proc (World σ) Unit) = emit xs := by
  funext w
  change (txStore 0 xs).run w = (emit xs).run w
  rw [txStore, update_run, Buffer.store_front]
  by_cases h : xs.length ≤ w.ctx.txbuf.cells.length
  · rw [emit_run xs w h, if_pos h]
    rfl
  · rw [emit_overrun xs w (by omega), if_neg h]
    rfl

theorem emit_txStore (xs ys : Bytes) (off : Nat) (ho : off = xs.length) :
    (emit xs >>= fun _ => txStore off ys : Proc (World σ) Unit) = emit (xs ++ ys) := by
  subst ho
  funext w
  change (emit xs >>= fun _ => txStore xs.length ys).run w = (emit (xs ++ ys)).run w
  by_cases h : xs.length ≤ w.ctx.txbuf.cells.length
  · rw [bind_defined _ _ _ _ _ (emit_run xs w h), txStore, update_run, World.withTx_txbuf,
      Buffer.store_patch _ _ _ h]
    by_cases hl : xs.length + ys.length ≤ w.ctx.txbuf.cells.length
    · rw [emit_run (xs ++ ys) w (by simpa using hl), if_pos hl]
      rfl
    · rw [emit_overrun (xs ++ ys) w (by simp; omega), if_neg hl]
      rfl
  · rw [bind_undefined _ _ _ (emit_overrun xs w (by omega)),
      emit_overrun (xs ++ ys) w (by simp; omega)]

theorem emit_txStore_bind (xs ys : Bytes) (off : Nat) (ho : off = xs.length)
    (k : Unit → Proc (World σ) α) :
    (emit xs >>= fun _ => txStore off ys >>= k) = (emit (xs ++ ys) >>= k) := by
  rw [← bind_assoc, emit_txStore xs ys off ho]

end Pamodbus.Context
