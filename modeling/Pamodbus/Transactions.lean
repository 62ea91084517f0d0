import Pamodbus.Addresses
import Pamodbus.EndToEnd
import Pamodbus.Exceptions
import Pamodbus.MaskWrites
import Pamodbus.WriteRequests

namespace Pamodbus.Transactions

open Pamodbus.Lib.Banks Pamodbus.Lib.Cells Pamodbus.Lib.Procedure Pamodbus.Lib.Words
open Pamodbus.Context Pamodbus.FramerRtu Pamodbus.Framer Pamodbus.Builders
open Pamodbus.SlaveParse Pamodbus.SlaveAccept Pamodbus.Feed Pamodbus.Addresses
open Pamodbus.ReadRequests Pamodbus.WriteRequests Pamodbus.DataModel Pamodbus.MaskWrites
open Pamodbus.EndToEnd Pamodbus.Exceptions

variable {σ τ : Type}

deriving instance DecidableEq for WriteRequest

inductive Transaction
  | read (kind : ReadKind) (addr count : UInt16)
  | write (request : WriteRequest)
  deriving DecidableEq

/-- `unanswered` is what a master is left with that no response has reached in time. -/
inductive Reply
  | bits (values : List UInt8)
  | words (values : List UInt16)
  | written
  | unanswered
  | refused (code : UInt8)
  | failed (ret : Int)
  deriving DecidableEq

/-- A reply that leaves open whether the request has been carried out. -/
def Reply.Unsure : Reply → Prop
  | .unanswered | .failed _ => True
  | _ => False

instance : DecidablePred Reply.Unsure
  | .unanswered | .failed _ => .isTrue trivial
  | .bits _ | .words _ | .written | .refused _ => .isFalse id

/-- The four tables of a slave: those that can be written and those that cannot. -/
structure Tables where
  outputs : Data
  inputs : Data

def Tables.bank (t : Tables) : ReadKind → Data
  | .coils | .holdingRegisters => t.outputs
  | .discreteInputs | .inputRegisters => t.inputs

def Tables.shown (t : Tables) (addr count : UInt16) (kind : ReadKind) : Reply :=
  match kind with
  | .coils | .discreteInputs =>
    .bits ((readRange (t.bank kind).coils addr.toNat count.toNat).map fun b => if b then 1 else 0)
  | .holdingRegisters | .inputRegisters =>
    .words (readRange (t.bank kind).registers addr.toNat count.toNat)

namespace Transaction

def build : Transaction → Proc (World σ) Int
  | read kind addr count => kind.build addr count
  | write request => request.build

def table : Transaction → ReadKind
  | read kind _ _ => kind
  | write (.singleCoil ..) | write (.multipleCoils ..) => .coils
  | write (.singleRegister ..) | write (.multipleRegisters ..) | write (.maskRegister ..) =>
    .holdingRegisters

def addr : Transaction → UInt16
  | read _ addr _ => addr
  | write request => request.addr

def count : Transaction → Nat
  | read _ _ count => count.toNat
  | write request => request.count

def Inside (size : ReadKind → Nat) (x : Transaction) : Prop := x.addr.toNat + x.count ≤ size x.table

instance (size : ReadKind → Nat) (x : Transaction) : Decidable (x.Inside size) :=
  inferInstanceAs (Decidable (_ ≤ _))

def stored (m : Data) : WriteRequest → Data
  | .singleCoil addr value => m.writeCoils addr [decide (value ≠ 0)]
  | .singleRegister addr value => m.writeRegisters addr [value]
  | .multipleCoils addr values => m.writeCoils addr (values.map fun v => decide (v ≠ 0))
  | .multipleRegisters addr values => m.writeRegisters addr values
  | .maskRegister addr andMask orMask =>
    m.writeRegisters addr [Mask.written ⟨addr, andMask, orMask⟩ (m.registers addr.toNat)]

def next (t : Tables) : Transaction → Tables
  | read .. => t
  | write request => { t with outputs := stored t.outputs request }

def confirmation (t : Tables) : Transaction → Reply
  | read kind addr count => t.shown addr count kind
  | write (.multipleCoils ..) | write (.multipleRegisters ..) => .unanswered
  | write _ => .written

/-- What it learns of a transaction that is not carried out. The responder confirms a masked write
also when the register could not be read. -/
def refusal (code : UInt8) : Transaction → Reply
  | write (.maskRegister ..) => .written
  | _ => .refused code

def fulfil (size : ReadKind → Nat) (code : UInt8) (t : Tables) (x : Transaction) :
    Reply × Tables :=
  if x.Inside size then (x.confirmation t, x.next t) else (x.refusal code, t)

/-- The counts that the builders accept. -/
def Buildable : Transaction → Prop
  | read kind _ count => 1 ≤ count.toNat ∧ count.toNat ≤ kind.maxCount
  | write request => request.Valid

instance : (x : Transaction) → Decidable x.Buildable
  | read _ _ _ => inferInstanceAs (Decidable (_ ∧ _))
  | write (.multipleCoils _ _) | write (.multipleRegisters _ _) =>
    inferInstanceAs (Decidable (1 ≤ List.length _ ∧ List.length _ ≤ _))
  | write (.singleCoil _ _) | write (.singleRegister _ _) | write (.maskRegister _ _ _) =>
    .isTrue trivial

/-- What a request frame carries: the framer must not take the address of a read
for a byte count, and 264 coils are all that the arrays hold. -/
def Valid : Transaction → Prop
  | read kind addr count => ReadableAddr addr ∧ 1 ≤ count.toNat ∧
      count.toNat ≤ match kind with
        | .coils | .discreteInputs => 264
        | .holdingRegisters | .inputRegisters => 125
  | write request => request.Valid ∧ request.Fits

instance : (x : Transaction) → Decidable x.Valid
  | read _ _ _ => inferInstanceAs (Decidable (_ ∧ _ ∧ _))
  | write (.multipleCoils _ _) =>
    inferInstanceAs (Decidable ((1 ≤ List.length _ ∧ List.length _ ≤ 1968) ∧ List.length _ ≤ 264))
  | write (.multipleRegisters _ _) =>
    inferInstanceAs (Decidable ((1 ≤ List.length _ ∧ List.length _ ≤ 123) ∧ True))
  | write (.singleCoil _ _) | write (.singleRegister _ _) | write (.maskRegister _ _ _) =>
    .isTrue ⟨trivial, trivial⟩

theorem Valid.buildable {x : Transaction} (hv : x.Valid) : x.Buildable := by
  cases x with
  | read kind addr count =>
    obtain ⟨-, h1, hmax⟩ := hv
    refine ⟨h1, hmax.trans ?_⟩
    cases kind with
    | coils | discreteInputs => decide
    | holdingRegisters | inputRegisters => exact le_rfl
  | write request => exact hv.1

end Transaction

open Transaction

/-- What the application of the master makes of the return value, with the accessors. -/
def observe (ctx : PaModbus τ) (ret : Int) (x : Transaction) : Option Reply :=
  if ret = paErrException then some (.refused (paModbusGetException ctx))
  else if ret = paErrTimeout then some .unanswered
  else if ret ≠ paOk then some (.failed ret)
  else match x with
    | .read .coils _ count | .read .discreteInputs _ count => do
      let values ← (List.range count.toNat).mapM fun i => paModbusGetCoil ctx (UInt16.ofNat i)
      return .bits values
    | .read .holdingRegisters _ count | .read .inputRegisters _ count => do
      let values ← (List.range count.toNat).mapM fun i => paModbusGetRegister ctx (UInt16.ofNat i)
      return .words values
    | .write _ => some .written

def ReadsBits (cb : Option (ReadCoilsFn σ)) (view : σ → Tables) (kind : ReadKind) (size : Nat) :
    Prop :=
  ∃ f, cb = some f ∧ ∀ addr count app, view (f addr count app).2.2 = view app ∧
    if addr.toNat + count.toNat ≤ size then (f addr count app).1 = 0 ∧ ∀ i < count.toNat,
      bitAt (f addr count app).2.1.toList i = ((view app).bank kind).coils (addr.toNat + i)
    else (f addr count app).1 ≠ 0

def ReadsWords (cb : Option (ReadRegistersFn σ)) (view : σ → Tables) (kind : ReadKind)
    (size : Nat) : Prop :=
  ∃ f, cb = some f ∧ ∀ addr count app, view (f addr count app).2.2 = view app ∧
    if addr.toNat + count.toNat ≤ size then (f addr count app).1 = 0 ∧
      (f addr count app).2.1.toList =
        readRange ((view app).bank kind).registers addr.toNat count.toNat
    else (f addr count app).1 ≠ 0

/-- How a write of `count` items ends that stores what `stored` says. -/
def Stores (view : σ → Tables) (size : Nat) (addr : UInt16) (count : Nat) (app : σ)
    (stored : Data → Data) (r : Int × σ) : Prop :=
  if addr.toNat + count ≤ size then
    r.1 = 0 ∧ view r.2 = { view app with outputs := stored (view app).outputs }
  else r.1 ≠ 0 ∧ view r.2 = view app

/-- A callback serves what lies inside of its table, refuses the rest, and changes only what it is
told to write. `view` shows what the application state holds. -/
structure OverTables (cbs : Callbacks σ) (view : σ → Tables) (size : ReadKind → Nat) : Prop where
  readCoils : ReadsBits cbs.readCoilsCb view .coils (size .coils)
  readDiscreteInputs : ReadsBits cbs.readDiscreteInputsCb view .discreteInputs
    (size .discreteInputs)
  readHoldingRegisters : ReadsWords cbs.readHoldingRegistersCb view .holdingRegisters
    (size .holdingRegisters)
  readInputRegisters : ReadsWords cbs.readInputRegistersCb view .inputRegisters
    (size .inputRegisters)
  writeSingleCoil : ∃ f, cbs.writeSingleCoilCb = some f ∧ ∀ addr value app,
    Stores view (size .coils) addr 1 app (fun m => m.writeCoils addr [decide (value ≠ 0)])
      (f addr value app)
  writeSingleRegister : ∃ f, cbs.writeSingleRegisterCb = some f ∧ ∀ addr value app,
    Stores view (size .holdingRegisters) addr 1 app (fun m => m.writeRegisters addr [value])
      (f addr value app)
  writeMultipleCoils : ∃ f, cbs.writeMultipleCoilsCb = some f ∧ ∀ addr count values app,
    values.length = coilBytes count → Stores view (size .coils) addr count.toNat app
      (fun m => m.writeCoils addr (readRange (bitAt values) 0 count.toNat))
      (f addr count values app)
  writeMultipleRegisters : ∃ f, cbs.writeMultipleRegistersCb = some f ∧
    ∀ addr count values app, values.length = count.toNat →
      Stores view (size .holdingRegisters) addr count.toNat app
        (fun m => m.writeRegisters addr values) (f addr count values app)

namespace Transaction

def code : Transaction → UInt8
  | read kind _ _ => kind.code
  | write request => request.code

def pduLen : Transaction → Nat
  | read .. => 5
  | write request => request.pduLen

def Encodes : Transaction → Bytes → Prop
  | read kind addr count, pdu => pdu = requestPdu kind.code addr count
  | write request, pdu => request.Encodes pdu

end Transaction

theorem encodes_length {x : Transaction} {pdu : Bytes} (h : x.Encodes pdu) :
    pdu.length = x.pduLen := by
  cases x with
  | read kind addr count =>
    rw [show pdu = _ from h]
    rfl
  | write request =>
    cases request with
    | singleCoil addr value | singleRegister addr value | maskRegister addr andMask orMask =>
      rw [show pdu = _ from h]
      rfl
    | multipleCoils addr values =>
      obtain ⟨bits, hl, -, rfl⟩ := h
      rw [List.length_append, hl]
      rfl
    | multipleRegisters addr values =>
      rw [show pdu = _ from h, List.length_append, registerBytes_length, writeHeader_length]
      exact congrArg (6 + ·) (Nat.mul_comm _ _)

theorem build_run (x : Transaction) (w : World σ) (hb : x.Buildable)
    (h : x.pduLen ≤ w.ctx.txbuf.cells.length) :
    ∃ pdu, x.Encodes pdu ∧
      x.build.run w = (emit pdu >>= fun _ => finish pdu.length).run w := by
  cases x with
  | read kind addr count =>
    refine ⟨_, rfl, ?_⟩
    rw [build, kind.build_eq, buildRead_eq _ _ _ _ hb]
    rfl
  | write request =>
    cases request with
    | singleCoil addr value | singleRegister addr value =>
      refine ⟨_, rfl, ?_⟩
      exact congrArg (fun p => StateT.run p w) (buildWriteSingle_eq _ _ _)
    | multipleCoils addr values =>
      have hn := count_toNat values.length hb.2
      obtain ⟨bits, hl, hp, hrun⟩ := writeMultipleCoils_run addr values
        (UInt16.ofNat values.length) w (by rw [hn]; exact hb) hn.symm (by rw [hn]; exact h)
      rw [hn] at hl hp hrun
      refine ⟨_, ⟨bits, hl, hp, rfl⟩, ?_⟩
      rw [List.length_append, hl]
      exact hrun
    | multipleRegisters addr values =>
      obtain ⟨h1, h123⟩ := hb
      have hn := count_toNat values.length (by omega)
      have hrun := writeMultipleRegisters_run addr values (UInt16.ofNat values.length) w
        (by omega) hn.symm (by rw [hn]; exact h)
      rw [hn] at hrun
      have hlen : (writeHeader 0x10 addr (UInt16.ofNat values.length) (values.length * 2) ++
          registerBytes values).length = 6 + values.length * 2 := by
        rw [List.length_append, registerBytes_length, writeHeader_length]
        omega
      refine ⟨_, rfl, ?_⟩
      rw [hlen]
      exact hrun
    | maskRegister addr andMask orMask =>
      refine ⟨_, rfl, ?_⟩
      exact congrArg (fun p => StateT.run p w) (maskWriteRegister_eq _ _ _)

theorem encodes_front {x : Transaction} {pdu : Bytes} (h : x.Encodes pdu) :
    ∃ body, pdu = x.code :: body := by
  cases x with
  | read kind addr count => exact ⟨_, h⟩
  | write request =>
    cases request with
    | singleCoil addr value | singleRegister addr value | multipleRegisters addr values
    | maskRegister addr andMask orMask => exact ⟨_, h⟩
    | multipleCoils addr values =>
      obtain ⟨bits, -, -, rfl⟩ := h
      exact ⟨_, rfl⟩

theorem request_length {x : Transaction} {pdu : Bytes} (id : UInt8) (hv : x.Valid)
    (h : x.Encodes pdu) :
    expectedLen x.code (rtuFrame id pdu) = some (.ok (pdu.length + 3)) := by
  have hl := encodes_length h
  cases x with
  | read kind addr count =>
    obtain ⟨haddr, -⟩ := hv
    rw [code, hl, request_expectedLen kind _ (hiByte addr) (by simp [hl, pduLen])]
    · rw [hiByte_toNat, Option.some.injEq, Except.ok.injEq, pduLen]
      have hlt := addr.toNat_lt
      rcases haddr with ha | ha | ha
      · rw [if_neg (by omega)]
      · rw [if_pos (by omega)]
        omega
      · rw [if_neg (by omega)]
    · rw [show pdu = _ from h]
      rfl
  | write request =>
    obtain ⟨hcount, hfit⟩ := hv
    cases request with
    | singleCoil addr value | singleRegister addr value | maskRegister addr andMask orMask =>
      rw [hl]
      rfl
    | multipleCoils addr values =>
      obtain ⟨bits, hbits, -, rfl⟩ := h
      have hfit : values.length ≤ 264 := hfit
      refine (expectedLen_multiple 0x0F addr _ bits _ id (.inl rfl) hbits (by omega)).trans ?_
      rw [List.length_append, hbits, writeHeader_length]
      congr 2
      omega
    | multipleRegisters addr values =>
      obtain ⟨h1, h123⟩ := hcount
      rw [show pdu = _ from h]
      refine (expectedLen_multiple 0x10 addr _ (registerBytes values) _ id (.inr rfl)
        (by rw [registerBytes_length, Nat.mul_comm]) (by omega)).trans ?_
      rw [List.length_append, registerBytes_length, writeHeader_length]
      congr 2
      omega

theorem request_whole {x : Transaction} {pdu : Bytes} {id : UInt8} (ctx : PaModbus σ)
    (hf : ctx.framerType = .rtu) (ha : accepts ctx id = true) (hv : x.Valid) (h : x.Encodes pdu) :
    unwrap ctx (rtuFrame id pdu) = some (.ok 1 pdu.length) := by
  have hlen := request_length id hv h
  obtain ⟨body, rfl⟩ := encodes_front h
  rw [unwrap_rtu ctx _ hf]
  exact unwrap_frame ctx id x.code body hlen ha

def Held (ctx : PaModbus σ) : Transaction → Prop
  | .read kind addr count => ctx.lastFunction = kind.code ∧ ctx.request.slaveAddr = addr ∧
      ctx.request.slaveCount = count
  | .write request => request.Received ctx ∧ ∀ addr value, request = .singleCoil addr value →
      ctx.request.slaveCoilData.toList[0]? = some (if value ≠ 0 then 1 else 0)

theorem singleCoil_fed (addr : UInt16) (value : UInt8) (ctx : PaModbus σ)
    (hf : ctx.framerType = .rtu) :
    ∃ ctx', (paModbusSlaveFeed (rtuFrame ctx.slave ([0x05] ++ put16 addr ++
        put16 (if value ≠ 0 then 0xFF00 else 0x0000)))).run ctx = some (paOk, ctx') ∧
      Held ctx' (.write (.singleCoil addr value)) := by
  have ha (crc : Bytes) := get16_put16 [0x05]
    (put16 (if value ≠ 0 then 0xFF00 else 0x0000) ++ crc) addr 1 rfl
  have hx (crc : Bytes) := get16_put16 ([0x05] ++ put16 addr) crc
    (if value ≠ 0 then 0xFF00 else 0x0000) 3 rfl
  have hr (crc : Bytes) (r : SlaveRequest) := (parseWriteSingleCoil_accepts _ 5 r _).mpr
    ⟨le_rfl, addr, ha crc, _, hx crc, rfl⟩
  have hbyte (r : SlaveRequest) : (patch r.slaveCoilData
      [if (if value ≠ 0 then (0xFF00 : UInt16) else 0x0000) = 0xFF00 then (1 : UInt8) else 0]
      ).toList[0]? = some (if value ≠ 0 then 1 else 0) := by
    rw [patch_getElem? _ _ _ (by simp) (by simp)]
    by_cases hz : value = 0
    · simp [hz]
    · simp [hz]
  refine ⟨_, (slaveFeed_framed ctx _ 0x05 _ hf rfl rfl).mpr ⟨rfl, _, hr _ _, rfl⟩,
    ⟨rfl, rfl, rfl, ?_⟩, fun addr' value' he => ?_⟩
  · intro i v hi
    obtain ⟨rfl, rfl⟩ : i = 0 ∧ v = value := by
      cases i with
      | zero => simpa [eq_comm] using hi
      | succ i => simp at hi
    rw [bitAt, Nat.zero_div, hbyte, Option.getD_some]
    by_cases hz : v = 0
    · simp [hz]
    · simp [hz]
  · obtain ⟨rfl, rfl⟩ := WriteRequest.singleCoil.inj he
    exact hbyte _

theorem own_request_fed {x : Transaction} {pdu : Bytes} (ctx : PaModbus σ)
    (hf : ctx.framerType = .rtu) (hv : x.Valid) (h : x.Encodes pdu) :
    ∃ ctx', (paModbusSlaveFeed (rtuFrame ctx.slave pdu)).run ctx = some (paOk, ctx') ∧
      Held ctx' x := by
  cases x with
  | read kind addr count =>
    obtain ⟨haddr, h1, hmax⟩ := hv
    have hcount : 1 ≤ count.toNat ∧ count.toNat ≤ kind.maxCount := by
      refine ⟨h1, hmax.trans ?_⟩
      cases kind with
      | coils | discreteInputs => decide
      | holdingRegisters | inputRegisters => exact le_rfl
    rw [show pdu = _ from h]
    exact ⟨_, feed_readable kind addr count ctx hf haddr hcount, rfl, rfl, rfl⟩
  | write request =>
    obtain ⟨hcount, hfit⟩ := hv
    cases request with
    | singleCoil addr value =>
      rw [show pdu = _ from h]
      exact singleCoil_fed addr value ctx hf
    | singleRegister addr value | multipleCoils addr values | multipleRegisters addr values
    | maskRegister addr andMask orMask =>
      obtain ⟨ctx', hfeed, hr⟩ := feed_fitting _ pdu ctx hf hcount h hfit
      exact ⟨ctx', hfeed, hr, fun addr' value' he => WriteRequest.noConfusion he⟩

theorem held_readdressed {ctx : PaModbus σ} {x : Transaction} (id : UInt8)
    (h : Held (paModbusSetSlave id ctx) x) : Held ctx x := by
  cases x with
  | read kind addr count => exact h
  | write request =>
    cases request with
    | _ => exact h

theorem request_fed {x : Transaction} {pdu : Bytes} {id : UInt8} (ctx : PaModbus σ)
    (hf : ctx.framerType = .rtu) (ha : accepts ctx id = true) (hv : x.Valid) (h : x.Encodes pdu) :
    ∃ ctx', (paModbusSlaveFeed (rtuFrame id pdu)).run ctx = some (paOk, ctx') ∧ Held ctx' x := by
  obtain ⟨own, hown, hheld⟩ := own_request_fed (paModbusSetSlave id ctx) hf hv h
  obtain ⟨ctx', hfeed, rfl⟩ := slaveFeed_readdressed hf ha hown
  exact ⟨ctx', hfeed, held_readdressed id hheld⟩

end Pamodbus.Transactions
