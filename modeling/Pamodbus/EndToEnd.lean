import Pamodbus.DataModel
import Pamodbus.ReadRequests
import Pamodbus.ResponseFrames
import Mathlib.Data.List.Induction

namespace Pamodbus.EndToEnd

open Pamodbus.Lib.Banks Pamodbus.Lib.Cells Pamodbus.Lib.Procedure Pamodbus.Lib.Words
open Pamodbus.Context Pamodbus.Crc16 Pamodbus.FramerRtu Pamodbus.Framer Pamodbus.Builders
open Pamodbus.SlaveParse Pamodbus.SlaveAccept Pamodbus.MasterParse Pamodbus.Feed
open Pamodbus.Respond Pamodbus.RespondRun Pamodbus.ReadRequests Pamodbus.ResponseFrames
open Pamodbus.DataModel

variable {σ τ α : Type}

def paModbusGetCoil (ctx : PaModbus σ) (idx : UInt16) : Option UInt8 := do
  if ctx.result.lastCoilCount ≤ idx then return 0
  return ((← ctx.result.lastCoilData.toList[idx.toNat / 8]?) >>> UInt8.ofNat (idx.toNat % 8)) &&& 1

def paModbusGetRegister (ctx : PaModbus σ) (idx : UInt16) : Option UInt16 :=
  if ctx.result.lastRegCount ≤ idx then some 0 else ctx.result.lastRegData.toList[idx.toNat]?

/-- The callback fills in the bits of the store, packed from the least significant one on. -/
def ServesBits (bits : Nat → Bool) (cb : Option (ReadCoilsFn σ)) (app : σ) : Prop :=
  ∃ f, cb = some f ∧ ∀ addr count, (f addr count app).1 = 0 ∧
    ∀ i < count.toNat, bitAt (f addr count app).2.1.toList i = bits (addr.toNat + i)

def ServesRegisters (registers : Nat → UInt16) (cb : Option (ReadRegistersFn σ)) (app : σ) :
    Prop :=
  ∃ f, cb = some f ∧ ∀ addr count, (f addr count app).1 = 0 ∧
    (f addr count app).2.1.toList = readRange registers addr.toNat count.toNat

/-- The store is behind the callback that serves reads of this kind. -/
def Serves (store : Data) (cbs : Callbacks σ) (app : σ) : ReadKind → Prop
  | .coils => ServesBits store.coils cbs.readCoilsCb app
  | .discreteInputs => ServesBits store.coils cbs.readDiscreteInputsCb app
  | .holdingRegisters => ServesRegisters store.registers cbs.readHoldingRegistersCb app
  | .inputRegisters => ServesRegisters store.registers cbs.readInputRegistersCb app

/-- The master shows as its `i`-th item what the store holds at `a`. -/
def Shows (store : Data) (peer : PaModbus τ) (i : UInt16) (a : Nat) : ReadKind → Prop
  | .coils | .discreteInputs => paModbusGetCoil peer i = some (if store.coils a then 1 else 0)
  | .holdingRegisters | .inputRegisters =>
    paModbusGetRegister peer i = some (store.registers a)

def dataBytes (count : UInt16) : ReadKind → Nat
  | .coils | .discreteInputs => coilBytes count
  | .holdingRegisters | .inputRegisters => count.toNat * 2

/-- The response is built, and the master that is fed it shows the values of the store. -/
def Arrives (k : ReadKind) (store : Data) (residue : Residue) (w : World σ)
    (peer : PaModbus τ) : Prop :=
  ∃ ret w', (paModbusSlaveRespond residue).run w = some (ret, w') ∧ 0 < ret ∧
    ∃ peer', (paModbusMasterFeed (sent w')).run peer = some (paOk, peer') ∧
      ∀ i < w.ctx.request.slaveCount,
        Shows store peer' i (w.ctx.request.slaveAddr.toNat + i.toNat) k

theorem shifted_bit (b : UInt8) (k : Nat) (hk : k < 8) :
    (b >>> UInt8.ofNat k) &&& 1 = if b.toNat.testBit k then 1 else 0 := by
  rw [← UInt8.toNat_inj, UInt8.toNat_and, UInt8.toNat_shiftRight, UInt8.toNat_ofNat',
    Nat.mod_eq_of_lt (a := k) (by omega), Nat.mod_eq_of_lt hk, Nat.testBit_eq_decide_div_mod_eq,
    Nat.shiftRight_eq_div_pow]
  change b.toNat / 2 ^ k &&& 1 = _
  rw [Nat.and_one_is_mod]
  rcases Nat.mod_two_eq_zero_or_one (b.toNat / 2 ^ k) with h | h
  · simp [h]
  · simp [h]

theorem getCoil_eq (ctx : PaModbus σ) (idx : UInt16) (h : idx < ctx.result.lastCoilCount)
    (hd : idx.toNat / 8 < 33) : paModbusGetCoil ctx idx =
      some (if bitAt ctx.result.lastCoilData.toList idx.toNat then 1 else 0) := by
  obtain ⟨b, hb⟩ := getElem?_some ctx.result.lastCoilData.toList (idx.toNat / 8) (by simpa using hd)
  rw [paModbusGetCoil, if_neg (UInt16.not_le.mpr h), hb, bitAt, hb, Option.getD_some,
    ← shifted_bit b _ (Nat.mod_lt _ (by decide))]
  rfl

theorem resultCoilStore_run (xs : Bytes) (f : Unit → Proc MasterResult α) (r : MasterResult)
    (h : xs.length ≤ 33) : (MasterParse.coilStore 0 xs >>= f).run r =
      (f ()).run { r with lastCoilData := patch r.lastCoilData xs } := by
  rw [MasterParse.coilStore, update_bind_run, put_front _ _ h]
  rfl

theorem parseReadBits_run (pdu bits : Bytes) (pduLen : Nat) (b : UInt8) (r : MasterResult)
    (hb : pdu[1]? = some b) (hn : 2 + b.toNat ≤ pduLen) (h33 : b.toNat ≤ 33)
    (hbits : block pdu 2 b.toNat = some bits) :
    (parseReadBits pdu pduLen).run r = some (paOk, { r with
      lastCoilData := patch r.lastCoilData bits
      lastCoilCount := UInt16.ofNat (b.toNat * 8) }) := by
  have hl := block_length hbits
  rw [parseReadBits, if_neg (by omega), hb, access_some, pure_bind]
  dsimp only
  rw [if_neg (by omega), if_neg (by omega), hbits, access_some, pure_bind,
    resultCoilStore_run _ _ _ (by omega)]
  rfl

theorem storeLoop_run (body : Nat → Proc MasterResult Unit) (values : List UInt16)
    (r : MasterResult) (hn : values.length ≤ 128)
    (hb : ∀ i v, values[i]? = some v → body i = MasterParse.regStore i [v]) :
    (loop body values.length).run r =
      some ((), { r with lastRegData := patch r.lastRegData values }) := by
  induction values using List.reverseRecOn with
  | nil =>
    rw [patch_nil]
    rfl
  | append_singleton values v ih =>
    rw [List.length_append, List.length_singleton] at hn ⊢
    have hfront : ∀ i u, values[i]? = some u → body i = MasterParse.regStore i [u] := by
      intro i u hu
      apply hb
      rw [List.getElem?_append_left (List.getElem?_eq_some_iff.mp hu).1, hu]
    have hlast : body values.length = MasterParse.regStore values.length [v] :=
      hb _ _ (List.getElem?_concat_length ..)
    rw [loop, bind_defined _ _ _ _ _ (ih (by omega) hfront), hlast, MasterParse.regStore,
      update_run, put_patch _ _ _ (by simpa using hn)]
    rfl

theorem resultRegisters_run (pdu : Bytes) (values : List UInt16) (r : MasterResult)
    (hr : RegistersAt pdu 2 values) (hn : values.length ≤ 128) :
    (MasterParse.getRegisters pdu values.length).run r =
      some ((), { r with lastRegData := patch r.lastRegData values }) := by
  apply storeLoop_run _ _ _ hn
  intro i v hv
  rw [hr i v hv, access_some, pure_bind]

theorem parseReadRegisters_run (pdu : Bytes) (pduLen : Nat) (b : UInt8) (values : List UInt16)
    (r : MasterResult) (hb : pdu[1]? = some b) (hn : 2 + b.toNat ≤ pduLen)
    (hl : values.length = b.toNat / 2) (hr : RegistersAt pdu 2 values) :
    (parseReadRegisters pdu pduLen).run r = some (paOk, { r with
      lastRegCount := UInt16.ofNat (b.toNat / 2)
      lastRegData := patch r.lastRegData values }) := by
  have hb' := b.toNat_lt
  rw [parseReadRegisters, if_neg (by omega), hb, access_some, pure_bind]
  dsimp only
  rw [if_neg (by omega), if_neg (by omega), MasterParse.setRegCount, modify_bind_run, ← hl,
    bind_defined _ _ _ _ _ (resultRegisters_run pdu values _ hr (by omega))]
  rfl

theorem feed_response (peer : PaModbus τ) (fc byteCount : UInt8) (payload : Bytes)
    (r : MasterResult) (hf : peer.framerType = .rtu)
    (hfc : fc = 0x01 ∨ fc = 0x02 ∨ fc = 0x03 ∨ fc = 0x04)
    (hn : 0 < byteCount.toNat ∧ byteCount.toNat ≤ 250) (hl : payload.length = byteCount.toNat)
    (hparse : (parseResponse fc ([fc, byteCount] ++ payload ++
        crcBytes (peer.slave :: fc :: byteCount :: payload)) (2 + byteCount.toNat)).run
      { peer.result with
        lastError := paOk, lastException := 0, lastCoilCount := 0, lastRegCount := 0 } =
          some (paOk, r)) :
    (paModbusMasterFeed (rtuFrame peer.slave ([fc, byteCount] ++ payload))).run peer =
      some (paOk, { peer with lastFunction := fc, result := r }) := by
  have hplain : fc &&& 0x80 = 0 := by
    rcases hfc with rfl | rfl | rfl | rfl
    all_goals rfl
  have he := expectedLen_counted fc peer.slave byteCount payload hfc hn
  have hlen : byteCount.toNat + 5 = (byteCount :: payload).length + 4 := by
    rw [List.length_cons]
    omega
  rw [hlen] at he
  have hu : unwrap peer (rtuFrame peer.slave (fc :: byteCount :: payload)) =
      some (.ok 1 (2 + byteCount.toNat)) := by
    rw [unwrap_rtu peer _ hf, unwrap_frame peer _ _ _ he (accepts_self peer), List.length_cons, hl]
    congr 2
    omega
  change (paModbusMasterFeed (rtuFrame peer.slave (fc :: byteCount :: payload))).run peer = _
  rw [masterFeed_ok _ _ _ _ hu, parseMasterResponse, if_neg (by omega)]
  change ((access (some fc) >>= _ : Proc (PaModbus τ) Int)).run peer = _
  rw [access_some, pure_bind, modify_bind_run, if_neg (not_not.mpr hplain), modify_bind_run,
    onResult, focus_run]
  change ((parseResponse fc ([fc, byteCount] ++ payload ++ crcBytes _) _).run _).map _ = _
  rw [hparse]
  rfl

theorem reply_arrives (fc byteCount : UInt8) (payload : Bytes) (n : Nat) (w : World σ)
    (peer : PaModbus τ) (r : MasterResult) (hf : w.ctx.framerType = .rtu)
    (hp : peer.framerType = .rtu) (hid : peer.slave = w.ctx.slave)
    (hfc : fc = 0x01 ∨ fc = 0x02 ∨ fc = 0x03 ∨ fc = 0x04)
    (hb : byteCount.toNat = n) (hn : 0 < n ∧ n ≤ 250) (hl : payload.length = n)
    (htx : 2 + n + 3 ≤ w.ctx.txbuf.cells.length)
    (hparse : ∀ rest, (parseResponse fc ([fc, byteCount] ++ payload ++ rest) (2 + n)).run
      { peer.result with
        lastError := paOk, lastException := 0, lastCoilCount := 0, lastRegCount := 0 } =
          some (paOk, r)) :
    ∃ ret w', (reply ([fc] ++ [byteCount] ++ payload) (2 + n)).run w = some (ret, w') ∧ 0 < ret ∧
      (paModbusMasterFeed (sent w')).run peer =
        some (paOk, { peer with lastFunction := fc, result := r }) := by
  subst hb
  have hlen : ([fc] ++ [byteCount] ++ payload).length = 2 + byteCount.toNat := by
    simp [hl]
    omega
  rw [← hlen] at htx ⊢
  obtain ⟨w', hrun, hsent⟩ := emit_finish_rtu _ w hf (by omega) htx
  refine ⟨_, w', hrun, by omega, ?_⟩
  rw [hsent, ← hid]
  exact feed_response peer fc byteCount payload r hp hfc hn hl (hparse _)

theorem bits_arrive_iff (fc : UInt8) (cb : Option (ReadCoilsFn σ)) (call : UInt16 → UInt16 → Call)
    (bits : Nat → Bool) (w : World σ) (peer : PaModbus τ) (addr count : UInt16)
    (ha : w.ctx.request.slaveAddr = addr) (hc : w.ctx.request.slaveCount = count)
    (hfc : fc = 0x01 ∨ fc = 0x02) (hcount : 1 ≤ count.toNat ∧ count.toNat ≤ 2000)
    (hs : ServesBits bits cb w.app) (hf : w.ctx.framerType = .rtu) (hp : peer.framerType = .rtu)
    (hid : peer.slave = w.ctx.slave)
    (htx : 2 + coilBytes count + 3 ≤ w.ctx.txbuf.cells.length) :
    (∃ ret w', (respondReadBits fc cb call >>= conclude).run w = some (ret, w') ∧ 0 < ret ∧
      ∃ peer', (paModbusMasterFeed (sent w')).run peer = some (paOk, peer') ∧
        ∀ i < count, paModbusGetCoil peer' i =
          some (if bits (addr.toNat + i.toNat) then 1 else 0)) ↔ count.toNat ≤ 264 := by
  obtain ⟨f, rfl, hserve⟩ := hs
  obtain ⟨h0, hbits⟩ := hserve addr count
  rw [respondReadBits_run fc _ call w addr count ha hc]
  dsimp only [withCallback]
  by_cases hfits : count.toNat ≤ 264
  · refine iff_of_true ?_ hfits
    have hbytes : 0 < coilBytes count ∧ coilBytes count ≤ 33 := by
      rw [coilBytes]
      omega
    have hb : (UInt8.ofNat (coilBytes count)).toNat = coilBytes count := by
      rw [UInt8.toNat_ofNat']
      omega
    rw [if_neg (by omega), if_neg (not_not.mpr h0)]
    generalize hv : (f addr count w.app).2.1.toList = values at hbits ⊢
    have hl : values.length = coilBytes count := by
      rw [← hv, List.Vector.toList_length]
    have hcase (data : Bytes) (n : Nat) : parseResponse fc data n = parseReadBits data n := by
      rcases hfc with rfl | rfl
      · rfl
      · rfl
    have hblock (rest : Bytes) : block ([fc, UInt8.ofNat (coilBytes count)] ++ values ++ rest) 2
        (UInt8.ofNat (coilBytes count)).toNat = some values := by
      have hdrop : ([fc, UInt8.ofNat (coilBytes count)] ++ values ++ rest).drop 2 =
        values ++ rest := rfl
      rw [block_eq _ _ _ (by simp [hl, hb]; omega), hdrop, List.take_left' (by omega)]
    obtain ⟨ret, w', hrun, hret, hfeed⟩ := reply_arrives fc (UInt8.ofNat (coilBytes count)) values
      (coilBytes count) (w.called (call addr count) (f addr count w.app).1 (f addr count w.app).2.2)
      peer _ hf hp hid (by tauto) hb (by omega) hl htx fun rest => by
        rw [hcase]
        exact parseReadBits_run _ values _ _ _ rfl (by omega) (by omega) (hblock rest)
    refine ⟨ret, w', hrun, hret, _, hfeed, fun i hi => ?_⟩
    have hi' := UInt16.lt_iff_toNat_lt.mp hi
    have hdiv : i.toNat / 8 < values.length := by
      rw [hl, coilBytes]
      omega
    rw [getCoil_eq _ _ ?_ (by omega)]
    · dsimp only
      rw [bitAt_patch _ _ _ hdiv (by omega), hbits _ hi']
    · rw [UInt16.lt_iff_toNat_lt, UInt16.toNat_ofNat', hb]
      rw [coilBytes] at hbytes ⊢
      omega
  · refine iff_of_false ?_ hfits
    rintro ⟨ret, w', hrun, -⟩
    rw [if_pos (by rw [coilBytes]; omega)] at hrun
    cases hrun

theorem registers_arrive (residue : Residue) (fc : UInt8) (cb : Option (ReadRegistersFn σ))
    (call : UInt16 → UInt16 → Call) (registers : Nat → UInt16) (w : World σ) (peer : PaModbus τ)
    (addr count : UInt16) (ha : w.ctx.request.slaveAddr = addr)
    (hc : w.ctx.request.slaveCount = count) (hfc : fc = 0x03 ∨ fc = 0x04)
    (hcount : 1 ≤ count.toNat ∧ count.toNat ≤ 125) (hs : ServesRegisters registers cb w.app)
    (hf : w.ctx.framerType = .rtu) (hp : peer.framerType = .rtu) (hid : peer.slave = w.ctx.slave)
    (htx : 2 + count.toNat * 2 + 3 ≤ w.ctx.txbuf.cells.length) :
    ∃ ret w', (respondReadRegisters residue fc cb call >>= conclude).run w = some (ret, w') ∧
      0 < ret ∧ ∃ peer', (paModbusMasterFeed (sent w')).run peer = some (paOk, peer') ∧
        ∀ i < count, paModbusGetRegister peer' i = some (registers (addr.toNat + i.toNat)) := by
  obtain ⟨f, rfl, hserve⟩ := hs
  obtain ⟨h0, hregs⟩ := hserve addr count
  rw [respondReadRegisters_run residue fc _ call w addr count ha hc]
  dsimp only [withCallback]
  have hb : (UInt8.ofNat (count.toNat * 2)).toNat = count.toNat * 2 := by
    rw [UInt8.toNat_ofNat']
    omega
  rw [if_neg (by omega), if_neg (not_not.mpr h0)]
  generalize hv : (f addr count w.app).2.1.toList = values at hregs ⊢
  have hl : values.length = count.toNat := by
    rw [← hv, List.Vector.toList_length]
  have hcase (data : Bytes) (n : Nat) : parseResponse fc data n = parseReadRegisters data n := by
    rcases hfc with rfl | rfl
    · rfl
    · rfl
  obtain ⟨ret, w', hrun, hret, hfeed⟩ := reply_arrives fc (UInt8.ofNat (count.toNat * 2))
    (registerBytes values) (count.toNat * 2)
    (w.called (call addr count) (f addr count w.app).1 (f addr count w.app).2.2) peer _ hf hp hid
    (by tauto) hb (by omega) (by rw [registerBytes_length]; omega) htx fun rest => by
      rw [hcase]
      exact parseReadRegisters_run _ _ _ values _ rfl (by omega) (by omega)
        (registersAt_registerBytes [fc, UInt8.ofNat (count.toNat * 2)] rest values)
  refine ⟨ret, w', hrun, hret, _, hfeed, fun i hi => ?_⟩
  have hi' := UInt16.lt_iff_toNat_lt.mp hi
  have hlast : i < UInt16.ofNat ((UInt8.ofNat (count.toNat * 2)).toNat / 2) := by
    rw [UInt16.lt_iff_toNat_lt, UInt16.toNat_ofNat', hb]
    omega
  rw [paModbusGetRegister, if_neg (UInt16.not_le.mpr hlast)]
  dsimp only
  rw [patch_getElem? _ _ _ (by omega) (by omega), hregs, readRange_getElem? _ _ _ _ hi']

/-- What a slave serves of an accepted read arrives, up to 264 coils. -/
theorem read_data_arrives_iff (k : ReadKind) (store : Data) (residue : Residue)
    (ctx : PaModbus σ) (pdu : Bytes) (n : Nat) (w : World σ) (peer : PaModbus τ)
    (hparse : (parseSlaveRequest pdu n).run ctx = some (paOk, w.ctx))
    (hcode : pdu[0]? = some k.code) (hs : Serves store w.ctx.callbacks w.app k)
    (hf : w.ctx.framerType = .rtu) (hp : peer.framerType = .rtu)
    (hid : peer.slave = w.ctx.slave)
    (htx : 2 + dataBytes w.ctx.request.slaveCount k + 3 ≤ w.ctx.txbuf.cells.length) :
    Arrives k store residue w peer ↔
      (k = .coils ∨ k = .discreteInputs → w.ctx.request.slaveCount.toNat ≤ 264) := by
  obtain ⟨-, fc, h0, -, r, hr, hctx⟩ := (parseSlaveRequest_accepts _ _ _ _).mp hparse
  obtain rfl : k.code = fc := Option.some.inj (hcode.symm.trans h0)
  have hfc : w.ctx.lastFunction = k.code := by rw [hctx]
  have hwf : WellFormed k.code w.ctx.request := by
    rw [hctx]
    exact accepted_wellFormed _ _ _ _ r hr
  rw [Arrives, respond_run, hfc]
  cases k with
  | coils =>
    refine (bits_arrive_iff 0x01 _ Call.readCoils store.coils w peer _ _ rfl rfl (.inl rfl) hwf hs
      hf hp hid htx).trans ?_
    simp
  | discreteInputs =>
    refine (bits_arrive_iff 0x02 _ Call.readDiscreteInputs store.coils w peer _ _ rfl rfl (.inr rfl)
      hwf hs hf hp hid htx).trans ?_
    simp
  | holdingRegisters =>
    refine iff_of_true (registers_arrive residue 0x03 _ Call.readHoldingRegisters store.registers w
      peer _ _ rfl rfl (.inl rfl) hwf hs hf hp hid htx) ?_
    simp
  | inputRegisters =>
    refine iff_of_true (registers_arrive residue 0x04 _ Call.readInputRegisters store.registers w
      peer _ _ rfl rfl (.inr rfl) hwf hs hf hp hid htx) ?_
    simp

def oddCoils : Data := ⟨fun a => decide (a % 2 = 1), fun _ => 0⟩

def serveOdd : ReadCoilsFn Unit := fun addr count app =>
  (0, ⟨packBits (readRange oddCoils.coils addr.toNat count.toNat), by simp [coilBytes]⟩, app)

theorem serveOdd_serves : ServesBits oddCoils.coils (some serveOdd) () := by
  refine ⟨serveOdd, rfl, fun addr count => ⟨rfl, fun i hi => ?_⟩⟩
  change bitAt (packBits (readRange oddCoils.coils addr.toNat count.toNat)) i = _
  rw [bitAt_packBits, readRange_getElem? _ _ _ _ hi, Option.getD_some]

def oddServer : PaModbus Unit := paModbusSetReadCoilsCb (some serveOdd) (station .rtu 1 64 64)

/-- Its state after a request for `count` coils. -/
def oddRequest (count : UInt16) : World Unit :=
  ⟨{ oddServer with
      lastFunction := 0x01, request := { oddServer.request with slaveCount := count } }, (), 0, []⟩

def oddMaster : PaModbus Unit := station .rtu 1 64 64

theorem ten_coils_arrive : Arrives .coils oddCoils (fun _ _ => 0) (oddRequest 10) oddMaster :=
  (read_data_arrives_iff .coils oddCoils (fun _ _ => 0) oddServer (requestPdu 0x01 0 10) 5
    (oddRequest 10) oddMaster rfl rfl serveOdd_serves rfl rfl rfl (by decide)).mpr
      fun _ => by decide

/-- The 34 bytes of 265 coils do not fit the 33 of the responder's array. -/
theorem many_coils_lost :
    (parseSlaveRequest (requestPdu 0x01 0 265) 5).run oddServer =
        some (paOk, (oddRequest 265).ctx) ∧
      Serves oddCoils oddServer.callbacks () .coils ∧
      2 + dataBytes 265 .coils + 3 ≤ oddServer.txbuf.cells.length ∧
      ¬ Arrives .coils oddCoils (fun _ _ => 0) (oddRequest 265) oddMaster := by
  refine ⟨rfl, serveOdd_serves, by decide, ?_⟩
  rw [Arrives, respond_run]
  intro h
  have hfits := (bits_arrive_iff 0x01 _ Call.readCoils oddCoils.coils (oddRequest 265) oddMaster
    0 265 rfl rfl (.inl rfl) (by decide) serveOdd_serves rfl rfl rfl (by decide)).mp h
  exact absurd hfits (by decide)

end Pamodbus.EndToEnd
