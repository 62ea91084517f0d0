import Pamodbus.EndToEnd

namespace Pamodbus.FifoQueue

open Pamodbus.Lib.Cells Pamodbus.Lib.Procedure Pamodbus.Lib.Words
open Pamodbus.Context Pamodbus.Framer Pamodbus.Builders
open Pamodbus.SlaveParse (get16 get16_put16)
open Pamodbus.SlaveAccept Pamodbus.MasterParse Pamodbus.Respond Pamodbus.RespondRun
open Pamodbus.EndToEnd

variable {σ τ : Type}

/-- The callback supplies the count of the values first, then the values. -/
def SuppliesFifo (values : List UInt16) (w : World σ) : Prop :=
  ∃ f rest, w.ctx.callbacks.readHoldingRegistersCb = some f ∧
    (f w.ctx.request.slaveAddr 128 w.app).1 = 0 ∧
    (f w.ctx.request.slaveAddr 128 w.app).2.1.toList =
      UInt16.ofNat values.length :: (values ++ rest)

/-- The master shows the values in order, in registers that follow one another. -/
def ShowsInOrder (values : List UInt16) (peer : PaModbus τ) : Prop :=
  ∃ k, ∀ i v, values[i]? = some v → paModbusGetRegister peer (UInt16.ofNat (k + i)) = some v

/-- The response carries every value in its place, and a master that parses it
shows them all, whatever follows the PDU in its memory. -/
def FifoRoundTrip (residue : Residue) (values : List UInt16) (w : World σ)
    (peer : PaModbus τ) : Prop :=
  ∃ pdu ret w', (paModbusSlaveRespond residue).run w = some (ret, w') ∧ 0 < ret ∧
    sent w' = frame w pdu ∧ RegistersAt pdu 5 values ∧
    ∀ rest, ∃ peer', (parseMasterResponse (pdu ++ rest) pdu.length).run peer =
      some (paOk, peer') ∧ ShowsInOrder values peer'

/-- The bytes stored for the response: both lengths, then the values. -/
def fifoBytes (values : List UInt16) : Bytes :=
  [0x18] ++ put16 (UInt16.ofNat (values.length * 2 + 2)) ++ put16 (UInt16.ofNat values.length) ++
    registerBytes values

/-- What is handed to `wrap` of them. -/
def fifoPdu (values : List UInt16) : Bytes :=
  (fifoBytes values).take (2 + (values.length * 2 + 2))

theorem fifoBytes_length (values : List UInt16) :
    (fifoBytes values).length = 5 + values.length * 2 := by
  simp [fifoBytes]
  omega

theorem fifoPdu_length (values : List UInt16) :
    (fifoPdu values).length = 4 + values.length * 2 := by
  rw [fifoPdu, List.length_take, fifoBytes_length]
  omega

theorem fifoPdu_eq (values : List UInt16) :
    fifoPdu values = [0x18] ++ put16 (UInt16.ofNat (values.length * 2 + 2)) ++
      (put16 (UInt16.ofNat values.length) ++ registerBytes values).take
        (values.length * 2 + 1) := by
  have hk : 2 + (values.length * 2 + 2) =
      ([0x18] ++ put16 (UInt16.ofNat (values.length * 2 + 2))).length +
        (values.length * 2 + 1) := by
    simp
    omega
  rw [fifoPdu, fifoBytes, hk, List.append_assoc, List.take_length_add_append]

theorem respond_fifo (residue : Residue) (values : List UInt16) (w : World σ)
    (hfc : w.ctx.lastFunction = 0x18) (hn : values.length ≤ 127) (hs : SuppliesFifo values w)
    (htx : 5 + values.length * 2 + overhead w.ctx.framerType ≤ w.ctx.txbuf.cells.length) :
    ∃ ret w', (paModbusSlaveRespond residue).run w = some (ret, w') ∧ 0 < ret ∧
      sent w' = frame w (fifoPdu values) := by
  obtain ⟨f, rest, hf, h0, hv⟩ := hs
  have hcount : min (UInt16.ofNat values.length).toNat 127 = values.length := by
    rw [UInt16.toNat_ofNat']
    omega
  have hl := fifoBytes_length values
  rw [respond_run, hfc]
  change ∃ ret w', (respondReadFifoQueue residue 0x18 >>= conclude).run w = some (ret, w') ∧ _
  rw [respondReadFifoQueue_run residue 0x18 w _ rfl, hf]
  dsimp only [withCallback]
  rw [if_neg (not_not.mpr h0), hv, List.headD_cons, hcount, List.drop_one, List.tail_cons,
    List.take_left' rfl]
  generalize hw : w.called _ _ _ = w₁
  have hctx : w₁.ctx = w.ctx := by rw [← hw, World.called_ctx]
  have hframe (pdu : Bytes) : frame w₁ pdu = frame w pdu := by
    rw [← hw]
    rfl
  rw [← hctx] at htx
  refine ⟨_, _, emit_finish (fifoBytes values) _ w₁ (by omega) (by omega) (by omega) (by omega),
    by omega, ?_⟩
  rw [hframe]
  refine sent_framed _ _ ?_
  have hfl := frame_length w (fifoPdu values)
  rw [fifoPdu_length] at hfl
  rw [World.withTx_txbuf, Buffer.patch_cells, overlay_length]
  rw [hctx] at htx ⊢
  exact hfl.trans_le (by omega)

theorem parseReadFifoQueue_run (pdu : Bytes) (pduLen : Nat) (b : UInt16) (values : List UInt16)
    (r : MasterResult) (hb : get16 pdu 1 = some b) (hn : 2 + b.toNat ≤ pduLen)
    (hl : values.length = min (b.toNat / 2) 128) (hr : RegistersAt pdu 2 values) :
    (parseReadFifoQueue pdu pduLen).run r = some (paOk, { r with
      lastRegCount := UInt16.ofNat values.length
      lastRegData := patch r.lastRegData values }) := by
  rw [parseReadFifoQueue, if_neg (by omega), hb, access_some, pure_bind]
  dsimp only
  rw [if_neg (by omega), setRegCount, modify_bind_run, ← hl,
    bind_defined _ _ _ _ _ (resultRegisters_run pdu values _ hr (by omega))]
  rfl

/-- The master takes its registers from the third byte on: there the low byte of
the first length and the count of the values come before them. -/
theorem master_reads_fifo (values : List UInt16) (hn : values.length ≤ 127)
    (peer : PaModbus τ) (rest : Bytes) :
    ∃ peer', (parseMasterResponse (fifoPdu values ++ rest) (fifoPdu values).length).run peer =
        some (paOk, peer') ∧
      ∀ i ≤ values.length, paModbusGetRegister peer' (UInt16.ofNat i) =
        get16 (fifoPdu values ++ rest) (2 + i * 2) := by
  have hl := fifoPdu_length values
  have hlen : (fifoPdu values ++ rest).length = 4 + values.length * 2 + rest.length := by
    rw [List.length_append, hl]
  obtain ⟨shown, hs, hr⟩ := registers_exist (fifoPdu values ++ rest) 2 (values.length + 1)
    (by omega)
  have h0 : (fifoPdu values ++ rest)[0]? = some 0x18 := rfl
  have hb : get16 (fifoPdu values ++ rest) 1 = some (UInt16.ofNat (values.length * 2 + 2)) := by
    rw [fifoPdu_eq, List.append_assoc]
    exact get16_put16 _ _ _ _ rfl
  have hbytes : (UInt16.ofNat (values.length * 2 + 2)).toNat = values.length * 2 + 2 := by
    rw [UInt16.toNat_ofNat']
    omega
  have hparse (r : MasterResult) := parseReadFifoQueue_run _ (fifoPdu values).length _ shown r
    hb (by omega) (by omega) hr
  have hplain : ¬ (0x18 : UInt8) &&& 0x80 ≠ 0 := by decide
  rw [parseMasterResponse, if_neg (by omega), h0, access_some, pure_bind, modify_bind_run,
    if_neg hplain, modify_bind_run, onResult, focus_run]
  change ∃ peer', ((parseReadFifoQueue _ _).run _).map _ = _ ∧ _
  rw [hparse]
  refine ⟨_, rfl, fun i hi => ?_⟩
  obtain ⟨v, hv⟩ := getElem?_some shown i (by omega)
  have hi' : (UInt16.ofNat i).toNat = i := by
    rw [UInt16.toNat_ofNat']
    omega
  have hlast : ¬ UInt16.ofNat shown.length ≤ UInt16.ofNat i := by
    rw [UInt16.not_le, UInt16.lt_iff_toNat_lt, hi', UInt16.toNat_ofNat']
    omega
  rw [paModbusGetRegister, if_neg hlast, hi']
  dsimp only
  rw [patch_getElem? _ _ _ (by omega) (by omega), hv, hr i v hv]

/-- The response stops a byte short of its last value. -/
theorem fifo_incomplete (residue : Residue) (values : List UInt16) (w : World σ)
    (peer : PaModbus τ) (hfc : w.ctx.lastFunction = 0x18) (hn : values.length ≤ 127)
    (hs : SuppliesFifo values w)
    (htx : 5 + values.length * 2 + overhead w.ctx.framerType ≤ w.ctx.txbuf.cells.length)
    (hne : values ≠ []) : ¬ FifoRoundTrip residue values w peer := by
  obtain ⟨ret, w', hrun, -, hsent⟩ := respond_fifo residue values w hfc hn hs htx
  rintro ⟨pdu, ret₁, w₁, hrun₁, -, hsent₁, hcarries, -⟩
  rw [hrun, Option.some.injEq, Prod.mk.injEq] at hrun₁
  rw [← hrun₁.2, hsent] at hsent₁
  have hl := congrArg List.length hsent₁
  rw [frame_length, frame_length, fifoPdu_length] at hl
  have hpos := List.length_pos_iff.mpr hne
  obtain ⟨v, hv⟩ := getElem?_some values (values.length - 1) (by omega)
  obtain ⟨b, -, hb⟩ := Option.bind_eq_some_iff.mp (hcarries _ v hv)
  obtain ⟨c, hc, -⟩ := Option.bind_eq_some_iff.mp hb
  have hlt := (List.getElem?_eq_some_iff.mp hc).1
  omega

/-- Of all queues only the empty one arrives. -/
theorem fifo_round_trip_iff (residue : Residue) (values : List UInt16) (w : World σ)
    (peer : PaModbus τ) (hfc : w.ctx.lastFunction = 0x18) (hn : values.length ≤ 127)
    (hs : SuppliesFifo values w)
    (htx : 5 + values.length * 2 + overhead w.ctx.framerType ≤ w.ctx.txbuf.cells.length) :
    FifoRoundTrip residue values w peer ↔ values = [] := by
  constructor
  · intro h
    by_contra hne
    exact fifo_incomplete residue values w peer hfc hn hs htx hne h
  · rintro rfl
    obtain ⟨ret, w', hrun, hret, hsent⟩ := respond_fifo residue [] w hfc hn hs htx
    refine ⟨_, ret, w', hrun, hret, hsent, ?_, fun rest => ?_⟩
    · intro i v hv
      cases hv
    · obtain ⟨peer', hparse, -⟩ := master_reads_fifo [] hn peer rest
      refine ⟨peer', hparse, 0, fun i v hv => ?_⟩
      cases hv

def serveFifo (values : List UInt16) : ReadRegistersFn Unit := fun _ count app =>
  (0, ⟨overlay (List.replicate count.toNat 0) (UInt16.ofNat values.length :: values), by simp⟩, app)

def fifoRequest (values : List UInt16) : World Unit :=
  ⟨{ paModbusSetReadHoldingRegistersCb (some (serveFifo values)) (station .rtu 1 64 64) with
      lastFunction := 0x18 }, (), 0, []⟩

def fifoMaster : PaModbus Unit := station .rtu 1 64 64

theorem serveFifo_toList (values : List UInt16) (addr count : UInt16) (app : Unit)
    (hn : values.length < count.toNat) :
    (serveFifo values addr count app).2.1.toList = UInt16.ofNat values.length ::
      (values ++ (List.replicate count.toNat 0).drop (values.length + 1)) :=
  overlay_eq _ _ (by simp; omega)

theorem serveFifo_supplies (values : List UInt16) (hn : values.length ≤ 127) :
    SuppliesFifo values (fifoRequest values) := by
  have hlt : values.length < (128 : UInt16).toNat := Nat.lt_succ_of_le hn
  exact ⟨serveFifo values, _, rfl, rfl, serveFifo_toList values _ 128 () hlt⟩

theorem empty_fifo_arrives : FifoRoundTrip (fun _ _ => 0) [] (fifoRequest []) fifoMaster :=
  (fifo_round_trip_iff (fun _ _ => 0) [] (fifoRequest []) fifoMaster rfl (by decide)
    (serveFifo_supplies [] (by decide)) (by decide)).mpr rfl

/-- One value is cut in half on its way, and the master shows two registers of other bytes. -/
theorem one_value_lost :
    SuppliesFifo [0x1234] (fifoRequest [0x1234]) ∧
      (∃ ret w', (paModbusSlaveRespond (fun _ _ => 0)).run (fifoRequest [0x1234]) =
          some (ret, w') ∧ 0 < ret ∧
        sent w' = frame (fifoRequest [0x1234]) [0x18, 0, 4, 0, 1, 0x12]) ∧
      (∃ peer', (parseMasterResponse [0x18, 0, 4, 0, 1, 0x12] 6).run fifoMaster =
          some (paOk, peer') ∧
        peer'.result.lastRegCount = 2 ∧ paModbusGetRegister peer' 0 = some 0x0400 ∧
          paModbusGetRegister peer' 1 = some 0x0112) ∧
      ¬ FifoRoundTrip (fun _ _ => 0) [0x1234] (fifoRequest [0x1234]) fifoMaster := by
  have hs := serveFifo_supplies [0x1234] (by decide)
  refine ⟨hs, respond_fifo _ _ _ rfl (by decide) hs (by decide), ⟨_, rfl, rfl, rfl, rfl⟩, ?_⟩
  exact fifo_incomplete _ _ _ _ rfl (by decide) hs (by decide) (by decide)

end Pamodbus.FifoQueue
