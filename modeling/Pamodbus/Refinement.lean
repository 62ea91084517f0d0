import Pamodbus.History
import Pamodbus.RespondRun
import Pamodbus.SlaveAccept
import Pamodbus.TestBanks

namespace Pamodbus.Refinement

open Pamodbus.Lib.Banks Pamodbus.Lib.Cells Pamodbus.Lib.Procedure Pamodbus.Lib.Words
open Pamodbus.Context Pamodbus.FramerRtu Pamodbus.FramerTcp Pamodbus.Framer Pamodbus.Builders
open Pamodbus.SlaveParse Pamodbus.SlaveAccept Pamodbus.Respond Pamodbus.RespondRun
open Pamodbus.History Pamodbus.DataModel Pamodbus.TestBanks

variable {σ : Type}

/-- A request with what lies behind it in memory and in the responder's variables. -/
structure Turn where
  request : Request
  rest : Bytes
  residue : Residue

/-- What the parser and the responder return, and the PDU that is framed. -/
structure Exchange where
  parsed : Int
  responded : Int
  pdu : Bytes
  deriving DecidableEq

def responsePdu (w : World σ) : Bytes :=
  match w.ctx.framerType with
  | .rtu => ((sent w).drop 1).take ((sent w).length - 3)
  | .tcp => (sent w).drop 7

def serve (w : World σ) (t : Turn) : Option (Exchange × World σ) := do
  let pdu := t.request.pdu
  let (parsed, ctx) ← (parseSlaveRequest (pdu ++ t.rest) pdu.length).run w.ctx
  let (responded, w') ← (paModbusSlaveRespond t.residue).run { w with ctx := ctx }
  return (⟨parsed, responded, responsePdu w'⟩, w')

def serveAll : World σ → List Turn → Option (List Exchange × World σ)
  | w, [] => some ([], w)
  | w, t :: turns => do
    let (exchange, w') ← serve w t
    let (exchanges, w'') ← serveAll w' turns
    return (exchange :: exchanges, w'')

def answered (framer : Framer) (pdu : Bytes) : Exchange :=
  ⟨paOk, (pdu.length + overhead framer : Nat), pdu⟩

def Stored (r : SlaveRequest) : Request → Prop
  | .readCoils addr count | .readHoldingRegisters addr count =>
    r.slaveAddr = addr ∧ r.slaveCount = count
  | .writeSingleCoil addr value =>
    r.slaveAddr = addr ∧ r.slaveCoilData.toList[0]? = some (if value then 1 else 0)
  | .writeSingleRegister addr value =>
    r.slaveAddr = addr ∧ r.slaveRegData.toList[0]? = some value
  | .writeMultipleCoils addr count packed =>
    r.slaveAddr = addr ∧ r.slaveCount = count ∧
      r.slaveCoilData.toList.take (coilBytes count) = packed
  | .writeMultipleRegisters addr count values =>
    r.slaveAddr = addr ∧ r.slaveCount = count ∧ r.slaveRegData.toList.take count.toNat = values
  | .readWriteMultipleRegisters readAddr readCount writeAddr writeCount values =>
    r.slaveAddr = readAddr ∧ r.slaveCount = readCount ∧
      r.slaveRegData.toList.take writeCount.toNat = values ∧
      r.slaveCoilData.toList.take 4 =
        [hiByte writeAddr, loByte writeAddr, hiByte writeCount, loByte writeCount]

def code : Request → UInt8
  | .readCoils .. => 0x01
  | .readHoldingRegisters .. => 0x03
  | .writeSingleCoil .. => 0x05
  | .writeSingleRegister .. => 0x06
  | .writeMultipleCoils .. => 0x0F
  | .writeMultipleRegisters .. => 0x10
  | .readWriteMultipleRegisters .. => 0x17

theorem pdu_front (req : Request) : ∃ body, req.pdu = code req :: body := by
  cases req with
  | _ => exact ⟨_, rfl⟩

theorem code_plain (req : Request) : code req &&& 0x80 = 0 := by
  cases req with
  | _ =>
    rw [code]
    decide

theorem parse_case (ctx : PaModbus σ) (req : Request) (rest : Bytes) (r : SlaveRequest)
    (h : (parseRequest (code req) (req.pdu ++ rest) req.pdu.length).run
      { ctx.request with slaveDataValid := false } = some (paOk, r)) :
    (parseSlaveRequest (req.pdu ++ rest) req.pdu.length).run ctx =
      some (paOk, { ctx with lastFunction := code req, request := r }) := by
  obtain ⟨body, hp⟩ := pdu_front req
  refine (parseSlaveRequest_accepts _ _ _ _).mpr ⟨?_, code req, ?_, code_plain req, r, h, rfl⟩
  · rw [hp, List.length_cons]
    omega
  · rw [hp]
    rfl

theorem request_stored (ctx : PaModbus σ) (req : Request) (rest : Bytes) (coils registers : Nat)
    (hv : req.Valid coils registers) :
    ∃ r, (parseSlaveRequest (req.pdu ++ rest) req.pdu.length).run ctx =
      some (paOk, { ctx with lastFunction := code req, request := r }) ∧ Stored r req := by
  cases req with
  | readCoils addr count =>
    obtain ⟨h1, h264, -⟩ := hv
    obtain ⟨ha, hc⟩ := wordPair_fields 0x01 addr count rest
    exact ⟨_, parse_case ctx (.readCoils addr count) rest _ ((parseRead_accepts _ _ _ _ _).mpr
      ⟨by simp [Request.pdu], addr, ha, count, hc, ⟨h1, by omega⟩, rfl⟩), rfl, rfl⟩
  | readHoldingRegisters addr count =>
    obtain ⟨h1, h125, -⟩ := hv
    obtain ⟨ha, hc⟩ := wordPair_fields 0x03 addr count rest
    exact ⟨_, parse_case ctx (.readHoldingRegisters addr count) rest _
      ((parseRead_accepts _ _ _ _ _).mpr
        ⟨by simp [Request.pdu], addr, ha, count, hc, ⟨h1, h125⟩, rfl⟩), rfl, rfl⟩
  | writeSingleCoil addr value =>
    obtain ⟨ha, hc⟩ := wordPair_fields 0x05 addr (coilWord value) rest
    refine ⟨_, parse_case ctx (.writeSingleCoil addr value) rest _
      ((parseWriteSingleCoil_accepts _ _ _ _).mpr
        ⟨by simp [Request.pdu], addr, ha, _, hc, rfl⟩), rfl, ?_⟩
    rw [patch_getElem? _ _ _ (by simp) (by simp)]
    cases value <;> rfl
  | writeSingleRegister addr value =>
    obtain ⟨ha, hc⟩ := wordPair_fields 0x06 addr value rest
    refine ⟨_, parse_case ctx (.writeSingleRegister addr value) rest _
      ((parseWriteSingleRegister_accepts _ _ _ _).mpr
        ⟨by simp [Request.pdu], addr, ha, value, hc, rfl⟩), rfl, ?_⟩
    exact patch_getElem? _ _ _ (by simp) (by simp)
  | writeMultipleCoils addr count packed =>
    obtain ⟨h1, h264, hl, -⟩ := hv
    have hb : coilBytes count ≤ 33 := by
      rw [coilBytes]
      omega
    obtain ⟨ha, hc, bc, hbc, hm⟩ :=
      writeHeader_fields 0x0F addr count (coilBytes count) (packed ++ rest) (by omega)
    rw [← List.append_assoc] at ha hc hbc
    have hblock : block ((Request.writeMultipleCoils addr count packed).pdu ++ rest) 6 bc.toNat =
        some packed := by
      rw [Request.pdu, List.append_assoc, block_eq _ _ _ (by simp; omega),
        List.drop_left' (by simp), List.take_left' (by omega)]
    exact ⟨_, parse_case ctx (.writeMultipleCoils addr count packed) rest _
      ((parseWriteMultipleCoils_accepts _ _ _ _).mpr ⟨by simp [Request.pdu], addr, ha, count, hc,
        ⟨h1, by omega⟩, bc, hbc, by simp [Request.pdu]; omega, by omega, packed, hblock, by omega,
        rfl⟩), rfl, rfl, patch_take _ _ _ hl.symm hb⟩
  | writeMultipleRegisters addr count values =>
    obtain ⟨h1, h123, hl, -⟩ := hv
    obtain ⟨ha, hc, bc, hbc, hm⟩ :=
      writeHeader_fields 0x10 addr count (count.toNat * 2) (registerBytes values ++ rest) (by omega)
    rw [← List.append_assoc] at ha hc hbc
    have hregs := registersAt_registerBytes (writeHeader 0x10 addr count (count.toNat * 2)) rest
      values
    exact ⟨_, parse_case ctx (.writeMultipleRegisters addr count values) rest _
      ((parseWriteMultipleRegisters_accepts _ _ _ _).mpr ⟨by simp [Request.pdu], addr, ha, count,
        hc, ⟨h1, h123⟩, bc, hbc, by simp [Request.pdu]; omega, by omega, values, by omega, hregs,
        by omega, rfl⟩), rfl, rfl, patch_take _ _ _ hl.symm (by omega)⟩
  | readWriteMultipleRegisters readAddr readCount writeAddr writeCount values =>
    obtain ⟨h1, h125, -, hw1, h121, hl, -⟩ := hv
    obtain ⟨ha, hc, hwa, hwc, bc, hbc, hm⟩ := readWriteHeader_fields readAddr readCount writeAddr
      writeCount (registerBytes values ++ rest) (by omega)
    rw [← List.append_assoc] at ha hc hwa hwc hbc
    have hregs := registersAt_registerBytes
      (readWriteHeader readAddr readCount writeAddr writeCount) rest values
    exact ⟨_, parse_case ctx
      (.readWriteMultipleRegisters readAddr readCount writeAddr writeCount values) rest _
      ((parseReadWriteRegisters_accepts _ _ _ _).mpr ⟨by simp [Request.pdu]; omega, readAddr, ha,
        readCount, hc, writeAddr, hwa, writeCount, hwc, ⟨h1, h125⟩, ⟨hw1, h121⟩, bc, hbc,
        by simp [Request.pdu]; omega, by omega, values, by omega, hregs, by omega, rfl⟩), rfl, rfl,
      patch_take _ _ _ hl.symm (by omega), patch_take _ _ _ rfl (by decide)⟩

/-- The run answers `w` with the PDU and leaves the banks as in `m`. -/
def Answers (view : σ → Data) (w : World σ) (pdu : Bytes) (m : Data)
    (run : Option (Int × World σ)) : Prop :=
  ∃ w', run = some (((pdu.length + overhead w.ctx.framerType : Nat) : Int), w') ∧
    responsePdu w' = pdu ∧ view w'.app = m ∧ SameConfig w.ctx w'.ctx

theorem responsePdu_framed (w : World σ) (pdu : Bytes)
    (h : pdu.length + overhead w.ctx.framerType ≤ w.ctx.txbuf.cells.length) :
    responsePdu (framed w (frame w pdu)) = pdu := by
  have hs := sent_framed w (frame w pdu) (by rw [frame_length]; exact h)
  have hf : (framed w (frame w pdu)).ctx.framerType = w.ctx.framerType := rfl
  rw [responsePdu, hf, hs, frame]
  cases w.ctx.framerType with
  | rtu => simp [rtuFrame]
  | tcp => simp [mbapHeader]

theorem answers_reply (view : σ → Data) (w w₁ : World σ) (pdu : Bytes) (m : Data)
    (hconf : SameConfig w.ctx w₁.ctx) (hm : view w₁.app = m) (hn : pdu.length ≤ 1000)
    (hfit : pdu.length + overhead w.ctx.framerType ≤ w.ctx.txbuf.cells.length) :
    Answers view w pdu m ((reply pdu pdu.length).run w₁) := by
  have hsize : (w₁.withTx (w₁.ctx.txbuf.patch pdu)).ctx.txbuf.cells.length =
      w₁.ctx.txbuf.cells.length := overlay_length _ _
  rw [← hconf.framerType, ← hconf.txSize] at hfit
  have hrun := emit_finish pdu pdu.length w₁ (by omega) le_rfl (by omega) hfit
  rw [List.take_length, hconf.framerType] at hrun
  refine ⟨_, hrun, ?_, hm, hconf.trans ⟨rfl, rfl, rfl, rfl, ?_⟩⟩
  · exact responsePdu_framed (w₁.withTx (w₁.ctx.txbuf.patch pdu)) pdu (by rw [hsize]; exact hfit)
  · exact (overlay_length _ _).trans hsize

theorem respond_answers (view : σ → Data) (coils registers : Nat) (residue : Residue)
    (w : World σ) (req : Request) (hb : Backed w.ctx.callbacks view coils registers)
    (hv : req.Valid coils registers) (hs : Stored w.ctx.request req)
    (hfc : w.ctx.lastFunction = code req)
    (hfit : ((view w.app).answer req).length + overhead w.ctx.framerType ≤
      w.ctx.txbuf.cells.length) :
    Answers view w ((view w.app).answer req) ((view w.app).next req)
      ((paModbusSlaveRespond residue).run w) := by
  have hcalled (call : Call) (ret : Int) (app : σ) : SameConfig w.ctx (w.called call ret app).ctx :=
    ⟨rfl, rfl, rfl, rfl, rfl⟩
  rw [respond_run, hfc]
  cases req with
  | readCoils addr count =>
    obtain ⟨h1, h264, hin⟩ := hv
    obtain ⟨cb, hcb, hserve⟩ := hb.readCoils
    obtain ⟨h0, hvalues, hview⟩ := hserve addr count w.app hin
    have hbytes : coilBytes count ≤ 33 := by
      rw [coilBytes]
      omega
    have hlen : ((view w.app).answer (.readCoils addr count)).length = 2 + coilBytes count := by
      simp [Data.answer, Data.readCoils, coilBytes]
      omega
    change Answers _ _ _ _ ((respondReadBits 0x01 _ _ >>= conclude).run w)
    rw [respondReadBits_run _ _ _ _ _ _ hs.1 hs.2, hcb]
    dsimp only [withCallback]
    rw [if_neg (by omega), if_neg (not_not.mpr h0), hvalues, ← hlen]
    exact answers_reply view w _ _ _ (hcalled _ _ _) hview (by omega) hfit
  | readHoldingRegisters addr count =>
    obtain ⟨h1, h125, hin⟩ := hv
    obtain ⟨cb, hcb, hserve⟩ := hb.readHoldingRegisters
    obtain ⟨h0, hvalues, hview⟩ := hserve addr count w.app hin
    have hlen : ((view w.app).answer (.readHoldingRegisters addr count)).length =
        2 + count.toNat * 2 := by
      simp [Data.answer, Data.readRegisters]
      omega
    change Answers _ _ _ _ ((respondReadRegisters residue 0x03 _ _ >>= conclude).run w)
    rw [respondReadRegisters_run _ _ _ _ _ _ _ hs.1 hs.2, hcb]
    dsimp only [withCallback]
    rw [if_neg (by omega), if_neg (not_not.mpr h0), hvalues, ← hlen]
    exact answers_reply view w _ _ _ (hcalled _ _ _) hview (by omega) hfit
  | writeSingleCoil addr value =>
    obtain ⟨cb, hcb, hserve⟩ := hb.writeSingleCoil
    obtain ⟨h0, hview⟩ := hserve addr (if value then 1 else 0) w.app hv
    have hvalue : decide ((if value then (1 : UInt8) else 0) ≠ 0) = value := by
      cases value with
      | _ => rfl
    have hword : (if (if value then (1 : UInt8) else 0) ≠ 0 then (0xFF00 : UInt16) else 0) =
        coilWord value := by
      cases value with
      | _ => rfl
    change Answers _ _ _ _ ((respondWriteSingleCoil 0x05 >>= conclude).run w)
    rw [respondWriteSingleCoil_run _ _ _ _ hs.1 hs.2, hcb]
    dsimp only [withCallback]
    rw [if_neg (not_not.mpr h0), hword]
    rw [hvalue] at hview
    exact answers_reply view w _ _ _ (hcalled _ _ _) hview (by simp [Data.answer]) hfit
  | writeSingleRegister addr value =>
    obtain ⟨cb, hcb, hserve⟩ := hb.writeSingleRegister
    obtain ⟨h0, hview⟩ := hserve addr value w.app hv
    change Answers _ _ _ _ ((respondWriteSingleRegister 0x06 >>= conclude).run w)
    rw [respondWriteSingleRegister_run _ _ _ _ hs.1 hs.2, hcb]
    dsimp only [withCallback]
    rw [if_neg (not_not.mpr h0)]
    exact answers_reply view w _ _ _ (hcalled _ _ _) hview (by simp [Data.answer]) hfit
  | writeMultipleCoils addr count packed =>
    obtain ⟨h1, h264, hl, hin⟩ := hv
    obtain ⟨ha, hc, hp⟩ := hs
    obtain ⟨cb, hcb, hserve⟩ := hb.writeMultipleCoils
    obtain ⟨h0, hview⟩ := hserve addr count packed w.app hin hl
    have hbytes : coilBytes count ≤ 33 := by
      rw [coilBytes]
      omega
    change Answers _ _ _ _ ((respondWriteMultipleCoils 0x0F >>= conclude).run w)
    rw [respondWriteMultipleCoils_run _ _ _ _ ha hc, hcb]
    dsimp only [withCallback]
    rw [hp, if_neg (not_not.mpr h0)]
    exact answers_reply view w _ _ _ (hcalled _ _ _) hview (by simp [Data.answer]) hfit
  | writeMultipleRegisters addr count values =>
    obtain ⟨h1, h123, hl, hin⟩ := hv
    obtain ⟨ha, hc, hp⟩ := hs
    obtain ⟨cb, hcb, hserve⟩ := hb.writeMultipleRegisters
    obtain ⟨h0, hview⟩ := hserve addr count values w.app hin hl
    change Answers _ _ _ _ ((respondWriteMultipleRegisters 0x10 >>= conclude).run w)
    rw [respondWriteMultipleRegisters_run _ _ _ _ ha hc, hcb]
    dsimp only [withCallback]
    rw [hp, if_neg (not_not.mpr h0)]
    exact answers_reply view w _ _ _ (hcalled _ _ _) hview (by simp [Data.answer]) hfit
  | readWriteMultipleRegisters readAddr readCount writeAddr writeCount values =>
    obtain ⟨h1, h125, hread, hw1, h121, hl, hwrite⟩ := hv
    obtain ⟨ha, hc, hp, hheader⟩ := hs
    obtain ⟨wcb, hwcb, hstore⟩ := hb.writeMultipleRegisters
    obtain ⟨hw0, hwritten⟩ := hstore writeAddr writeCount values w.app hwrite hl
    obtain ⟨rcb, hrcb, hserve⟩ := hb.readHoldingRegisters
    obtain ⟨h0, hvalues, hview⟩ := hserve readAddr readCount
      (wcb writeAddr writeCount values w.app).2 hread
    rw [hwritten] at hvalues hview
    have hlen : ((view w.app).answer (.readWriteMultipleRegisters readAddr readCount writeAddr
        writeCount values)).length = 2 + readCount.toNat * 2 := by
      simp [Data.answer, Data.readRegisters]
      omega
    change Answers _ _ _ _ ((respondReadWriteRegisters residue 0x17 >>= conclude).run w)
    rw [respondReadWriteRegisters_run residue _ w _ _ _ _ ha hc hheader, hrcb, hwcb]
    dsimp only [withCallback, World.called]
    rw [hp, if_neg (not_not.mpr hw0), if_neg (by omega),
      if_neg (not_not.mpr h0), hvalues, ← hlen]
    exact answers_reply view w _ _ _ ⟨rfl, rfl, rfl, rfl, rfl⟩ hview (by omega) hfit

/-- One turn is one step of the data model. -/
theorem serve_answers (view : σ → Data) (coils registers : Nat) (w : World σ) (t : Turn)
    (hb : Backed w.ctx.callbacks view coils registers) (hv : t.request.Valid coils registers)
    (hfit : ((view w.app).answer t.request).length + overhead w.ctx.framerType ≤
      w.ctx.txbuf.cells.length) :
    ∃ w', serve w t = some (answered w.ctx.framerType ((view w.app).answer t.request), w') ∧
      view w'.app = (view w.app).next t.request ∧ SameConfig w.ctx w'.ctx := by
  obtain ⟨r, hparse, hs⟩ := request_stored w.ctx t.request t.rest coils registers hv
  obtain ⟨w', hrun, hpdu, hview, hconf⟩ := respond_answers view coils registers t.residue
    { w with ctx := { w.ctx with lastFunction := code t.request, request := r } } t.request
    hb hv hs rfl hfit
  refine ⟨w', ?_, hview, hconf.framerType, hconf.slave, hconf.discoveryAddr, hconf.callbacks,
    hconf.txSize⟩
  rw [serve]
  simp only [hparse, Option.bind_eq_bind, Option.bind_some, hrun, Option.pure_def, hpdu, answered]

/-- Over banks, a slave that takes and answers requests is the data model. -/
theorem slave_refines_data_model (view : σ → Data) (coils registers : Nat) (w : World σ)
    (turns : List Turn) (hb : Backed w.ctx.callbacks view coils registers)
    (hv : ∀ t ∈ turns, t.request.Valid coils registers)
    (hfit : ∀ pdu ∈ ((view w.app).run (turns.map Turn.request)).1,
      pdu.length + overhead w.ctx.framerType ≤ w.ctx.txbuf.cells.length) :
    ∃ w', serveAll w turns = some (((view w.app).run (turns.map Turn.request)).1.map
        (answered w.ctx.framerType), w') ∧
      view w'.app = ((view w.app).run (turns.map Turn.request)).2 := by
  induction turns generalizing w with
  | nil => exact ⟨w, rfl, rfl⟩
  | cons t turns ih =>
    rw [List.map_cons, Data.run, List.forall_mem_cons] at hfit
    obtain ⟨w₁, hserve, hview, hconf⟩ := serve_answers view coils registers w t hb
      (hv t (List.mem_cons_self ..)) hfit.1
    have ih := ih w₁ (hconf.callbacks.symm ▸ hb) (fun t ht => hv t (List.mem_cons_of_mem _ ht))
      (by rw [hview, hconf.framerType, hconf.txSize]; exact hfit.2)
    rw [hview, hconf.framerType] at ih
    obtain ⟨w', hall, hlast⟩ := ih
    refine ⟨w', ?_, hlast⟩
    rw [serveAll, hserve, Option.bind_eq_bind, Option.bind_some]
    dsimp only
    rw [hall]
    rfl

def bankSlave : World (Banks 32 100) :=
  ⟨{ station .rtu 1 64 64 with callbacks := bankCallbacks },
    ⟨List.Vector.replicate 32 0, List.Vector.replicate 100 0⟩, 0, []⟩

def overlapping : List Turn :=
  [⟨.readWriteMultipleRegisters 10 3 11 2 [7, 8], [], fun _ _ => 0⟩,
    ⟨.readHoldingRegisters 12 1, [], fun _ _ => 0⟩]

theorem overlapping_answered : (serveAll bankSlave overlapping).map Prod.fst =
    some [answered .rtu [0x17, 6, 0, 0, 0, 7, 0, 8], answered .rtu [0x03, 2, 0, 8]] := by
  have hv : ∀ t ∈ overlapping, t.request.Valid 256 100 := by decide
  obtain ⟨w', hrun, -⟩ := slave_refines_data_model Banks.view 256 100 bankSlave overlapping
    (bankCallbacks_backed (by decide)) hv (by decide)
  rw [hrun]
  rfl

end Pamodbus.Refinement
