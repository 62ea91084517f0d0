import Pamodbus.Addresses
import Pamodbus.EndToEnd
import Pamodbus.SerialLink

namespace Pamodbus.SlaveId

open Pamodbus.Lib.Cells Pamodbus.Lib.Procedure Pamodbus.Lib.Words
open Pamodbus.Context Pamodbus.Crc16 Pamodbus.FramerRtu Pamodbus.Framer Pamodbus.Builders
open Pamodbus.MasterParse Pamodbus.Feed Pamodbus.Respond Pamodbus.RespondRun
open Pamodbus.Addresses Pamodbus.ResponseFrames Pamodbus.EndToEnd Pamodbus.Exceptions
open Pamodbus.Serving Pamodbus.SerialLink

variable {σ τ : Type}

/-- The bytes of the id, as the first register that the application returns counts them. -/
def idLength (regs : List UInt16) : Nat := min (loByte (regs.headD 0)).toNat 126

/-- The registers after the first hold the id. Where its length is odd, the last byte is
shown alone, and no register follows it. -/
def idRegister (regs : List UInt16) (i : Nat) : UInt16 :=
  if i * 2 + 1 < idLength regs then regs.getD (i + 1) 0
  else if i * 2 < idLength regs then (hiByte (regs.getD (i + 1) 0)).toUInt16
  else 0

def idRegisters (regs : List UInt16) : List UInt16 :=
  (List.range ((idLength regs + 1) / 2)).map (idRegister regs)

def idPdu (regs : List UInt16) : Bytes :=
  0x11 :: UInt8.ofNat (idLength regs) ::
    (registerBytes ((regs.drop 1).take (min ((idLength regs + 1) / 2) 63))).take (idLength regs)

theorem idLength_le (regs : List UInt16) : idLength regs ≤ 126 := min_le_right _ _

theorem idPdu_length {regs : List UInt16} (h : regs.length = 64) :
    (idPdu regs).length = idLength regs + 2 := by
  have hn := idLength_le regs
  simp only [idPdu, List.length_cons, List.length_take, registerBytes_length, List.length_drop]
  omega

theorem registerBytes_low (values : List UInt16) (i : Nat) :
    (registerBytes values)[2 * i + 1]? = values[i]?.map loByte := by
  induction values generalizing i with
  | nil => rfl
  | cons v values ih =>
    cases i with
    | zero => rfl
    | succ i => exact ih i

theorem idPdu_bytes {regs : List UInt16} (h : regs.length = 64) (rest : Bytes) (i : Nat) :
    (i * 2 < idLength regs →
      (idPdu regs ++ rest)[2 + i * 2]? = some (hiByte (regs.getD (i + 1) 0))) ∧
    (i * 2 + 1 < idLength regs →
      (idPdu regs ++ rest)[2 + i * 2 + 1]? = some (loByte (regs.getD (i + 1) 0))) := by
  have hn := idLength_le regs
  have hl := idPdu_length h
  have hreg (hi : i * 2 < idLength regs) :
      ((regs.drop 1).take (min ((idLength regs + 1) / 2) 63))[i]? =
        some (regs.getD (i + 1) 0) := by
    rw [List.getElem?_take_of_lt (by omega), List.getElem?_drop, Nat.add_comm 1 i,
      List.getElem?_eq_getElem (by omega), List.getD_eq_getElem _ _ (by omega)]
  constructor
  · intro hi
    have hplace : 2 + i * 2 = 2 * i + 2 := by omega
    rw [List.getElem?_append_left (by omega), idPdu, hplace, List.getElem?_cons_succ,
      List.getElem?_cons_succ, List.getElem?_take_of_lt (by omega), registerBytes_getElem?,
      hreg hi, Option.map_some]
  · intro hi
    have hplace : 2 + i * 2 + 1 = 2 * i + 1 + 2 := by omega
    rw [List.getElem?_append_left (by omega), idPdu, hplace, List.getElem?_cons_succ,
      List.getElem?_cons_succ, List.getElem?_take_of_lt (by omega), registerBytes_low,
      hreg (by omega), Option.map_some]

theorem parseReportServerId_run {regs : List UInt16} (h : regs.length = 64) (rest : Bytes)
    (r : MasterResult) :
    (parseReportServerId (idPdu regs ++ rest) (idPdu regs).length).run r = some (paOk, { r with
      lastRegCount := UInt16.ofNat ((idLength regs + 1) / 2)
      lastRegData := patch r.lastRegData (idRegisters regs) }) := by
  have hn := idLength_le regs
  have hl := idPdu_length h
  have hb : (UInt8.ofNat (idLength regs)).toNat = idLength regs := by
    rw [UInt8.toNat_ofNat']
    omega
  have h1 : (idPdu regs ++ rest)[1]? = some (UInt8.ofNat (idLength regs)) := rfl
  have hlen : (idRegisters regs).length = (idLength regs + 1) / 2 := by simp [idRegisters]
  have hmin : min ((idLength regs + 1) / 2) 128 = (idRegisters regs).length := by omega
  rw [parseReportServerId, if_neg (by omega), h1, access_some, pure_bind]
  dsimp only
  rw [hb, if_neg (by omega), hmin, MasterParse.setRegCount, modify_bind_run,
    bind_defined _ _ _ _ _ (storeLoop_run _ (idRegisters regs) _ (by omega) fun i v hv => ?_), hlen]
  · rfl
  · obtain ⟨hi, rfl⟩ := List.getElem?_eq_some_iff.mp hv
    rw [hlen] at hi
    obtain ⟨hhi, hlo⟩ := idPdu_bytes h rest i
    rw [hhi (by omega), access_some, pure_bind]
    simp only [idRegisters, List.getElem_map, List.getElem_range, idRegister]
    by_cases hc : i * 2 + 1 < idLength regs
    · rw [if_pos hc, if_pos hc, hlo hc, access_some, pure_bind, word_bytes]
    · rw [if_neg hc, if_neg hc, if_pos (by omega)]

theorem getRegister_id {m : PaModbus τ} {regs : List UInt16} {old : List.Vector UInt16 128}
    (hcount : m.result.lastRegCount = UInt16.ofNat ((idLength regs + 1) / 2))
    (hdata : m.result.lastRegData = patch old (idRegisters regs)) (i : UInt16) :
    paModbusGetRegister m i = some (idRegister regs i.toNat) := by
  have hn := idLength_le regs
  have hlen : (idRegisters regs).length = (idLength regs + 1) / 2 := by simp [idRegisters]
  have hc : (UInt16.ofNat ((idLength regs + 1) / 2)).toNat = (idLength regs + 1) / 2 := by
    rw [UInt16.toNat_ofNat']
    omega
  rw [paModbusGetRegister, hcount, hdata]
  split
  next hout =>
    rw [UInt16.le_iff_toNat_le, hc] at hout
    rw [idRegister, if_neg (by omega), if_neg (by omega)]
  next hin =>
    rw [UInt16.le_iff_toNat_le, hc] at hin
    rw [patch_getElem? _ _ _ (by omega) (by omega), idRegisters, List.getElem?_map,
      List.getElem?_range (by omega), Option.map_some]

theorem feed_id {m : PaModbus τ} (regs : List UInt16) (hf : m.framerType = .rtu) {id : UInt8}
    (ha : accepts m id = true) (h : regs.length = 64) :
    ∃ m', (paModbusMasterFeed (rtuFrame id (idPdu regs))).run m = some (paOk, m') ∧
      ∀ i, paModbusGetRegister m' i = some (idRegister regs i.toNat) := by
  have hn := idLength_le regs
  have hl := idPdu_length h
  have hb : (UInt8.ofNat (idLength regs)).toNat = idLength regs := by
    rw [UInt8.toNat_ofNat']
    omega
  obtain ⟨payload, hpdu, hp⟩ : ∃ payload : Bytes,
      idPdu regs = 0x11 :: UInt8.ofNat (idLength regs) :: payload ∧
        payload.length = idLength regs := by
    refine ⟨_, rfl, ?_⟩
    rw [idPdu, List.length_cons, List.length_cons] at hl
    omega
  have hu : unwrap m (rtuFrame id (idPdu regs)) = some (.ok 1 (idPdu regs).length) := by
    rw [unwrap_rtu m _ hf, hpdu]
    refine unwrap_frame m id 0x11 _ ?_ ha
    rw [expectedLen_serverId _ _ _ (by rw [hb, hp]) (by omega), List.length_cons, hp, hb]
  refine ⟨{ m with
    lastFunction := 0x11
    result := { m.result with
      lastError := paOk
      lastException := 0
      lastCoilCount := 0
      lastRegCount := UInt16.ofNat ((idLength regs + 1) / 2)
      lastRegData := patch m.result.lastRegData (idRegisters regs) } }, ?_,
    getRegister_id rfl rfl⟩
  rw [masterFeed_ok _ _ _ _ hu, parseMasterResponse, if_neg (by omega)]
  change ((access (some 0x11) >>= _ : Proc (PaModbus τ) Int)).run m = _
  rw [access_some, pure_bind, modify_bind_run, if_neg (by decide), modify_bind_run,
    onResult, focus_run]
  change ((parseReportServerId (idPdu regs ++ crcBytes _) _).run _).map _ = _
  rw [parseReportServerId_run h]
  rfl

theorem feed_refusal {m : PaModbus τ} {id : UInt8} (hf : m.framerType = .rtu)
    (ha : accepts m id = true) (code : UInt8) :
    ∃ m', (paModbusMasterFeed (rtuFrame id [0x11 ||| 0x80, code])).run m =
      some (paErrException, m') ∧ paModbusGetException m' = code := by
  obtain ⟨own, hown, hcode⟩ := (exception_received_iff 0x11 code (paModbusSetSlave id m) hf
    (by decide)).mpr (by decide)
  obtain ⟨m', hfeed, rfl⟩ := masterFeed_readdressed hf ha hown
  exact ⟨m', hfeed, hcode⟩

theorem request_id {c : PaModbus σ} {id : UInt8} (hf : c.framerType = .rtu)
    (ha : accepts c id = true) :
    ∃ r, (paModbusSlaveFeed (rtuFrame id [0x11])).run c =
      some (paOk, { c with lastFunction := 0x11, request := r }) := by
  have hu : unwrap c (rtuFrame id [0x11]) = some (.ok 1 1) := by
    rw [unwrap_rtu c _ hf]
    exact unwrap_frame c id 0x11 [] rfl ha
  rw [slaveFeed_ok _ _ _ _ hu]
  exact ⟨_, rfl⟩

theorem reply_sent {u : World σ} (bytes : Bytes) (n : Nat) (hf : u.ctx.framerType = .rtu)
    (hi : n ≤ 128) (hn : n ≤ bytes.length) (hb : bytes.length ≤ u.ctx.txbuf.cells.length)
    (htx : n + 3 ≤ u.ctx.txbuf.cells.length) :
    ∃ u', (reply bytes n).run u = some (((n + 3 : Nat) : Int), u') ∧ u'.app = u.app ∧
      SameSetup u.ctx u'.ctx ∧ sent u' = rtuFrame u.ctx.slave (bytes.take n) := by
  have ho : overhead u.ctx.framerType = 3 := by rw [hf, overhead]
  have he := emit_finish bytes n u (by omega) hn hb (by rw [ho]; exact htx)
  rw [ho, frame, hf] at he
  refine ⟨_, he, rfl, sameSetup_framed u bytes _, sent_framed _ _ ?_⟩
  rw [World.withTx_txbuf, Buffer.patch_cells, overlay_length, rtuFrame_length, List.length_take]
  omega

theorem serve_id {v : World σ} (residue : Residue) (code : UInt8) {f : ReadRegistersFn σ}
    (hf : v.ctx.framerType = .rtu) (hfc : v.ctx.lastFunction = 0x11)
    (hcb : v.ctx.callbacks.readHoldingRegistersCb = some f)
    (htx : (if (f 0xFFF0 64 v.app).1 = 0 then idLength (f 0xFFF0 64 v.app).2.1.toList else 0) + 5 ≤
      v.ctx.txbuf.cells.length) :
    ∃ len v', (serve code residue).run v = some (len, v') ∧
      v'.app = (f 0xFFF0 64 v.app).2.2 ∧
      sent v' = rtuFrame v.ctx.slave (if (f 0xFFF0 64 v.app).1 = 0 then
        idPdu (f 0xFFF0 64 v.app).2.1.toList else [0x11 ||| 0x80, code]) := by
  have hrun : (paModbusSlaveRespond residue).run v = _ :=
    ((respond_run residue v).trans (by rw [hfc]; rfl)).trans
      (respondReportServerId_run residue 0x11 v)
  rw [hcb] at hrun
  dsimp only [withCallback] at hrun
  have hl : (f 0xFFF0 64 v.app).2.1.toList.length = 64 := by simp
  generalize f 0xFFF0 64 v.app = r at hrun hl htx ⊢
  have hn := idLength_le r.2.1.toList
  by_cases h0 : r.1 = 0
  · rw [if_neg (not_not.mpr h0)] at hrun
    rw [if_pos h0] at htx
    obtain ⟨v', hreply, happ, -, hsent⟩ := reply_sent
      (u := v.called (.readHoldingRegisters 0xFFF0 64) r.1 r.2.2)
      ([0x11] ++ [UInt8.ofNat (idLength r.2.1.toList)] ++ registerBytes
        ((r.2.1.toList.drop 1).take (min ((idLength r.2.1.toList + 1) / 2) 63)))
      (2 + idLength r.2.1.toList) hf (by omega) (by simp; omega) (by simp; omega)
      (by rw [World.called_ctx]; omega)
    refine ⟨((2 + idLength r.2.1.toList + 3 : Nat) : Int), v', ?_, happ, ?_⟩
    · rw [serve, bind_defined _ _ _ _ _ (hrun.trans hreply), if_neg (by omega)]
      rfl
    · rw [if_pos h0, hsent, Nat.add_comm 2]
      rfl
  · rw [if_pos h0] at hrun
    rw [if_neg h0] at htx
    obtain ⟨v', hreply, happ, -, hsent⟩ := reply_sent
      (u := v.called (.readHoldingRegisters 0xFFF0 64) r.1 r.2.2) [0x11 ||| 0x80, code] 2 hf
      (by omega) le_rfl (by simp; omega) (by rw [World.called_ctx]; omega)
    refine ⟨5, v', ?_, happ, ?_⟩
    · rw [serve, bind_defined _ _ _ _ _ hrun, if_pos (by decide), respondError_run,
        World.called_ctx, hfc]
      exact hreply
    · rw [if_neg h0]
      exact hsent

/-- What the application of a slave tells of it is what the accessor of the master shows, and
an application that refuses shows as an exception. -/
theorem slave_id_arrives (w : World τ) (v : World σ) (residue : Residue) (code : UInt8)
    {f : ReadRegistersFn σ} (hm : w.ctx.framerType = .rtu) (hs : v.ctx.framerType = .rtu)
    (hask : accepts v.ctx w.ctx.slave = true) (hanswer : accepts w.ctx v.ctx.slave = true)
    (hcb : v.ctx.callbacks.readHoldingRegistersCb = some f)
    (hmtx : 4 ≤ w.ctx.txbuf.cells.length)
    (hstx : (if (f 0xFFF0 64 v.app).1 = 0 then idLength (f 0xFFF0 64 v.app).2.1.toList else 0) + 5 ≤
      v.ctx.txbuf.cells.length) :
    ∃ w' c len v' ret m, paModbusBuildReportSlaveId.run w = some (4, w') ∧
      (paModbusSlaveFeed (sent w')).run v.ctx = some (paOk, c) ∧
      (serve code residue).run { v with ctx := c } = some (len, v') ∧
      v'.app = (f 0xFFF0 64 v.app).2.2 ∧
      (paModbusMasterFeed (sent v')).run w'.ctx = some (ret, m) ∧
      if (f 0xFFF0 64 v.app).1 = 0 then ret = paOk ∧
        ∀ i, paModbusGetRegister m i = some (idRegister (f 0xFFF0 64 v.app).2.1.toList i.toNat)
      else ret = paErrException ∧ paModbusGetException m = code := by
  obtain ⟨w', hbuild, -, hsetup, hrequest⟩ := reply_sent (u := w) [0x11] 1 hm (by decide) le_rfl
    (by simp; omega) hmtx
  obtain ⟨q, hfeed⟩ := request_id hs hask
  obtain ⟨len, v', hserve, happ, hanswered⟩ := serve_id
    (v := { v with ctx := { v.ctx with lastFunction := 0x11, request := q } }) residue code hs rfl
    hcb hstx
  have hf' : w'.ctx.framerType = .rtu := hsetup.framer.trans hm
  have ha' : accepts w'.ctx v.ctx.slave = true := (hsetup.accepts _).trans hanswer
  have hbuilt : paModbusBuildReportSlaveId.run w = some (4, w') := by
    rw [paModbusBuildReportSlaveId, txStore_front]
    exact hbuild
  rw [List.take_of_length_le (by decide)] at hrequest
  rw [← hrequest] at hfeed
  by_cases h0 : (f 0xFFF0 64 v.app).1 = 0
  · obtain ⟨m, hfed, hshown⟩ := feed_id (f 0xFFF0 64 v.app).2.1.toList hf' ha' (by simp)
    refine ⟨w', _, len, v', paOk, m, hbuilt, hfeed, hserve, happ, ?_, ?_⟩
    · rw [hanswered, if_pos h0]
      exact hfed
    · rw [if_pos h0]
      exact ⟨rfl, hshown⟩
  · obtain ⟨m, hfed, hcode⟩ := feed_refusal hf' ha' code
    refine ⟨w', _, len, v', paErrException, m, hbuilt, hfeed, hserve, happ, ?_, ?_⟩
    · rw [hanswered, if_neg h0]
      exact hfed
    · rw [if_neg h0]
      exact ⟨rfl, hcode⟩

/-- An application that identifies itself with the three bytes `50 41 31`. -/
def threeByteId : ReadRegistersFn Unit := fun _ count app =>
  (0, ⟨(List.range count.toNat).map fun i => [3, 0x5041, 0x3100].getD i 0, by simp⟩, app)

def idSlave : World Unit :=
  ⟨paModbusSetReadHoldingRegistersCb (some threeByteId) (station .rtu 1 64 64), (), 0, []⟩

def idMaster : World Unit := ⟨station .rtu 1 16 64, (), 0, []⟩

theorem three_byte_id_arrives : ∃ w' c len v' m,
    paModbusBuildReportSlaveId.run idMaster = some (4, w') ∧
      (paModbusSlaveFeed (sent w')).run idSlave.ctx = some (paOk, c) ∧
      (serve 0x04 fun _ _ => 0).run { idSlave with ctx := c } = some (len, v') ∧
      (paModbusMasterFeed (sent v')).run w'.ctx = some (paOk, m) ∧
      paModbusGetRegister m 0 = some 0x5041 ∧ paModbusGetRegister m 1 = some 0x31 ∧
      paModbusGetRegister m 2 = some 0 := by
  obtain ⟨w', c, len, v', ret, m, hbuild, hfeed, hserve, -, hfed, hshown⟩ :=
    slave_id_arrives idMaster idSlave (fun _ _ => 0) 0x04 rfl rfl (by decide) (by decide) rfl
      (by decide) (by decide)
  rw [if_pos (by decide)] at hshown
  obtain ⟨rfl, hshown⟩ := hshown
  refine ⟨w', c, len, v', m, hbuild, hfeed, hserve, hfed, ?_, ?_, ?_⟩
  · exact (hshown 0).trans (by decide)
  · exact (hshown 1).trans (by decide)
  · exact (hshown 2).trans (by decide)

end Pamodbus.SlaveId
