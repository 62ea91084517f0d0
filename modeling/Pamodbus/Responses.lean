import Pamodbus.Deliveries
import Pamodbus.HistoryIndependence
import Pamodbus.SerialLink
import Pamodbus.TxBuffer

namespace Pamodbus.Responses

open Pamodbus.Lib.Cells Pamodbus.Lib.Procedure Pamodbus.Lib.Runs Pamodbus.Lib.Stream
open Pamodbus.Lib.Words
open Pamodbus.Context Pamodbus.FramerRtu Pamodbus.Framer Pamodbus.Builders
open Pamodbus.SlaveAccept Pamodbus.Respond Pamodbus.RespondRun Pamodbus.Accumulator Pamodbus.Serving
open Pamodbus.Send (paModbusSend sendTxbuf)
open Pamodbus.Recv Pamodbus.Receiver Pamodbus.Calls Pamodbus.Deliveries
open Pamodbus.HistoryIndependence (feed_taken requestPdu)
open Pamodbus.BackToBack (Whole functionCode)
open Pamodbus.FileRecords (recordLen readRecords writeRecords respondReadFileRecord_run
  respondWriteFileRecord_run)

variable {σ β : Type} {fc : UInt8} {w : World σ}

/-- A run of the responder: nothing but callbacks of the application, and then an error or one
PDU that starts with the code of the request. -/
inductive Responds (fc : UInt8) (w : World σ) : Option (Int × World σ) → Prop
  | overrun : Responds fc w none
  | refused (ret : Int) (w₁ : World σ) (left : Buffer UInt8) (hret : ret < 0) (h : Served w w₁) :
    Responds fc w (some (ret, w₁.withTx left))
  | replied (bytes : Bytes) (n : Nat) (w₁ : World σ) (hn : 1 ≤ n ∧ n ≤ 1000)
    (hbytes : n ≤ bytes.length) (hfc : bytes[0]? = some fc) (h : Served w w₁) :
    Responds fc w ((reply bytes n).run w₁)

theorem responds_error {w₁ : World σ} (ret : Int) (hret : ret < 0) (h : Served w w₁) :
    Responds fc w (some (ret, w₁)) := .refused ret w₁ w₁.ctx.txbuf hret h

theorem responds_callback (cb : Option β) (f : β → Option (Int × World σ))
    (h : ∀ b ∈ cb, Responds fc w (f b)) : Responds fc w (withCallback cb w f) := by
  cases cb with
  | none => exact responds_error paErrState (by decide) (served_self w)
  | some b => exact h b rfl

theorem responds_ite {c : Prop} [Decidable c] {x y : Option (Int × World σ)}
    (hx : c → Responds fc w x) (hy : ¬ c → Responds fc w y) :
    Responds fc w (if c then x else y) := by
  by_cases h : c
  · rw [if_pos h]
    exact hx h
  · rw [if_neg h]
    exact hy h

theorem responds_called {w₁ : World σ} (h : Served w w₁) (call : Call) (ret : Int) (app : σ)
    (hcall : sentBytes call = []) {rest : Option (Int × World σ)}
    (hrest : Served w (w₁.called call ret app) → Responds fc w rest) :
    Responds fc w (if ret ≠ 0 then some (paErrCallback, w₁.called call ret app) else rest) :=
  have hserved := served_called h call ret app hcall
  responds_ite (fun _ => responds_error _ (by decide) hserved) fun _ => hrest hserved

theorem readBits_responds (cb : Option (ReadCoilsFn σ)) (call : UInt16 → UInt16 → Call)
    (hcall : ∀ addr count, sentBytes (call addr count) = []) :
    Responds fc w ((respondReadBits fc cb call >>= conclude).run w) := by
  rw [respondReadBits_run fc cb call w _ _ rfl rfl]
  refine responds_callback _ _ fun f _ => responds_ite (fun _ => .overrun) fun h33 => ?_
  refine responds_called (served_self w) _ _ _ (hcall _ _) fun h => ?_
  exact .replied _ _ _ (by omega) (by simp; omega) rfl h

theorem readRegisters_responds (residue : Residue) (cb : Option (ReadRegistersFn σ))
    (call : UInt16 → UInt16 → Call) (hcall : ∀ addr count, sentBytes (call addr count) = []) :
    Responds fc w ((respondReadRegisters residue fc cb call >>= conclude).run w) := by
  rw [respondReadRegisters_run residue fc cb call w _ _ rfl rfl]
  refine responds_callback _ _ fun f _ => responds_ite (fun _ => .overrun) fun hroom => ?_
  refine responds_called (served_self w) _ _ _ (hcall _ _) fun h => ?_
  exact .replied _ _ _ (by omega) (by simp; omega) rfl h

theorem writeSingleCoil_responds :
    Responds fc w ((respondWriteSingleCoil fc >>= conclude).run w) := by
  obtain ⟨value, hv⟩ := getElem?_some w.ctx.request.slaveCoilData.toList 0 (by simp)
  rw [respondWriteSingleCoil_run fc w _ value rfl hv]
  refine responds_callback _ _ fun f _ => responds_called (served_self w) _ _ _ rfl fun h => ?_
  exact .replied _ _ _ (by decide) le_rfl rfl h

theorem writeSingleRegister_responds :
    Responds fc w ((respondWriteSingleRegister fc >>= conclude).run w) := by
  obtain ⟨value, hv⟩ := getElem?_some w.ctx.request.slaveRegData.toList 0 (by simp)
  rw [respondWriteSingleRegister_run fc w _ value rfl hv]
  refine responds_callback _ _ fun f _ => responds_called (served_self w) _ _ _ rfl fun h => ?_
  exact .replied _ _ _ (by decide) le_rfl rfl h

theorem exceptionStatus_responds (residue : Residue) :
    Responds fc w ((respondExceptionStatus residue fc >>= conclude).run w) := by
  rw [respondExceptionStatus_run]
  refine responds_callback _ _ fun f _ => responds_called (served_self w) _ _ _ rfl fun h => ?_
  exact .replied _ _ _ (by decide) (by simp; decide) rfl h

theorem diagnostic_responds : Responds fc w ((respondDiagnostic fc >>= conclude).run w) := by
  obtain ⟨value, hv⟩ := getElem?_some w.ctx.request.slaveRegData.toList 0 (by simp)
  rw [respondDiagnostic_run fc w _ value rfl hv]
  exact .replied _ _ _ (by decide) le_rfl rfl (served_self w)

theorem comEventCounter_responds (residue : Residue) :
    Responds fc w ((respondComEventCounter residue fc >>= conclude).run w) := by
  rw [respondComEventCounter_run]
  refine responds_callback _ _ fun f _ => responds_called (served_self w) _ _ _ rfl fun h => ?_
  exact .replied _ _ _ (by decide) (by simp) rfl h

theorem comEventLog_responds (residue : Residue) :
    Responds fc w ((respondComEventLog residue fc >>= conclude).run w) := by
  rw [respondComEventLog_run]
  refine responds_callback _ _ fun f _ => responds_called (served_self w) _ _ _ rfl fun h => ?_
  exact .replied _ _ _ (by decide) (by simp) rfl h

theorem writeMultipleCoils_responds :
    Responds fc w ((respondWriteMultipleCoils fc >>= conclude).run w) := by
  rw [respondWriteMultipleCoils_run fc w _ _ rfl rfl]
  refine responds_callback _ _ fun f _ => responds_called (served_self w) _ _ _ rfl fun h => ?_
  exact .replied _ _ _ (by decide) le_rfl rfl h

theorem writeMultipleRegisters_responds :
    Responds fc w ((respondWriteMultipleRegisters fc >>= conclude).run w) := by
  rw [respondWriteMultipleRegisters_run fc w _ _ rfl rfl]
  refine responds_callback _ _ fun f _ => responds_called (served_self w) _ _ _ rfl fun h => ?_
  exact .replied _ _ _ (by decide) le_rfl rfl h

theorem reportServerId_responds (residue : Residue) :
    Responds fc w ((respondReportServerId residue fc >>= conclude).run w) := by
  rw [respondReportServerId_run]
  refine responds_callback _ _ fun f _ => responds_called (served_self w) _ _ _ rfl fun h => ?_
  exact .replied _ _ _ (by omega) (by simp; omega) rfl h

theorem readFifoQueue_responds (residue : Residue) :
    Responds fc w ((respondReadFifoQueue residue fc >>= conclude).run w) := by
  rw [respondReadFifoQueue_run residue fc w _ rfl]
  refine responds_callback _ _ fun f _ => responds_called (served_self w) _ _ _ rfl fun h => ?_
  exact .replied _ _ _ (by omega) (by simp; omega) rfl h

theorem maskWriteRegister_responds (residue : Residue) :
    Responds fc w ((respondMaskWriteRegister residue fc >>= conclude).run w) := by
  obtain ⟨andMask, orMask, hm⟩ : ∃ a o, w.ctx.request.slaveRegData.toList.take 2 = [a, o] :=
    List.length_eq_two.mp (by simp)
  rw [respondMaskWriteRegister_run residue fc w _ _ _ rfl hm]
  refine responds_callback _ _ fun f _ => ?_
  have hreply {w₁ : World σ} (h : Served w w₁) :
      Responds fc w ((maskReply fc w.ctx.request.slaveAddr andMask orMask).run w₁) :=
    .replied _ _ _ (by decide) le_rfl rfl h
  cases w.ctx.callbacks.readHoldingRegistersCb with
  | none => exact hreply (served_self w)
  | some g =>
    have hread := served_called (served_self w) (.readHoldingRegisters w.ctx.request.slaveAddr 1)
      (g w.ctx.request.slaveAddr 1 w.app).1 (g w.ctx.request.slaveAddr 1 w.app).2.2 rfl
    refine responds_ite (fun _ => hreply hread) fun _ => ?_
    exact responds_called hread _ _ _ rfl fun h => hreply h

theorem readWriteRegisters_responds (residue : Residue) (hw : WellFormed 0x17 w.ctx.request) :
    Responds 0x17 w ((respondReadWriteRegisters residue 0x17 >>= conclude).run w) := by
  obtain ⟨-, writeAddr, writeCount, -, hp⟩ := hw
  rw [respondReadWriteRegisters_run residue 0x17 w _ _ _ _ rfl rfl hp]
  refine responds_callback _ _ fun g _ => responds_callback _ _ fun f _ => ?_
  refine responds_called (served_self w) _ _ _ rfl fun hwritten =>
    responds_ite (fun _ => .overrun) fun hroom => ?_
  refine responds_called hwritten _ _ _ rfl fun h => ?_
  exact .replied _ _ _ (by omega) (by simp; omega) rfl h

theorem readRecords_served (cb : ReadRegistersFn σ) (regs : List UInt16) (limit size : Nat)
    (rounds reqOffset offset : Nat) {w₁ : World σ} (h : Served w w₁) :
    Served w (readRecords cb regs limit size rounds reqOffset offset w₁).world := by
  induction rounds generalizing reqOffset offset w₁ with
  | zero => exact h
  | succ rounds ih =>
    have hcalled := served_called h
      (.readHoldingRegisters (regs[reqOffset / 2 + 2]?.getD 0) (recordLen regs (reqOffset / 2)))
      (cb (regs[reqOffset / 2 + 2]?.getD 0) (recordLen regs (reqOffset / 2)) w₁.app).1
      (cb (regs[reqOffset / 2 + 2]?.getD 0) (recordLen regs (reqOffset / 2)) w₁.app).2.2 rfl
    rw [readRecords]
    dsimp only
    split
    · exact h
    · split
      · exact hcalled
      · split
        · exact hcalled
        · exact ih _ _ hcalled

theorem readFileRecord_responds (residue : Residue)
    (hw : w.ctx.request.slaveRegCount.toNat ≤ 127) :
    Responds fc w ((respondReadFileRecord residue fc >>= conclude).run w) := by
  obtain ⟨left, hrun⟩ := respondReadFileRecord_run residue fc w (by omega)
  rw [hrun]
  refine responds_callback _ _ fun cb _ => ?_
  have hserved := readRecords_served cb w.ctx.request.slaveRegData.toList
    (w.ctx.request.slaveRegCount.toNat * 2) w.ctx.txbuf.cells.length
    (w.ctx.request.slaveRegCount.toNat * 2 + 1) 0 2 (served_self w)
  dsimp only
  generalize readRecords cb _ _ _ _ _ _ w = served at hserved ⊢
  have hbytes : (UInt8.ofNat served.bytes.length).toNat ≤ served.bytes.length := by
    rw [UInt8.toNat_ofNat']
    exact Nat.mod_le _ _
  have hlt := (UInt8.ofNat served.bytes.length).toNat_lt
  refine responds_ite (fun _ => .overrun) fun _ =>
    responds_ite (fun _ => .refused _ _ _ (by decide) hserved) fun _ => ?_
  exact .replied _ _ _ (by omega) (by simp only [List.length_append, List.length_singleton]; omega)
    rfl hserved

theorem writeRecords_served (residue : Residue) (cb : WriteMultipleRegistersFn σ)
    (regs : List UInt16) (regCount rounds offset : Nat) {w₁ : World σ} (h : Served w w₁) :
    Served w (writeRecords residue cb regs regCount rounds offset w₁).2 := by
  induction rounds generalizing offset w₁ with
  | zero => exact h
  | succ rounds ih =>
    rw [writeRecords]
    dsimp only
    split
    · exact h
    · split
      · exact served_called h _ _ _ rfl
      · exact ih _ (served_called h _ _ _ rfl)

theorem writeFileRecord_responds (residue : Residue)
    (hw : w.ctx.request.slaveRegCount.toNat ≤ 127) :
    Responds fc w ((respondWriteFileRecord residue fc >>= conclude).run w) := by
  rw [respondWriteFileRecord_run residue fc w (by omega)]
  refine responds_callback _ _ fun cb _ => ?_
  have hserved := writeRecords_served residue cb w.ctx.request.slaveRegData.toList
    w.ctx.request.slaveRegCount.toNat (w.ctx.request.slaveRegCount.toNat * 2 + 1) 0
    (served_self w)
  have hcount : (UInt8.ofNat (w.ctx.request.slaveRegCount.toNat * 2)).toNat =
      w.ctx.request.slaveRegCount.toNat * 2 := by
    rw [UInt8.toNat_ofNat']
    omega
  dsimp only
  refine responds_ite (fun _ => responds_error _ (by decide) hserved) fun _ => ?_
  exact .replied _ _ _ (by omega) (by simp; omega) rfl hserved

theorem respond_responds (residue : Residue)
    (hw : WellFormed w.ctx.lastFunction w.ctx.request) :
    Responds w.ctx.lastFunction w ((paModbusSlaveRespond residue).run w) := by
  rw [respond_run]
  generalize w.ctx.lastFunction = fc at hw ⊢
  unfold WellFormed at hw
  split at hw
  case h_1 => exact readBits_responds _ _ fun _ _ => rfl
  case h_2 => exact readBits_responds _ _ fun _ _ => rfl
  case h_3 => exact readRegisters_responds residue _ _ fun _ _ => rfl
  case h_4 => exact readRegisters_responds residue _ _ fun _ _ => rfl
  case h_5 => exact writeSingleCoil_responds
  case h_6 => exact writeSingleRegister_responds
  case h_7 => exact exceptionStatus_responds residue
  case h_8 => exact diagnostic_responds
  case h_9 => exact comEventCounter_responds residue
  case h_10 => exact comEventLog_responds residue
  case h_11 => exact reportServerId_responds residue
  case h_12 => exact maskWriteRegister_responds residue
  case h_13 => exact readFifoQueue_responds residue
  case h_14 => exact writeMultipleCoils_responds
  case h_15 => exact writeMultipleRegisters_responds
  case h_16 => exact readFileRecord_responds residue hw
  case h_17 => exact writeFileRecord_responds residue hw
  case h_18 => exact readWriteRegisters_responds residue hw
  case h_19 => exact absurd hw not_false

/-- All that is changed of a context by putting a frame into the transmit buffer. -/
def Framing (ctx ctx' : PaModbus σ) : Prop :=
  ∃ b n, ctx' = { ctx with txbuf := b, txLen := n }

theorem Framing.trans {c d e : PaModbus σ} (h : Framing c d) (h' : Framing d e) : Framing c e := by
  obtain ⟨_, _, rfl⟩ := h
  obtain ⟨_, _, rfl⟩ := h'
  exact ⟨_, _, rfl⟩

/-- A call that sends nothing yet, with what is in the transmit buffer when it succeeds. -/
structure Prepares (fc : UInt8) (w : World σ) (ret : Int) (w' : World σ) : Prop where
  framing : Framing w.ctx w'.ctx
  transmitted : transmitted w' = transmitted w
  frame : 0 < ret → ∃ pdu, pdu[0]? = some fc ∧ sent w' = rtuFrame w.ctx.slave pdu

theorem reply_framing (bytes : Bytes) (n : Nat) {w w' : World σ} {ret : Int}
    (hn : n + 7 < 2 ^ 31) (h : (reply bytes n).run w = some (ret, w')) :
    Framing w.ctx w'.ctx := by
  obtain ⟨⟨⟩, w₁, hemit, hfinish⟩ := bind_inv _ _ _ _ _ h
  obtain rfl : w.withTx (w.ctx.txbuf.patch bytes) = w₁ := by
    by_cases hl : bytes.length ≤ w.ctx.txbuf.cells.length
    · rw [emit_run bytes w hl, Option.some.injEq, Prod.mk.injEq] at hemit
      exact hemit.2
    · rw [emit_overrun bytes w (by omega)] at hemit
      cases hemit
  generalize hv : w.withTx (w.ctx.txbuf.patch bytes) = v at hfinish
  have hframing : Framing w.ctx v.ctx := by
    rw [← hv]
    exact ⟨_, w.ctx.txLen, rfl⟩
  by_cases hfit : n + overhead v.ctx.framerType ≤ v.ctx.txbuf.cells.length
  · rw [finish_fits n v hn hfit, Option.some.injEq, Prod.mk.injEq] at hfinish
    rw [← hfinish.2]
    exact hframing.trans ⟨_, _, rfl⟩
  · rw [finish_full n v hn (by omega), Option.some.injEq, Prod.mk.injEq] at hfinish
    rw [← hfinish.2]
    exact hframing

theorem reply_prepares (bytes : Bytes) (n : Nat) {w₁ w' : World σ} {ret : Int}
    (hf : w.ctx.framerType = .rtu) (hn : 1 ≤ n ∧ n ≤ 1000) (hbytes : n ≤ bytes.length)
    (hfc : bytes[0]? = some fc) (hserved : Served w w₁)
    (h : (reply bytes n).run w₁ = some (ret, w')) : Prepares fc w ret w' where
  framing := hserved.1 ▸ reply_framing bytes n (by omega) h
  transmitted := by
    rw [Serving.transmitted, reply_calls bytes n w₁ w' ret (by omega) h]
    exact hserved.2
  frame hret := by
    refine ⟨bytes.take n, ?_, ?_⟩
    · rw [List.getElem?_take, if_pos (by omega), hfc]
    · rw [reply_sent bytes n w₁ w' ret (by rw [hserved.1, hf]) (by omega) hbytes h hret, hserved.1]

theorem Responds.prepares {run : Option (Int × World σ)} (h : Responds fc w run)
    (hf : w.ctx.framerType = .rtu) {ret : Int} {w' : World σ} (hrun : run = some (ret, w')) :
    Prepares fc w ret w' := by
  cases h with
  | overrun => cases hrun
  | refused ret₁ w₁ left hret hserved =>
    rw [Option.some.injEq, Prod.mk.injEq] at hrun
    obtain ⟨rfl, rfl⟩ := hrun
    refine ⟨⟨left, w.ctx.txLen, ?_⟩, hserved.2, fun hpos => absurd hpos (by omega)⟩
    rw [World.withTx, hserved.1]
  | replied bytes n w₁ hn hbytes hfc hserved =>
    exact reply_prepares bytes n hf hn hbytes hfc hserved hrun

/-- A response starts with the code of the request, and an exception response with that code
and its highest bit set. -/
def Answer (slave fc : UInt8) (answer : Bytes) : Prop :=
  ∃ pdu, answer = rtuFrame slave pdu ∧ (pdu[0]? = some fc ∨ pdu[0]? = some (fc ||| 0x80))

structure Speaks (fc : UInt8) (w w' : World σ) : Prop where
  framing : Framing w.ctx w'.ctx
  answer : ∃ answer, transmitted w' = transmitted w ++ answer ∧
    (answer = [] ∨ Answer w.ctx.slave fc answer)

theorem send_keeps {w' : World σ} {ret : Int} (h : paModbusSend.run w = some (ret, w')) :
    w'.ctx = w.ctx := by
  rw [paModbusSend, get_bind_run] at h
  cases hcb : w.ctx.sendCb with
  | none =>
    rw [hcb] at h
    obtain ⟨-, rfl⟩ := (pure_run_iff _ _ _ _).mp h
    rfl
  | some cb =>
    rw [hcb] at h
    obtain ⟨r, w₁, hsend, h⟩ := bind_inv _ _ _ _ _ h
    obtain ⟨-, rfl⟩ := (pure_run_iff _ _ _ _).mp h
    rw [sendTxbuf, get_bind_run] at hsend
    obtain ⟨data, -, hsend⟩ := (access_bind_iff _ _ _ _).mp hsend
    rw [modify_bind_run] at hsend
    obtain ⟨-, rfl⟩ := (pure_run_iff _ _ _ _).mp hsend
    rfl

theorem serve_prepares (code : UInt8) (residue : Residue) (hf : w.ctx.framerType = .rtu)
    (hw : WellFormed w.ctx.lastFunction w.ctx.request) {ret : Int} {w' : World σ}
    (h : (serve code residue).run w = some (ret, w')) :
    ∃ fc, (fc = w.ctx.lastFunction ∨ fc = w.ctx.lastFunction ||| 0x80) ∧ Prepares fc w ret w' := by
  obtain ⟨len, w₁, hrespond, h⟩ := bind_inv _ _ _ _ _ h
  have hfirst := (respond_responds residue hw).prepares hf hrespond
  by_cases hlen : len < 0
  · rw [if_pos hlen, respondError_run] at h
    obtain ⟨left, n, hctx⟩ := hfirst.framing
    refine ⟨w.ctx.lastFunction ||| 0x80, .inr rfl, ?_⟩
    have hsecond : Prepares (w.ctx.lastFunction ||| 0x80) w₁ ret w' :=
      reply_prepares _ 2 (by rw [hctx]; exact hf) (by decide) le_rfl (by rw [hctx]; rfl)
        (served_self w₁) h
    refine ⟨hfirst.framing.trans hsecond.framing, hsecond.transmitted.trans hfirst.transmitted,
      fun hret => ?_⟩
    have hframe := hsecond.frame hret
    rw [hctx] at hframe
    exact hframe
  · rw [if_neg hlen] at h
    obtain ⟨rfl, rfl⟩ := (pure_run_iff _ _ _ _).mp h
    exact ⟨_, .inl rfl, hfirst⟩

theorem respond_speaks (code : UInt8) (residue : Residue) (hf : w.ctx.framerType = .rtu)
    (hw : WellFormed w.ctx.lastFunction w.ctx.request) {ret : Int} {w' : World σ}
    (h : (SerialLink.respond code residue).run w = some (ret, w')) :
    Speaks w.ctx.lastFunction w w' := by
  obtain ⟨len, w₁, hserve, h⟩ := bind_inv _ _ _ _ _ h
  obtain ⟨fc, hfc, hprepares⟩ := serve_prepares code residue hf hw hserve
  by_cases hlen : 0 < len
  · rw [if_pos hlen] at h
    obtain ⟨pdu, hpdu, hsent⟩ := hprepares.frame hlen
    refine ⟨by rw [send_keeps h]; exact hprepares.framing, ?_⟩
    rcases TxBuffer.send_hands_over h with hcalls | ⟨r, hcalls⟩
    · refine ⟨[], ?_, .inl rfl⟩
      rw [Serving.transmitted, hcalls, List.append_nil]
      exact hprepares.transmitted
    · refine ⟨sent w₁, ?_, .inr ⟨pdu, hsent, ?_⟩⟩
      · rw [Serving.transmitted, hcalls, List.flatMap_append, ← Serving.transmitted,
          hprepares.transmitted]
        simp [sentBytes]
      · rcases hfc with rfl | rfl
        · exact .inl hpdu
        · exact .inr hpdu
  · rw [if_neg hlen] at h
    obtain ⟨-, rfl⟩ := (pure_run_iff _ _ _ _).mp h
    exact ⟨hprepares.framing, [], by rw [List.append_nil, hprepares.transmitted], .inl rfl⟩

/-- What has come in when it is polled, and what the local variables of the responder hold. -/
structure Turn where
  tick : UInt32
  bytes : Bytes
  residue : Residue

def turn (code : UInt8) (w : World σ) (t : Turn) : Option (World σ) := do
  let out ← paModbusRecv w.ctx ⟨t.tick, some t.bytes⟩
  let (_, w') ← (if out.ret = paOk then SerialLink.respond code t.residue else pure out.ret).run
    { w with ctx := out.ctx }
  return w'

structure Listening (size : Nat) (ctx : PaModbus σ) : Prop where
  ready : Ready size ctx
  framer : ctx.framerType = .rtu
  role : paRxMode ctx = .slave

theorem keepWaiting_ret (ctx : PaModbus σ) (now : UInt32) : (keepWaiting ctx now).ret ≠ paOk := by
  rcases keepWaiting_cases ctx now with h | ⟨ret, hret, h⟩
  · rw [h]
    exact (by decide : paWait ≠ paOk)
  · rw [h]
    exact hret.ne

theorem recv_fed {ctx : PaModbus σ} {poll : Poll} {out : Outcome σ}
    (h : paModbusRecv ctx poll = some out) (hret : out.ret = paOk) :
    ∃ ctx₁ frame c, Received ctx ctx₁ ∧ out.dispatched = some frame ∧
      (roleFeed ctx₁ frame).run ctx₁ = some (paOk, c) ∧
      out.ctx.lastFunction = c.lastFunction ∧ out.ctx.request = c.request := by
  rw [paModbusRecv] at h
  split at h
  · obtain rfl := Option.some.inj h
    exact absurd hret (by decide : paErrState ≠ paOk)
  dsimp only at h
  cases hbytes : poll.recv with
  | none =>
    rw [hbytes] at h
    obtain rfl := Option.some.inj h
    exact absurd hret (by decide : paErrCallback ≠ paOk)
  | some bytes =>
    rw [hbytes] at h
    obtain ⟨ctx₁, happended, h⟩ := Option.bind_eq_some_iff.mp h
    have hreceived := appended_received ctx ctx₁ bytes _ happended
    split at h
    · obtain ⟨found, -, h⟩ := Option.bind_eq_some_iff.mp h
      cases found with
      | none =>
        obtain rfl := Option.some.inj h
        exact absurd hret (keepWaiting_ret _ _)
      | some found =>
        obtain ⟨data, -, h⟩ := Option.bind_eq_some_iff.mp h
        obtain ⟨⟨ret, c⟩, hfeed, h⟩ := Option.bind_eq_some_iff.mp h
        dsimp only at h
        split at h
        · obtain ⟨tail, -, h⟩ := Option.bind_eq_some_iff.mp h
          obtain ⟨rxbuf, -, h⟩ := Option.bind_eq_some_iff.mp h
          obtain rfl := Option.some.inj h
          obtain rfl : ret = paOk := hret
          exact ⟨ctx₁, data, c, hreceived, rfl, hfeed, rfl, rfl⟩
        · obtain rfl := Option.some.inj h
          obtain rfl : ret = paOk := hret
          exact ⟨ctx₁, data, c, hreceived, rfl, hfeed, rfl, rfl⟩
    · obtain rfl := Option.some.inj h
      exact absurd hret (keepWaiting_ret _ _)

def Turned (ctx ctx' : PaModbus σ) : Prop := ∃ d, Received ctx d ∧ Framing d ctx'

variable {size : Nat} {ctx ctx' : PaModbus σ}

theorem received_turned (h : Received ctx ctx') : Turned ctx ctx' :=
  ⟨ctx', h, ctx'.txbuf, ctx'.txLen, rfl⟩

theorem Turned.trans {c d e : PaModbus σ} (h : Turned c d) (h' : Turned d e) : Turned c e := by
  obtain ⟨_, ⟨_, _, _, _, _, _, rfl⟩, _, _, rfl⟩ := h
  obtain ⟨_, ⟨_, _, _, _, _, _, rfl⟩, _, _, rfl⟩ := h'
  exact ⟨_, ⟨_, _, _, _, _, _, rfl⟩, _, _, rfl⟩

theorem Turned.slave (h : Turned ctx ctx') : ctx'.slave = ctx.slave := by
  obtain ⟨_, ⟨_, _, _, _, _, _, rfl⟩, _, _, rfl⟩ := h
  rfl

theorem Turned.accepts (h : Turned ctx ctx') (id : UInt8) :
    FramerRtu.accepts ctx' id = FramerRtu.accepts ctx id := by
  obtain ⟨_, ⟨_, _, _, _, _, _, rfl⟩, _, _, rfl⟩ := h
  rfl

theorem Turned.whole (h : Turned ctx ctx') {frame : Bytes} (hframe : Whole ctx' frame) :
    Whole ctx frame := by
  obtain ⟨_, ⟨_, _, _, _, _, _, rfl⟩, _, _, rfl⟩ := h
  exact hframe

theorem Listening.turned (hl : Listening size ctx) (h : Turned ctx ctx')
    (hready : Ready size ctx') : Listening size ctx' := by
  refine ⟨hready, ?_, ?_⟩
  · obtain ⟨_, ⟨_, _, _, _, _, _, rfl⟩, _, _, rfl⟩ := h
    exact hl.framer
  · obtain ⟨_, ⟨_, _, _, _, _, _, rfl⟩, _, _, rfl⟩ := h
    exact hl.role

theorem recv_request {poll : Poll} {out : Outcome σ} (hl : Listening size ctx)
    (h : paModbusRecv ctx poll = some out) (hret : out.ret = paOk) :
    ∃ frame, out.dispatched = some frame ∧ functionCode frame = out.ctx.lastFunction ∧
      WellFormed out.ctx.lastFunction out.ctx.request := by
  obtain ⟨ctx₁, frame, c, hreceived, hd, hfeed, hfc, hrequest⟩ := recv_fed h hret
  have hset : paRxMode ctx₁ = .slave ∧ ctx₁.framerType = .rtu := by
    obtain ⟨_, _, _, _, _, _, rfl⟩ := hreceived
    exact ⟨hl.role, hl.framer⟩
  rw [roleFeed, if_pos hset.1] at hfeed
  obtain ⟨hcode, hw, -⟩ := feed_taken ctx₁ c frame hfeed
  refine ⟨frame, hd, ?_, ?_⟩
  · rw [hset.2, show requestPdu .rtu frame = frame.drop 1 from rfl, List.getElem?_drop] at hcode
    rw [functionCode, hfc, hcode, Option.getD_some]
  · rw [hfc, hrequest]
    exact hw

/-- Frames from the line, each with what has been sent after it. -/
structure Answered (ctx : PaModbus σ) (frame answer : Bytes) : Prop where
  whole : Whole ctx frame
  answer : answer = [] ∨ Answer ctx.slave (functionCode frame) answer

/-- What a slave has made of the bytes that it has found and received. -/
def Accounted (w : World σ) (arriving : Bytes) (w' : World σ) : Prop :=
  ∃ taken, ∃ answered : List (Bytes × Bytes),
    accumulator w.ctx ++ arriving = taken ++ accumulator w'.ctx ∧
      Pieces (answered.map Prod.fst) taken ∧
      transmitted w' = transmitted w ++ answered.flatMap Prod.snd ∧
      ∀ a ∈ answered, Answered w.ctx a.1 a.2

theorem delivered_whole {poll : Poll} {frames messages : List Bytes} (hf : ctx.framerType = .rtu)
    (h : List.Forall₂ (Delivers ctx (.recv poll)) frames messages) :
    ∀ frame ∈ frames, Whole ctx frame := by
  induction h with
  | nil => exact List.forall_mem_nil _
  | cons hfirst _ ih => exact List.forall_mem_cons.mpr ⟨hfirst.2 hf, ih⟩

/-- One turn takes at most one frame, and sends at most one answer. -/
theorem turn_accounted {code : UInt8} {w w' : World σ} {t : Turn} (hl : Listening size w.ctx)
    (hbytes : t.bytes.length ≤ offered w.ctx) (h : turn code w t = some w') :
    Listening size w'.ctx ∧ Turned w.ctx w'.ctx ∧ Accounted w t.bytes w' := by
  obtain ⟨out, hrecv, h⟩ := Option.bind_eq_some_iff.mp h
  obtain ⟨⟨ret, w₁⟩, hrun, h⟩ := Option.bind_eq_some_iff.mp h
  obtain rfl : w₁ = w' := Option.some.inj h
  have hreceived := recv_received w.ctx _ out hrecv
  have hready : Ready size out.ctx := by
    obtain ⟨out', hrun', hready⟩ := op_ready w.ctx size hl.ready (.recv ⟨t.tick, some t.bytes⟩) hbytes
    obtain rfl := Option.some.inj (hrun'.symm.trans hrecv)
    exact hready
  have hout := hl.turned (received_turned hreceived) hready
  obtain ⟨taken, frames, hstream, hpieces, hdelivers⟩ :=
    recv_accounts hl.ready t.tick hbytes hrecv
  have hwhole := delivered_whole hl.framer hdelivers
  by_cases hret : out.ret = paOk
  · rw [if_pos hret] at hrun
    obtain ⟨frame, hd, hcode, hw⟩ := recv_request hl hrecv hret
    obtain rfl : frames = [frame] := by
      rw [hd, Option.toList_some] at hdelivers
      obtain ⟨first, rest, hfirst, hrest, rfl⟩ := List.forall₂_cons_right_iff.mp hdelivers
      rw [List.forall₂_nil_right_iff.mp hrest, hfirst.1]
    obtain ⟨hframing, answer, hsent, hanswer⟩ :=
      respond_speaks code t.residue (w := { w with ctx := out.ctx }) hout.framer hw hrun
    have hturned : Turned w.ctx w₁.ctx := ⟨out.ctx, hreceived, hframing⟩
    obtain ⟨b, n, hctx⟩ := hframing
    refine ⟨hl.turned hturned ?_, hturned, taken, [(frame, answer)], ?_, hpieces, ?_, ?_⟩
    · rw [hctx]
      exact ⟨hready.callback, hready.fixed, hready.nonempty, hready.held⟩
    · rw [hctx]
      exact hstream
    · rw [hsent]
      simp [transmitted]
    · have hslave := (received_turned hreceived).slave
      refine List.forall_mem_singleton.mpr ⟨hwhole frame (List.mem_singleton_self _), ?_⟩
      rw [hcode, ← hslave]
      exact hanswer
  · rw [if_neg hret] at hrun
    obtain ⟨-, rfl⟩ := (pure_run_iff _ _ _ _).mp hrun
    refine ⟨hout, received_turned hreceived, taken, frames.map fun frame => (frame, []), hstream,
      ?_, ?_, ?_⟩
    · rw [List.map_map]
      exact (List.map_id frames).symm ▸ hpieces
    · simp [transmitted]
    · intro a ha
      obtain ⟨frame, hmem, rfl⟩ := List.mem_map.mp ha
      exact ⟨hwhole frame hmem, .inl rfl⟩

/-- Each turn finds no more bytes than the callback is offered room for. -/
abbrev Polled (code : UInt8) : World σ → List Turn → Prop :=
  Throughout (turn code) fun w t => t.bytes.length ≤ offered w.ctx

/-- Whatever arrives, a slave sends nothing but answers to whole frames for it, at most one to
each, one after the other, under its own address and with the code of the request. -/
theorem speaks_when_asked {code : UInt8} {w w' : World σ} (turns : List Turn)
    (hl : Listening size w.ctx) (hpolled : Polled code w turns)
    (hrun : after (turn code) w turns = some w') :
    Accounted w (turns.flatMap Turn.bytes) w' := by
  induction turns generalizing w with
  | nil =>
    obtain rfl : w = w' := Option.some.inj hrun
    exact ⟨[], [], by simp, .nil [], by simp, List.forall_mem_nil _⟩
  | cons t turns ih =>
    obtain ⟨hbytes, hrest⟩ := hpolled
    obtain ⟨u, hturn, hrun⟩ := Option.bind_eq_some_iff.mp hrun
    obtain ⟨hlu, hturned, taken, answered, hstream, hpieces, hsent, hanswers⟩ :=
      turn_accounted hl hbytes hturn
    obtain ⟨taken', answered', hstream', hpieces', hsent', hanswers'⟩ :=
      ih hlu (hrest u hturn) hrun
    refine ⟨taken ++ taken', answered ++ answered', ?_, ?_, ?_, ?_⟩
    · rw [List.flatMap_cons, ← List.append_assoc, hstream, List.append_assoc, hstream',
        List.append_assoc]
    · rw [List.map_append]
      exact hpieces.append hpieces'
    · rw [hsent', hsent, List.flatMap_append, List.append_assoc]
    · intro a ha
      rcases List.mem_append.mp ha with ha | ha
      · exact hanswers a ha
      · obtain ⟨hwhole, hanswer⟩ := hanswers' a ha
        rw [hturned.slave] at hanswer
        exact ⟨hturned.whole hwhole, hanswer⟩

def readOnlySlave : World Unit :=
  ⟨paModbusSetSendCb (some fun _ app => (0, app)) (paModbusSetReadHoldingRegistersCb
    (some fun _ count app => (0, ⟨(List.range count.toNat).map fun i => UInt16.ofNat (i + 7),
      by simp⟩, app)) (paModbusSetMode .slave (station .rtu 1 64 64))), (), 0, []⟩

def readThenWrite : List Turn :=
  [⟨0, [0xFF, 0x2A, 0x01, 0x03, 0x00, 0x00], fun _ _ => 0⟩,
    ⟨1, [0x00, 0x02, 0xC4, 0x0B, 0x01, 0x06], fun _ _ => 0⟩,
    ⟨2, [0x00, 0x01, 0x00, 0x07, 0x99, 0xC8], fun _ _ => 0⟩]

theorem readThenWrite_answered : ∃ w', after (turn 0x01) readOnlySlave readThenWrite = some w' ∧
    Accounted readOnlySlave (readThenWrite.flatMap Turn.bytes) w' ∧
    transmitted w' =
      [0x01, 0x03, 0x04, 0x00, 0x07, 0x00, 0x08, 0x4A, 0x34] ++ [0x01, 0x86, 0x01, 0x83, 0xA0] := by
  have hsent : (after (turn 0x01) readOnlySlave readThenWrite).map transmitted =
      some ([0x01, 0x03, 0x04, 0x00, 0x07, 0x00, 0x08, 0x4A, 0x34] ++
        [0x01, 0x86, 0x01, 0x83, 0xA0]) := by decide +kernel
  obtain ⟨w', hafter, hsent⟩ := Option.map_eq_some_iff.mp hsent
  have hlistening : Listening 64 readOnlySlave.ctx :=
    ⟨⟨rfl, rfl, by decide, Nat.zero_le _⟩, rfl, rfl⟩
  exact ⟨w', hafter, speaks_when_asked readThenWrite hlistening (by decide +kernel) hafter, hsent⟩

end Pamodbus.Responses
