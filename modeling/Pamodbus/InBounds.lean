import Pamodbus.Feed
import Pamodbus.FileRecords

namespace Pamodbus.InBounds

open Pamodbus.Lib.Cells Pamodbus.Lib.Procedure Pamodbus.Lib.Words
open Pamodbus.Context Pamodbus.FramerRtu Pamodbus.Framer Pamodbus.Builders
open Pamodbus.SlaveParse Pamodbus.SlaveAccept Pamodbus.Feed Pamodbus.Respond Pamodbus.RespondRun
open Pamodbus.FileRecords

variable {σ α β : Type} {c d : Prop} [Decidable c]

/-- Coils that fit 33 bytes, and a FIFO queue that fits the transmit buffer. -/
def StaysInside (w : World σ) : Prop :=
  match w.ctx.lastFunction with
  | 0x01 => w.ctx.callbacks.readCoilsCb.isSome → w.ctx.request.slaveCount.toNat ≤ 264
  | 0x02 => w.ctx.callbacks.readDiscreteInputsCb.isSome → w.ctx.request.slaveCount.toNat ≤ 264
  | 0x0F => w.ctx.callbacks.writeMultipleCoilsCb.isSome → w.ctx.request.slaveCount.toNat ≤ 264
  | 0x18 => ∀ cb, w.ctx.callbacks.readHoldingRegistersCb = some cb →
      (cb w.ctx.request.slaveAddr 128 w.app).1 = 0 →
      5 + 2 * min ((cb w.ctx.request.slaveAddr 128 w.app).2.1.toList.headD 0).toNat 127 ≤
        w.ctx.txbuf.cells.length
  | _ => True

/-- The array that a write callback is handed has the cells that its count covers. -/
def Covered : Call → Prop
  | .writeMultipleCoils _ count values => values.length = coilBytes count
  | .writeMultipleRegisters _ count values => values.length = count.toNat
  | _ => True

def CoveredSince (w w' : World σ) : Prop :=
  ∃ made, w'.calls = w.calls ++ made ∧ ∀ c ∈ made, Covered c.1

/-- No array is left, neither by a run nor by the callbacks that it calls. -/
def Inside (w : World σ) (run : Option (Int × World σ)) : Prop :=
  ∃ ret w', run = some (ret, w') ∧ CoveredSince w w'

theorem overrun_coils (count : UInt16) : 33 < coilBytes count ↔ ¬ count.toNat ≤ 264 := by
  rw [coilBytes]
  omega

theorem coveredSince_refl (w : World σ) : CoveredSince w w :=
  ⟨[], (List.append_nil _).symm, fun _ hc => absurd hc (List.not_mem_nil)⟩

theorem CoveredSince.trans {w w' w'' : World σ} (h : CoveredSince w w') (h' : CoveredSince w' w'') :
    CoveredSince w w'' := by
  obtain ⟨made, hm, hc⟩ := h
  obtain ⟨made', hm', hc'⟩ := h'
  refine ⟨made ++ made', by rw [hm', hm, List.append_assoc], fun c hmem => ?_⟩
  exact (List.mem_append.mp hmem).elim (hc c) (hc' c)

theorem coveredSince_called (w : World σ) (call : Call) (ret : Int) (app : σ) (h : Covered call) :
    CoveredSince w (w.called call ret app) := by
  refine ⟨[(call, ret)], rfl, fun c hc => ?_⟩
  rw [List.mem_singleton.mp hc]
  exact h

theorem Inside.after {w w' : World σ} {run : Option (Int × World σ)} (hw : CoveredSince w w')
    (h : Inside w' run) : Inside w run := by
  obtain ⟨ret, w'', hrun, hc⟩ := h
  exact ⟨ret, w'', hrun, hw.trans hc⟩

theorem inside_refused (ret : Int) (w : World σ) (rest : Option (Int × World σ))
    (h : ¬ c → Inside w rest) : Inside w (if c then some (ret, w) else rest) := by
  by_cases hc : c
  · rw [if_pos hc]
    exact ⟨ret, w, rfl, coveredSince_refl w⟩
  · rw [if_neg hc]
    exact h hc

theorem inside_accepted {call : Call} {ret : Int} {app : σ} {e : Int} {w : World σ}
    {rest : Option (Int × World σ)} (hc : Covered call)
    (h : ¬ c → Inside (w.called call ret app) rest) :
    Inside w (if c then some (e, w.called call ret app) else rest) :=
  (inside_refused e _ rest h).after (coveredSince_called w call ret app hc)

theorem inside_callback (cb : Option β) (w : World σ) (f : β → Option (Int × World σ))
    (h : ∀ b, cb = some b → Inside w (f b)) : Inside w (withCallback cb w f) := by
  cases cb with
  | none => exact ⟨_, w, rfl, coveredSince_refl w⟩
  | some b => exact h b rfl

theorem inside_callback_iff (cb : Option β) (w : World σ) (f : β → Option (Int × World σ))
    (h : ∀ b, Inside w (f b) ↔ d) : Inside w (withCallback cb w f) ↔ (cb.isSome → d) := by
  cases cb with
  | none => exact iff_of_true ⟨_, w, rfl, coveredSince_refl w⟩ fun hn => by simp at hn
  | some b => exact (h b).trans ⟨fun hd _ => hd, fun hd => hd rfl⟩

theorem inside_overrun (w : World σ) (rest : Option (Int × World σ)) (hcd : c ↔ ¬ d)
    (h : d → Inside w rest) : Inside w (if c then none else rest) ↔ d := by
  by_cases hd : d
  · rw [if_neg (hcd.not.mpr (not_not.mpr hd))]
    exact iff_of_true (h hd) hd
  · rw [if_pos (hcd.mpr hd)]
    exact iff_of_false (fun ⟨_, _, hrun, _⟩ => by cases hrun) hd

theorem reply_inside_iff (bytes : Bytes) (n : Nat) {w w' : World σ} (hw : CoveredSince w w')
    (hn : n + 7 < 2 ^ 31) :
    Inside w ((reply bytes n).run w') ↔ bytes.length ≤ w'.ctx.txbuf.cells.length := by
  rw [← reply_isSome bytes n w' hn, Option.isSome_iff_exists]
  constructor
  · rintro ⟨ret, w'', hrun, -⟩
    exact ⟨_, hrun⟩
  · rintro ⟨⟨ret, w''⟩, hrun⟩
    refine ⟨ret, w'', hrun, hw.trans ⟨[], ?_, fun _ hc => absurd hc (List.not_mem_nil)⟩⟩
    rw [reply_calls bytes n w' w'' ret hn hrun, List.append_nil]

theorem reply_inside (bytes : Bytes) (n : Nat) (w : World σ) (hn : n ≤ 257)
    (hb : bytes.length ≤ 256) (ht : 256 ≤ w.ctx.txbuf.cells.length) :
    Inside w ((reply bytes n).run w) :=
  (reply_inside_iff bytes n (coveredSince_refl w) (by omega)).mpr (by omega)

theorem readRecords_covered (cb : ReadRegistersFn σ) (regs : List UInt16) (limit size : Nat)
    (rounds reqOffset offset : Nat) (w : World σ) :
    CoveredSince w (readRecords cb regs limit size rounds reqOffset offset w).world := by
  induction rounds generalizing reqOffset offset w with
  | zero => exact coveredSince_refl w
  | succ rounds ih =>
    rw [readRecords]
    dsimp only
    split
    · exact coveredSince_refl w
    · have hcall := coveredSince_called w (.readHoldingRegisters (regs[reqOffset / 2 + 2]?.getD 0)
        (recordLen regs (reqOffset / 2))) (cb (regs[reqOffset / 2 + 2]?.getD 0)
        (recordLen regs (reqOffset / 2)) w.app).1 (cb (regs[reqOffset / 2 + 2]?.getD 0)
        (recordLen regs (reqOffset / 2)) w.app).2.2 trivial
      split
      · exact hcall
      · split
        · exact hcall
        · exact hcall.trans (ih _ _ _)

theorem recordValues_length (residue : Residue) (regs : List UInt16) (regCount offset : Nat) :
    (recordValues residue regs regCount offset).length =
      (recordLen regs (offset / 2)).toNat := by
  have hle := recordLen_le regs (offset / 2)
  rw [recordValues]
  simp only [List.length_take, overlay_length, List.Vector.toList_length]
  omega

theorem writeRecords_covered (residue : Residue) (cb : WriteMultipleRegistersFn σ)
    (regs : List UInt16) (regCount rounds offset : Nat) (w : World σ) :
    CoveredSince w (writeRecords residue cb regs regCount rounds offset w).2 := by
  induction rounds generalizing offset w with
  | zero => exact coveredSince_refl w
  | succ rounds ih =>
    rw [writeRecords]
    dsimp only
    split
    · exact coveredSince_refl w
    · have hcall (ret : Int) (app : σ) := coveredSince_called w (.writeMultipleRegisters
        (regs[offset / 2 + 2]?.getD 0) (recordLen regs (offset / 2))
        (recordValues residue regs regCount offset)) ret app
        (recordValues_length residue regs regCount offset)
      split
      · exact hcall _ _
      · exact (hcall _ _).trans (ih _ _)

variable (residue : Residue) (fc : UInt8) (w : World σ)

theorem readBits_inside (cb : Option (ReadCoilsFn σ)) (call : UInt16 → UInt16 → Call)
    (hcall : ∀ addr count, Covered (call addr count)) (ht : 256 ≤ w.ctx.txbuf.cells.length) :
    Inside w ((respondReadBits fc cb call >>= conclude).run w) ↔
      (cb.isSome → w.ctx.request.slaveCount.toNat ≤ 264) := by
  rw [respondReadBits_run fc cb call w _ _ rfl rfl]
  refine inside_callback_iff _ _ _ fun f => inside_overrun _ _ (overrun_coils _) fun h => ?_
  have hc := (overrun_coils w.ctx.request.slaveCount).not.mpr (not_not.mpr h)
  refine inside_accepted (hcall _ _) fun _ => ?_
  exact reply_inside _ _ _ (by omega) (by simp; omega) ht

theorem readRegisters_inside (cb : Option (ReadRegistersFn σ)) (call : UInt16 → UInt16 → Call)
    (hcall : ∀ addr count, Covered (call addr count)) (ht : 256 ≤ w.ctx.txbuf.cells.length)
    (hc : w.ctx.request.slaveCount.toNat ≤ 125) :
    Inside w ((respondReadRegisters residue fc cb call >>= conclude).run w) := by
  rw [respondReadRegisters_run residue fc cb call w _ _ rfl rfl]
  refine inside_callback _ _ _ fun f _ => ?_
  rw [if_neg (by omega)]
  refine inside_accepted (hcall _ _) fun _ => ?_
  exact reply_inside _ _ _ (by omega) (by simp; omega) ht

theorem writeSingleCoil_inside (ht : 256 ≤ w.ctx.txbuf.cells.length) :
    Inside w ((respondWriteSingleCoil fc >>= conclude).run w) := by
  obtain ⟨v, hv⟩ := getElem?_some w.ctx.request.slaveCoilData.toList 0 (by simp)
  rw [respondWriteSingleCoil_run fc w _ v rfl hv]
  refine inside_callback _ _ _ fun cb _ => inside_accepted trivial fun _ => ?_
  exact reply_inside _ _ _ (by omega) (by simp) ht

theorem writeSingleRegister_inside (ht : 256 ≤ w.ctx.txbuf.cells.length) :
    Inside w ((respondWriteSingleRegister fc >>= conclude).run w) := by
  obtain ⟨v, hv⟩ := getElem?_some w.ctx.request.slaveRegData.toList 0 (by simp)
  rw [respondWriteSingleRegister_run fc w _ v rfl hv]
  refine inside_callback _ _ _ fun cb _ => inside_accepted trivial fun _ => ?_
  exact reply_inside _ _ _ (by omega) (by simp) ht

theorem exceptionStatus_inside (ht : 256 ≤ w.ctx.txbuf.cells.length) :
    Inside w ((respondExceptionStatus residue fc >>= conclude).run w) := by
  rw [respondExceptionStatus_run]
  refine inside_callback _ _ _ fun f _ => inside_accepted trivial fun _ => ?_
  exact reply_inside _ _ _ (by omega) (by simp [coilBytes]) ht

theorem diagnostic_inside (ht : 256 ≤ w.ctx.txbuf.cells.length) :
    Inside w ((respondDiagnostic fc >>= conclude).run w) := by
  obtain ⟨v, hv⟩ := getElem?_some w.ctx.request.slaveRegData.toList 0 (by simp)
  rw [respondDiagnostic_run fc w _ v rfl hv]
  exact reply_inside _ _ _ (by omega) (by simp) ht

theorem comEventCounter_inside (ht : 256 ≤ w.ctx.txbuf.cells.length) :
    Inside w ((respondComEventCounter residue fc >>= conclude).run w) := by
  rw [respondComEventCounter_run]
  refine inside_callback _ _ _ fun f _ => inside_accepted trivial fun _ => ?_
  exact reply_inside _ _ _ (by omega) (by simp) ht

theorem comEventLog_inside (ht : 256 ≤ w.ctx.txbuf.cells.length) :
    Inside w ((respondComEventLog residue fc >>= conclude).run w) := by
  rw [respondComEventLog_run]
  refine inside_callback _ _ _ fun f _ => inside_accepted trivial fun _ => ?_
  exact reply_inside _ _ _ (by omega) (by simp) ht

/-- The run is defined for every count, but beyond 264 coils the callback asks for
more than the array has. -/
theorem writeMultipleCoils_inside (ht : 256 ≤ w.ctx.txbuf.cells.length) :
    Inside w ((respondWriteMultipleCoils fc >>= conclude).run w) ↔
      (w.ctx.callbacks.writeMultipleCoilsCb.isSome → w.ctx.request.slaveCount.toNat ≤ 264) := by
  rw [respondWriteMultipleCoils_run fc w _ _ rfl rfl]
  refine inside_callback_iff _ _ _ fun cb => ?_
  have hcovered : Covered (.writeMultipleCoils w.ctx.request.slaveAddr w.ctx.request.slaveCount
      (w.ctx.request.slaveCoilData.toList.take (coilBytes w.ctx.request.slaveCount))) ↔
      w.ctx.request.slaveCount.toNat ≤ 264 := by
    have hover := overrun_coils w.ctx.request.slaveCount
    rw [Covered, List.length_take, List.Vector.toList_length]
    omega
  rw [← hcovered]
  dsimp only
  generalize hr : cb _ _ _ w.app = r
  have hrest : Inside (w.called (.writeMultipleCoils w.ctx.request.slaveAddr
      w.ctx.request.slaveCount (w.ctx.request.slaveCoilData.toList.take
      (coilBytes w.ctx.request.slaveCount))) r.1 r.2) (if r.1 ≠ 0 then some (paErrCallback, _) else
      (reply ([fc] ++ put16 w.ctx.request.slaveAddr ++ put16 w.ctx.request.slaveCount) 5).run _) :=
    inside_refused _ _ _ fun _ => reply_inside _ _ _ (by omega) (by simp) ht
  refine ⟨fun h => ?_, fun h => hrest.after (coveredSince_called _ _ _ _ h)⟩
  -- both say which invocations the one run has made
  obtain ⟨ret, w', hrun, made, hmade, hc⟩ := h
  obtain ⟨ret', w'', hrun', made', hmade', -⟩ := hrest
  obtain ⟨-, rfl⟩ := Prod.mk.inj (Option.some.inj (hrun.symm.trans hrun'))
  change w'.calls = w.calls ++ [_] ++ made' at hmade'
  rw [List.append_assoc] at hmade'
  refine hc (_, r.1) ?_
  rw [List.append_cancel_left (hmade.symm.trans hmade')]
  exact List.mem_cons_self

theorem writeMultipleRegisters_inside (ht : 256 ≤ w.ctx.txbuf.cells.length)
    (hc : w.ctx.request.slaveCount.toNat ≤ 123) :
    Inside w ((respondWriteMultipleRegisters fc >>= conclude).run w) := by
  rw [respondWriteMultipleRegisters_run fc w _ _ rfl rfl]
  refine inside_callback _ _ _ fun cb _ => inside_accepted ?_ fun _ => ?_
  · rw [Covered, List.length_take, List.Vector.toList_length]
    omega
  · exact reply_inside _ _ _ (by omega) (by simp) ht

theorem reportServerId_inside (ht : 256 ≤ w.ctx.txbuf.cells.length) :
    Inside w ((respondReportServerId residue fc >>= conclude).run w) := by
  rw [respondReportServerId_run]
  refine inside_callback _ _ _ fun f _ => inside_accepted trivial fun _ => ?_
  exact reply_inside _ _ _ (by omega) (by simp; omega) ht

theorem readFileRecord_inside (ht : 256 ≤ w.ctx.txbuf.cells.length)
    (hc : w.ctx.request.slaveRegCount.toNat ≤ 127) :
    Inside w ((respondReadFileRecord residue fc >>= conclude).run w) := by
  obtain ⟨left, hrun⟩ := respondReadFileRecord_run residue fc w (by omega)
  rw [hrun]
  refine inside_callback _ _ _ fun cb _ => ?_
  dsimp only
  rw [if_neg (by omega)]
  have hserved := readRecords_covered cb w.ctx.request.slaveRegData.toList
    (w.ctx.request.slaveRegCount.toNat * 2) w.ctx.txbuf.cells.length
    (w.ctx.request.slaveRegCount.toNat * 2 + 1) 0 2 w
  have hctx := readRecords_ctx cb w.ctx.request.slaveRegData.toList
    (w.ctx.request.slaveRegCount.toNat * 2) w.ctx.txbuf.cells.length
    (w.ctx.request.slaveRegCount.toNat * 2 + 1) 0 2 w
  have hfits := readRecords_fits cb w.ctx.request.slaveRegData.toList
    (w.ctx.request.slaveRegCount.toNat * 2) w.ctx.txbuf.cells.length
    (w.ctx.request.slaveRegCount.toNat * 2 + 1) 0 2 w (by omega)
  generalize readRecords cb w.ctx.request.slaveRegData.toList
    (w.ctx.request.slaveRegCount.toNat * 2) w.ctx.txbuf.cells.length
    (w.ctx.request.slaveRegCount.toNat * 2 + 1) 0 2 w = served at hserved hctx hfits ⊢
  split
  · exact ⟨_, _, rfl, hserved⟩
  · have hb := UInt8.toNat_lt (UInt8.ofNat served.bytes.length)
    refine (reply_inside_iff _ _ hserved (by omega)).mpr ?_
    rw [hctx]
    simp
    omega

theorem writeFileRecord_inside (ht : 256 ≤ w.ctx.txbuf.cells.length)
    (hc : w.ctx.request.slaveRegCount.toNat ≤ 127) :
    Inside w ((respondWriteFileRecord residue fc >>= conclude).run w) := by
  rw [respondWriteFileRecord_run residue fc w (by omega)]
  refine inside_callback _ _ _ fun cb _ => ?_
  have hb := UInt8.toNat_lt (UInt8.ofNat (w.ctx.request.slaveRegCount.toNat * 2))
  refine Inside.after (writeRecords_covered residue cb _ _ _ 0 w)
    (inside_refused _ _ _ fun _ => ?_)
  exact reply_inside _ _ _ (by omega) (by simp; omega) (by rw [writeRecords_ctx]; exact ht)

theorem maskWriteRegister_inside (ht : 256 ≤ w.ctx.txbuf.cells.length) :
    Inside w ((respondMaskWriteRegister residue fc >>= conclude).run w) := by
  obtain ⟨andMask, orMask, hm⟩ :=
    List.length_eq_two.mp (List.length_take_of_le (i := 2) (l := w.ctx.request.slaveRegData.toList)
      (by simp))
  have hreply (w' : World σ) (hctx : w'.ctx = w.ctx) :
      Inside w' ((maskReply fc w.ctx.request.slaveAddr andMask orMask).run w') :=
    reply_inside _ _ _ (by omega) (by simp) (by rw [hctx]; exact ht)
  rw [respondMaskWriteRegister_run residue fc w _ andMask orMask rfl hm]
  refine inside_callback _ _ _ fun cb _ => ?_
  cases w.ctx.callbacks.readHoldingRegistersCb with
  | none => exact hreply w rfl
  | some f =>
    dsimp only
    have hread := coveredSince_called w (.readHoldingRegisters w.ctx.request.slaveAddr 1)
      (f w.ctx.request.slaveAddr 1 w.app).1 (f w.ctx.request.slaveAddr 1 w.app).2.2 trivial
    split
    · exact Inside.after hread (hreply _ rfl)
    · exact Inside.after hread (inside_accepted trivial fun _ => hreply _ rfl)

theorem readWriteRegisters_inside (writeAddr writeCount : UInt16)
    (ht : 256 ≤ w.ctx.txbuf.cells.length) (hc : w.ctx.request.slaveCount.toNat ≤ 125)
    (hw : writeCount.toNat ≤ 121) (hd : w.ctx.request.slaveCoilData.toList.take 4 =
      [hiByte writeAddr, loByte writeAddr, hiByte writeCount, loByte writeCount]) :
    Inside w ((respondReadWriteRegisters residue fc >>= conclude).run w) := by
  rw [respondReadWriteRegisters_run residue fc w _ _ writeAddr writeCount rfl rfl hd]
  refine inside_callback _ _ _ fun rcb _ => inside_callback _ _ _ fun wcb _ => ?_
  refine inside_accepted ?_ fun _ => ?_
  · rw [Covered, List.length_take, List.Vector.toList_length]
    omega
  · rw [if_neg (by omega)]
    refine inside_accepted trivial fun _ => ?_
    exact reply_inside _ _ _ (by omega) (by simp; omega) ht

theorem readFifoQueue_inside :
    Inside w ((respondReadFifoQueue residue fc >>= conclude).run w) ↔
      ∀ cb, w.ctx.callbacks.readHoldingRegistersCb = some cb →
        (cb w.ctx.request.slaveAddr 128 w.app).1 = 0 →
        5 + 2 * min ((cb w.ctx.request.slaveAddr 128 w.app).2.1.toList.headD 0).toNat 127 ≤
          w.ctx.txbuf.cells.length := by
  rw [respondReadFifoQueue_run residue fc w _ rfl]
  cases w.ctx.callbacks.readHoldingRegistersCb with
  | none =>
    exact iff_of_true ⟨_, w, rfl, coveredSince_refl w⟩ fun cb hcb => by simp at hcb
  | some f =>
    simp only [Option.some.injEq, forall_eq', withCallback]
    generalize f w.ctx.request.slaveAddr 128 w.app = r
    have hcall := coveredSince_called w (.readHoldingRegisters w.ctx.request.slaveAddr 128) r.1
      r.2.2 trivial
    by_cases hr : r.1 = 0
    · rw [if_neg (not_not.mpr hr), reply_inside_iff _ _ hcall (by omega)]
      simp [hr]
      omega
    · rw [if_pos hr]
      exact iff_of_true ⟨_, _, rfl, hcall⟩ fun h => absurd h hr

/-- With the recommended transmit buffer, exactly the requests and callback
contents that stay inside are answered without leaving an array or a buffer. -/
theorem respond_in_bounds_iff (residue : Residue) (ctx : PaModbus σ) (data : Bytes) (w : World σ)
    (hfeed : (paModbusSlaveFeed data).run ctx = some (paOk, w.ctx))
    (ht : 256 ≤ w.ctx.txbuf.cells.length) :
    Inside w ((paModbusSlaveRespond residue).run w) ↔ StaysInside w := by
  obtain ⟨p, n, -, hparse⟩ := slaveFeed_accepted ctx w.ctx data hfeed
  obtain ⟨-, fc, -, -, r, hr, hctx⟩ := (parseSlaveRequest_accepts _ _ _ _).mp hparse
  have hfc : w.ctx.lastFunction = fc := by rw [hctx]
  have hwf : WellFormed fc w.ctx.request := by
    rw [hctx]
    exact accepted_wellFormed fc _ _ _ r hr
  rw [StaysInside, respond_run, hfc]
  unfold WellFormed at hwf
  split at hwf
  case h_1 => exact readBits_inside 0x01 w _ .readCoils (fun _ _ => trivial) ht
  case h_2 => exact readBits_inside 0x02 w _ .readDiscreteInputs (fun _ _ => trivial) ht
  case h_3 => exact iff_of_true (readRegisters_inside residue 0x03 w _ .readHoldingRegisters
    (fun _ _ => trivial) ht hwf.2) trivial
  case h_4 => exact iff_of_true (readRegisters_inside residue 0x04 w _ .readInputRegisters
    (fun _ _ => trivial) ht hwf.2) trivial
  case h_5 => exact iff_of_true (writeSingleCoil_inside 0x05 w ht) trivial
  case h_6 => exact iff_of_true (writeSingleRegister_inside 0x06 w ht) trivial
  case h_7 => exact iff_of_true (exceptionStatus_inside residue 0x07 w ht) trivial
  case h_8 => exact iff_of_true (diagnostic_inside 0x08 w ht) trivial
  case h_9 => exact iff_of_true (comEventCounter_inside residue 0x0B w ht) trivial
  case h_10 => exact iff_of_true (comEventLog_inside residue 0x0C w ht) trivial
  case h_11 => exact iff_of_true (reportServerId_inside residue 0x11 w ht) trivial
  case h_12 => exact iff_of_true (maskWriteRegister_inside residue 0x16 w ht) trivial
  case h_13 => exact readFifoQueue_inside residue 0x18 w
  case h_14 => exact writeMultipleCoils_inside 0x0F w ht
  case h_15 => exact iff_of_true (writeMultipleRegisters_inside 0x10 w ht hwf.2) trivial
  case h_16 => exact iff_of_true (readFileRecord_inside residue 0x14 w ht hwf) trivial
  case h_17 => exact iff_of_true (writeFileRecord_inside residue 0x15 w ht hwf) trivial
  case h_18 =>
    obtain ⟨hc, writeAddr, writeCount, hw, hd⟩ := hwf
    exact iff_of_true
      (readWriteRegisters_inside residue 0x17 w writeAddr writeCount ht hc.2 hw hd) trivial
  case h_19 => exact absurd hwf not_false

def readZeros : ReadCoilsFn Unit :=
  fun _ count app => (0, List.Vector.replicate (coilBytes count) 0, app)

def coilServer : PaModbus Unit :=
  paModbusSetReadCoilsCb (some readZeros) (station .rtu 1 256 64)

theorem coilServer_size : coilServer.txbuf.cells.length = 256 := List.length_replicate

def readCoilsFrame (count : UInt16) : Bytes := rtuFrame 1 ([0x01, 0, 0] ++ put16 count)

/-- Its state after a request for `count` coils. -/
def coilRequest (count : UInt16) : World Unit :=
  ⟨{ coilServer with
      lastFunction := 0x01, request := { coilServer.request with slaveCount := count } }, (), 0, []⟩

theorem eight_coils_answered :
    Inside (coilRequest 8) ((paModbusSlaveRespond (fun _ _ => 0)).run (coilRequest 8)) :=
  (respond_in_bounds_iff (fun _ _ => 0) coilServer (readCoilsFrame 8) (coilRequest 8) rfl
    coilServer_size.ge).mpr fun _ => by decide

/-- The 34 bytes of 265 coils do not fit the 33 of the local array. -/
theorem many_coils_overrun :
    (paModbusSlaveFeed (readCoilsFrame 265)).run coilServer = some (paOk, (coilRequest 265).ctx) ∧
      256 ≤ coilServer.txbuf.cells.length ∧
      (paModbusSlaveRespond (fun _ _ => 0)).run (coilRequest 265) = none :=
  ⟨rfl, coilServer_size.ge, rfl⟩

end Pamodbus.InBounds
