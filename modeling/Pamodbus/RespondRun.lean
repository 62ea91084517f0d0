import Pamodbus.Respond

namespace Pamodbus.RespondRun

open Pamodbus.Lib.Cells Pamodbus.Lib.CInt Pamodbus.Lib.Procedure Pamodbus.Lib.Words
open Pamodbus.Context Pamodbus.FramerRtu Pamodbus.Framer Pamodbus.Builders Pamodbus.Respond

variable {σ α : Type} {n : Nat}

/-- The bytes stored and the length of the PDU they start with. -/
def reply (bytes : Bytes) (pduLen : Nat) : Proc (World σ) Int := do
  emit bytes
  finish pduLen

def conclude : Except Int Nat → Proc (World σ) Int
  | .error ret => pure ret
  | .ok pduLen => finish pduLen

theorem respond_run (residue : Residue) (w : World σ) :
    (paModbusSlaveRespond residue).run w =
      (respondPdu residue w.ctx.callbacks w.ctx.lastFunction >>= conclude).run w := by
  rw [paModbusSlaveRespond, get_bind_run]
  rfl

theorem emit_conclude (bytes : Bytes) (pduLen : Nat) :
    ((emit bytes >>= fun _ => pure (.ok pduLen)) >>= conclude : Proc (World σ) Int) =
      reply bytes pduLen := by
  rw [bind_assoc]
  rfl

theorem finish_some (n : Nat) (w : World σ) (hn : n + 7 < 2 ^ 31) :
    ∃ ret w', (finish n).run w = some (ret, w') ∧ w'.calls = w.calls := by
  by_cases h : n + overhead w.ctx.framerType ≤ w.ctx.txbuf.cells.length
  · exact ⟨_, _, finish_fits n w hn h, rfl⟩
  · exact ⟨_, _, finish_full n w hn (by omega), rfl⟩

theorem respondError_run (code : UInt8) (w : World σ) :
    (paModbusSlaveRespondError code).run w =
      (reply [w.ctx.lastFunction ||| 0x80, code] 2).run w := by
  rw [paModbusSlaveRespondError, get_bind_run, txStore_front, ← bind_assoc,
    emit_txStore [w.ctx.lastFunction ||| 0x80] [code] 1 rfl]
  rfl

theorem reply_isSome (bytes : Bytes) (n : Nat) (w : World σ) (hn : n + 7 < 2 ^ 31) :
    ((reply bytes n).run w).isSome ↔ bytes.length ≤ w.ctx.txbuf.cells.length := by
  rw [reply]
  by_cases h : bytes.length ≤ w.ctx.txbuf.cells.length
  · obtain ⟨ret, w', hrun, -⟩ := finish_some n (w.withTx (w.ctx.txbuf.patch bytes)) hn
    rw [bind_defined _ _ _ _ _ (emit_run bytes w h), hrun]
    simpa using h
  · rw [bind_undefined _ _ _ (emit_overrun bytes w (by omega))]
    simpa using h

theorem reply_calls (bytes : Bytes) (n : Nat) (w w' : World σ) (ret : Int) (hn : n + 7 < 2 ^ 31)
    (h : (reply bytes n).run w = some (ret, w')) : w'.calls = w.calls := by
  obtain ⟨⟨⟩, w₁, hemit, hfinish⟩ := bind_inv _ _ _ _ _ h
  obtain ⟨ret', w₂, hrun, hcalls⟩ := finish_some n w₁ hn
  rw [hrun, Option.some.injEq, Prod.mk.injEq] at hfinish
  rw [← hfinish.2, hcalls]
  by_cases hl : bytes.length ≤ w.ctx.txbuf.cells.length
  · rw [emit_run bytes w hl, Option.some.injEq, Prod.mk.injEq] at hemit
    rw [← hemit.2]
    rfl
  · rw [emit_overrun bytes w (by omega)] at hemit
    cases hemit

theorem reply_sent (bytes : Bytes) (n : Nat) (w w' : World σ) (ret : Int)
    (hf : w.ctx.framerType = .rtu) (hn : n + 7 < 2 ^ 31) (hb : n ≤ bytes.length)
    (h : (reply bytes n).run w = some (ret, w')) (hret : 0 < ret) :
    sent w' = rtuFrame w.ctx.slave (bytes.take n) := by
  have ho : overhead w.ctx.framerType = 3 := by rw [hf, overhead]
  have hl : bytes.length ≤ w.ctx.txbuf.cells.length := by
    rw [← reply_isSome bytes n w hn, h]
    rfl
  by_cases hfit : n + 3 ≤ w.ctx.txbuf.cells.length
  · rw [reply, emit_finish bytes n w hn hb hl (by rw [ho]; exact hfit), Option.some.injEq,
      Prod.mk.injEq] at h
    have hframe : frame w (bytes.take n) = rtuFrame w.ctx.slave (bytes.take n) := by rw [frame, hf]
    rw [← h.2, hframe, sent_framed]
    rw [World.withTx_txbuf, Buffer.patch_cells, overlay_length, rtuFrame_length,
      List.length_take_of_le hb]
    exact hfit
  · rw [reply, bind_defined _ _ _ _ _ (emit_run bytes w hl), finish_full n _ hn (by
      rw [World.withTx_txbuf, World.withTx_framerType, Buffer.patch_cells, overlay_length, ho]
      omega), Option.some.injEq, Prod.mk.injEq] at h
    rw [← h.1] at hret
    exact absurd hret (by decide)

def withCallback {β : Type} (cb : Option β) (w : World σ) (f : β → Option (Int × World σ)) :
    Option (Int × World σ) :=
  match cb with
  | none => some (paErrState, w)
  | some cb => f cb

theorem refuse_run (c : Prop) [Decidable c] (ret : Int) (p : Proc (World σ) (Except Int Nat))
    (w : World σ) :
    ((if c then pure (.error ret) else p) >>= conclude).run w =
      if c then some (ret, w) else (p >>= conclude).run w := by
  by_cases h : c
  · rw [if_pos h, if_pos h, pure_bind]
    rfl
  · rw [if_neg h, if_neg h]

theorem readBits_bind_run (call : Call) (f : ReadCoilsFn σ) (addr count : UInt16)
    (arr : List.Vector UInt8 n) (k : Int × List.Vector UInt8 n → Proc (World σ) α) (w : World σ) :
    (readBits call f addr count arr >>= k).run w =
      if n < coilBytes count then none
      else (k ((f addr count w.app).1, patch arr (f addr count w.app).2.1.toList)).run
        (w.called call (f addr count w.app).1 (f addr count w.app).2.2) := by
  rw [readBits, bind_assoc, get_bind_run]
  dsimp only
  rw [bind_assoc, modify_bind_run]
  by_cases h : n < coilBytes count
  · rw [if_pos h, put_none _ _ _ (by simpa using h)]
    rfl
  · rw [if_neg h, put_front _ _ (by simp; omega)]
    rfl

theorem readRegisters_bind_run (call : Call) (f : ReadRegistersFn σ) (addr count : UInt16)
    (arr : List.Vector UInt16 n) (k : Int × List.Vector UInt16 n → Proc (World σ) α)
    (w : World σ) :
    (readRegisters call f addr count arr >>= k).run w =
      if n < count.toNat then none
      else (k ((f addr count w.app).1, patch arr (f addr count w.app).2.1.toList)).run
        (w.called call (f addr count w.app).1 (f addr count w.app).2.2) := by
  rw [readRegisters, bind_assoc, get_bind_run]
  dsimp only
  rw [bind_assoc, modify_bind_run]
  by_cases h : n < count.toNat
  · rw [if_pos h, put_none _ _ _ (by simpa using h)]
    rfl
  · rw [if_neg h, put_front _ _ (by simp; omega)]
    rfl

theorem respondReadBits_run (fc : UInt8) (cb : Option (ReadCoilsFn σ))
    (call : UInt16 → UInt16 → Call) (w : World σ) (addr count : UInt16)
    (ha : w.ctx.request.slaveAddr = addr) (hc : w.ctx.request.slaveCount = count) :
    (respondReadBits fc cb call >>= conclude).run w =
      withCallback cb w fun cb =>
        if 33 < coilBytes count then none
        else
          let r := cb addr count w.app
          let w' := w.called (call addr count) r.1 r.2.2
          if r.1 ≠ 0 then some (paErrCallback, w')
          else (reply ([fc] ++ [UInt8.ofNat (coilBytes count)] ++ r.2.1.toList)
            (2 + coilBytes count)).run w' := by
  subst ha hc
  rw [respondReadBits, bind_assoc, get_bind_run]
  cases cb with
  | none => rfl
  | some f =>
    dsimp only [withCallback]
    rw [bind_assoc, readBits_bind_run, refuse_run]
    dsimp only
    refine if_ctx_congr Iff.rfl (fun _ => rfl) fun h =>
      if_ctx_congr Iff.rfl (fun _ => rfl) fun _ => ?_
    generalize f w.ctx.request.slaveAddr w.ctx.request.slaveCount w.app = r
    have hd : block (patch (List.Vector.replicate 33 (0 : UInt8)) r.2.1.toList).toList 0
        ((w.ctx.request.slaveCount.toNat + 7) / 8) = some r.2.1.toList := by
      rw [← coilBytes]
      exact block_patch _ _ _ (by simp) (by omega)
    rw [hd, access_some, pure_bind, txStore_front, emit_txStore_bind _ _ _ (by simp),
      emit_txStore_bind _ _ _ (by simp), emit_conclude]
    rfl

theorem respondReadRegisters_run (residue : Residue) (fc : UInt8)
    (cb : Option (ReadRegistersFn σ)) (call : UInt16 → UInt16 → Call) (w : World σ)
    (addr count : UInt16) (ha : w.ctx.request.slaveAddr = addr)
    (hc : w.ctx.request.slaveCount = count) :
    (respondReadRegisters residue fc cb call >>= conclude).run w =
      withCallback cb w fun cb =>
        if 128 < count.toNat then none
        else
          let r := cb addr count w.app
          let w' := w.called (call addr count) r.1 r.2.2
          if r.1 ≠ 0 then some (paErrCallback, w')
          else (reply ([fc] ++ [UInt8.ofNat (count.toNat * 2)] ++ registerBytes r.2.1.toList)
            (2 + count.toNat * 2)).run w' := by
  subst ha hc
  rw [respondReadRegisters, bind_assoc, get_bind_run]
  cases cb with
  | none => rfl
  | some f =>
    dsimp only [withCallback]
    rw [bind_assoc, readRegisters_bind_run, refuse_run]
    dsimp only
    refine if_ctx_congr Iff.rfl (fun _ => rfl) fun h =>
      if_ctx_congr Iff.rfl (fun _ => rfl) fun _ => ?_
    generalize f w.ctx.request.slaveAddr w.ctx.request.slaveCount w.app = r
    rw [txStore_front, emit_txStore_bind _ _ _ (by simp),
      emit_putRegisters_bind _ _ _ _ (by simp) (by simp; omega), emit_conclude,
      patch_take _ _ _ (by simp) (by omega)]

theorem writeCoils_bind_run (cb : WriteMultipleCoilsFn σ) (addr count : UInt16) (data : Bytes)
    (k : Int → Proc (World σ) α) (w : World σ) :
    (writeCoils cb addr count data >>= k).run w =
      let values := data.take (coilBytes count)
      let r := cb addr count values w.app
      (k r.1).run (w.called (.writeMultipleCoils addr count values) r.1 r.2) := by
  rw [writeCoils, bind_assoc, get_bind_run]
  dsimp only
  rw [bind_assoc, modify_bind_run, pure_bind]

theorem writeRegisters_bind_run (cb : WriteMultipleRegistersFn σ) (addr count : UInt16)
    (data : List UInt16) (k : Int → Proc (World σ) α) (w : World σ) :
    (writeRegisters cb addr count data >>= k).run w =
      let values := data.take count.toNat
      let r := cb addr count values w.app
      (k r.1).run (w.called (.writeMultipleRegisters addr count values) r.1 r.2) := by
  rw [writeRegisters, bind_assoc, get_bind_run]
  dsimp only
  rw [bind_assoc, modify_bind_run, pure_bind]

theorem respondWriteSingleCoil_run (fc : UInt8) (w : World σ) (addr : UInt16) (value : UInt8)
    (ha : w.ctx.request.slaveAddr = addr) (hv : w.ctx.request.slaveCoilData.toList[0]? = some value) :
    (respondWriteSingleCoil fc >>= conclude).run w =
      withCallback w.ctx.callbacks.writeSingleCoilCb w fun cb =>
        let r := cb addr value w.app
        let w' := w.called (.writeSingleCoil addr value) r.1 r.2
        if r.1 ≠ 0 then some (paErrCallback, w')
        else (reply ([fc] ++ put16 addr ++ put16 (if value ≠ 0 then 0xFF00 else 0)) 5).run w' := by
  subst ha
  rw [respondWriteSingleCoil, bind_assoc, get_bind_run]
  dsimp only
  cases w.ctx.callbacks.writeSingleCoilCb with
  | none => rfl
  | some cb =>
    dsimp only [withCallback]
    rw [hv, access_some, pure_bind, writeCoil, bind_assoc, bind_assoc, get_bind_run]
    dsimp only
    rw [bind_assoc, modify_bind_run, pure_bind, refuse_run, txStore_front,
      emit_txStore_bind _ _ _ (by simp), emit_txStore_bind _ _ _ (by simp), emit_conclude]

theorem respondWriteSingleRegister_run (fc : UInt8) (w : World σ) (addr value : UInt16)
    (ha : w.ctx.request.slaveAddr = addr) (hv : w.ctx.request.slaveRegData.toList[0]? = some value) :
    (respondWriteSingleRegister fc >>= conclude).run w =
      withCallback w.ctx.callbacks.writeSingleRegisterCb w fun cb =>
        let r := cb addr value w.app
        let w' := w.called (.writeSingleRegister addr value) r.1 r.2
        if r.1 ≠ 0 then some (paErrCallback, w')
        else (reply ([fc] ++ put16 addr ++ put16 value) 5).run w' := by
  subst ha
  rw [respondWriteSingleRegister, bind_assoc, get_bind_run]
  dsimp only
  cases w.ctx.callbacks.writeSingleRegisterCb with
  | none => rfl
  | some cb =>
    dsimp only [withCallback]
    rw [hv, access_some, pure_bind, writeRegister, bind_assoc, bind_assoc, get_bind_run]
    dsimp only
    rw [bind_assoc, modify_bind_run, pure_bind, refuse_run, txStore_front,
      emit_txStore_bind _ _ _ (by simp), emit_txStore_bind _ _ _ (by simp), emit_conclude]

theorem respondExceptionStatus_run (residue : Residue) (fc : UInt8) (w : World σ) :
    (respondExceptionStatus residue fc >>= conclude).run w =
      withCallback w.ctx.callbacks.readCoilsCb w fun f =>
        let r := f 0 8 w.app
        let w' := w.called (.readCoils 0 8) r.1 r.2.2
        if r.1 ≠ 0 then some (paErrCallback, w')
        else (reply ([fc] ++ r.2.1.toList) 2).run w' := by
  rw [respondExceptionStatus, bind_assoc, get_bind_run]
  cases w.ctx.callbacks.readCoilsCb with
  | none => rfl
  | some f =>
    dsimp only [withCallback]
    generalize (⟨[(residue 0 0).toUInt8], rfl⟩ : List.Vector UInt8 1) = status₀
    change List.Vector UInt8 1 at status₀
    rw [bind_assoc, readBits_bind_run, refuse_run, if_neg (by decide)]
    dsimp only
    refine if_ctx_congr Iff.rfl (fun _ => rfl) fun _ => ?_
    obtain ⟨status, hs⟩ := List.length_eq_one_iff.mp (f 0 8 w.app).2.1.toList_length
    rw [patch_getElem? _ _ _ (by simp [hs]) (by simp [hs]), hs, List.getElem?_cons_zero, access_some,
      pure_bind, txStore_front, emit_txStore_bind _ _ _ (by simp), emit_conclude]

theorem respondDiagnostic_run (fc : UInt8) (w : World σ) (addr value : UInt16)
    (ha : w.ctx.request.slaveAddr = addr) (hv : w.ctx.request.slaveRegData.toList[0]? = some value) :
    (respondDiagnostic fc >>= conclude).run w =
      (reply ([fc] ++ put16 addr ++ put16 value) 5).run w := by
  subst ha
  rw [respondDiagnostic, bind_assoc, get_bind_run]
  dsimp only
  rw [hv, access_some, pure_bind, txStore_front,
    emit_txStore_bind _ _ _ (by simp), emit_txStore_bind _ _ _ (by simp), emit_conclude]

theorem respondComEventCounter_run (residue : Residue) (fc : UInt8) (w : World σ) :
    (respondComEventCounter residue fc >>= conclude).run w =
      withCallback w.ctx.callbacks.readHoldingRegistersCb w fun f =>
        let r := f 0xFFFE 2 w.app
        let w' := w.called (.readHoldingRegisters 0xFFFE 2) r.1 r.2.2
        if r.1 ≠ 0 then some (paErrCallback, w')
        else (reply ([fc] ++ registerBytes r.2.1.toList) 5).run w' := by
  rw [respondComEventCounter, bind_assoc, get_bind_run]
  cases w.ctx.callbacks.readHoldingRegistersCb with
  | none => rfl
  | some f =>
    dsimp only [withCallback]
    rw [bind_assoc, readRegisters_bind_run, refuse_run, if_neg (by decide)]
    dsimp only
    refine if_ctx_congr Iff.rfl (fun _ => rfl) fun _ => ?_
    rw [txStore_front, emit_putRegisters_bind _ _ _ _ (by simp) (by simp), emit_conclude,
      patch_take _ _ _ (by simp) (by simp)]

theorem respondComEventLog_run (residue : Residue) (fc : UInt8) (w : World σ) :
    (respondComEventLog residue fc >>= conclude).run w =
      withCallback w.ctx.callbacks.readHoldingRegistersCb w fun f =>
        let r := f 0xFFFC 5 w.app
        let w' := w.called (.readHoldingRegisters 0xFFFC 5) r.1 r.2.2
        if r.1 ≠ 0 then some (paErrCallback, w')
        else (reply ([fc] ++ [10] ++ registerBytes r.2.1.toList) 12).run w' := by
  rw [respondComEventLog, bind_assoc, get_bind_run]
  cases w.ctx.callbacks.readHoldingRegistersCb with
  | none => rfl
  | some f =>
    dsimp only [withCallback]
    rw [bind_assoc, readRegisters_bind_run, refuse_run, if_neg (by decide)]
    dsimp only
    refine if_ctx_congr Iff.rfl (fun _ => rfl) fun _ => ?_
    rw [txStore_front, emit_txStore_bind _ _ _ (by simp),
      emit_putRegisters_bind _ _ _ _ (by simp) (by simp), emit_conclude,
      patch_take _ _ _ (by simp) (by simp)]

theorem respondWriteMultipleCoils_run (fc : UInt8) (w : World σ) (addr count : UInt16)
    (ha : w.ctx.request.slaveAddr = addr) (hc : w.ctx.request.slaveCount = count) :
    (respondWriteMultipleCoils fc >>= conclude).run w =
      withCallback w.ctx.callbacks.writeMultipleCoilsCb w fun cb =>
        let values := w.ctx.request.slaveCoilData.toList.take (coilBytes count)
        let r := cb addr count values w.app
        let w' := w.called (.writeMultipleCoils addr count values) r.1 r.2
        if r.1 ≠ 0 then some (paErrCallback, w')
        else (reply ([fc] ++ put16 addr ++ put16 count) 5).run w' := by
  subst ha hc
  rw [respondWriteMultipleCoils, bind_assoc, get_bind_run]
  dsimp only
  cases w.ctx.callbacks.writeMultipleCoilsCb with
  | none => rfl
  | some cb =>
    dsimp only [withCallback]
    rw [bind_assoc, writeCoils_bind_run, refuse_run, txStore_front,
      emit_txStore_bind _ _ _ (by simp), emit_txStore_bind _ _ _ (by simp), emit_conclude]

theorem respondWriteMultipleRegisters_run (fc : UInt8) (w : World σ) (addr count : UInt16)
    (ha : w.ctx.request.slaveAddr = addr) (hc : w.ctx.request.slaveCount = count) :
    (respondWriteMultipleRegisters fc >>= conclude).run w =
      withCallback w.ctx.callbacks.writeMultipleRegistersCb w fun cb =>
        let values := w.ctx.request.slaveRegData.toList.take count.toNat
        let r := cb addr count values w.app
        let w' := w.called (.writeMultipleRegisters addr count values) r.1 r.2
        if r.1 ≠ 0 then some (paErrCallback, w')
        else (reply ([fc] ++ put16 addr ++ put16 count) 5).run w' := by
  subst ha hc
  rw [respondWriteMultipleRegisters, bind_assoc, get_bind_run]
  dsimp only
  cases w.ctx.callbacks.writeMultipleRegistersCb with
  | none => rfl
  | some cb =>
    dsimp only [withCallback]
    rw [bind_assoc, writeRegisters_bind_run, refuse_run, txStore_front,
      emit_txStore_bind _ _ _ (by simp), emit_txStore_bind _ _ _ (by simp), emit_conclude]

theorem respondReportServerId_run (residue : Residue) (fc : UInt8) (w : World σ) :
    (respondReportServerId residue fc >>= conclude).run w =
      withCallback w.ctx.callbacks.readHoldingRegistersCb w fun f =>
        let r := f 0xFFF0 64 w.app
        let w' := w.called (.readHoldingRegisters 0xFFF0 64) r.1 r.2.2
        let byteCount := min (loByte (r.2.1.toList.headD 0)).toNat 126
        if r.1 ≠ 0 then some (paErrCallback, w')
        else (reply ([fc] ++ [UInt8.ofNat byteCount] ++
          registerBytes ((r.2.1.toList.drop 1).take (min ((byteCount + 1) / 2) 63)))
          (2 + byteCount)).run w' := by
  rw [respondReportServerId, bind_assoc, get_bind_run]
  cases w.ctx.callbacks.readHoldingRegistersCb with
  | none => rfl
  | some f =>
    dsimp only [withCallback]
    rw [bind_assoc, readRegisters_bind_run, refuse_run, if_neg (by decide)]
    dsimp only
    refine if_ctx_congr Iff.rfl (fun _ => rfl) fun _ => ?_
    rw [patch_all _ _ (by simp)]
    obtain ⟨first, rest, hs⟩ : ∃ first rest, (f 0xFFF0 64 w.app).2.1.toList = first :: rest :=
      List.exists_cons_of_length_eq_add_one (n := 63) (by simp)
    have hr : rest.length = 63 := by
      have hl := (f 0xFFF0 64 w.app).2.1.toList_length
      rw [hs] at hl
      simpa using hl
    rw [hs, List.getElem?_cons_zero, access_some, pure_bind, List.drop_one, List.tail_cons,
      List.headD_cons, txStore_front, emit_txStore_bind _ _ _ (by simp),
      emit_putRegisters_bind _ _ _ _ (by simp) (by omega), emit_conclude]

theorem respondReadFifoQueue_run (residue : Residue) (fc : UInt8) (w : World σ) (addr : UInt16)
    (ha : w.ctx.request.slaveAddr = addr) :
    (respondReadFifoQueue residue fc >>= conclude).run w =
      withCallback w.ctx.callbacks.readHoldingRegistersCb w fun f =>
        let r := f addr 128 w.app
        let w' := w.called (.readHoldingRegisters addr 128) r.1 r.2.2
        let fifoCount := min (r.2.1.toList.headD 0).toNat 127
        if r.1 ≠ 0 then some (paErrCallback, w')
        else (reply ([fc] ++ put16 (UInt16.ofNat (fifoCount * 2 + 2)) ++
          put16 (UInt16.ofNat fifoCount) ++ registerBytes ((r.2.1.toList.drop 1).take fifoCount))
          (2 + (fifoCount * 2 + 2))).run w' := by
  subst ha
  rw [respondReadFifoQueue, bind_assoc, get_bind_run]
  dsimp only
  cases w.ctx.callbacks.readHoldingRegistersCb with
  | none => rfl
  | some f =>
    dsimp only [withCallback]
    rw [bind_assoc, readRegisters_bind_run, refuse_run, if_neg (by decide)]
    dsimp only
    refine if_ctx_congr Iff.rfl (fun _ => rfl) fun _ => ?_
    rw [patch_all _ _ (by simp)]
    generalize f w.ctx.request.slaveAddr 128 w.app = r
    obtain ⟨first, rest, hs⟩ : ∃ first rest, r.2.1.toList = first :: rest :=
      List.exists_cons_of_length_eq_add_one (n := 127) (by simp)
    have hr : rest.length = 127 := by
      have hl := r.2.1.toList_length
      rw [hs] at hl
      simpa using hl
    rw [hs, List.getElem?_cons_zero, access_some, pure_bind, List.drop_one, List.tail_cons,
      List.headD_cons, txStore_front, emit_txStore_bind _ _ _ (by simp),
      emit_txStore_bind _ _ _ (by simp), emit_putRegisters_bind _ _ _ _ (by simp) (by omega),
      emit_conclude]

theorem respondReadWriteRegisters_run (residue : Residue) (fc : UInt8) (w : World σ)
    (addr count writeAddr writeCount : UInt16) (ha : w.ctx.request.slaveAddr = addr)
    (hc : w.ctx.request.slaveCount = count)
    (hd : w.ctx.request.slaveCoilData.toList.take 4 =
      [hiByte writeAddr, loByte writeAddr, hiByte writeCount, loByte writeCount]) :
    (respondReadWriteRegisters residue fc >>= conclude).run w =
      withCallback w.ctx.callbacks.readHoldingRegistersCb w fun rcb =>
        withCallback w.ctx.callbacks.writeMultipleRegistersCb w fun wcb =>
          let values := w.ctx.request.slaveRegData.toList.take writeCount.toNat
          let r := wcb writeAddr writeCount values w.app
          let w' := w.called (.writeMultipleRegisters writeAddr writeCount values) r.1 r.2
          if r.1 ≠ 0 then some (paErrCallback, w')
          else if 128 < count.toNat then none
          else
            let r := rcb addr count w'.app
            let w'' := w'.called (.readHoldingRegisters addr count) r.1 r.2.2
            if r.1 ≠ 0 then some (paErrCallback, w'')
            else (reply ([fc] ++ [UInt8.ofNat (count.toNat * 2)] ++ registerBytes r.2.1.toList)
              (2 + count.toNat * 2)).run w'' := by
  subst ha hc
  have hcell (i : Nat) (hi : i < 4) := getElem?_of_take hd hi
  rw [respondReadWriteRegisters, bind_assoc, get_bind_run]
  dsimp only
  cases w.ctx.callbacks.readHoldingRegistersCb with
  | none => rfl
  | some rcb =>
    cases w.ctx.callbacks.writeMultipleRegistersCb with
    | none => rfl
    | some wcb =>
      dsimp only [withCallback]
      rw [hcell 0 (by decide), hcell 1 (by decide), hcell 2 (by decide), hcell 3 (by decide)]
      simp only [List.getElem?_cons_succ, List.getElem?_cons_zero, access_some, pure_bind, word_bytes]
      rw [bind_assoc, writeRegisters_bind_run, refuse_run]
      refine if_ctx_congr Iff.rfl (fun _ => rfl) fun _ => ?_
      rw [bind_assoc, readRegisters_bind_run, refuse_run]
      refine if_ctx_congr Iff.rfl (fun _ => rfl) fun hn =>
        if_ctx_congr Iff.rfl (fun _ => rfl) fun _ => ?_
      dsimp only
      rw [txStore_front, emit_txStore_bind _ _ _ (by simp),
        emit_putRegisters_bind _ _ _ _ (by simp) (by simp; omega), emit_conclude,
        patch_take _ _ _ (by simp) (by omega)]

/-- What Mask Write Register answers, an echo of the request. -/
def maskReply (fc : UInt8) (addr andMask orMask : UInt16) : Proc (World σ) Int :=
  reply ([fc] ++ put16 addr ++ put16 andMask ++ put16 orMask) 7

theorem respondMaskWriteRegister_run (residue : Residue) (fc : UInt8) (w : World σ)
    (addr andMask orMask : UInt16) (ha : w.ctx.request.slaveAddr = addr)
    (hm : w.ctx.request.slaveRegData.toList.take 2 = [andMask, orMask]) :
    (respondMaskWriteRegister residue fc >>= conclude).run w =
      withCallback w.ctx.callbacks.writeSingleRegisterCb w fun cb =>
        match w.ctx.callbacks.readHoldingRegistersCb with
        | none => (maskReply fc addr andMask orMask).run w
        | some f =>
          let r := f addr 1 w.app
          let w' := w.called (.readHoldingRegisters addr 1) r.1 r.2.2
          if r.1 ≠ 0 then (maskReply fc addr andMask orMask).run w'
          else
            let value := (r.2.1.toList.headD 0 &&& andMask) ||| orMask
            let r := cb addr value w'.app
            let w'' := w'.called (.writeSingleRegister addr value) r.1 r.2
            if r.1 ≠ 0 then some (paErrCallback, w'')
            else (maskReply fc addr andMask orMask).run w'' := by
  subst ha
  have hcell (i : Nat) (hi : i < 2) := getElem?_of_take hm hi
  have hstores (w : World σ) (addr : UInt16) : ((do
      txStore 0 [fc]
      txStore 1 (put16 addr)
      txStore 3 (put16 andMask)
      txStore 5 (put16 orMask)
      return .ok 7) >>= conclude).run w = (maskReply fc addr andMask orMask).run w := by
    rw [txStore_front, emit_txStore_bind _ _ _ (by simp), emit_txStore_bind _ _ _ (by simp),
      emit_txStore_bind _ _ _ (by simp), emit_conclude, maskReply]
  rw [respondMaskWriteRegister, bind_assoc, get_bind_run]
  dsimp only
  cases w.ctx.callbacks.writeSingleRegisterCb with
  | none => rfl
  | some cb =>
    dsimp only [withCallback]
    rw [hcell 0 (by decide), hcell 1 (by decide)]
    simp only [List.getElem?_cons_succ, List.getElem?_cons_zero, access_some, pure_bind]
    rw [maskWrite, bind_assoc, bind_assoc, get_bind_run]
    dsimp only
    cases w.ctx.callbacks.readHoldingRegistersCb with
    | none => exact hstores w _
    | some f =>
      dsimp only
      rw [bind_assoc, readRegisters_bind_run, if_neg (by decide)]
      dsimp only
      by_cases h : (f w.ctx.request.slaveAddr 1 w.app).1 ≠ 0
      · rw [if_pos h, if_pos h]
        exact hstores _ _
      · rw [if_neg h, if_neg h, patch_all _ _ (by simp)]
        generalize f w.ctx.request.slaveAddr 1 w.app = r
        obtain ⟨cur, hs⟩ := List.length_eq_one_iff.mp r.2.1.toList_length
        rw [hs, List.getElem?_cons_zero, access_some, pure_bind, List.headD_cons, bind_assoc,
          writeRegister, bind_assoc, get_bind_run]
        dsimp only
        rw [bind_assoc, modify_bind_run, pure_bind]
        by_cases hc : (cb w.ctx.request.slaveAddr (cur &&& andMask ||| orMask)
            (w.called (.readHoldingRegisters w.ctx.request.slaveAddr 1) r.1 r.2.2).app).1 ≠ 0
        · rw [if_pos hc, if_pos hc]
          rfl
        · rw [if_neg hc, if_neg hc]
          exact hstores _ _

end Pamodbus.RespondRun
