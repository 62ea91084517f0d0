import Pamodbus.TwoRuns

namespace Pamodbus.Residues

open Pamodbus.Lib.Cells Pamodbus.Lib.Procedure Pamodbus.Lib.Words
open Pamodbus.Context Pamodbus.Framer Pamodbus.Builders Pamodbus.Respond Pamodbus.RespondRun
open Pamodbus.FileRecords Pamodbus.TwoRuns

variable {σ α : Type} {n : Nat}

/-- Each sub-request of a stored Write File Record request that is served has its
registers in the request. -/
def FileWriteComplete (ctx : PaModbus σ) : Prop :=
  ctx.lastFunction = 0x15 → ctx.callbacks.writeMultipleRegistersCb.isSome →
    RecordsComplete ctx.request.slaveRegData.toList ctx.request.slaveRegCount.toNat
      (ctx.request.slaveRegCount.toNat * 2 + 1) 0

theorem putRegisters_front (off : Nat) {xs ys : List UInt16} {k : Nat}
    (h : xs.take k = ys.take k) :
    (putRegisters off xs k : Proc (World σ) Unit) = putRegisters off ys k := by
  refine loop_congr fun i hi => ?_
  have hcell : xs[i]? = ys[i]? := by
    rw [← List.getElem?_take_of_lt hi, h, List.getElem?_take_of_lt hi]
  rw [hcell]

theorem readRegisters_front (call : Call) (f : ReadRegistersFn σ) (addr count : UInt16)
    (arr₁ arr₂ : List.Vector UInt16 n) {k₁ k₂ : Int × List.Vector UInt16 n → Proc (World σ) α}
    (h : ∀ ret (v₁ v₂ : List.Vector UInt16 n),
      v₁.toList.take count.toNat = v₂.toList.take count.toNat → k₁ (ret, v₁) = k₂ (ret, v₂)) :
    (readRegisters call f addr count arr₁ >>= k₁) =
      (readRegisters call f addr count arr₂ >>= k₂) := by
  funext w
  change (readRegisters call f addr count arr₁ >>= k₁).run w =
    (readRegisters call f addr count arr₂ >>= k₂).run w
  rw [readRegisters_bind_run, readRegisters_bind_run]
  by_cases hn : n < count.toNat
  · rw [if_pos hn, if_pos hn]
  · have hl := (f addr count w.app).2.1.toList_length
    rw [if_neg hn, if_neg hn, h _ _ (patch arr₂ (f addr count w.app).2.1.toList)]
    rw [patch_take _ _ _ hl.symm (by omega), patch_take _ _ _ hl.symm (by omega)]

variable (residue₁ residue₂ : Residue)

theorem readFileRecords_residue (cb : ReadRegistersFn σ) (rounds reqOffset offset : Nat)
    (resp : UInt8) :
    readFileRecords residue₁ cb rounds reqOffset offset resp =
      readFileRecords residue₂ cb rounds reqOffset offset resp := by
  induction rounds generalizing reqOffset offset resp with
  | zero => rfl
  | succ rounds ih =>
    rw [readFileRecords, readFileRecords]
    refine bind_congr fun w => if_ctx_congr Iff.rfl (fun _ => rfl) fun _ =>
      if_ctx_congr Iff.rfl (fun _ => rfl) fun _ => ?_
    refine bind_congr fun refType => bind_congr fun fileNum => bind_congr fun recNum =>
      bind_congr fun recLen => ?_
    dsimp only
    generalize (if 64 < recLen.toNat then (64 : UInt16) else recLen) = len
    refine readRegisters_front _ _ _ _ _ _ fun ret v₁ v₂ hv => ?_
    refine if_ctx_congr Iff.rfl (fun _ => rfl) fun _ =>
      if_ctx_congr Iff.rfl (fun _ => rfl) fun _ => ?_
    rw [putRegisters_front _ hv, ih]

theorem writeFileRecords_residue (cb : WriteMultipleRegistersFn σ) (rounds offset : Nat)
    (w : World σ) (hc : RecordsComplete w.ctx.request.slaveRegData.toList
      w.ctx.request.slaveRegCount.toNat rounds offset) :
    (writeFileRecords residue₁ cb rounds offset).run w =
      (writeFileRecords residue₂ cb rounds offset).run w := by
  induction rounds generalizing offset w with
  | zero => rfl
  | succ rounds ih =>
    rw [writeFileRecords, writeFileRecords, get_bind_run, get_bind_run]
    dsimp only
    by_cases hdone : w.ctx.request.slaveRegCount.toNat * 2 ≤ offset
    · rw [if_pos hdone, if_pos hdone]
    by_cases hl : w.ctx.request.slaveRegCount.toNat * 2 < offset + 7
    · rw [if_neg hdone, if_neg hdone, if_pos hl, if_pos hl]
    rw [if_neg hdone, if_neg hdone, if_neg hl, if_neg hl]
    obtain ⟨hfits, hrest⟩ := hc (by omega)
    refine access_bind_congr fun refType _ => access_bind_congr fun fileNum _ =>
      access_bind_congr fun recNum _ => access_bind_congr fun recLen hlen => ?_
    have hrec : recordLen w.ctx.request.slaveRegData.toList (offset / 2) =
        if 64 < recLen.toNat then 64 else recLen := by rw [recordLen, hlen, Option.getD_some]
    have h64 := recordLen_le w.ctx.request.slaveRegData.toList (offset / 2)
    rw [← hrec, Nat.min_eq_left (by omega)]
    generalize recordLen w.ctx.request.slaveRegData.toList (offset / 2) = len at hfits hrest h64 ⊢
    refine access_bind_congr fun copied hcopied => ?_
    have hcl := block_length hcopied
    have hvalues (residue : Residue) : (patch (uninit 64 (residue offset)) copied).toList.take
        len.toNat = copied := by
      rw [patch_take _ _ _ hcl.symm (by omega)]
    rw [put_front _ _ (by omega), put_front _ _ (by omega), access_some, access_some, pure_bind,
      pure_bind, writeRegisters_bind_run, writeRegisters_bind_run, hvalues, hvalues]
    dsimp only
    generalize cb recNum len copied w.app = r
    by_cases hr : r.1 ≠ 0
    · rw [if_pos hr, if_pos hr]
    · rw [if_neg hr, if_neg hr]
      exact ih _ _ hrest

variable {residue₁ residue₂} (w : World σ)

theorem readFileRecord_residue (fc : UInt8) :
    (respondReadFileRecord residue₁ fc : Proc (World σ) (Except Int Nat)) =
      respondReadFileRecord residue₂ fc := by
  rw [respondReadFileRecord, respondReadFileRecord]
  refine bind_congr fun w => ?_
  dsimp only
  cases w.ctx.callbacks.readHoldingRegistersCb with
  | none => rfl
  | some cb =>
    dsimp only
    rw [readFileRecords_residue residue₁ residue₂]

theorem writeFileRecord_residue (fc : UInt8)
    (hc : w.ctx.callbacks.writeMultipleRegistersCb.isSome →
      RecordsComplete w.ctx.request.slaveRegData.toList w.ctx.request.slaveRegCount.toNat
        (w.ctx.request.slaveRegCount.toNat * 2 + 1) 0) :
    (respondWriteFileRecord residue₁ fc).run w = (respondWriteFileRecord residue₂ fc).run w := by
  rw [respondWriteFileRecord, respondWriteFileRecord, get_bind_run, get_bind_run]
  dsimp only
  cases hcb : w.ctx.callbacks.writeMultipleRegistersCb with
  | none => rfl
  | some cb =>
    dsimp only
    rw [StateT.run_bind, StateT.run_bind,
      writeFileRecords_residue residue₁ residue₂ cb _ 0 w (hc (by rw [hcb]; rfl))]

theorem maskWriteRegister_residue (fc : UInt8) :
    (respondMaskWriteRegister residue₁ fc >>= conclude).run w =
      (respondMaskWriteRegister residue₂ fc >>= conclude).run w := by
  obtain ⟨andMask, orMask, hm⟩ : ∃ a o, w.ctx.request.slaveRegData.toList.take 2 = [a, o] :=
    List.length_eq_two.mp (by simp)
  rw [respondMaskWriteRegister_run residue₁ fc w _ _ _ rfl hm,
    respondMaskWriteRegister_run residue₂ fc w _ _ _ rfl hm]

theorem readWriteRegisters_residue (fc : UInt8) :
    (respondReadWriteRegisters residue₁ fc >>= conclude).run w =
      (respondReadWriteRegisters residue₂ fc >>= conclude).run w := by
  obtain ⟨b₀, b₁, b₂, b₃, hb⟩ : ∃ b₀ b₁ b₂ b₃,
      w.ctx.request.slaveCoilData.toList.take 4 = [b₀, b₁, b₂, b₃] :=
    List.length_eq_four.mp (by simp)
  have hd : w.ctx.request.slaveCoilData.toList.take 4 = [hiByte (word b₀ b₁), loByte (word b₀ b₁),
      hiByte (word b₂ b₃), loByte (word b₂ b₃)] := by
    rw [hiByte_word, loByte_word, hiByte_word, loByte_word, hb]
  rw [respondReadWriteRegisters_run residue₁ fc w _ _ _ _ rfl rfl hd,
    respondReadWriteRegisters_run residue₂ fc w _ _ _ _ rfl rfl hd]

/-- What the memory of the local variables held before does not show in an answer. -/
theorem respond_residue (h : FileWriteComplete w.ctx) :
    (paModbusSlaveRespond residue₁).run w = (paModbusSlaveRespond residue₂).run w := by
  rw [respond_run, respond_run]
  rw [FileWriteComplete] at h
  generalize w.ctx.lastFunction = fc at h ⊢
  unfold respondPdu
  split
  case h_1 | h_2 | h_5 | h_6 | h_8 | h_11 | h_12 => rfl
  case h_3 | h_4 =>
    rw [respondReadRegisters_run residue₁ _ _ _ w _ _ rfl rfl,
      respondReadRegisters_run residue₂ _ _ _ w _ _ rfl rfl]
  case h_7 => rw [respondExceptionStatus_run, respondExceptionStatus_run]
  case h_9 => rw [respondComEventCounter_run, respondComEventCounter_run]
  case h_10 => rw [respondComEventLog_run, respondComEventLog_run]
  case h_13 => rw [respondReportServerId_run, respondReportServerId_run]
  case h_14 => rw [readFileRecord_residue]
  case h_15 =>
    rw [StateT.run_bind, StateT.run_bind, writeFileRecord_residue w 0x15 (h rfl)]
  case h_16 => exact maskWriteRegister_residue w 0x16
  case h_17 => exact readWriteRegisters_residue w 0x17
  case h_18 =>
    rw [respondReadFifoQueue_run residue₁ _ w _ rfl, respondReadFifoQueue_run residue₂ _ w _ rfl]
  case h_19 => rfl

end Pamodbus.Residues
