import Pamodbus.Feed
import Pamodbus.Lib.Hoare

namespace Pamodbus.ParseTotal

open Pamodbus.Lib.Cells Pamodbus.Lib.Procedure Pamodbus.Lib.Hoare
open Pamodbus.Context Pamodbus.FramerRtu Pamodbus.Framer Pamodbus.SlaveParse Pamodbus.Feed

variable {σ : Type} {pdu : Bytes} {n : Nat}

def Verdict (ret : Int) : Prop :=
  ret = paOk ∨ ret = paErrBadParam ∨ ret = paErrException ∨ ret = paErrProtocol

instance (ret : Int) : Decidable (Verdict ret) :=
  inferInstanceAs (Decidable (_ ∨ _ ∨ _ ∨ _))

theorem verdict_ok : Verdict paOk := .inl rfl

theorem Verdict.nonpos {ret : Int} (h : Verdict ret) : ret ≤ 0 := by
  rcases h with rfl | rfl | rfl | rfl <;> decide

theorem Verdict.ne_timeout {ret : Int} (h : Verdict ret) : ret ≠ paErrTimeout := by
  rcases h with rfl | rfl | rfl | rfl <;> decide

theorem sure_coilStore (off : Nat) (xs : Bytes) (h : off + xs.length ≤ 33) :
    Sure (coilStore off xs) fun _ => True :=
  sure_update fun r => by
    rw [Option.isSome_map]
    exact put_isSome r.slaveCoilData off xs h

theorem sure_regStore (off : Nat) (xs : List UInt16) (h : off + xs.length ≤ 128) :
    Sure (regStore off xs) fun _ => True :=
  sure_update fun r => by
    rw [Option.isSome_map]
    exact put_isSome r.slaveRegData off xs h

theorem sure_getRegisters (off k : Nat) (hk : k ≤ 128) (h : off + k * 2 ≤ pdu.length) :
    Sure (getRegisters pdu off k) fun _ => True := by
  apply sure_loop
  intro i hi
  obtain ⟨v, hv⟩ := get16_some pdu (off + i * 2) (by omega)
  exact sure_access_bind v hv (sure_regStore i [v] (by simp; omega))

theorem sure_parseRead (maxCount : Nat) (h : n ≤ pdu.length) :
    Sure (parseRead maxCount pdu n) Verdict := by
  refine sure_guard (by decide) fun hn => ?_
  obtain ⟨addr, ha⟩ := get16_some pdu 1 (by omega)
  obtain ⟨count, hc⟩ := get16_some pdu 3 (by omega)
  refine sure_access_bind addr ha (sure_modify_bind ?_)
  refine sure_access_bind count hc (sure_modify_bind ?_)
  exact sure_guard (by decide) fun _ => sure_pure _ verdict_ok

theorem sure_parseWriteSingleCoil (h : n ≤ pdu.length) :
    Sure (parseWriteSingleCoil pdu n) Verdict := by
  refine sure_guard (by decide) fun hn => ?_
  obtain ⟨addr, ha⟩ := get16_some pdu 1 (by omega)
  obtain ⟨value, hv⟩ := get16_some pdu 3 (by omega)
  refine sure_access_bind addr ha (sure_modify_bind (sure_modify_bind ?_))
  refine sure_access_bind value hv (sure_bind (sure_coilStore 0 _ (by simp)) fun _ _ => ?_)
  exact sure_modify_bind (sure_modify_bind (sure_pure _ verdict_ok))

theorem sure_parseWriteSingleRegister (h : n ≤ pdu.length) :
    Sure (parseWriteSingleRegister pdu n) Verdict := by
  refine sure_guard (by decide) fun hn => ?_
  obtain ⟨addr, ha⟩ := get16_some pdu 1 (by omega)
  obtain ⟨value, hv⟩ := get16_some pdu 3 (by omega)
  refine sure_access_bind addr ha (sure_modify_bind (sure_modify_bind ?_))
  refine sure_access_bind value hv (sure_bind (sure_regStore 0 _ (by simp)) fun _ _ => ?_)
  exact sure_modify_bind (sure_modify_bind (sure_pure _ verdict_ok))

theorem sure_parseBare : Sure (parseBare n) Verdict := by
  refine sure_guard (by decide) fun hn => ?_
  exact sure_modify_bind (sure_modify_bind (sure_pure _ verdict_ok))

theorem sure_parseDiagnostic (h : n ≤ pdu.length) :
    Sure (parseDiagnostic pdu n) Verdict := by
  refine sure_guard (by decide) fun hn => ?_
  obtain ⟨addr, ha⟩ := get16_some pdu 1 (by omega)
  obtain ⟨value, hv⟩ := get16_some pdu 3 (by omega)
  refine sure_access_bind addr ha (sure_modify_bind (sure_modify_bind ?_))
  refine sure_access_bind value hv (sure_bind (sure_regStore 0 _ (by simp)) fun _ _ => ?_)
  exact sure_modify_bind (sure_modify_bind (sure_pure _ verdict_ok))

theorem sure_parseWriteMultipleCoils (h : n ≤ pdu.length) :
    Sure (parseWriteMultipleCoils pdu n) Verdict := by
  refine sure_guard (by decide) fun hn => ?_
  obtain ⟨addr, ha⟩ := get16_some pdu 1 (by omega)
  obtain ⟨count, hc⟩ := get16_some pdu 3 (by omega)
  obtain ⟨bc, hb⟩ := getElem?_some pdu 5 (by omega)
  refine sure_access_bind addr ha (sure_modify_bind ?_)
  refine sure_access_bind count hc (sure_modify_bind (sure_guard (by decide) fun _ => ?_))
  refine sure_access_bind bc hb (sure_guard (by decide) fun hl => ?_)
  refine sure_guard (by decide) fun hm => ?_
  have hd := block_eq pdu 6 bc.toNat (by omega)
  refine sure_access_bind _ hd (sure_bind (sure_coilStore 0 _ ?_) fun _ _ => ?_)
  · rw [block_length hd]
    omega
  · exact sure_modify_bind (sure_modify_bind (sure_pure _ verdict_ok))

theorem sure_parseWriteMultipleRegisters (h : n ≤ pdu.length) :
    Sure (parseWriteMultipleRegisters pdu n) Verdict := by
  refine sure_guard (by decide) fun hn => ?_
  obtain ⟨addr, ha⟩ := get16_some pdu 1 (by omega)
  obtain ⟨count, hc⟩ := get16_some pdu 3 (by omega)
  obtain ⟨bc, hb⟩ := getElem?_some pdu 5 (by omega)
  refine sure_access_bind addr ha (sure_modify_bind ?_)
  refine sure_access_bind count hc (sure_modify_bind (sure_guard (by decide) fun _ => ?_))
  refine sure_access_bind bc hb (sure_guard (by decide) fun hl => ?_)
  refine sure_guard (by decide) fun hm => sure_modify_bind ?_
  refine sure_bind (sure_getRegisters 6 _ (by omega) (by omega)) fun _ _ => ?_
  exact sure_modify_bind (sure_pure _ verdict_ok)

theorem sure_parseFileRecord (h : n ≤ pdu.length) :
    Sure (parseFileRecord pdu n) Verdict := by
  refine sure_guard (by decide) fun hn => ?_
  obtain ⟨bc, hb⟩ := getElem?_some pdu 1 (by omega)
  refine sure_access_bind bc hb (sure_guard (by decide) fun hl => ?_)
  refine sure_modify_bind (sure_modify_bind (sure_guard (by decide) fun hm => ?_))
  refine sure_modify_bind (sure_bind (sure_getRegisters 2 _ (by omega) (by omega)) fun _ _ => ?_)
  exact sure_modify_bind (sure_pure _ verdict_ok)

theorem sure_parseMaskWriteRegister (h : n ≤ pdu.length) :
    Sure (parseMaskWriteRegister pdu n) Verdict := by
  refine sure_guard (by decide) fun hn => ?_
  obtain ⟨addr, ha⟩ := get16_some pdu 1 (by omega)
  obtain ⟨andMask, hm⟩ := get16_some pdu 3 (by omega)
  obtain ⟨orMask, ho⟩ := get16_some pdu 5 (by omega)
  refine sure_access_bind addr ha (sure_modify_bind (sure_modify_bind ?_))
  refine sure_access_bind andMask hm (sure_bind (sure_regStore 0 _ (by simp)) fun _ _ => ?_)
  refine sure_access_bind orMask ho (sure_bind (sure_regStore 1 _ (by simp)) fun _ _ => ?_)
  exact sure_modify_bind (sure_modify_bind (sure_pure _ verdict_ok))

theorem sure_parseReadWriteRegisters (h : n ≤ pdu.length) :
    Sure (parseReadWriteRegisters pdu n) Verdict := by
  refine sure_guard (by decide) fun hn => ?_
  obtain ⟨ra, hra⟩ := get16_some pdu 1 (by omega)
  obtain ⟨rc, hrc⟩ := get16_some pdu 3 (by omega)
  obtain ⟨wa, hwa⟩ := get16_some pdu 5 (by omega)
  obtain ⟨wc, hwc⟩ := get16_some pdu 7 (by omega)
  obtain ⟨bc, hb⟩ := getElem?_some pdu 9 (by omega)
  refine sure_access_bind ra hra (sure_access_bind rc hrc ?_)
  refine sure_access_bind wa hwa (sure_access_bind wc hwc ?_)
  refine sure_guard (by decide) fun _ => sure_guard (by decide) fun _ => ?_
  refine sure_access_bind bc hb (sure_guard (by decide) fun hl => ?_)
  refine sure_modify_bind (sure_modify_bind (sure_guard (by decide) fun hm => ?_))
  refine sure_bind (sure_coilStore 0 _ (by simp)) fun _ _ => ?_
  refine sure_bind (sure_coilStore 1 _ (by simp)) fun _ _ => ?_
  refine sure_bind (sure_coilStore 2 _ (by simp)) fun _ _ => ?_
  refine sure_bind (sure_coilStore 3 _ (by simp)) fun _ _ => sure_modify_bind ?_
  refine sure_bind (sure_getRegisters 10 _ (by omega) (by omega)) fun _ _ => ?_
  exact sure_modify_bind (sure_pure _ verdict_ok)

theorem sure_parseReadFifoQueue (h : n ≤ pdu.length) :
    Sure (parseReadFifoQueue pdu n) Verdict := by
  refine sure_guard (by decide) fun hn => ?_
  obtain ⟨addr, ha⟩ := get16_some pdu 1 (by omega)
  exact sure_access_bind addr ha (sure_modify_bind (sure_modify_bind (sure_pure _ verdict_ok)))

theorem sure_parseRequest (fc : UInt8) (h : n ≤ pdu.length) :
    Sure (parseRequest fc pdu n) Verdict := by
  unfold parseRequest
  split
  case h_1 | h_2 => exact sure_parseRead 2000 h
  case h_3 | h_4 => exact sure_parseRead 125 h
  case h_5 => exact sure_parseWriteSingleCoil h
  case h_6 => exact sure_parseWriteSingleRegister h
  case h_7 | h_8 | h_9 | h_13 => exact sure_parseBare
  case h_10 => exact sure_parseDiagnostic h
  case h_11 => exact sure_parseWriteMultipleCoils h
  case h_12 => exact sure_parseWriteMultipleRegisters h
  case h_14 | h_15 => exact sure_parseFileRecord h
  case h_16 => exact sure_parseMaskWriteRegister h
  case h_17 => exact sure_parseReadWriteRegisters h
  case h_18 => exact sure_parseReadFifoQueue h
  case h_19 => exact sure_pure _ (by decide)

theorem sure_parseSlaveRequest (h : n ≤ pdu.length) :
    Sure (parseSlaveRequest pdu n : Proc (PaModbus σ) Int) Verdict := by
  refine sure_guard (by decide) fun hn => ?_
  obtain ⟨fc, hf⟩ := getElem?_some pdu 0 (by omega)
  refine sure_access_bind fc hf (sure_modify_bind (sure_guard (by decide) fun _ => ?_))
  exact sure_focus _ _ _ (sure_parseRequest fc h)

theorem sure_masterCoilStore (off : Nat) (xs : Bytes) (h : off + xs.length ≤ 33) :
    Sure (MasterParse.coilStore off xs) fun _ => True :=
  sure_update fun r => by
    rw [Option.isSome_map]
    exact put_isSome r.lastCoilData off xs h

theorem sure_masterRegStore (off : Nat) (xs : List UInt16) (h : off + xs.length ≤ 128) :
    Sure (MasterParse.regStore off xs) fun _ => True :=
  sure_update fun r => by
    rw [Option.isSome_map]
    exact put_isSome r.lastRegData off xs h

theorem sure_masterGetRegisters (k : Nat) (hk : k ≤ 128) (h : 2 + k * 2 ≤ pdu.length) :
    Sure (MasterParse.getRegisters pdu k) fun _ => True := by
  apply sure_loop
  intro i hi
  obtain ⟨v, hv⟩ := get16_some pdu (2 + i * 2) (by omega)
  exact sure_access_bind v hv (sure_masterRegStore i [v] (by simp; omega))

theorem sure_parseReadBits (h : n ≤ pdu.length) :
    Sure (MasterParse.parseReadBits pdu n) Verdict := by
  refine sure_guard (by decide) fun hn => ?_
  obtain ⟨bc, hb⟩ := getElem?_some pdu 1 (by omega)
  refine sure_access_bind bc hb (sure_guard (by decide) fun hl => ?_)
  refine sure_guard (by decide) fun hm => ?_
  have hd := block_eq pdu 2 bc.toNat (by omega)
  refine sure_access_bind _ hd (sure_bind (sure_masterCoilStore 0 _ ?_) fun _ _ => ?_)
  · rw [block_length hd]
    omega
  · exact sure_modify_bind (sure_pure _ verdict_ok)

theorem sure_parseReadRegisters (h : n ≤ pdu.length) :
    Sure (MasterParse.parseReadRegisters pdu n) Verdict := by
  refine sure_guard (by decide) fun hn => ?_
  obtain ⟨bc, hb⟩ := getElem?_some pdu 1 (by omega)
  refine sure_access_bind bc hb (sure_guard (by decide) fun hl => ?_)
  refine sure_guard (by decide) fun hm => sure_modify_bind ?_
  exact sure_bind (sure_masterGetRegisters _ (by omega) (by omega)) fun _ _ =>
    sure_pure _ verdict_ok

theorem sure_parseEcho : Sure (MasterParse.parseEcho n) Verdict :=
  sure_guard (by decide) fun _ => sure_pure _ verdict_ok

theorem sure_parseExceptionStatus (h : n ≤ pdu.length) :
    Sure (MasterParse.parseExceptionStatus pdu n) Verdict := by
  refine sure_guard (by decide) fun hn => ?_
  obtain ⟨b, hb⟩ := getElem?_some pdu 1 (by omega)
  refine sure_access_bind b hb (sure_bind (sure_masterCoilStore 0 _ (by simp)) fun _ _ => ?_)
  exact sure_modify_bind (sure_pure _ verdict_ok)

theorem sure_masterParseDiagnostic (h : n ≤ pdu.length) :
    Sure (MasterParse.parseDiagnostic pdu n) Verdict := by
  refine sure_guard (by decide) fun hn => ?_
  obtain ⟨v, hv⟩ := get16_some pdu 3 (by omega)
  refine sure_access_bind v hv (sure_bind (sure_masterRegStore 0 _ (by simp)) fun _ _ => ?_)
  exact sure_modify_bind (sure_pure _ verdict_ok)

theorem sure_parseComEventCounter (h : n ≤ pdu.length) :
    Sure (MasterParse.parseComEventCounter pdu n) Verdict := by
  refine sure_guard (by decide) fun hn => ?_
  obtain ⟨u, hu⟩ := get16_some pdu 1 (by omega)
  obtain ⟨v, hv⟩ := get16_some pdu 3 (by omega)
  refine sure_access_bind u hu (sure_bind (sure_masterRegStore 0 _ (by simp)) fun _ _ => ?_)
  refine sure_access_bind v hv (sure_bind (sure_masterRegStore 1 _ (by simp)) fun _ _ => ?_)
  exact sure_modify_bind (sure_pure _ verdict_ok)

theorem sure_parseComEventLog (h : n ≤ pdu.length) :
    Sure (MasterParse.parseComEventLog pdu n) Verdict := by
  refine sure_guard (by decide) fun hn => ?_
  obtain ⟨bc, hb⟩ := getElem?_some pdu 1 (by omega)
  refine sure_access_bind bc hb (sure_guard (by decide) fun hl => ?_)
  refine sure_ite (fun h4 => ?_) fun _ => sure_pure _ verdict_ok
  obtain ⟨u, hu⟩ := get16_some pdu 2 (by omega)
  obtain ⟨v, hv⟩ := get16_some pdu 4 (by omega)
  refine sure_access_bind u hu (sure_bind (sure_masterRegStore 0 _ (by simp)) fun _ _ => ?_)
  refine sure_access_bind v hv (sure_bind (sure_masterRegStore 1 _ (by simp)) fun _ _ => ?_)
  have hd := block_eq pdu 6 (min (bc.toNat - 4) 33) (by omega)
  refine sure_modify_bind (sure_access_bind _ hd ?_)
  refine sure_bind (sure_masterCoilStore 0 _ ?_) fun _ _ =>
    sure_modify_bind (sure_pure _ verdict_ok)
  rw [block_length hd]
  omega

theorem sure_parseReportServerId (h : n ≤ pdu.length) :
    Sure (MasterParse.parseReportServerId pdu n) Verdict := by
  refine sure_guard (by decide) fun hn => ?_
  obtain ⟨bc, hb⟩ := getElem?_some pdu 1 (by omega)
  refine sure_access_bind bc hb (sure_guard (by decide) fun hl => sure_modify_bind ?_)
  refine sure_bind (sure_loop _ _ fun i hi => ?_) fun _ _ => sure_pure _ verdict_ok
  obtain ⟨b, hx⟩ := getElem?_some pdu (2 + i * 2) (by omega)
  refine sure_access_bind b hx (sure_ite (fun hc => ?_) fun _ => ?_)
  · obtain ⟨c, hy⟩ := getElem?_some pdu (2 + i * 2 + 1) (by omega)
    exact sure_access_bind c hy (sure_masterRegStore i _ (by simp; omega))
  · exact sure_masterRegStore i _ (by simp; omega)

theorem sure_parseClampedRegisters (h : n ≤ pdu.length) :
    Sure (MasterParse.parseClampedRegisters pdu n) Verdict := by
  refine sure_guard (by decide) fun hn => ?_
  obtain ⟨bc, hb⟩ := getElem?_some pdu 1 (by omega)
  refine sure_access_bind bc hb (sure_guard (by decide) fun hl => sure_modify_bind ?_)
  exact sure_bind (sure_masterGetRegisters _ (by omega) (by omega)) fun _ _ =>
    sure_pure _ verdict_ok

theorem sure_parseWriteFileRecord (h : n ≤ pdu.length) :
    Sure (MasterParse.parseWriteFileRecord pdu n) Verdict := by
  refine sure_guard (by decide) fun hn => ?_
  obtain ⟨bc, hb⟩ := getElem?_some pdu 1 (by omega)
  exact sure_access_bind bc hb (sure_guard (by decide) fun _ => sure_pure _ verdict_ok)

theorem sure_masterParseMaskWriteRegister (h : n ≤ pdu.length) :
    Sure (MasterParse.parseMaskWriteRegister pdu n) Verdict := by
  refine sure_guard (by decide) fun hn => ?_
  obtain ⟨u, hu⟩ := get16_some pdu 1 (by omega)
  obtain ⟨v, hv⟩ := get16_some pdu 3 (by omega)
  obtain ⟨x, hx⟩ := get16_some pdu 5 (by omega)
  refine sure_access_bind u hu (sure_bind (sure_masterRegStore 0 _ (by simp)) fun _ _ => ?_)
  refine sure_access_bind v hv (sure_bind (sure_masterRegStore 1 _ (by simp)) fun _ _ => ?_)
  refine sure_access_bind x hx (sure_bind (sure_masterRegStore 2 _ (by simp)) fun _ _ => ?_)
  exact sure_modify_bind (sure_pure _ verdict_ok)

theorem sure_masterParseReadFifoQueue (h : n ≤ pdu.length) (h3 : n = 2 → 3 ≤ pdu.length) :
    Sure (MasterParse.parseReadFifoQueue pdu n) Verdict := by
  refine sure_guard (by decide) fun hn => ?_
  obtain ⟨bc, hb⟩ := get16_some pdu 1 (by omega)
  refine sure_access_bind bc hb (sure_guard (by decide) fun hl => sure_modify_bind ?_)
  exact sure_bind (sure_masterGetRegisters _ (by omega) (by omega)) fun _ _ =>
    sure_pure _ verdict_ok

theorem sure_parseResponse (fc : UInt8) (h : n ≤ pdu.length)
    (h3 : fc = 0x18 → n = 2 → 3 ≤ pdu.length) :
    Sure (MasterParse.parseResponse fc pdu n) Verdict := by
  unfold MasterParse.parseResponse
  split
  case h_1 | h_2 => exact sure_parseReadBits h
  case h_3 | h_4 => exact sure_parseReadRegisters h
  case h_5 | h_6 | h_11 | h_12 => exact sure_parseEcho
  case h_7 => exact sure_parseExceptionStatus h
  case h_8 => exact sure_masterParseDiagnostic h
  case h_9 => exact sure_parseComEventCounter h
  case h_10 => exact sure_parseComEventLog h
  case h_13 => exact sure_parseReportServerId h
  case h_14 | h_17 => exact sure_parseClampedRegisters h
  case h_15 => exact sure_parseWriteFileRecord h
  case h_16 => exact sure_masterParseMaskWriteRegister h
  case h_18 => exact sure_masterParseReadFifoQueue h (h3 rfl)
  case h_19 => exact sure_pure _ (by decide)

theorem sure_parseMasterResponse (h : n ≤ pdu.length)
    (h3 : pdu[0]? = some 0x18 → n = 2 → 3 ≤ pdu.length) :
    Sure (MasterParse.parseMasterResponse pdu n : Proc (PaModbus σ) Int) Verdict := by
  refine sure_guard (by decide) fun hn => ?_
  obtain ⟨fc, hf⟩ := getElem?_some pdu 0 (by omega)
  refine sure_access_bind fc hf (sure_modify_bind (sure_ite (fun _ => ?_) fun _ => ?_))
  · refine sure_guard (by decide) fun h2 => ?_
    obtain ⟨e, he⟩ := getElem?_some pdu 1 (by omega)
    exact sure_access_bind e he (sure_modify_bind (sure_pure _ (by decide)))
  · exact sure_modify_bind (sure_focus _ _ _ (sure_parseResponse fc h fun he => h3 (he ▸ hf)))

def Parsed (ctx ctx' : PaModbus σ) : Prop :=
  ∃ fc result request,
    ctx' = { ctx with lastFunction := fc, result := result, request := request }

theorem parsed_refl (ctx : PaModbus σ) : Parsed ctx ctx := ⟨_, _, _, rfl⟩

theorem parsed_trans (ctx ctx' ctx'' : PaModbus σ) (h : Parsed ctx ctx') (h' : Parsed ctx' ctx'') :
    Parsed ctx ctx'' := by
  obtain ⟨_, _, _, rfl⟩ := h
  obtain ⟨_, _, _, rfl⟩ := h'
  exact ⟨_, _, _, rfl⟩

theorem parseSlaveRequest_parsed (pdu : Bytes) (n : Nat) :
    Within Parsed (parseSlaveRequest pdu n : Proc (PaModbus σ) Int) := by
  refine within_ite (within_pure _ parsed_refl) (within_access_bind fun fc => ?_)
  refine within_bind parsed_trans (within_modify fun ctx => ⟨_, _, _, rfl⟩) fun _ => ?_
  refine within_ite (within_pure _ parsed_refl) ?_
  exact within_focus _ _ _ fun ctx r => ⟨_, _, _, rfl⟩

theorem parseMasterResponse_parsed (pdu : Bytes) (n : Nat) :
    Within Parsed (MasterParse.parseMasterResponse pdu n : Proc (PaModbus σ) Int) := by
  refine within_ite (within_pure _ parsed_refl) (within_access_bind fun fc => ?_)
  refine within_bind parsed_trans (within_modify fun ctx => ⟨_, _, _, rfl⟩) fun _ => ?_
  refine within_ite (within_ite (within_pure _ parsed_refl) (within_access_bind fun e => ?_)) ?_
  · exact within_bind parsed_trans (within_modify fun ctx => ⟨_, _, _, rfl⟩)
      fun _ => within_pure _ parsed_refl
  · refine within_bind parsed_trans (within_modify fun ctx => ⟨_, _, _, rfl⟩) fun _ => ?_
    exact within_focus _ _ _ fun ctx r => ⟨_, _, _, rfl⟩

end Pamodbus.ParseTotal
