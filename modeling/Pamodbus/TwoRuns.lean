import Pamodbus.FileRecords
import Pamodbus.SlaveAccept

namespace Pamodbus.TwoRuns

open Pamodbus.Lib.Cells Pamodbus.Lib.Procedure Pamodbus.Lib.Words
open Pamodbus.Context Pamodbus.FramerRtu Pamodbus.Framer Pamodbus.Builders
open Pamodbus.SlaveParse Pamodbus.SlaveAccept Pamodbus.Respond Pamodbus.RespondRun
open Pamodbus.FileRecords

variable {σ β : Type}

def field (pdu : Bytes) (i : Nat) : UInt16 := (get16 pdu i).getD 0

def byteAt (pdu : Bytes) (i : Nat) : Nat := (pdu[i]?.getD 0).toNat

def registersOf (pdu : Bytes) (off n : Nat) : List UInt16 :=
  (List.range n).map fun i => field pdu (off + i * 2)

def coilValue (pdu : Bytes) : UInt8 := if field pdu 3 = 0xFF00 then 1 else 0

def coilField (pdu : Bytes) : Bytes := (pdu.drop 6).take (byteAt pdu 5)

/-- The registers in the data field, as many as its byte count says. -/
def carriedRegisters (fc : UInt8) (pdu : Bytes) : List UInt16 :=
  match fc with
  | 0x10 => registersOf pdu 6 (byteAt pdu 5 / 2)
  | 0x14 | 0x15 => registersOf pdu 2 (byteAt pdu 1 / 2)
  | 0x17 => registersOf pdu 10 (byteAt pdu 9 / 2)
  | _ => []

@[simp] theorem registersOf_length (pdu : Bytes) (off n : Nat) :
    (registersOf pdu off n).length = n := by
  simp [registersOf]

theorem registersAt_eq (pdu : Bytes) (off n : Nat) (values : List UInt16)
    (hl : values.length = n) (h : RegistersAt pdu off values) : values = registersOf pdu off n := by
  subst hl
  apply List.ext_getElem (by simp)
  intro i hi _
  simp only [registersOf, List.getElem_map, List.getElem_range, field,
    h i values[i] (List.getElem?_eq_getElem hi), Option.getD_some]

theorem get16_field (pdu : Bytes) (i : Nat) (v : UInt16) (h : get16 pdu i = some v) :
    v = field pdu i := by
  rw [field, h, Option.getD_some]

/-- What an accepted request leaves in the context, field by field from its PDU. -/
def Taken (fc : UInt8) (pdu : Bytes) (r : SlaveRequest) : Prop :=
  match fc with
  | 0x01 | 0x02 | 0x03 | 0x04 => r.slaveAddr = field pdu 1 ∧ r.slaveCount = field pdu 3
  | 0x05 => r.slaveAddr = field pdu 1 ∧ r.slaveCoilData.toList[0]? = some (coilValue pdu)
  | 0x06 | 0x08 => r.slaveAddr = field pdu 1 ∧ r.slaveRegData.toList[0]? = some (field pdu 3)
  | 0x07 | 0x0B | 0x0C | 0x11 => True
  | 0x0F => r.slaveAddr = field pdu 1 ∧ r.slaveCount = field pdu 3 ∧
      (coilField pdu).length = byteAt pdu 5 ∧ byteAt pdu 5 ≤ 33 ∧
      r.slaveCoilData.toList.take (byteAt pdu 5) = coilField pdu
  | 0x10 => r.slaveAddr = field pdu 1 ∧ r.slaveCount = field pdu 3 ∧
      r.slaveRegData.toList.take (byteAt pdu 5 / 2) = carriedRegisters 0x10 pdu
  | 0x14 | 0x15 => r.slaveRegCount.toNat = byteAt pdu 1 / 2 ∧ byteAt pdu 1 / 2 ≤ 127 ∧
      r.slaveRegData.toList.take (byteAt pdu 1 / 2) = carriedRegisters 0x15 pdu
  | 0x16 => r.slaveAddr = field pdu 1 ∧
      r.slaveRegData.toList.take 2 = [field pdu 3, field pdu 5]
  | 0x17 => r.slaveAddr = field pdu 1 ∧ r.slaveCount = field pdu 3 ∧
      r.slaveRegData.toList.take (byteAt pdu 9 / 2) = carriedRegisters 0x17 pdu ∧
      r.slaveCoilData.toList.take 4 = [hiByte (field pdu 5), loByte (field pdu 5),
        hiByte (field pdu 7), loByte (field pdu 7)]
  | 0x18 => r.slaveAddr = field pdu 1
  | _ => False

theorem accepted_taken (fc : UInt8) (pdu : Bytes) (pduLen : Nat) (r r' : SlaveRequest)
    (h : (parseRequest fc pdu pduLen).run r = some (paOk, r')) : Taken fc pdu r' := by
  have hregs (values : List UInt16) (off : Nat) (b : UInt8) (i : Nat) (hb : pdu[i]? = some b)
      (hl : values.length = b.toNat / 2) (hr : RegistersAt pdu off values)
      (hn : b.toNat / 2 ≤ 128) : (patch r.slaveRegData values).toList.take (byteAt pdu i / 2) =
        registersOf pdu off (byteAt pdu i / 2) := by
    rw [byteAt, hb, Option.getD_some, patch_take _ _ _ hl.symm hn]
    exact registersAt_eq pdu off _ values hl hr
  unfold parseRequest at h
  split at h
  case h_1 | h_2 | h_3 | h_4 =>
    obtain ⟨-, _, ha, _, hc, -, rfl⟩ := (parseRead_accepts _ _ _ _ _).mp h
    exact ⟨get16_field _ _ _ ha, get16_field _ _ _ hc⟩
  case h_5 =>
    obtain ⟨-, _, ha, v, hv, rfl⟩ := (parseWriteSingleCoil_accepts _ _ _ _).mp h
    refine ⟨get16_field _ _ _ ha, ?_⟩
    rw [coilValue, ← get16_field _ _ _ hv]
    exact patch_getElem? _ _ _ (by simp) (by simp)
  case h_6 =>
    obtain ⟨-, _, ha, v, hv, rfl⟩ := (parseWriteSingleRegister_accepts _ _ _ _).mp h
    refine ⟨get16_field _ _ _ ha, ?_⟩
    rw [← get16_field _ _ _ hv]
    exact patch_getElem? _ _ _ (by simp) (by simp)
  case h_7 | h_8 | h_9 | h_13 => trivial
  case h_10 =>
    obtain ⟨-, _, ha, v, hv, rfl⟩ := (parseDiagnostic_accepts _ _ _ _).mp h
    refine ⟨get16_field _ _ _ ha, ?_⟩
    rw [← get16_field _ _ _ hv]
    exact patch_getElem? _ _ _ (by simp) (by simp)
  case h_11 =>
    obtain ⟨-, _, ha, _, hc, -, b, hb, -, hb33, bits, hbits, -, rfl⟩ :=
      (parseWriteMultipleCoils_accepts _ _ _ _).mp h
    have hlen := block_length hbits
    have hcoils : coilField pdu = bits := by
      rw [coilField, byteAt, hb, Option.getD_some]
      rw [block, Option.ite_none_right_eq_some, Option.some.injEq] at hbits
      exact hbits.2
    have hbyte : byteAt pdu 5 = b.toNat := by rw [byteAt, hb, Option.getD_some]
    refine ⟨get16_field _ _ _ ha, get16_field _ _ _ hc, ?_, ?_, ?_⟩
    · rw [hcoils, hlen, hbyte]
    · rw [hbyte]
      exact hb33
    · rw [hcoils, hbyte]
      exact patch_take _ _ _ hlen.symm hb33
  case h_12 =>
    obtain ⟨-, _, ha, _, hc, -, b, hb, -, -, values, hl, hr, hn, rfl⟩ :=
      (parseWriteMultipleRegisters_accepts _ _ _ _).mp h
    exact ⟨get16_field _ _ _ ha, get16_field _ _ _ hc, hregs values 6 b 5 hb hl hr hn⟩
  case h_14 | h_15 =>
    obtain ⟨-, b, hb, -, -, values, hl, hr, hn, rfl⟩ := (parseFileRecord_accepts _ _ _ _).mp h
    have hb' := b.toNat_lt
    have hbyte : byteAt pdu 1 = b.toNat := by rw [byteAt, hb, Option.getD_some]
    refine ⟨?_, by omega, hregs values 2 b 1 hb hl hr hn⟩
    rw [UInt16.toNat_ofNat', hbyte]
    omega
  case h_16 =>
    obtain ⟨-, _, ha, u, hu, v, hv, rfl⟩ := (parseMaskWriteRegister_accepts _ _ _ _).mp h
    refine ⟨get16_field _ _ _ ha, ?_⟩
    rw [← get16_field _ _ _ hu, ← get16_field _ _ _ hv]
    exact patch_take _ _ _ rfl (by decide)
  case h_17 =>
    obtain ⟨-, _, ha, _, hc, u, hu, v, hv, -, -, b, hb, -, -, values, hl, hr, hn, rfl⟩ :=
      (parseReadWriteRegisters_accepts _ _ _ _).mp h
    refine ⟨get16_field _ _ _ ha, get16_field _ _ _ hc, hregs values 10 b 9 hb hl hr hn, ?_⟩
    rw [← get16_field _ _ _ hu, ← get16_field _ _ _ hv]
    exact patch_take _ _ _ rfl (by decide)
  case h_18 =>
    obtain ⟨-, _, ha, rfl⟩ := (parseReadFifoQueue_accepts _ _ _ _).mp h
    exact get16_field _ _ _ ha
  case h_19 => cases h

/-- The values of a write callback come out of the PDU: a coil or register as
such, masks applied to the register that was read, or a part of the data field. -/
def Carried (fc : UInt8) (pdu : Bytes) : Call → Prop
  | .writeSingleCoil _ value => value = coilValue pdu
  | .writeSingleRegister _ value => (fc = 0x06 ∧ value = field pdu 3) ∨
      (fc = 0x16 ∧ ∃ cur, value = (cur &&& field pdu 3) ||| field pdu 5)
  | .writeMultipleCoils _ count values => coilBytes count ≤ (coilField pdu).length ∧
      values = (coilField pdu).take (coilBytes count)
  | .writeMultipleRegisters _ count values => ∃ start,
      start + count.toNat ≤ (carriedRegisters fc pdu).length ∧
      values = ((carriedRegisters fc pdu).drop start).take count.toNat
  | _ => True

structure Alike (fc : UInt8) (pdu : Bytes) (w₁ w₂ : World σ) : Prop where
  callbacks : w₂.ctx.callbacks = w₁.ctx.callbacks
  size : w₂.ctx.txbuf.cells.length = w₁.ctx.txbuf.cells.length
  app : w₂.app = w₁.app
  calls : w₂.calls = w₁.calls
  carried : ∀ c ∈ w₁.calls, Carried fc pdu c.1
  taken₁ : Taken fc pdu w₁.ctx.request
  taken₂ : Taken fc pdu w₂.ctx.request

/-- Two runs with the same callback invocations, whose write callbacks get
nothing but what the request carries. -/
def Agree (fc : UInt8) (pdu : Bytes) (run₁ run₂ : Option (Int × World σ)) : Prop :=
  ∀ ret₁ w₁, run₁ = some (ret₁, w₁) → (∀ c ∈ w₁.calls, Carried fc pdu c.1) ∧
    ∀ ret₂ w₂, run₂ = some (ret₂, w₂) → w₂.calls = w₁.calls

variable {fc : UInt8} {pdu : Bytes} {w₁ w₂ : World σ}

theorem Alike.called (h : Alike fc pdu w₁ w₂) (call : Call) (ret : Int) (app : σ)
    (hc : Carried fc pdu call) :
    Alike fc pdu (w₁.called call ret app) (w₂.called call ret app) where
  callbacks := h.callbacks
  size := h.size
  app := rfl
  calls := congrArg (· ++ [(call, ret)]) h.calls
  carried := by
    intro c hmem
    rcases List.mem_append.mp hmem with hm | hm
    · exact h.carried c hm
    · rw [List.mem_singleton.mp hm]
      exact hc
  taken₁ := h.taken₁
  taken₂ := h.taken₂

theorem agree_calls (hcalls : w₂.calls = w₁.calls) (hc : ∀ c ∈ w₁.calls, Carried fc pdu c.1)
    (ret₁ ret₂ : Int) : Agree fc pdu (some (ret₁, w₁)) (some (ret₂, w₂)) := by
  intro r₁ v₁ hr₁
  rw [Option.some.injEq, Prod.mk.injEq] at hr₁
  refine ⟨hr₁.2 ▸ hc, fun r₂ v₂ hr₂ => ?_⟩
  rw [Option.some.injEq, Prod.mk.injEq] at hr₂
  rw [← hr₁.2, ← hr₂.2]
  exact hcalls

theorem agree_some (h : Alike fc pdu w₁ w₂) (ret₁ ret₂ : Int) :
    Agree fc pdu (some (ret₁, w₁)) (some (ret₂, w₂)) :=
  agree_calls h.calls h.carried ret₁ ret₂

theorem agree_callback (h : Alike fc pdu w₁ w₂) (cb : Option β)
    (f₁ f₂ : β → Option (Int × World σ)) (hf : ∀ b, Agree fc pdu (f₁ b) (f₂ b)) :
    Agree fc pdu (withCallback cb w₁ f₁) (withCallback cb w₂ f₂) := by
  cases cb with
  | none => exact agree_some h _ _
  | some b => exact hf b

theorem agree_ite {c : Prop} [Decidable c] {x₁ x₂ y₁ y₂ : Option (Int × World σ)}
    (hx : c → Agree fc pdu x₁ x₂) (hy : ¬ c → Agree fc pdu y₁ y₂) :
    Agree fc pdu (if c then x₁ else y₁) (if c then x₂ else y₂) := by
  by_cases h : c
  · rw [if_pos h, if_pos h]
    exact hx h
  · rw [if_neg h, if_neg h]
    exact hy h

theorem agree_none (run : Option (Int × World σ)) : Agree fc pdu none run := by
  intro ret w h
  cases h

theorem agree_reply (h : Alike fc pdu w₁ w₂) (bytes₁ bytes₂ : Bytes) (n₁ n₂ : Nat)
    (h₁ : n₁ ≤ 1000) (h₂ : n₂ ≤ 1000) :
    Agree fc pdu ((reply bytes₁ n₁).run w₁) ((reply bytes₂ n₂).run w₂) := by
  intro r₁ v₁ hr₁
  have hc₁ := reply_calls _ _ _ _ _ (by omega) hr₁
  refine ⟨hc₁ ▸ h.carried, fun r₂ v₂ hr₂ => ?_⟩
  rw [hc₁, reply_calls _ _ _ _ _ (by omega) hr₂]
  exact h.calls

variable (residue₁ residue₂ : Residue)

theorem readBits_agree (cb : Option (ReadCoilsFn σ)) (call : UInt16 → UInt16 → Call)
    (h : Alike fc pdu w₁ w₂) (hc : ∀ addr count, Carried fc pdu (call addr count))
    (ht : ∀ r, Taken fc pdu r → r.slaveAddr = field pdu 1 ∧ r.slaveCount = field pdu 3) :
    Agree fc pdu ((respondReadBits fc cb call >>= conclude).run w₁)
      ((respondReadBits fc cb call >>= conclude).run w₂) := by
  obtain ⟨ha₁, hc₁⟩ := ht _ h.taken₁
  obtain ⟨ha₂, hc₂⟩ := ht _ h.taken₂
  rw [respondReadBits_run fc cb call w₁ _ _ ha₁ hc₁, respondReadBits_run fc cb call w₂ _ _ ha₂ hc₂,
    h.app]
  refine agree_callback h _ _ _ fun f => agree_ite (fun _ => agree_none _) fun hn => ?_
  have hw := h.called (call (field pdu 1) (field pdu 3)) (f (field pdu 1) (field pdu 3) w₁.app).1
    (f (field pdu 1) (field pdu 3) w₁.app).2.2 (hc _ _)
  exact agree_ite (fun _ => agree_some hw _ _) fun _ => agree_reply hw _ _ _ _ (by omega) (by omega)

theorem readRegisters_agree (cb : Option (ReadRegistersFn σ)) (call : UInt16 → UInt16 → Call)
    (h : Alike fc pdu w₁ w₂) (hc : ∀ addr count, Carried fc pdu (call addr count))
    (ht : ∀ r, Taken fc pdu r → r.slaveAddr = field pdu 1 ∧ r.slaveCount = field pdu 3) :
    Agree fc pdu ((respondReadRegisters residue₁ fc cb call >>= conclude).run w₁)
      ((respondReadRegisters residue₂ fc cb call >>= conclude).run w₂) := by
  obtain ⟨ha₁, hc₁⟩ := ht _ h.taken₁
  obtain ⟨ha₂, hc₂⟩ := ht _ h.taken₂
  rw [respondReadRegisters_run residue₁ fc cb call w₁ _ _ ha₁ hc₁,
    respondReadRegisters_run residue₂ fc cb call w₂ _ _ ha₂ hc₂, h.app]
  refine agree_callback h _ _ _ fun f => agree_ite (fun _ => agree_none _) fun hn => ?_
  have hw := h.called (call (field pdu 1) (field pdu 3)) (f (field pdu 1) (field pdu 3) w₁.app).1
    (f (field pdu 1) (field pdu 3) w₁.app).2.2 (hc _ _)
  exact agree_ite (fun _ => agree_some hw _ _) fun _ => agree_reply hw _ _ _ _ (by omega) (by omega)

theorem writeSingleCoil_agree (h : Alike 0x05 pdu w₁ w₂) :
    Agree 0x05 pdu ((respondWriteSingleCoil 0x05 >>= conclude).run w₁)
      ((respondWriteSingleCoil 0x05 >>= conclude).run w₂) := by
  rw [respondWriteSingleCoil_run 0x05 w₁ _ _ h.taken₁.1 h.taken₁.2,
    respondWriteSingleCoil_run 0x05 w₂ _ _ h.taken₂.1 h.taken₂.2, h.callbacks, h.app]
  refine agree_callback h _ _ _ fun cb => ?_
  have hw := h.called (.writeSingleCoil (field pdu 1) (coilValue pdu))
    (cb (field pdu 1) (coilValue pdu) w₁.app).1 (cb (field pdu 1) (coilValue pdu) w₁.app).2 rfl
  exact agree_ite (fun _ => agree_some hw _ _) fun _ => agree_reply hw _ _ _ _ (by omega) (by omega)

theorem writeSingleRegister_agree (h : Alike 0x06 pdu w₁ w₂) :
    Agree 0x06 pdu ((respondWriteSingleRegister 0x06 >>= conclude).run w₁)
      ((respondWriteSingleRegister 0x06 >>= conclude).run w₂) := by
  rw [respondWriteSingleRegister_run 0x06 w₁ _ _ h.taken₁.1 h.taken₁.2,
    respondWriteSingleRegister_run 0x06 w₂ _ _ h.taken₂.1 h.taken₂.2, h.callbacks, h.app]
  refine agree_callback h _ _ _ fun cb => ?_
  have hw := h.called (.writeSingleRegister (field pdu 1) (field pdu 3))
    (cb (field pdu 1) (field pdu 3) w₁.app).1 (cb (field pdu 1) (field pdu 3) w₁.app).2
    (.inl ⟨rfl, rfl⟩)
  exact agree_ite (fun _ => agree_some hw _ _) fun _ => agree_reply hw _ _ _ _ (by omega) (by omega)

theorem exceptionStatus_agree (h : Alike fc pdu w₁ w₂) :
    Agree fc pdu ((respondExceptionStatus residue₁ fc >>= conclude).run w₁)
      ((respondExceptionStatus residue₂ fc >>= conclude).run w₂) := by
  rw [respondExceptionStatus_run, respondExceptionStatus_run, h.callbacks, h.app]
  refine agree_callback h _ _ _ fun f => ?_
  have hw := h.called (.readCoils 0 8) (f 0 8 w₁.app).1 (f 0 8 w₁.app).2.2 trivial
  exact agree_ite (fun _ => agree_some hw _ _) fun _ => agree_reply hw _ _ _ _ (by omega) (by omega)

theorem diagnostic_agree (h : Alike 0x08 pdu w₁ w₂) :
    Agree 0x08 pdu ((respondDiagnostic 0x08 >>= conclude).run w₁)
      ((respondDiagnostic 0x08 >>= conclude).run w₂) := by
  rw [respondDiagnostic_run 0x08 w₁ _ _ h.taken₁.1 h.taken₁.2,
    respondDiagnostic_run 0x08 w₂ _ _ h.taken₂.1 h.taken₂.2]
  exact agree_reply h _ _ _ _ (by omega) (by omega)

theorem comEventCounter_agree (h : Alike fc pdu w₁ w₂) :
    Agree fc pdu ((respondComEventCounter residue₁ fc >>= conclude).run w₁)
      ((respondComEventCounter residue₂ fc >>= conclude).run w₂) := by
  rw [respondComEventCounter_run, respondComEventCounter_run, h.callbacks, h.app]
  refine agree_callback h _ _ _ fun f => ?_
  have hw := h.called (.readHoldingRegisters 0xFFFE 2) (f 0xFFFE 2 w₁.app).1
    (f 0xFFFE 2 w₁.app).2.2 trivial
  exact agree_ite (fun _ => agree_some hw _ _) fun _ => agree_reply hw _ _ _ _ (by omega) (by omega)

theorem comEventLog_agree (h : Alike fc pdu w₁ w₂) :
    Agree fc pdu ((respondComEventLog residue₁ fc >>= conclude).run w₁)
      ((respondComEventLog residue₂ fc >>= conclude).run w₂) := by
  rw [respondComEventLog_run, respondComEventLog_run, h.callbacks, h.app]
  refine agree_callback h _ _ _ fun f => ?_
  have hw := h.called (.readHoldingRegisters 0xFFFC 5) (f 0xFFFC 5 w₁.app).1
    (f 0xFFFC 5 w₁.app).2.2 trivial
  exact agree_ite (fun _ => agree_some hw _ _) fun _ => agree_reply hw _ _ _ _ (by omega) (by omega)

theorem reportServerId_agree (h : Alike fc pdu w₁ w₂) :
    Agree fc pdu ((respondReportServerId residue₁ fc >>= conclude).run w₁)
      ((respondReportServerId residue₂ fc >>= conclude).run w₂) := by
  rw [respondReportServerId_run, respondReportServerId_run, h.callbacks, h.app]
  refine agree_callback h _ _ _ fun f => ?_
  have hw := h.called (.readHoldingRegisters 0xFFF0 64) (f 0xFFF0 64 w₁.app).1
    (f 0xFFF0 64 w₁.app).2.2 trivial
  exact agree_ite (fun _ => agree_some hw _ _) fun _ => agree_reply hw _ _ _ _ (by omega) (by omega)

theorem readFifoQueue_agree (h : Alike 0x18 pdu w₁ w₂) :
    Agree 0x18 pdu ((respondReadFifoQueue residue₁ 0x18 >>= conclude).run w₁)
      ((respondReadFifoQueue residue₂ 0x18 >>= conclude).run w₂) := by
  rw [respondReadFifoQueue_run residue₁ 0x18 w₁ _ h.taken₁,
    respondReadFifoQueue_run residue₂ 0x18 w₂ _ h.taken₂, h.callbacks, h.app]
  refine agree_callback h _ _ _ fun f => ?_
  have hw := h.called (.readHoldingRegisters (field pdu 1) 128) (f (field pdu 1) 128 w₁.app).1
    (f (field pdu 1) 128 w₁.app).2.2 trivial
  exact agree_ite (fun _ => agree_some hw _ _) fun _ => agree_reply hw _ _ _ _ (by omega) (by omega)

theorem maskWriteRegister_agree (h : Alike 0x16 pdu w₁ w₂) :
    Agree 0x16 pdu ((respondMaskWriteRegister residue₁ 0x16 >>= conclude).run w₁)
      ((respondMaskWriteRegister residue₂ 0x16 >>= conclude).run w₂) := by
  rw [respondMaskWriteRegister_run residue₁ 0x16 w₁ _ _ _ h.taken₁.1 h.taken₁.2,
    respondMaskWriteRegister_run residue₂ 0x16 w₂ _ _ _ h.taken₂.1 h.taken₂.2, h.callbacks, h.app]
  refine agree_callback h _ _ _ fun cb => ?_
  have hreply {v₁ v₂ : World σ} (hv : Alike 0x16 pdu v₁ v₂) :
      Agree 0x16 pdu ((maskReply 0x16 (field pdu 1) (field pdu 3) (field pdu 5)).run v₁)
        ((maskReply 0x16 (field pdu 1) (field pdu 3) (field pdu 5)).run v₂) :=
    agree_reply hv _ _ _ _ (by omega) (by omega)
  cases w₁.ctx.callbacks.readHoldingRegistersCb with
  | none => exact hreply h
  | some f =>
    have hr := h.called (.readHoldingRegisters (field pdu 1) 1) (f (field pdu 1) 1 w₁.app).1
      (f (field pdu 1) 1 w₁.app).2.2 trivial
    refine agree_ite (fun _ => hreply hr) fun _ => ?_
    dsimp only [World.called_app]
    generalize f (field pdu 1) 1 w₁.app = r at hr ⊢
    have hw := hr.called (.writeSingleRegister (field pdu 1)
      ((r.2.1.toList.headD 0 &&& field pdu 3) ||| field pdu 5))
      (cb (field pdu 1) ((r.2.1.toList.headD 0 &&& field pdu 3) ||| field pdu 5) r.2.2).1
      (cb (field pdu 1) ((r.2.1.toList.headD 0 &&& field pdu 3) ||| field pdu 5) r.2.2).2
      (.inr ⟨rfl, _, rfl⟩)
    exact agree_ite (fun _ => agree_some hw _ _) fun _ => hreply hw

theorem take_shorter {l m : List β} {k n : Nat} (h : l.take n = m) (hk : k ≤ n) :
    l.take k = m.take k := by
  rw [← h, List.take_take, Nat.min_eq_left hk]

theorem writeMultipleCoils_agree (h : Alike 0x0F pdu w₁ w₂)
    (hc : coilBytes (field pdu 3) ≤ byteAt pdu 5) :
    Agree 0x0F pdu ((respondWriteMultipleCoils 0x0F >>= conclude).run w₁)
      ((respondWriteMultipleCoils 0x0F >>= conclude).run w₂) := by
  obtain ⟨ha₁, hn₁, hl, -, hd₁⟩ := h.taken₁
  obtain ⟨ha₂, hn₂, -, -, hd₂⟩ := h.taken₂
  rw [respondWriteMultipleCoils_run 0x0F w₁ _ _ ha₁ hn₁,
    respondWriteMultipleCoils_run 0x0F w₂ _ _ ha₂ hn₂, h.callbacks, h.app,
    take_shorter hd₁ hc, take_shorter hd₂ hc]
  refine agree_callback h _ _ _ fun cb => ?_
  have hw := h.called (.writeMultipleCoils (field pdu 1) (field pdu 3)
    ((coilField pdu).take (coilBytes (field pdu 3))))
    (cb (field pdu 1) (field pdu 3) ((coilField pdu).take (coilBytes (field pdu 3))) w₁.app).1
    (cb (field pdu 1) (field pdu 3) ((coilField pdu).take (coilBytes (field pdu 3))) w₁.app).2
    ⟨hl.symm ▸ hc, rfl⟩
  exact agree_ite (fun _ => agree_some hw _ _) fun _ => agree_reply hw _ _ _ _ (by omega) (by omega)

theorem carried_front (fc : UInt8) (pdu : Bytes) (addr count : UInt16)
    (hc : count.toNat ≤ (carriedRegisters fc pdu).length) :
    Carried fc pdu
      (.writeMultipleRegisters addr count ((carriedRegisters fc pdu).take count.toNat)) :=
  ⟨0, by omega, by rw [List.drop_zero]⟩

theorem writeMultipleRegisters_agree (h : Alike 0x10 pdu w₁ w₂)
    (hc : (field pdu 3).toNat ≤ byteAt pdu 5 / 2) :
    Agree 0x10 pdu ((respondWriteMultipleRegisters 0x10 >>= conclude).run w₁)
      ((respondWriteMultipleRegisters 0x10 >>= conclude).run w₂) := by
  obtain ⟨ha₁, hn₁, hd₁⟩ := h.taken₁
  obtain ⟨ha₂, hn₂, hd₂⟩ := h.taken₂
  rw [respondWriteMultipleRegisters_run 0x10 w₁ _ _ ha₁ hn₁,
    respondWriteMultipleRegisters_run 0x10 w₂ _ _ ha₂ hn₂, h.callbacks, h.app,
    take_shorter hd₁ hc, take_shorter hd₂ hc]
  refine agree_callback h _ _ _ fun cb => ?_
  have hv := carried_front 0x10 pdu (field pdu 1) (field pdu 3)
    ((registersOf_length _ _ _).symm ▸ hc)
  generalize (carriedRegisters 0x10 pdu).take (field pdu 3).toNat = values at hv ⊢
  have hw := h.called (.writeMultipleRegisters (field pdu 1) (field pdu 3) values)
    (cb (field pdu 1) (field pdu 3) values w₁.app).1
    (cb (field pdu 1) (field pdu 3) values w₁.app).2 hv
  exact agree_ite (fun _ => agree_some hw _ _) fun _ => agree_reply hw _ _ _ _ (by omega) (by omega)

theorem readWriteRegisters_agree (h : Alike 0x17 pdu w₁ w₂)
    (hc : (field pdu 7).toNat ≤ byteAt pdu 9 / 2) :
    Agree 0x17 pdu ((respondReadWriteRegisters residue₁ 0x17 >>= conclude).run w₁)
      ((respondReadWriteRegisters residue₂ 0x17 >>= conclude).run w₂) := by
  obtain ⟨ha₁, hn₁, hd₁, hp₁⟩ := h.taken₁
  obtain ⟨ha₂, hn₂, hd₂, hp₂⟩ := h.taken₂
  rw [respondReadWriteRegisters_run residue₁ 0x17 w₁ _ _ _ _ ha₁ hn₁ hp₁,
    respondReadWriteRegisters_run residue₂ 0x17 w₂ _ _ _ _ ha₂ hn₂ hp₂, h.callbacks, h.app,
    take_shorter hd₁ hc, take_shorter hd₂ hc]
  refine agree_callback h _ _ _ fun rcb => agree_callback h _ _ _ fun wcb => ?_
  have hv := carried_front 0x17 pdu (field pdu 5) (field pdu 7)
    ((registersOf_length _ _ _).symm ▸ hc)
  generalize (carriedRegisters 0x17 pdu).take (field pdu 7).toNat = values at hv ⊢
  have hw := h.called (.writeMultipleRegisters (field pdu 5) (field pdu 7) values)
    (wcb (field pdu 5) (field pdu 7) values w₁.app).1
    (wcb (field pdu 5) (field pdu 7) values w₁.app).2 hv
  refine agree_ite (fun _ => agree_some hw _ _) fun _ =>
    agree_ite (fun _ => agree_none _) fun _ => ?_
  dsimp only [World.called_app]
  generalize (wcb (field pdu 5) (field pdu 7) values w₁.app).2 = app at hw ⊢
  have hr := hw.called (.readHoldingRegisters (field pdu 1) (field pdu 3))
    (rcb (field pdu 1) (field pdu 3) app).1 (rcb (field pdu 1) (field pdu 3) app).2.2 trivial
  exact agree_ite (fun _ => agree_some hr _ _) fun _ => agree_reply hr _ _ _ _ (by omega) (by omega)

variable {regs₁ regs₂ carried : List UInt16} {regCount : Nat}

theorem getElem?_shared (h₁ : regs₁.take regCount = carried) (h₂ : regs₂.take regCount = carried)
    {i : Nat} (hi : i < regCount) : regs₂[i]? = regs₁[i]? := by
  rw [← List.getElem?_take_of_lt hi, h₂, ← h₁, List.getElem?_take_of_lt hi]

theorem recordLen_shared (h₁ : regs₁.take regCount = carried) (h₂ : regs₂.take regCount = carried)
    {i : Nat} (hi : i + 3 < regCount) : recordLen regs₂ i = recordLen regs₁ i := by
  rw [recordLen, recordLen, getElem?_shared h₁ h₂ hi]

theorem readRecords_alike (cb : ReadRegistersFn σ) (h₁ : regs₁.take regCount = carried)
    (h₂ : regs₂.take regCount = carried) (size rounds reqOffset offset : Nat)
    (h : Alike fc pdu w₁ w₂) :
    let served₁ := readRecords cb regs₁ (regCount * 2) size rounds reqOffset offset w₁
    let served₂ := readRecords cb regs₂ (regCount * 2) size rounds reqOffset offset w₂
    served₂.refused = served₁.refused ∧ Alike fc pdu served₁.world served₂.world := by
  induction rounds generalizing reqOffset offset w₁ w₂ with
  | zero => exact ⟨rfl, h⟩
  | succ rounds ih =>
    dsimp only
    rw [readRecords, readRecords]
    by_cases hl : regCount * 2 < reqOffset + 7
    · rw [if_pos hl, if_pos hl]
      exact ⟨rfl, h⟩
    · rw [if_neg hl, if_neg hl, recordLen_shared h₁ h₂ (i := reqOffset / 2) (by omega),
        getElem?_shared h₁ h₂ (i := reqOffset / 2 + 2) (by omega), h.app]
      dsimp only
      generalize regs₁[reqOffset / 2 + 2]?.getD 0 = recNum
      generalize recordLen regs₁ (reqOffset / 2) = len
      have hw := h.called (.readHoldingRegisters recNum len) (cb recNum len w₁.app).1
        (cb recNum len w₁.app).2.2 trivial
      generalize cb recNum len w₁.app = r at hw ⊢
      by_cases hr : r.1 ≠ 0
      · rw [if_pos hr, if_pos hr]
        exact ⟨rfl, hw⟩
      · rw [if_neg hr, if_neg hr]
        by_cases hs : size < offset + 2 + len.toNat * 2
        · rw [if_pos hs, if_pos hs]
          exact ⟨rfl, hw⟩
        · rw [if_neg hs, if_neg hs]
          exact ih _ _ hw

theorem agree_left (h : Alike fc pdu w₁ w₂) (ret : Int) (left₁ left₂ : Buffer UInt8) :
    Agree fc pdu (some (ret, w₁.withTx left₁)) (some (ret, w₂.withTx left₂)) := by
  have hcalls : (w₂.withTx left₂).calls = (w₁.withTx left₁).calls := h.calls
  have hcarried : ∀ c ∈ (w₁.withTx left₁).calls, Carried fc pdu c.1 := h.carried
  exact agree_calls hcalls hcarried ret ret

theorem readFileRecord_agree (h : Alike 0x14 pdu w₁ w₂) :
    Agree 0x14 pdu ((respondReadFileRecord residue₁ 0x14 >>= conclude).run w₁)
      ((respondReadFileRecord residue₂ 0x14 >>= conclude).run w₂) := by
  obtain ⟨hn₁, hmax, hd₁⟩ := h.taken₁
  obtain ⟨hn₂, -, hd₂⟩ := h.taken₂
  obtain ⟨left₁, hrun₁⟩ := respondReadFileRecord_run residue₁ 0x14 w₁ (by omega)
  obtain ⟨left₂, hrun₂⟩ := respondReadFileRecord_run residue₂ 0x14 w₂ (by omega)
  rw [hrun₁, hrun₂, h.callbacks, h.size, hn₁, hn₂]
  refine agree_callback h _ _ _ fun cb => agree_ite (fun _ => agree_none _) fun _ => ?_
  obtain ⟨hr, hw⟩ := readRecords_alike cb hd₁ hd₂ w₁.ctx.txbuf.cells.length
    (byteAt pdu 1 / 2 * 2 + 1) 0 2 h
  rw [hr]
  refine agree_ite (fun _ => agree_left hw _ _ _) fun _ => agree_reply hw _ _ _ _ ?_ ?_
  · have hb := UInt8.toNat_lt (UInt8.ofNat (readRecords cb w₁.ctx.request.slaveRegData.toList
      (byteAt pdu 1 / 2 * 2) w₁.ctx.txbuf.cells.length (byteAt pdu 1 / 2 * 2 + 1) 0 2
      w₁).bytes.length)
    omega
  · have hb := UInt8.toNat_lt (UInt8.ofNat (readRecords cb w₂.ctx.request.slaveRegData.toList
      (byteAt pdu 1 / 2 * 2) w₁.ctx.txbuf.cells.length (byteAt pdu 1 / 2 * 2 + 1) 0 2
      w₂).bytes.length)
    omega

/-- Every sub-request of Write File Record that is served has its registers in
the data field. -/
def RecordsComplete (regs : List UInt16) (regCount : Nat) : (rounds offset : Nat) → Prop
  | 0, _ => True
  | rounds + 1, offset =>
    offset + 7 ≤ regCount * 2 →
      let len := (recordLen regs (offset / 2)).toNat
      offset / 2 + 4 + len ≤ regCount ∧
        RecordsComplete regs regCount rounds (offset + 7 + len * 2)

theorem recordsComplete_shared (h₁ : regs₁.take regCount = carried)
    (h₂ : regs₂.take regCount = carried) (rounds offset : Nat) :
    RecordsComplete regs₂ regCount rounds offset ↔ RecordsComplete regs₁ regCount rounds offset := by
  induction rounds generalizing offset with
  | zero => rfl
  | succ rounds ih =>
    rw [RecordsComplete, RecordsComplete]
    refine imp_congr_right fun hl => ?_
    dsimp only
    rw [recordLen_shared h₁ h₂ (by omega), ih]

theorem recordValues_complete (residue : Residue) (h₁ : regs₁.take regCount = carried)
    (offset : Nat) (hc : offset / 2 + 4 + (recordLen regs₁ (offset / 2)).toNat ≤ regCount)
    (hl : regCount ≤ regs₁.length) :
    recordValues residue regs₁ regCount offset =
      (carried.drop (offset / 2 + 4)).take (recordLen regs₁ (offset / 2)).toNat := by
  have hle := recordLen_le regs₁ (offset / 2)
  rw [recordValues]
  generalize (recordLen regs₁ (offset / 2)).toNat = len at hc hle ⊢
  rw [Nat.min_eq_left (by omega), overlay_take _ _ _ (by simp; omega) (by simp; omega),
    List.take_take, Nat.min_self, ← h₁, List.drop_take, List.take_take, Nat.min_eq_left (by omega)]

theorem writeRecords_alike (cb : WriteMultipleRegistersFn σ)
    (h₁ : regs₁.take regCount = carriedRegisters fc pdu)
    (h₂ : regs₂.take regCount = carriedRegisters fc pdu) (hl₁ : regCount ≤ regs₁.length)
    (hl₂ : regCount ≤ regs₂.length) (rounds offset : Nat)
    (hc : RecordsComplete regs₁ regCount rounds offset) (h : Alike fc pdu w₁ w₂) :
    let r₁ := writeRecords residue₁ cb regs₁ regCount rounds offset w₁
    let r₂ := writeRecords residue₂ cb regs₂ regCount rounds offset w₂
    r₂.1 = r₁.1 ∧ Alike fc pdu r₁.2 r₂.2 := by
  induction rounds generalizing offset w₁ w₂ with
  | zero => exact ⟨rfl, h⟩
  | succ rounds ih =>
    dsimp only
    rw [writeRecords, writeRecords]
    by_cases hl : regCount * 2 < offset + 7
    · rw [if_pos hl, if_pos hl]
      exact ⟨rfl, h⟩
    · obtain ⟨hfits, hc⟩ := hc (by omega)
      have hlen := recordLen_shared h₁ h₂ (i := offset / 2) (by omega)
      rw [if_neg hl, if_neg hl, recordValues_complete residue₂ h₂ offset (by rwa [hlen]) hl₂,
        recordValues_complete residue₁ h₁ offset hfits hl₁, hlen,
        getElem?_shared h₁ h₂ (i := offset / 2 + 2) (by omega), h.app]
      have hlc : (carriedRegisters fc pdu).length = regCount := by
        rw [← h₁, List.length_take_of_le hl₁]
      dsimp only
      generalize regs₁[offset / 2 + 2]?.getD 0 = recNum
      generalize recordLen regs₁ (offset / 2) = len at hfits hc ⊢
      have hv : Carried fc pdu (.writeMultipleRegisters recNum len
          (((carriedRegisters fc pdu).drop (offset / 2 + 4)).take len.toNat)) :=
        ⟨offset / 2 + 4, by omega, rfl⟩
      generalize ((carriedRegisters fc pdu).drop (offset / 2 + 4)).take len.toNat = values at hv ⊢
      have hw := h.called (.writeMultipleRegisters recNum len values)
        (cb recNum len values w₁.app).1 (cb recNum len values w₁.app).2 hv
      generalize cb recNum len values w₁.app = r at hw ⊢
      by_cases hr : r.1 ≠ 0
      · rw [if_pos hr, if_pos hr]
        exact ⟨rfl, hw⟩
      · rw [if_neg hr, if_neg hr]
        exact ih _ hc hw

theorem writeFileRecord_agree (h : Alike 0x15 pdu w₁ w₂)
    (hc : RecordsComplete (carriedRegisters 0x15 pdu) (byteAt pdu 1 / 2)
      (byteAt pdu 1 / 2 * 2 + 1) 0) :
    Agree 0x15 pdu ((respondWriteFileRecord residue₁ 0x15 >>= conclude).run w₁)
      ((respondWriteFileRecord residue₂ 0x15 >>= conclude).run w₂) := by
  obtain ⟨hn₁, hmax, hd₁⟩ := h.taken₁
  obtain ⟨hn₂, -, hd₂⟩ := h.taken₂
  rw [respondWriteFileRecord_run residue₁ 0x15 w₁ (by omega),
    respondWriteFileRecord_run residue₂ 0x15 w₂ (by omega), h.callbacks]
  refine agree_callback h _ _ _ fun cb => ?_
  dsimp only
  rw [hn₁, hn₂]
  have hself : (carriedRegisters 0x15 pdu).take (byteAt pdu 1 / 2) = carriedRegisters 0x15 pdu :=
    List.take_of_length_le (registersOf_length _ _ _).le
  obtain ⟨hr, hw⟩ := writeRecords_alike residue₁ residue₂ cb hd₁ hd₂ (by simp; omega)
    (by simp; omega) _ _ ((recordsComplete_shared hself hd₁ _ _).mpr hc) h
  rw [hr]
  have hb := UInt8.toNat_lt (UInt8.ofNat (byteAt pdu 1 / 2 * 2))
  exact agree_ite (fun _ => agree_some hw _ _) fun _ => agree_reply hw _ _ _ _ (by omega) (by omega)

end Pamodbus.TwoRuns
