import Pamodbus.HistoryIndependence

namespace Pamodbus.WriteConfirmed

open Pamodbus.Lib.Cells Pamodbus.Lib.Procedure Pamodbus.Lib.Words
open Pamodbus.Context Pamodbus.FramerRtu Pamodbus.Framer Pamodbus.Builders
open Pamodbus.SlaveParse Pamodbus.SlaveAccept Pamodbus.Feed Pamodbus.Respond Pamodbus.RespondRun
open Pamodbus.TwoRuns Pamodbus.HistoryIndependence

variable {σ β : Type}

def isWrite : Call → Bool
  | .writeSingleCoil _ _ => true
  | .writeSingleRegister _ _ => true
  | .writeMultipleCoils _ _ _ => true
  | .writeMultipleRegisters _ _ _ => true
  | _ => false

def RegisterRead (pdu : Bytes) (w : World σ) (value : UInt16) : Prop :=
  ∃ rcb, w.ctx.callbacks.readHoldingRegistersCb = some rcb ∧
    (rcb (field pdu 1) 1 w.app).1 = 0 ∧
    (rcb (field pdu 1) 1 w.app).2.1.toList.headD 0 = value

def Requested (fc : UInt8) (pdu : Bytes) (w : World σ) (call : Call) : Prop :=
  match fc with
  | 0x05 => call = .writeSingleCoil (field pdu 1) (coilValue pdu)
  | 0x06 => call = .writeSingleRegister (field pdu 1) (field pdu 3)
  | 0x0F => coilBytes (field pdu 3) ≤ (coilField pdu).length ∧
      call = .writeMultipleCoils (field pdu 1) (field pdu 3)
        ((coilField pdu).take (coilBytes (field pdu 3)))
  | 0x10 => call = .writeMultipleRegisters (field pdu 1) (field pdu 3)
      ((carriedRegisters 0x10 pdu).take (field pdu 3).toNat)
  | 0x16 => ∃ value, RegisterRead pdu w value ∧
      call = .writeSingleRegister (field pdu 1) ((value &&& field pdu 3) ||| field pdu 5)
  | 0x17 => call = .writeMultipleRegisters (field pdu 5) (field pdu 7)
      ((carriedRegisters 0x17 pdu).take (field pdu 7).toNat)
  | _ => False

/-- Since `w` there has been one write, the one requested, and it succeeded. -/
def Written (fc : UInt8) (pdu : Bytes) (w : World σ) (calls : List (Call × Int)) : Prop :=
  ∃ made call, calls = w.calls ++ made ∧ Requested fc pdu w call ∧
    made.filter (fun c => isWrite c.1) = [(call, 0)]

/-- When the run returns a positive length, the calls made have `P`. -/
def Confirms (P : List (Call × Int) → Prop) (run : Option (Int × World σ)) : Prop :=
  ∀ ret w, run = some (ret, w) → 0 < ret → P w.calls

/-- Write Multiple Coils ends with a response: its callback takes what it is
handed, and the response fits. -/
def CoilsTaken (pdu : Bytes) (w : World σ) : Prop :=
  ∃ cb, w.ctx.callbacks.writeMultipleCoilsCb = some cb ∧
    (cb (field pdu 1) (field pdu 3)
      (w.ctx.request.slaveCoilData.toList.take (coilBytes (field pdu 3))) w.app).1 = 0 ∧
    5 + overhead w.ctx.framerType ≤ w.ctx.txbuf.cells.length

def RegistersTaken (pdu : Bytes) (w : World σ) : Prop :=
  ∃ cb, w.ctx.callbacks.writeMultipleRegistersCb = some cb ∧
    (cb (field pdu 1) (field pdu 3)
      (w.ctx.request.slaveRegData.toList.take (field pdu 3).toNat) w.app).1 = 0 ∧
    5 + overhead w.ctx.framerType ≤ w.ctx.txbuf.cells.length

/-- Both halves of Read/Write Multiple Registers succeed, and the response fits. -/
def ReadWriteTaken (pdu : Bytes) (w : World σ) : Prop :=
  ∃ rcb wcb, w.ctx.callbacks.readHoldingRegistersCb = some rcb ∧
    w.ctx.callbacks.writeMultipleRegistersCb = some wcb ∧
    let r := wcb (field pdu 5) (field pdu 7)
      (w.ctx.request.slaveRegData.toList.take (field pdu 7).toNat) w.app
    r.1 = 0 ∧ (rcb (field pdu 1) (field pdu 3) r.2).1 = 0 ∧
    2 + (field pdu 3).toNat * 2 + overhead w.ctx.framerType ≤ w.ctx.txbuf.cells.length

/-- A request that gets a success response carries all that is to be written,
and a mask request finds its register readable. -/
def Sincere (fc : UInt8) (pdu : Bytes) (w : World σ) : Prop :=
  match fc with
  | 0x0F => CoilsTaken pdu w → SelfContained 0x0F pdu
  | 0x10 => RegistersTaken pdu w → SelfContained 0x10 pdu
  | 0x16 => w.ctx.callbacks.writeSingleRegisterCb.isSome →
      7 + overhead w.ctx.framerType ≤ w.ctx.txbuf.cells.length → ∃ value, RegisterRead pdu w value
  | 0x17 => ReadWriteTaken pdu w → SelfContained 0x17 pdu
  | _ => True

variable {P : List (Call × Int) → Prop} {c : Prop} [Decidable c]

theorem confirms_callback_iff (cb : Option β) (w : World σ) (f : β → Option (Int × World σ)) :
    Confirms P (withCallback cb w f) ↔ ∀ b, cb = some b → Confirms P (f b) := by
  cases cb with
  | none =>
    refine iff_of_true (fun ret w' h hret => ?_) fun b hb => by cases hb
    rw [withCallback, Option.some.injEq, Prod.mk.injEq] at h
    rw [← h.1] at hret
    exact absurd hret (by decide)
  | some b => simp [withCallback]

theorem confirms_overrun_iff (run : Option (Int × World σ)) :
    Confirms P (if c then none else run) ↔ (¬ c → Confirms P run) := by
  by_cases h : c
  · rw [if_pos h]
    exact iff_of_true (fun ret w hn => by cases hn) fun hc => absurd h hc
  · rw [if_neg h]
    exact ⟨fun hr _ => hr, fun hr => hr h⟩

theorem confirms_refused_iff (w : World σ) (run : Option (Int × World σ)) :
    Confirms P (if c then some (paErrCallback, w) else run) ↔ (¬ c → Confirms P run) := by
  by_cases h : c
  · rw [if_pos h]
    refine iff_of_true (fun ret w' hr hret => ?_) fun hc => absurd h hc
    rw [Option.some.injEq, Prod.mk.injEq] at hr
    rw [← hr.1] at hret
    exact absurd hret (by decide)
  · rw [if_neg h]
    exact ⟨fun hr _ => hr, fun hr => hr h⟩

theorem confirms_reply_iff (bytes : Bytes) (n : Nat) (w : World σ) (hn : n + 7 < 2 ^ 31)
    (hb : bytes.length = n) :
    Confirms P ((reply bytes n).run w) ↔
      (n + overhead w.ctx.framerType ≤ w.ctx.txbuf.cells.length → P w.calls) := by
  by_cases hfit : n + overhead w.ctx.framerType ≤ w.ctx.txbuf.cells.length
  · have hrun := emit_finish bytes n w hn hb.ge (by omega) hfit
    constructor
    · intro h _
      have hpos : 0 < overhead w.ctx.framerType := by
        cases w.ctx.framerType with
        | rtu => decide
        | tcp => decide
      have hp := h _ _ hrun (by omega)
      exact hp
    · intro h ret w' hr _
      rw [reply_calls bytes n w w' ret hn hr]
      exact h hfit
  · refine iff_of_true (fun ret w' hr hret => absurd hret ?_) fun h => absurd h hfit
    obtain ⟨⟨⟩, w₁, hemit, hfinish⟩ := bind_inv _ _ _ _ _ hr
    have hl : bytes.length ≤ w.ctx.txbuf.cells.length := by
      by_contra hl
      rw [emit_overrun bytes w (by omega)] at hemit
      cases hemit
    rw [emit_run bytes w hl, Option.some.injEq, Prod.mk.injEq] at hemit
    rw [← hemit.2, finish_full n _ hn (by simpa using hfit), Option.some.injEq,
      Prod.mk.injEq] at hfinish
    rw [← hfinish.1]
    decide

variable {fc : UInt8} {pdu : Bytes} {w : World σ}

theorem written_iff (made : List (Call × Int)) (call : Call) (ret : Int)
    (h : made.filter (fun c => isWrite c.1) = [(call, ret)]) :
    Written fc pdu w (w.calls ++ made) ↔ Requested fc pdu w call ∧ ret = 0 := by
  constructor
  · rintro ⟨made', call', hm, hr, hf⟩
    rw [List.append_cancel_left_eq] at hm
    rw [← hm, h] at hf
    simp only [List.cons.injEq, Prod.mk.injEq, and_true] at hf
    exact ⟨hf.1 ▸ hr, hf.2⟩
  · rintro ⟨hr, rfl⟩
    exact ⟨made, call, rfl, hr, h⟩

theorem unwritten (made : List (Call × Int)) (h : made.filter (fun c => isWrite c.1) = []) :
    ¬ Written fc pdu w (w.calls ++ made) := by
  rintro ⟨made', call', hm, -, hf⟩
  rw [List.append_cancel_left_eq] at hm
  rw [← hm, h] at hf
  cases hf

theorem take_carried_iff {stored carried : List β} {k n : Nat} (h : stored.take n = carried)
    (hn : carried.length = n) (hk : k ≤ stored.length) :
    stored.take k = carried.take k ↔ k ≤ n := by
  constructor
  · intro he
    have hl := congrArg List.length he
    rw [List.length_take_of_le hk, List.length_take, hn] at hl
    omega
  · exact take_shorter h

theorem writeSingleCoil_confirms (ht : Taken 0x05 pdu w.ctx.request) :
    Confirms (Written 0x05 pdu w) ((respondWriteSingleCoil 0x05 >>= conclude).run w) := by
  rw [respondWriteSingleCoil_run 0x05 w _ _ ht.1 ht.2, confirms_callback_iff]
  intro cb hcb
  rw [confirms_refused_iff]
  intro hret
  rw [confirms_reply_iff _ _ _ (by decide) (by simp)]
  intro hfit
  rw [World.called, written_iff _ _ _ rfl]
  exact ⟨rfl, not_not.mp hret⟩

theorem writeSingleRegister_confirms (ht : Taken 0x06 pdu w.ctx.request) :
    Confirms (Written 0x06 pdu w) ((respondWriteSingleRegister 0x06 >>= conclude).run w) := by
  rw [respondWriteSingleRegister_run 0x06 w _ _ ht.1 ht.2, confirms_callback_iff]
  intro cb hcb
  rw [confirms_refused_iff]
  intro hret
  rw [confirms_reply_iff _ _ _ (by decide) (by simp)]
  intro hfit
  rw [World.called, written_iff _ _ _ rfl]
  exact ⟨rfl, not_not.mp hret⟩

theorem writeMultipleCoils_confirms_iff (ht : Taken 0x0F pdu w.ctx.request) :
    Confirms (Written 0x0F pdu w) ((respondWriteMultipleCoils 0x0F >>= conclude).run w) ↔
      (CoilsTaken pdu w → SelfContained 0x0F pdu) := by
  obtain ⟨ha, hn, hl, -, hd⟩ := ht
  rw [respondWriteMultipleCoils_run 0x0F w _ _ ha hn, confirms_callback_iff]
  have hcontained : Requested 0x0F pdu w (.writeMultipleCoils (field pdu 1) (field pdu 3)
      (w.ctx.request.slaveCoilData.toList.take (coilBytes (field pdu 3)))) ↔
      SelfContained 0x0F pdu := by
    rw [Requested, Call.writeMultipleCoils.injEq, SelfContained, hl]
    simp only [true_and]
    exact ⟨fun h => h.1, fun h => ⟨h, take_shorter hd h⟩⟩
  constructor
  · rintro h ⟨cb, hcb, hret, hfit⟩
    have h := h cb hcb
    rw [confirms_refused_iff, confirms_reply_iff _ _ _ (by decide) (by simp)] at h
    have h := h (not_not.mpr hret) hfit
    rw [World.called, written_iff _ _ _ rfl] at h
    exact hcontained.mp h.1
  · intro h cb hcb
    rw [confirms_refused_iff]
    intro hret
    rw [confirms_reply_iff _ _ _ (by decide) (by simp)]
    intro hfit
    rw [World.called, written_iff _ _ _ rfl]
    have hret := not_not.mp hret
    exact ⟨hcontained.mpr (h ⟨cb, hcb, hret, hfit⟩), hret⟩

theorem registers_requested_iff {stored carried : List UInt16} {n : Nat} (addr count : UInt16)
    (h : stored.take n = carried) (hn : carried.length = n) (hk : count.toNat ≤ stored.length) :
    Call.writeMultipleRegisters addr count (stored.take count.toNat) =
      .writeMultipleRegisters addr count (carried.take count.toNat) ↔ count.toNat ≤ n := by
  rw [Call.writeMultipleRegisters.injEq]
  simp only [true_and]
  exact take_carried_iff h hn hk

theorem writeMultipleRegisters_confirms_iff (ht : Taken 0x10 pdu w.ctx.request)
    (hw : WellFormed 0x10 w.ctx.request) :
    Confirms (Written 0x10 pdu w) ((respondWriteMultipleRegisters 0x10 >>= conclude).run w) ↔
      (RegistersTaken pdu w → SelfContained 0x10 pdu) := by
  obtain ⟨ha, hn, hd⟩ := ht
  have hmax := hw.2
  rw [hn] at hmax
  rw [respondWriteMultipleRegisters_run 0x10 w _ _ ha hn, confirms_callback_iff]
  have hcontained : Requested 0x10 pdu w (.writeMultipleRegisters (field pdu 1) (field pdu 3)
      (w.ctx.request.slaveRegData.toList.take (field pdu 3).toNat)) ↔ SelfContained 0x10 pdu :=
    registers_requested_iff _ _ hd (registersOf_length _ _ _) (by simp; omega)
  constructor
  · rintro h ⟨cb, hcb, hret, hfit⟩
    have h := h cb hcb
    rw [confirms_refused_iff, confirms_reply_iff _ _ _ (by decide) (by simp)] at h
    have h := h (not_not.mpr hret) hfit
    rw [World.called, written_iff _ _ _ rfl] at h
    exact hcontained.mp h.1
  · intro h cb hcb
    rw [confirms_refused_iff]
    intro hret
    rw [confirms_reply_iff _ _ _ (by decide) (by simp)]
    intro hfit
    rw [World.called, written_iff _ _ _ rfl]
    have hret := not_not.mp hret
    exact ⟨hcontained.mpr (h ⟨cb, hcb, hret, hfit⟩), hret⟩

theorem readWriteRegisters_confirms_iff (residue : Residue) (ht : Taken 0x17 pdu w.ctx.request)
    (hw : WellFormed 0x17 w.ctx.request) :
    Confirms (Written 0x17 pdu w) ((respondReadWriteRegisters residue 0x17 >>= conclude).run w) ↔
      (ReadWriteTaken pdu w → SelfContained 0x17 pdu) := by
  obtain ⟨ha, hn, hd, hp⟩ := ht
  obtain ⟨hread, writeAddr, writeCount, hwrite, hp'⟩ := hw
  rw [hn] at hread
  have hcount : writeCount = field pdu 7 := by
    rw [hp] at hp'
    simp only [List.cons.injEq, and_true] at hp'
    rw [← word_bytes (field pdu 7), ← word_bytes writeCount, hp'.2.2.1, hp'.2.2.2]
  rw [hcount] at hwrite
  rw [respondReadWriteRegisters_run residue 0x17 w _ _ _ _ ha hn hp, confirms_callback_iff]
  have hcontained : Requested 0x17 pdu w (.writeMultipleRegisters (field pdu 5) (field pdu 7)
      (w.ctx.request.slaveRegData.toList.take (field pdu 7).toNat)) ↔ SelfContained 0x17 pdu :=
    registers_requested_iff _ _ hd (registersOf_length _ _ _) (by simp; omega)
  constructor
  · rintro h ⟨rcb, wcb, hrcb, hwcb, hwret, hrret, hfit⟩
    have h := h rcb hrcb
    rw [confirms_callback_iff] at h
    have h := h wcb hwcb
    rw [confirms_refused_iff] at h
    have h := h (not_not.mpr hwret)
    rw [confirms_overrun_iff] at h
    have h := h (by omega)
    rw [confirms_refused_iff, confirms_reply_iff _ _ _ (by omega) (by simp; omega)] at h
    have h := h (not_not.mpr hrret) hfit
    rw [World.called, World.called, List.append_assoc, written_iff _ _ _ rfl] at h
    exact hcontained.mp h.1
  · intro h rcb hrcb
    rw [confirms_callback_iff]
    intro wcb hwcb
    rw [confirms_refused_iff]
    intro hwret
    rw [confirms_overrun_iff]
    intro hspace
    rw [confirms_refused_iff]
    intro hrret
    rw [confirms_reply_iff _ _ _ (by omega) (by simp; omega)]
    intro hfit
    rw [World.called, World.called, List.append_assoc, written_iff _ _ _ rfl]
    have hwret := not_not.mp hwret
    have hrret := not_not.mp hrret
    exact ⟨hcontained.mpr (h ⟨rcb, wcb, hrcb, hwcb, hwret, hrret, hfit⟩), hwret⟩

theorem maskReply_confirms_iff (addr andMask orMask : UInt16) (w : World σ) :
    Confirms P ((maskReply fc addr andMask orMask).run w) ↔
      (7 + overhead w.ctx.framerType ≤ w.ctx.txbuf.cells.length → P w.calls) :=
  confirms_reply_iff _ 7 w (by decide) (by simp)

/-- An echo of the masks confirms nothing when the register was not read. -/
theorem unread_confirms_iff (cb : Option β) (f : β → Option (Int × World σ))
    (hf : ∀ b, Confirms (Written 0x16 pdu w) (f b) ↔
      ¬ 7 + overhead w.ctx.framerType ≤ w.ctx.txbuf.cells.length)
    (hread : ∀ value, ¬ RegisterRead pdu w value) :
    (∀ b, cb = some b → Confirms (Written 0x16 pdu w) (f b)) ↔
      (cb.isSome → 7 + overhead w.ctx.framerType ≤ w.ctx.txbuf.cells.length →
        ∃ value, RegisterRead pdu w value) := by
  simp only [hf]
  constructor
  · intro h hcb hfit
    obtain ⟨b, hb⟩ := Option.isSome_iff_exists.mp hcb
    exact absurd hfit (h b hb)
  · rintro h b rfl hfit
    obtain ⟨value, hvalue⟩ := h rfl hfit
    exact hread value hvalue

theorem maskWriteRegister_confirms_iff (residue : Residue) (ht : Taken 0x16 pdu w.ctx.request) :
    Confirms (Written 0x16 pdu w) ((respondMaskWriteRegister residue 0x16 >>= conclude).run w) ↔
      (w.ctx.callbacks.writeSingleRegisterCb.isSome →
        7 + overhead w.ctx.framerType ≤ w.ctx.txbuf.cells.length →
        ∃ value, RegisterRead pdu w value) := by
  rw [respondMaskWriteRegister_run residue 0x16 w _ _ _ ht.1 ht.2, confirms_callback_iff]
  cases hrcb : w.ctx.callbacks.readHoldingRegistersCb with
  | none =>
    refine unread_confirms_iff _ _ (fun cb => ?_) fun value => ?_
    · have hnone : ¬ Written 0x16 pdu w (w.calls ++ []) := unwritten [] rfl
      rw [List.append_nil] at hnone
      rw [maskReply_confirms_iff]
      exact ⟨fun h hfit => hnone (h hfit), fun h hfit => absurd hfit h⟩
    · rintro ⟨rcb, h, -⟩
      rw [hrcb] at h
      cases h
  | some rcb =>
    dsimp only
    by_cases hr : (rcb (field pdu 1) 1 w.app).1 = 0
    · have hread : RegisterRead pdu w ((rcb (field pdu 1) 1 w.app).2.1.toList.headD 0) :=
        ⟨rcb, hrcb, hr, rfl⟩
      refine iff_of_true (fun cb hcb => ?_) fun _ _ => ⟨_, hread⟩
      rw [if_neg (not_not.mpr hr), confirms_refused_iff]
      intro hret
      rw [maskReply_confirms_iff]
      intro hfit
      rw [World.called, World.called, List.append_assoc, written_iff _ _ _ rfl]
      exact ⟨⟨_, hread, rfl⟩, not_not.mp hret⟩
    · refine unread_confirms_iff _ _ (fun cb => ?_) fun value => ?_
      · have hnone : ¬ Written 0x16 pdu w (w.calls ++ [(.readHoldingRegisters (field pdu 1) 1,
            (rcb (field pdu 1) 1 w.app).1)]) := unwritten _ rfl
        rw [if_pos hr, maskReply_confirms_iff]
        exact ⟨fun h hfit => hnone (h hfit), fun h hfit => absurd hfit h⟩
      · rintro ⟨rcb', h, hz, -⟩
        rw [hrcb, Option.some.injEq] at h
        rw [← h] at hz
        exact hr hz

def writeFunctions : List UInt8 := [0x05, 0x06, 0x0F, 0x10, 0x16, 0x17]

/-- A write request gets a success response only for a write that happened as
requested, exactly when the request carries all that is to be written, or, for a
mask, when the register can be read. -/
theorem success_means_written_iff (residue : Residue) (ctx : PaModbus σ) (data : Bytes)
    (w : World σ) (hfeed : (paModbusSlaveFeed data).run ctx = some (paOk, w.ctx))
    (hfc : w.ctx.lastFunction ∈ writeFunctions) :
    Confirms (Written w.ctx.lastFunction (requestPdu ctx.framerType data) w)
        ((paModbusSlaveRespond residue).run w) ↔
      Sincere w.ctx.lastFunction (requestPdu ctx.framerType data) w := by
  obtain ⟨-, hw, ht⟩ := feed_taken ctx w.ctx data hfeed
  rw [respond_run]
  generalize w.ctx.lastFunction = fc at hfc hw ht ⊢
  simp only [writeFunctions, List.mem_cons, List.not_mem_nil, or_false] at hfc
  rcases hfc with rfl | rfl | rfl | rfl | rfl | rfl
  · exact iff_of_true (writeSingleCoil_confirms ht) trivial
  · exact iff_of_true (writeSingleRegister_confirms ht) trivial
  · exact writeMultipleCoils_confirms_iff ht
  · exact writeMultipleRegisters_confirms_iff ht hw
  · exact maskWriteRegister_confirms_iff residue ht
  · exact readWriteRegisters_confirms_iff residue ht hw

def oneRegister : PaModbus UInt16 :=
  paModbusSetWriteSingleRegisterCb (some fun _ value _ => (0, value)) (station .rtu 1 16 16)

def readableRegister : PaModbus UInt16 :=
  paModbusSetReadHoldingRegistersCb
    (some fun _ count value => (0, List.Vector.replicate count.toNat value, value)) oneRegister

def maskFrame : Bytes := rtuFrame 1 ([0x16] ++ put16 0 ++ put16 0xFF00 ++ put16 5)

/-- The slave after the request, with the register at `value`. -/
def masked (ctx : PaModbus UInt16) (value : UInt16) : World UInt16 :=
  ⟨(((paModbusSlaveFeed maskFrame).run ctx).getD (paOk, ctx)).2, value, 0, []⟩

theorem readable_register_written :
    Confirms (Written 0x16 (requestPdu .rtu maskFrame) (masked readableRegister 0x1234))
      ((paModbusSlaveRespond fun _ _ => 0).run (masked readableRegister 0x1234)) :=
  (success_means_written_iff (fun _ _ => 0) readableRegister maskFrame
    (masked readableRegister 0x1234) rfl (by decide)).mpr
    fun _ _ => ⟨0x1234, _, rfl, rfl, rfl⟩

/-- Without a read callback the mask is confirmed and nothing is written. -/
theorem unread_mask_confirmed :
    (paModbusSlaveFeed maskFrame).run oneRegister = some (paOk, (masked oneRegister 7).ctx) ∧
      ((paModbusSlaveRespond fun _ _ => 0).run (masked oneRegister 7)).map
        (fun r => (r.1, r.2.app, r.2.calls)) = some (10, 7, []) ∧
      ¬ Confirms (Written 0x16 (requestPdu .rtu maskFrame) (masked oneRegister 7))
        ((paModbusSlaveRespond fun _ _ => 0).run (masked oneRegister 7)) := by
  have hrun : ((paModbusSlaveRespond fun _ _ => 0).run (masked oneRegister 7)).map
      (fun r => (r.1, r.2.app, r.2.calls)) = some (10, 7, []) := by decide +kernel
  refine ⟨rfl, hrun, fun h => ?_⟩
  obtain ⟨⟨ret, w⟩, hret, hcalls⟩ := Option.map_eq_some_iff.mp hrun
  simp only [Prod.mk.injEq] at hcalls
  obtain ⟨made, call, hm, -, hf⟩ := h ret w hret (by omega)
  rw [hcalls.2.2] at hm
  have hnil : made = [] := (List.append_eq_nil_iff.mp hm.symm).2
  rw [hnil] at hf
  cases hf

end Pamodbus.WriteConfirmed
