import Pamodbus.History
import Pamodbus.TwoRuns

namespace Pamodbus.HistoryIndependence

open Pamodbus.Lib.Cells Pamodbus.Lib.Procedure Pamodbus.Lib.Words
open Pamodbus.Context Pamodbus.FramerRtu Pamodbus.FramerTcp Pamodbus.Framer Pamodbus.Builders
open Pamodbus.SlaveParse Pamodbus.SlaveAccept Pamodbus.Feed Pamodbus.Respond Pamodbus.RespondRun
open Pamodbus.FileRecords Pamodbus.History Pamodbus.TwoRuns

variable {σ τ : Type}

def requestPdu (framer : Framer) (data : Bytes) : Bytes :=
  match framer with
  | .rtu => data.drop 1
  | .tcp => data.drop 7

/-- After any two histories of a slave, its answers to `data` invoke the same
callbacks, and write callbacks get nothing but what `data` carries. -/
def HistoryIndependent (framer : Framer) (slave discoveryAddr : UInt8) (data : Bytes) : Prop :=
  ∀ (σ : Type) (start ctx₁ ctx₂ : PaModbus σ) (w₁ w₂ : World σ) (residue₁ residue₂ : Residue),
    start.framerType = framer → start.slave = slave → start.discoveryAddr = discoveryAddr →
    Reached start ctx₁ → Reached start ctx₂ →
    (paModbusSlaveFeed data).run ctx₁ = some (paOk, w₁.ctx) →
    (paModbusSlaveFeed data).run ctx₂ = some (paOk, w₂.ctx) →
    w₂.app = w₁.app → w₁.calls = [] → w₂.calls = [] →
      Agree w₁.ctx.lastFunction (requestPdu framer data)
        ((paModbusSlaveRespond residue₁).run w₁) ((paModbusSlaveRespond residue₂).run w₂)

/-- The request carries as many coils or registers as its counts say. -/
def SelfContained (fc : UInt8) (pdu : Bytes) : Prop :=
  match fc with
  | 0x0F => coilBytes (field pdu 3) ≤ byteAt pdu 5
  | 0x10 => (field pdu 3).toNat ≤ byteAt pdu 5 / 2
  | 0x15 => RecordsComplete (carriedRegisters 0x15 pdu) (byteAt pdu 1 / 2)
      (byteAt pdu 1 / 2 * 2 + 1) 0
  | 0x17 => (field pdu 7).toNat ≤ byteAt pdu 9 / 2
  | _ => True

theorem unwrap_pdu (ctx : PaModbus σ) (data : Bytes) (p n : Nat)
    (h : unwrap ctx data = some (.ok p n)) : data.drop p = requestPdu ctx.framerType data := by
  rw [unwrap] at h
  cases hf : ctx.framerType with
  | rtu =>
    rw [hf] at h
    obtain ⟨-, -, -, -, -, -, -, rfl, -⟩ := (FramerRtu.unwrap_ok_iff ctx data p n).mp h
    rfl
  | tcp =>
    rw [hf] at h
    obtain ⟨-, -, rfl, -⟩ := (FramerTcp.unwrap_ok_iff ctx data p n).mp h
    rfl

theorem feed_taken (ctx ctx' : PaModbus σ) (data : Bytes)
    (h : (paModbusSlaveFeed data).run ctx = some (paOk, ctx')) :
    (requestPdu ctx.framerType data)[0]? = some ctx'.lastFunction ∧
      WellFormed ctx'.lastFunction ctx'.request ∧
      Taken ctx'.lastFunction (requestPdu ctx.framerType data) ctx'.request := by
  obtain ⟨p, n, hu, hparse⟩ := slaveFeed_accepted ctx ctx' data h
  rw [unwrap_pdu ctx data p n hu] at hparse
  obtain ⟨-, fc, hfc, -, r, hr, rfl⟩ := (parseSlaveRequest_accepts _ _ _ _).mp hparse
  exact ⟨hfc, accepted_wellFormed fc _ _ _ r hr, accepted_taken fc _ _ _ r hr⟩

theorem respond_agree (fc : UInt8) (pdu : Bytes) (w₁ w₂ : World σ) (residue₁ residue₂ : Residue)
    (h₁ : w₁.ctx.lastFunction = fc) (h₂ : w₂.ctx.lastFunction = fc) (h : Alike fc pdu w₁ w₂)
    (hc : SelfContained fc pdu) :
    Agree fc pdu ((paModbusSlaveRespond residue₁).run w₁)
      ((paModbusSlaveRespond residue₂).run w₂) := by
  have ht := h.taken₁
  rw [respond_run, respond_run, h₁, h₂, h.callbacks]
  unfold Taken at ht
  split at ht
  case h_1 => exact readBits_agree _ _ h (fun _ _ => trivial) fun _ ht => ht
  case h_2 => exact readBits_agree _ _ h (fun _ _ => trivial) fun _ ht => ht
  case h_3 => exact readRegisters_agree _ _ _ _ h (fun _ _ => trivial) fun _ ht => ht
  case h_4 => exact readRegisters_agree _ _ _ _ h (fun _ _ => trivial) fun _ ht => ht
  case h_5 => exact writeSingleCoil_agree h
  case h_6 => exact writeSingleRegister_agree h
  case h_7 => exact diagnostic_agree h
  case h_8 => exact exceptionStatus_agree _ _ h
  case h_9 => exact comEventCounter_agree _ _ h
  case h_10 => exact comEventLog_agree _ _ h
  case h_11 => exact reportServerId_agree _ _ h
  case h_12 => exact writeMultipleCoils_agree h hc
  case h_13 => exact writeMultipleRegisters_agree h hc
  case h_14 => exact readFileRecord_agree _ _ h
  case h_15 => exact writeFileRecord_agree _ _ h hc
  case h_16 => exact maskWriteRegister_agree _ _ h
  case h_17 => exact readWriteRegisters_agree _ _ h hc
  case h_18 => exact readFifoQueue_agree _ _ h
  case h_19 => exact absurd ht not_false

theorem selfContained_independent (framer : Framer) (slave discoveryAddr fc : UInt8)
    (data : Bytes) (hfc : (requestPdu framer data)[0]? = some fc)
    (hc : SelfContained fc (requestPdu framer data)) :
    HistoryIndependent framer slave discoveryAddr data := by
  rintro σ start ctx₁ ctx₂ w₁ w₂ residue₁ residue₂ rfl rfl rfl hr₁ hr₂ hf₁ hf₂ happ hn₁ hn₂
  have hs₁ := reached_sameConfig hr₁
  have hs₂ := reached_sameConfig hr₂
  obtain ⟨hfc₁, -, ht₁⟩ := feed_taken _ _ _ hf₁
  obtain ⟨hfc₂, -, ht₂⟩ := feed_taken _ _ _ hf₂
  have hk₁ := hs₁.trans (slaveFeed_sameConfig data _ _ _ hf₁)
  have hk₂ := hs₂.trans (slaveFeed_sameConfig data _ _ _ hf₂)
  rw [hs₁.framerType] at hfc₁ ht₁
  rw [hs₂.framerType] at hfc₂ ht₂
  generalize requestPdu start.framerType data = pdu at *
  obtain rfl : fc = w₁.ctx.lastFunction := by simpa [hfc] using hfc₁
  have hl : w₂.ctx.lastFunction = w₁.ctx.lastFunction := by simpa [hfc] using hfc₂.symm
  rw [hl] at ht₂
  have halike : Alike w₁.ctx.lastFunction pdu w₁ w₂ := {
    callbacks := hk₂.callbacks.trans hk₁.callbacks.symm
    size := hk₂.txSize.trans hk₁.txSize.symm
    app := happ
    calls := hn₂.trans hn₁.symm
    carried := by
      rw [hn₁]
      exact List.forall_mem_nil _
    taken₁ := ht₁
    taken₂ := ht₂ }
  exact respond_agree _ pdu w₁ w₂ residue₁ residue₂ rfl hl halike hc

def answering (ret : Int) : Callbacks Unit :=
  { (noCallbacks : Callbacks Unit) with
    readHoldingRegistersCb :=
      some fun _ count app => (ret, List.Vector.replicate count.toNat 0, app)
    writeMultipleCoilsCb := some fun _ _ _ app => (ret, app)
    writeMultipleRegistersCb := some fun _ _ _ app => (ret, app) }

def trial (ret : Int) (ctx : PaModbus σ) : PaModbus Unit :=
  { (station ctx.framerType ctx.slave 256 0 : PaModbus Unit) with
    discoveryAddr := ctx.discoveryAddr
    callbacks := answering ret
    request := ctx.request }

theorem unwrap_trial (ret : Int) (ctx : PaModbus σ) (data : Bytes) :
    unwrap (trial ret ctx) data = unwrap ctx data := by
  have haccepts (a : UInt8) : accepts (trial ret ctx) a = accepts ctx a := rfl
  rw [unwrap, unwrap]
  change (match ctx.framerType with
    | .rtu => paFramerRtuUnwrap (trial ret ctx) data
    | .tcp => paFramerTcpUnwrap (trial ret ctx) data) = _
  cases ctx.framerType with
  | rtu => simp only [paFramerRtuUnwrap, haccepts]
  | tcp => simp only [paFramerTcpUnwrap, haccepts]

theorem feed_trial (ret : Int) (ctx ctx' : PaModbus σ) (data : Bytes)
    (h : (paModbusSlaveFeed data).run ctx = some (paOk, ctx')) :
    (paModbusSlaveFeed data).run (trial ret ctx) = some (paOk,
      { trial ret ctx with lastFunction := ctx'.lastFunction, request := ctx'.request }) := by
  obtain ⟨p, n, hu, hparse⟩ := slaveFeed_accepted ctx ctx' data h
  obtain ⟨hn, fc, h0, hfc, r, hr, rfl⟩ := (parseSlaveRequest_accepts _ _ _ _).mp hparse
  rw [slaveFeed_ok _ data p n (by rw [unwrap_trial, hu])]
  exact (parseSlaveRequest_accepts _ _ _ _).mpr ⟨hn, fc, h0, hfc, r, hr, rfl⟩

def trialWorld (ret : Int) (ctx ctx' : PaModbus σ) : World Unit :=
  ⟨{ trial ret ctx with lastFunction := ctx'.lastFunction, request := ctx'.request }, (), 0, []⟩

theorem trial_agree (ret : Int) (ctx ctx' : PaModbus σ) (data : Bytes)
    (h : (paModbusSlaveFeed data).run ctx = some (paOk, ctx'))
    (hi : HistoryIndependent ctx.framerType ctx.slave ctx.discoveryAddr data)
    (residue₁ residue₂ : Residue) :
    Agree ctx'.lastFunction (requestPdu ctx.framerType data)
      ((paModbusSlaveRespond residue₁).run (trialWorld ret ctx ctx'))
      ((paModbusSlaveRespond residue₂).run (trialWorld ret ctx ctx')) :=
  hi Unit (trial ret ctx) _ _ (trialWorld ret ctx ctx') (trialWorld ret ctx ctx')
    residue₁ residue₂ rfl rfl rfl .refl .refl (feed_trial ret ctx ctx' data h)
    (feed_trial ret ctx ctx' data h) rfl rfl rfl

theorem agree_called {fc : UInt8} {pdu : Bytes} {run : Option (Int × World σ)} (w : World σ)
    (call : Call) (ret r : Int) (app : σ)
    (h : Agree fc pdu (some (ret, w.called call r app)) run) : Carried fc pdu call :=
  (h _ _ rfl).1 (call, r) (List.mem_append_right _ (List.mem_singleton_self _))

/-- The case that the trial slave runs. -/
theorem trial_run (ret : Int) (ctx ctx' : PaModbus σ) (fc : UInt8) (residue : Residue)
    (hfc : ctx'.lastFunction = fc) :
    (paModbusSlaveRespond residue).run (trialWorld ret ctx ctx') =
      (respondPdu residue (answering ret) fc >>= conclude).run (trialWorld ret ctx ctx') := by
  rw [respond_run, ← hfc]
  rfl

variable (ctx ctx' : PaModbus σ) (pdu : Bytes)

theorem coils_contained (h0F : ctx'.lastFunction = 0x0F) (ht : Taken 0x0F pdu ctx'.request)
    (residue₁ residue₂ : Residue)
    (h : Agree 0x0F pdu ((paModbusSlaveRespond residue₁).run (trialWorld 1 ctx ctx'))
      ((paModbusSlaveRespond residue₂).run (trialWorld 1 ctx ctx'))) :
    coilBytes (field pdu 3) ≤ byteAt pdu 5 := by
  obtain ⟨ha, hn, hl, -, -⟩ := ht
  have hrun : (respondPdu residue₁ (answering 1) 0x0F >>= conclude).run (trialWorld 1 ctx ctx') =
      withCallback (answering 1).writeMultipleCoilsCb (trialWorld 1 ctx ctx') _ :=
    respondWriteMultipleCoils_run 0x0F (trialWorld 1 ctx ctx') _ _ ha hn
  rw [trial_run 1 ctx ctx' 0x0F residue₁ h0F, hrun] at h
  dsimp only [answering, withCallback] at h
  rw [if_pos Int.one_ne_zero] at h
  rw [← hl]
  exact (agree_called _ _ _ _ _ h).1

theorem carried_length {fc : UInt8} {addr count : UInt16} {values : List UInt16}
    (h : Carried fc pdu (.writeMultipleRegisters addr count values)) :
    count.toNat ≤ (carriedRegisters fc pdu).length := by
  obtain ⟨start, hl, -⟩ := h
  omega

theorem registers_contained (h10 : ctx'.lastFunction = 0x10) (ht : Taken 0x10 pdu ctx'.request)
    (residue₁ residue₂ : Residue)
    (h : Agree 0x10 pdu ((paModbusSlaveRespond residue₁).run (trialWorld 1 ctx ctx'))
      ((paModbusSlaveRespond residue₂).run (trialWorld 1 ctx ctx'))) :
    (field pdu 3).toNat ≤ byteAt pdu 5 / 2 := by
  obtain ⟨ha, hn, -⟩ := ht
  have hrun : (respondPdu residue₁ (answering 1) 0x10 >>= conclude).run (trialWorld 1 ctx ctx') =
      withCallback (answering 1).writeMultipleRegistersCb (trialWorld 1 ctx ctx') _ :=
    respondWriteMultipleRegisters_run 0x10 (trialWorld 1 ctx ctx') _ _ ha hn
  rw [trial_run 1 ctx ctx' 0x10 residue₁ h10, hrun] at h
  dsimp only [answering, withCallback] at h
  rw [if_pos Int.one_ne_zero] at h
  exact (carried_length pdu (agree_called _ _ _ _ _ h)).trans (registersOf_length _ _ _).le

theorem writePart_contained (h17 : ctx'.lastFunction = 0x17) (ht : Taken 0x17 pdu ctx'.request)
    (residue₁ residue₂ : Residue)
    (h : Agree 0x17 pdu ((paModbusSlaveRespond residue₁).run (trialWorld 1 ctx ctx'))
      ((paModbusSlaveRespond residue₂).run (trialWorld 1 ctx ctx'))) :
    (field pdu 7).toNat ≤ byteAt pdu 9 / 2 := by
  obtain ⟨ha, hn, -, hd⟩ := ht
  have hrun : (respondPdu residue₁ (answering 1) 0x17 >>= conclude).run (trialWorld 1 ctx ctx') =
      withCallback (answering 1).readHoldingRegistersCb (trialWorld 1 ctx ctx') fun rcb =>
        withCallback (answering 1).writeMultipleRegistersCb (trialWorld 1 ctx ctx') _ :=
    respondReadWriteRegisters_run residue₁ 0x17 (trialWorld 1 ctx ctx') _ _ _ _ ha hn hd
  rw [trial_run 1 ctx ctx' 0x17 residue₁ h17, hrun] at h
  dsimp only [answering, withCallback] at h
  rw [if_pos Int.one_ne_zero] at h
  exact (carried_length pdu (agree_called _ _ _ _ _ h)).trans (registersOf_length _ _ _).le

theorem recordValues_incomplete (v : UInt16) (regs : List UInt16) (regCount offset : Nat)
    (ho : offset + 7 ≤ regCount * 2)
    (h : ¬ offset / 2 + 4 + (recordLen regs (offset / 2)).toNat ≤ regCount) :
    (recordValues (fun _ _ => v) regs regCount offset)[(recordLen regs (offset / 2)).toNat - 1]? =
      some v := by
  have hle := recordLen_le regs (offset / 2)
  rw [recordValues]
  generalize (recordLen regs (offset / 2)).toNat = len at h hle ⊢
  have hlast : len - 1 < 64 := by omega
  rw [List.getElem?_take_of_lt (by omega), overlay_getElem?_right _ _ _ (by simp; omega)
    (by simp; omega), uninit, List.Vector.toList_ofFn, List.getElem?_ofFn,
    dif_pos hlast]

def takeAll : WriteMultipleRegistersFn Unit := fun _ _ _ app => (0, app)

theorem takeAll_step (residue : Residue) (regs : List UInt16) (regCount rounds offset : Nat)
    (w : World Unit) (ho : offset + 7 ≤ regCount * 2) :
    let len := recordLen regs (offset / 2)
    writeRecords residue takeAll regs regCount (rounds + 1) offset w =
      writeRecords residue takeAll regs regCount rounds (offset + 7 + len.toNat * 2)
        (w.called (.writeMultipleRegisters (regs[offset / 2 + 2]?.getD 0) len
          (recordValues residue regs regCount offset)) 0 w.app) := by
  rw [writeRecords, if_neg (by omega)]
  exact if_neg (by simp [takeAll])

theorem takeAll_result (residue : Residue) (regs : List UInt16) (regCount rounds offset : Nat)
    (w : World Unit) :
    let r := writeRecords residue takeAll regs regCount rounds offset w
    r.1 = false ∧ w.calls <+: r.2.calls := by
  induction rounds generalizing offset w with
  | zero => exact ⟨rfl, List.prefix_rfl⟩
  | succ rounds ih =>
    by_cases ho : offset + 7 ≤ regCount * 2
    · dsimp only
      rw [takeAll_step residue regs regCount rounds offset w ho]
      obtain ⟨hr, hcalls⟩ := ih (offset + 7 + (recordLen regs (offset / 2)).toNat * 2)
        (w.called _ _ _)
      exact ⟨hr, (List.prefix_append _ _).trans hcalls⟩
    · dsimp only
      rw [writeRecords, if_pos (by omega)]
      exact ⟨rfl, List.prefix_rfl⟩

/-- What lay in the local array shows in the calls. -/
theorem takeAll_differ (u v : UInt16) (huv : u ≠ v) (regs : List UInt16)
    (regCount rounds offset : Nat) (w : World Unit) (hl : regCount ≤ regs.length)
    (h : ¬ RecordsComplete regs regCount rounds offset) :
    (writeRecords (fun _ _ => u) takeAll regs regCount rounds offset w).2.calls ≠
      (writeRecords (fun _ _ => v) takeAll regs regCount rounds offset w).2.calls := by
  induction rounds generalizing offset w with
  | zero => exact absurd trivial h
  | succ rounds ih =>
    obtain ⟨ho, h⟩ := Classical.not_imp.mp h
    rw [takeAll_step _ regs regCount rounds offset w ho,
      takeAll_step _ regs regCount rounds offset w ho]
    by_cases hc : offset / 2 + 4 + (recordLen regs (offset / 2)).toNat ≤ regCount
    · rw [recordValues_complete _ rfl offset hc hl, recordValues_complete _ rfl offset hc hl]
      exact ih _ _ fun hrest => h ⟨hc, hrest⟩
    · have hu := recordValues_incomplete u regs regCount offset ho hc
      have hv := recordValues_incomplete v regs regCount offset ho hc
      generalize recordLen regs (offset / 2) = len at hu hv ⊢
      generalize recordValues (fun _ _ => u) regs regCount offset = us at hu ⊢
      generalize recordValues (fun _ _ => v) regs regCount offset = vs at hv ⊢
      generalize regs[offset / 2 + 2]?.getD 0 = recNum
      have hpre (residue : Residue) (values : List UInt16) :=
        (takeAll_result residue regs regCount rounds (offset + 7 + len.toNat * 2)
          (w.called (.writeMultipleRegisters recNum len values) 0 w.app)).2
      intro he
      have hus := hpre (fun _ _ => u) us
      rw [he] at hus
      have hcalls := (List.prefix_of_prefix_length_le hus (hpre (fun _ _ => v) vs)
        (by simp [World.called])).eq_of_length (by simp [World.called])
      obtain rfl : us = vs := by simpa [World.called] using hcalls
      rw [hu, Option.some.injEq] at hv
      exact huv hv

theorem records_run (h15 : ctx'.lastFunction = 0x15) (hw : WellFormed 0x15 ctx'.request)
    (residue : Residue) :
    let regCount := ctx'.request.slaveRegCount.toNat
    ∃ ret w, (paModbusSlaveRespond residue).run (trialWorld 0 ctx ctx') = some (ret, w) ∧
      w.calls = (writeRecords residue takeAll ctx'.request.slaveRegData.toList regCount
        (regCount * 2 + 1) 0 (trialWorld 0 ctx ctx')).2.calls := by
  have hmax : ctx'.request.slaveRegCount.toNat ≤ 127 := hw
  have hrun : (respondPdu residue (answering 0) 0x15 >>= conclude).run (trialWorld 0 ctx ctx') =
      withCallback (some takeAll) (trialWorld 0 ctx ctx') _ :=
    respondWriteFileRecord_run residue 0x15 (trialWorld 0 ctx ctx') (le_trans hmax (by decide))
  have hrequest : (trialWorld 0 ctx ctx').ctx.request = ctx'.request := rfl
  rw [trial_run 0 ctx ctx' 0x15 residue h15, hrun]
  dsimp only [withCallback]
  rw [hrequest]
  obtain ⟨hr, -⟩ := takeAll_result residue ctx'.request.slaveRegData.toList
    ctx'.request.slaveRegCount.toNat (ctx'.request.slaveRegCount.toNat * 2 + 1) 0
    (trialWorld 0 ctx ctx')
  have hctx := writeRecords_ctx residue takeAll ctx'.request.slaveRegData.toList
    ctx'.request.slaveRegCount.toNat (ctx'.request.slaveRegCount.toNat * 2 + 1) 0
    (trialWorld 0 ctx ctx')
  generalize writeRecords residue takeAll ctx'.request.slaveRegData.toList
    ctx'.request.slaveRegCount.toNat (ctx'.request.slaveRegCount.toNat * 2 + 1) 0
    (trialWorld 0 ctx ctx') = r at hr hctx ⊢
  rw [if_neg (by simp [hr])]
  have hb := UInt8.toNat_lt (UInt8.ofNat (ctx'.request.slaveRegCount.toNat * 2))
  have hsize : r.2.ctx.txbuf.cells.length = 256 := by
    rw [hctx]
    exact List.length_replicate
  obtain ⟨⟨ret, w⟩, hdone⟩ := Option.isSome_iff_exists.mp ((reply_isSome
    ([0x15] ++ [UInt8.ofNat (ctx'.request.slaveRegCount.toNat * 2)] ++
      registerBytes (ctx'.request.slaveRegData.toList.take ctx'.request.slaveRegCount.toNat))
    (2 + (UInt8.ofNat (ctx'.request.slaveRegCount.toNat * 2)).toNat) r.2 (by omega)).mpr (by
      rw [hsize]
      simp
      omega))
  exact ⟨ret, w, hdone, reply_calls _ _ _ _ _ (by omega) hdone⟩

theorem records_contained (h15 : ctx'.lastFunction = 0x15) (ht : Taken 0x15 pdu ctx'.request)
    (hw : WellFormed 0x15 ctx'.request)
    (h : Agree 0x15 pdu ((paModbusSlaveRespond fun _ _ => 0).run (trialWorld 0 ctx ctx'))
      ((paModbusSlaveRespond fun _ _ => 1).run (trialWorld 0 ctx ctx'))) :
    RecordsComplete (carriedRegisters 0x15 pdu) (byteAt pdu 1 / 2) (byteAt pdu 1 / 2 * 2 + 1) 0 := by
  obtain ⟨hn, hmax, hd⟩ := ht
  obtain ⟨ret₁, w₁, hrun₁, hcalls₁⟩ := records_run ctx ctx' h15 hw fun _ _ => 0
  obtain ⟨ret₂, w₂, hrun₂, hcalls₂⟩ := records_run ctx ctx' h15 hw fun _ _ => 1
  have hcalls := (h ret₁ w₁ hrun₁).2 ret₂ w₂ hrun₂
  rw [hcalls₁, hcalls₂, hn] at hcalls
  have hself : (carriedRegisters 0x15 pdu).take (byteAt pdu 1 / 2) = carriedRegisters 0x15 pdu :=
    List.take_of_length_le (registersOf_length _ _ _).le
  rw [recordsComplete_shared hd hself]
  by_contra hc
  exact takeAll_differ 0 1 (by decide) _ _ _ _ _ (by simp; omega) hc hcalls.symm

/-- The requests that a slave answers the same way whatever came before them, with
nothing but their own values handed to write callbacks, are those that carry
what their counts say. -/
theorem history_independent_iff (ctx ctx' : PaModbus σ) (data : Bytes)
    (hacc : (paModbusSlaveFeed data).run ctx = some (paOk, ctx')) :
    HistoryIndependent ctx.framerType ctx.slave ctx.discoveryAddr data ↔
      SelfContained ctx'.lastFunction (requestPdu ctx.framerType data) := by
  obtain ⟨hfc, hw, ht⟩ := feed_taken ctx ctx' data hacc
  constructor
  · intro hi
    have hagree (ret : Int) := trial_agree ret ctx ctx' data hacc hi
    generalize hl : ctx'.lastFunction = fc at hw ht hagree ⊢
    unfold SelfContained
    split
    case h_1 =>
      exact coils_contained ctx ctx' _ hl ht _ _ (hagree 1 (fun _ _ => 0) (fun _ _ => 0))
    case h_2 =>
      exact registers_contained ctx ctx' _ hl ht _ _ (hagree 1 (fun _ _ => 0) (fun _ _ => 0))
    case h_3 => exact records_contained ctx ctx' _ hl ht hw (hagree 0 _ _)
    case h_4 =>
      exact writePart_contained ctx ctx' _ hl ht _ _ (hagree 1 (fun _ _ => 0) (fun _ _ => 0))
    case h_5 => trivial
  · exact selfContained_independent ctx.framerType ctx.slave ctx.discoveryAddr _ data hfc

def recorder : PaModbus Unit :=
  paModbusSetWriteMultipleRegistersCb (some takeAll) (station .rtu 1 16 16)

def writeFrame (values : List UInt16) : Bytes :=
  rtuFrame 1 ([0x10, 0, 0, 0, 2, UInt8.ofNat (values.length * 2)] ++ registerBytes values)

def fed (data : Bytes) (ctx : PaModbus Unit) : PaModbus Unit :=
  (((paModbusSlaveFeed data).run ctx).getD (paOk, ctx)).2

def callsOf (ctx : PaModbus Unit) : Option (List (Call × Int)) :=
  ((paModbusSlaveRespond fun _ _ => 0).run ⟨ctx, (), 0, []⟩).map fun r => r.2.calls

theorem full_write_independent : HistoryIndependent .rtu 1 0 (writeFrame [7, 8]) := by
  have hcontained : SelfContained 0x10 (requestPdu .rtu (writeFrame [7, 8])) :=
    Nat.le_of_ble_eq_true rfl
  exact (history_independent_iff recorder (fed (writeFrame [7, 8]) recorder) (writeFrame [7, 8])
    rfl).mpr hcontained

/-- A request for two registers that carries one: the second comes from the
request before it. -/
theorem stale_register_written :
    callsOf (fed (writeFrame [9]) recorder) = some [(.writeMultipleRegisters 0 2 [9, 0], 0)] ∧
      callsOf (fed (writeFrame [9]) (fed (writeFrame [7, 8]) recorder)) =
        some [(.writeMultipleRegisters 0 2 [9, 8], 0)] ∧
      ¬ HistoryIndependent .rtu 1 0 (writeFrame [9]) := by
  have hfresh : callsOf (fed (writeFrame [9]) recorder) =
      some [(.writeMultipleRegisters 0 2 [9, 0], 0)] := by decide +kernel
  have hstale : callsOf (fed (writeFrame [9]) (fed (writeFrame [7, 8]) recorder)) =
      some [(.writeMultipleRegisters 0 2 [9, 8], 0)] := by decide +kernel
  refine ⟨hfresh, hstale, fun h => ?_⟩
  have hold : Reached recorder (fed (writeFrame [7, 8]) recorder) :=
    .single (.feed (writeFrame [7, 8]) paOk rfl)
  have hagree := h Unit recorder recorder (fed (writeFrame [7, 8]) recorder)
    ⟨fed (writeFrame [9]) recorder, (), 0, []⟩
    ⟨fed (writeFrame [9]) (fed (writeFrame [7, 8]) recorder), (), 0, []⟩
    (fun _ _ => 0) (fun _ _ => 0) rfl rfl rfl .refl hold rfl rfl rfl rfl rfl
  obtain ⟨⟨ret₁, w₁⟩, hrun₁, hcalls₁⟩ := Option.map_eq_some_iff.mp hfresh
  obtain ⟨⟨ret₂, w₂⟩, hrun₂, hcalls₂⟩ := Option.map_eq_some_iff.mp hstale
  have hcalls := (hagree ret₁ w₁ hrun₁).2 ret₂ w₂ hrun₂
  dsimp only at hcalls₁ hcalls₂
  rw [hcalls₁, hcalls₂] at hcalls
  exact absurd hcalls (by decide)

end Pamodbus.HistoryIndependence
