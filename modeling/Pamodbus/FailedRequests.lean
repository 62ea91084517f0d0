import Pamodbus.WriteConfirmed

namespace Pamodbus.FailedRequests

open Pamodbus.Lib.Cells Pamodbus.Lib.Procedure Pamodbus.Lib.Words
open Pamodbus.Context Pamodbus.FramerRtu Pamodbus.Framer Pamodbus.Builders
open Pamodbus.SlaveAccept Pamodbus.Feed Pamodbus.Respond Pamodbus.RespondRun
open Pamodbus.FileRecords Pamodbus.HistoryIndependence Pamodbus.WriteConfirmed

variable {σ β : Type}

/-- Callbacks over a store: the read callbacks leave it alone, and a write
callback changes nothing when it returns non-zero. -/
structure OverStore (cbs : Callbacks σ) : Prop where
  readCoils : ∀ cb ∈ cbs.readCoilsCb, ∀ addr count s, (cb addr count s).2.2 = s
  readDiscreteInputs : ∀ cb ∈ cbs.readDiscreteInputsCb, ∀ addr count s, (cb addr count s).2.2 = s
  readHoldingRegisters :
    ∀ cb ∈ cbs.readHoldingRegistersCb, ∀ addr count s, (cb addr count s).2.2 = s
  readInputRegisters : ∀ cb ∈ cbs.readInputRegistersCb, ∀ addr count s, (cb addr count s).2.2 = s
  writeSingleCoil : ∀ cb ∈ cbs.writeSingleCoilCb, ∀ addr value s,
    (cb addr value s).1 ≠ 0 → (cb addr value s).2 = s
  writeSingleRegister : ∀ cb ∈ cbs.writeSingleRegisterCb, ∀ addr value s,
    (cb addr value s).1 ≠ 0 → (cb addr value s).2 = s
  writeMultipleCoils : ∀ cb ∈ cbs.writeMultipleCoilsCb, ∀ addr count values s,
    (cb addr count values s).1 ≠ 0 → (cb addr count values s).2 = s
  writeMultipleRegisters : ∀ cb ∈ cbs.writeMultipleRegistersCb, ∀ addr count values s,
    (cb addr count values s).1 ≠ 0 → (cb addr count values s).2 = s

def responseLength (fc : UInt8) (r : SlaveRequest) : Nat :=
  match fc with
  | 0x15 => 2 + (UInt8.ofNat (r.slaveRegCount.toNat * 2)).toNat
  | 0x16 => 7
  | 0x17 => 2 + r.slaveCount.toNat * 2
  | _ => 5

/-- How a call that started in `w` can fail after a write that succeeded: the
response does not fit, the read half of Read/Write Multiple Registers is
refused, or a later sub-request of Write File Record is. -/
inductive Late (fc : UInt8) (w w' : World σ) : Int → Prop
  | full (made : List (Call × Int)) (call : Call) (hcalls : w'.calls = w.calls ++ made)
      (hmade : (call, 0) ∈ made) (hwrite : isWrite call = true)
      (hroom : w.ctx.txbuf.cells.length <
        responseLength fc w.ctx.request + overhead w.ctx.framerType) :
      Late fc w w' paErrBufferFull
  | readHalf (write : Call) (ret : Int) (hfc : fc = 0x17) (hwrite : isWrite write = true)
      (hcalls : w'.calls = w.calls ++ [(write, 0),
        (.readHoldingRegisters w.ctx.request.slaveAddr w.ctx.request.slaveCount, ret)])
      (hret : ret ≠ 0) : Late fc w w' paErrCallback
  | laterRecord (done : List (Call × Int)) (call : Call) (ret : Int) (hfc : fc = 0x15)
      (hcalls : w'.calls = w.calls ++ done ++ [(call, ret)]) (hdone : done ≠ [])
      (hwrites : ∀ c ∈ done, isWrite c.1 = true ∧ c.2 = 0) (hwrite : isWrite call = true)
      (hret : ret ≠ 0) : Late fc w w' paErrCallback

/-- The store is as it was, or a write had already succeeded. -/
def Spared (fc : UInt8) (w : World σ) (ret : Int) (w' : World σ) : Prop :=
  w'.app = w.app ∨ Late fc w w' ret

/-- Where the run returns an error, that error and the world left have `P`. -/
def Fails (P : Int → World σ → Prop) (run : Option (Int × World σ)) : Prop :=
  ∀ ret w, run = some (ret, w) → ret < 0 → P ret w

variable {P : Int → World σ → Prop} {c : Prop} [Decidable c]

theorem fails_error (ret : Int) (w : World σ) (h : P ret w) : Fails P (some (ret, w)) := by
  intro ret' w' hr _
  rw [Option.some.injEq, Prod.mk.injEq] at hr
  rw [← hr.1, ← hr.2]
  exact h

theorem fails_none : Fails P none := by
  intro ret w h
  cases h

theorem fails_callback (cb : Option β) (w : World σ) (f : β → Option (Int × World σ))
    (hnone : P paErrState w) (hsome : ∀ b ∈ cb, Fails P (f b)) : Fails P (withCallback cb w f) := by
  cases cb with
  | none => exact fails_error paErrState w hnone
  | some b => exact hsome b rfl

theorem fails_ite {x y : Option (Int × World σ)} (hx : c → Fails P x) (hy : ¬ c → Fails P y) :
    Fails P (if c then x else y) := by
  by_cases h : c
  · rw [if_pos h]
    exact hx h
  · rw [if_neg h]
    exact hy h

theorem fails_reply (bytes : Bytes) (n : Nat) (w : World σ) (hn : n + 7 < 2 ^ 31)
    (h : w.ctx.txbuf.cells.length < n + overhead w.ctx.framerType →
      ∀ w', w'.app = w.app → w'.calls = w.calls → P paErrBufferFull w') :
    Fails P ((reply bytes n).run w) := by
  intro ret w' hr hneg
  obtain ⟨⟨⟩, w₁, hemit, hfinish⟩ := bind_inv _ _ _ _ _ hr
  have hstored : w₁ = w.withTx (w.ctx.txbuf.patch bytes) := by
    by_cases hl : bytes.length ≤ w.ctx.txbuf.cells.length
    · rw [emit_run bytes w hl, Option.some.injEq, Prod.mk.injEq] at hemit
      exact hemit.2.symm
    · rw [emit_overrun bytes w (by omega)] at hemit
      cases hemit
  by_cases hfit : n + overhead w₁.ctx.framerType ≤ w₁.ctx.txbuf.cells.length
  · rw [finish_fits n w₁ hn hfit, Option.some.injEq, Prod.mk.injEq] at hfinish
    omega
  · rw [finish_full n w₁ hn (by omega), Option.some.injEq, Prod.mk.injEq] at hfinish
    rw [← hfinish.1, ← hfinish.2, hstored]
    rw [hstored, World.withTx_framerType, World.withTx_txbuf, Buffer.patch_cells,
      overlay_length] at hfit
    exact h (by omega) _ rfl rfl

variable {fc : UInt8} {w : World σ}

theorem spared_same (ret : Int) {w' : World σ} (h : w'.app = w.app) : Spared fc w ret w' := .inl h

theorem fails_reply_same (bytes : Bytes) (n : Nat) {w₁ : World σ} (hn : n ≤ 1000)
    (h : w₁.app = w.app) : Fails (Spared fc w) ((reply bytes n).run w₁) :=
  fails_reply bytes n w₁ (by omega) fun _ _ happ _ => .inl (happ.trans h)

theorem fails_reply_late (bytes : Bytes) (n : Nat) {w₁ : World σ} (made : List (Call × Int))
    (call : Call) (hn : n ≤ 1000) (hlen : n = responseLength fc w.ctx.request)
    (hctx : w₁.ctx = w.ctx) (hcalls : w₁.calls = w.calls ++ made) (hmade : (call, 0) ∈ made)
    (hwrite : isWrite call = true) : Fails (Spared fc w) ((reply bytes n).run w₁) := by
  refine fails_reply bytes n w₁ (by omega) fun hroom _ _ hc =>
    .inr (.full made call (hc.trans hcalls) hmade hwrite ?_)
  rwa [← hlen, ← hctx]

theorem fails_write (bytes : Bytes) (n : Nat) {w₁ : World σ} (before : List (Call × Int))
    (call : Call) (ret : Int) (app : σ) (hn : n ≤ 1000)
    (hlen : n = responseLength fc w.ctx.request) (hctx : w₁.ctx = w.ctx)
    (hwrite : isWrite call = true) (hcalls : w₁.calls = w.calls ++ before)
    (hstore : ret ≠ 0 → app = w.app) :
    Fails (Spared fc w) (if ret ≠ 0 then some (paErrCallback, w₁.called call ret app)
      else (reply bytes n).run (w₁.called call ret app)) := by
  refine fails_ite (fun hret => fails_error _ _ (spared_same _ (hstore hret))) fun hret => ?_
  rw [not_not.mp hret]
  refine fails_reply_late bytes n (before ++ [(call, 0)]) call hn hlen hctx ?_ ?_ hwrite
  · rw [World.called, hcalls, List.append_assoc]
  · exact List.mem_append_right _ (List.mem_singleton_self _)

theorem fails_first_write (bytes : Bytes) (n : Nat) (call : Call) (ret : Int) (app : σ)
    (hn : n ≤ 1000) (hlen : n = responseLength fc w.ctx.request) (hwrite : isWrite call = true)
    (hstore : ret ≠ 0 → app = w.app) :
    Fails (Spared fc w) (if ret ≠ 0 then some (paErrCallback, w.called call ret app)
      else (reply bytes n).run (w.called call ret app)) :=
  fails_write bytes n [] call ret app hn hlen rfl hwrite (List.append_nil _).symm hstore

theorem readBits_fails (cb : Option (ReadCoilsFn σ)) (call : UInt16 → UInt16 → Call)
    (hcb : ∀ cb' ∈ cb, ∀ addr count s, (cb' addr count s).2.2 = s) :
    Fails (Spared fc w) ((respondReadBits fc cb call >>= conclude).run w) := by
  rw [respondReadBits_run fc cb call w _ _ rfl rfl]
  refine fails_callback cb w _ (spared_same _ rfl) fun b hb =>
    fails_ite (fun _ => fails_none) fun h33 => ?_
  have happ := hcb b hb w.ctx.request.slaveAddr w.ctx.request.slaveCount w.app
  exact fails_ite (fun _ => fails_error _ _ (spared_same _ happ)) fun _ =>
    fails_reply_same _ _ (by omega) happ

theorem readRegisters_fails (residue : Residue) (cb : Option (ReadRegistersFn σ))
    (call : UInt16 → UInt16 → Call)
    (hcb : ∀ cb' ∈ cb, ∀ addr count s, (cb' addr count s).2.2 = s) :
    Fails (Spared fc w) ((respondReadRegisters residue fc cb call >>= conclude).run w) := by
  rw [respondReadRegisters_run residue fc cb call w _ _ rfl rfl]
  refine fails_callback cb w _ (spared_same _ rfl) fun b hb =>
    fails_ite (fun _ => fails_none) fun hroom => ?_
  have happ := hcb b hb w.ctx.request.slaveAddr w.ctx.request.slaveCount w.app
  exact fails_ite (fun _ => fails_error _ _ (spared_same _ happ)) fun _ =>
    fails_reply_same _ _ (by omega) happ

theorem writeSingleCoil_fails (hs : OverStore w.ctx.callbacks) :
    Fails (Spared 0x05 w) ((respondWriteSingleCoil 0x05 >>= conclude).run w) := by
  obtain ⟨value, hv⟩ := getElem?_some w.ctx.request.slaveCoilData.toList 0 (by simp)
  rw [respondWriteSingleCoil_run 0x05 w _ value rfl hv]
  exact fails_callback _ w _ (spared_same _ rfl) fun cb hcb =>
    fails_first_write _ _ _ _ _ (by decide) rfl rfl (hs.writeSingleCoil cb hcb _ _ _)

theorem writeSingleRegister_fails (hs : OverStore w.ctx.callbacks) :
    Fails (Spared 0x06 w) ((respondWriteSingleRegister 0x06 >>= conclude).run w) := by
  obtain ⟨value, hv⟩ := getElem?_some w.ctx.request.slaveRegData.toList 0 (by simp)
  rw [respondWriteSingleRegister_run 0x06 w _ value rfl hv]
  exact fails_callback _ w _ (spared_same _ rfl) fun cb hcb =>
    fails_first_write _ _ _ _ _ (by decide) rfl rfl (hs.writeSingleRegister cb hcb _ _ _)

theorem exceptionStatus_fails (residue : Residue) (hs : OverStore w.ctx.callbacks) :
    Fails (Spared fc w) ((respondExceptionStatus residue fc >>= conclude).run w) := by
  rw [respondExceptionStatus_run]
  refine fails_callback _ w _ (spared_same _ rfl) fun cb hcb => ?_
  have happ := hs.readCoils cb hcb 0 8 w.app
  exact fails_ite (fun _ => fails_error _ _ (spared_same _ happ)) fun _ =>
    fails_reply_same _ _ (by decide) happ

theorem diagnostic_fails : Fails (Spared fc w) ((respondDiagnostic fc >>= conclude).run w) := by
  obtain ⟨value, hv⟩ := getElem?_some w.ctx.request.slaveRegData.toList 0 (by simp)
  rw [respondDiagnostic_run fc w _ value rfl hv]
  exact fails_reply_same _ _ (by decide) rfl

theorem comEventCounter_fails (residue : Residue) (hs : OverStore w.ctx.callbacks) :
    Fails (Spared fc w) ((respondComEventCounter residue fc >>= conclude).run w) := by
  rw [respondComEventCounter_run]
  refine fails_callback _ w _ (spared_same _ rfl) fun cb hcb => ?_
  have happ := hs.readHoldingRegisters cb hcb 0xFFFE 2 w.app
  exact fails_ite (fun _ => fails_error _ _ (spared_same _ happ)) fun _ =>
    fails_reply_same _ _ (by decide) happ

theorem comEventLog_fails (residue : Residue) (hs : OverStore w.ctx.callbacks) :
    Fails (Spared fc w) ((respondComEventLog residue fc >>= conclude).run w) := by
  rw [respondComEventLog_run]
  refine fails_callback _ w _ (spared_same _ rfl) fun cb hcb => ?_
  have happ := hs.readHoldingRegisters cb hcb 0xFFFC 5 w.app
  exact fails_ite (fun _ => fails_error _ _ (spared_same _ happ)) fun _ =>
    fails_reply_same _ _ (by decide) happ

theorem writeMultipleCoils_fails (hs : OverStore w.ctx.callbacks) :
    Fails (Spared 0x0F w) ((respondWriteMultipleCoils 0x0F >>= conclude).run w) := by
  rw [respondWriteMultipleCoils_run 0x0F w _ _ rfl rfl]
  exact fails_callback _ w _ (spared_same _ rfl) fun cb hcb =>
    fails_first_write _ _ _ _ _ (by decide) rfl rfl (hs.writeMultipleCoils cb hcb _ _ _ _)

theorem writeMultipleRegisters_fails (hs : OverStore w.ctx.callbacks) :
    Fails (Spared 0x10 w) ((respondWriteMultipleRegisters 0x10 >>= conclude).run w) := by
  rw [respondWriteMultipleRegisters_run 0x10 w _ _ rfl rfl]
  exact fails_callback _ w _ (spared_same _ rfl) fun cb hcb =>
    fails_first_write _ _ _ _ _ (by decide) rfl rfl (hs.writeMultipleRegisters cb hcb _ _ _ _)

theorem reportServerId_fails (residue : Residue) (hs : OverStore w.ctx.callbacks) :
    Fails (Spared fc w) ((respondReportServerId residue fc >>= conclude).run w) := by
  rw [respondReportServerId_run]
  refine fails_callback _ w _ (spared_same _ rfl) fun cb hcb => ?_
  have happ := hs.readHoldingRegisters cb hcb 0xFFF0 64 w.app
  exact fails_ite (fun _ => fails_error _ _ (spared_same _ happ)) fun _ =>
    fails_reply_same _ _ (by omega) happ

theorem readFifoQueue_fails (residue : Residue) (hs : OverStore w.ctx.callbacks) :
    Fails (Spared fc w) ((respondReadFifoQueue residue fc >>= conclude).run w) := by
  rw [respondReadFifoQueue_run residue fc w _ rfl]
  refine fails_callback _ w _ (spared_same _ rfl) fun cb hcb => ?_
  have happ := hs.readHoldingRegisters cb hcb w.ctx.request.slaveAddr 128 w.app
  exact fails_ite (fun _ => fails_error _ _ (spared_same _ happ)) fun _ =>
    fails_reply_same _ _ (by omega) happ

theorem maskWriteRegister_fails (residue : Residue) (hs : OverStore w.ctx.callbacks) :
    Fails (Spared 0x16 w) ((respondMaskWriteRegister residue 0x16 >>= conclude).run w) := by
  obtain ⟨andMask, orMask, hm⟩ : ∃ a o, w.ctx.request.slaveRegData.toList.take 2 = [a, o] :=
    List.length_eq_two.mp (by simp)
  rw [respondMaskWriteRegister_run residue 0x16 w _ _ _ rfl hm]
  refine fails_callback _ w _ (spared_same _ rfl) fun cb hcb => ?_
  cases hrcb : w.ctx.callbacks.readHoldingRegistersCb with
  | none => exact fails_reply_same _ _ (by decide) rfl
  | some rcb =>
    have happ := hs.readHoldingRegisters rcb hrcb w.ctx.request.slaveAddr 1 w.app
    exact fails_ite (fun _ => fails_reply_same _ _ (by decide) happ) fun _ =>
      fails_write _ _ [_] _ _ _ (by decide) rfl rfl rfl rfl fun hret =>
        (hs.writeSingleRegister cb hcb _ _ _ hret).trans happ

theorem readWriteRegisters_fails (residue : Residue) (hs : OverStore w.ctx.callbacks)
    (hw : WellFormed 0x17 w.ctx.request) :
    Fails (Spared 0x17 w) ((respondReadWriteRegisters residue 0x17 >>= conclude).run w) := by
  obtain ⟨hread, writeAddr, writeCount, -, hp⟩ := hw
  rw [respondReadWriteRegisters_run residue 0x17 w _ _ _ _ rfl rfl hp]
  refine fails_callback _ w _ (spared_same _ rfl) fun rcb hrcb =>
    fails_callback _ w _ (spared_same _ rfl) fun wcb hwcb => fails_ite (fun hret => ?_)
      fun hret => fails_ite (fun _ => fails_none) fun _ => ?_
  · exact fails_error _ _ (spared_same _ (hs.writeMultipleRegisters wcb hwcb _ _ _ _ hret))
  · rw [not_not.mp hret]
    refine fails_ite (fun hrefused => fails_error _ _ (.inr ?_)) fun _ => ?_
    · exact .readHalf _ _ rfl rfl (List.append_assoc _ _ _) hrefused
    · exact fails_reply_late _ _ [_, _] _ (by omega) rfl rfl (List.append_assoc _ _ _)
        (List.mem_cons_self ..) rfl

theorem readRecords_app (cb : ReadRegistersFn σ) (regs : List UInt16) (limit size : Nat)
    (rounds reqOffset offset : Nat) (w : World σ)
    (hcb : ∀ addr count s, (cb addr count s).2.2 = s) :
    (readRecords cb regs limit size rounds reqOffset offset w).world.app = w.app := by
  induction rounds generalizing reqOffset offset w with
  | zero => rfl
  | succ rounds ih =>
    rw [readRecords]
    dsimp only
    split
    · rfl
    · split
      · exact hcb _ _ _
      · split
        · exact hcb _ _ _
        · exact (ih _ _ _).trans (hcb _ _ _)

theorem readFileRecord_fails (residue : Residue) (hs : OverStore w.ctx.callbacks)
    (hw : w.ctx.request.slaveRegCount.toNat ≤ 127) :
    Fails (Spared fc w) ((respondReadFileRecord residue fc >>= conclude).run w) := by
  obtain ⟨left, hrun⟩ := respondReadFileRecord_run residue fc w (by omega)
  rw [hrun]
  refine fails_callback _ w _ (spared_same _ rfl) fun cb hcb => ?_
  have happ := readRecords_app cb w.ctx.request.slaveRegData.toList
    (w.ctx.request.slaveRegCount.toNat * 2) w.ctx.txbuf.cells.length
    (w.ctx.request.slaveRegCount.toNat * 2 + 1) 0 2 w (hs.readHoldingRegisters cb hcb)
  dsimp only
  generalize readRecords cb _ _ _ _ _ _ w = served at happ ⊢
  have hbytes := (UInt8.ofNat served.bytes.length).toNat_lt
  exact fails_ite (fun _ => fails_none) fun _ =>
    fails_ite (fun _ => fails_error _ _ (spared_same _ happ)) fun _ =>
      fails_reply_same _ _ (by omega) happ

theorem writeRecords_calls (residue : Residue) (cb : WriteMultipleRegistersFn σ)
    (regs : List UInt16) (regCount rounds offset : Nat) (w : World σ)
    (hcb : ∀ addr count values s, (cb addr count values s).1 ≠ 0 → (cb addr count values s).2 = s) :
    let r := writeRecords residue cb regs regCount rounds offset w
    ∃ done : List (Call × Int), (∀ c ∈ done, isWrite c.1 = true ∧ c.2 = 0) ∧
      (done = [] → r.2.app = w.app) ∧
      (r.1 = false ∧ r.2.calls = w.calls ++ done ∨
        r.1 = true ∧ ∃ call ret, isWrite call = true ∧ ret ≠ 0 ∧
          r.2.calls = w.calls ++ done ++ [(call, ret)]) := by
  induction rounds generalizing offset w with
  | zero => exact ⟨[], by simp, fun _ => rfl, .inl ⟨rfl, (List.append_nil _).symm⟩⟩
  | succ rounds ih =>
    dsimp only
    rw [writeRecords]
    dsimp only
    generalize recordValues residue regs regCount offset = values
    generalize regs[offset / 2 + 2]?.getD 0 = recNum
    generalize recordLen regs (offset / 2) = len
    by_cases hend : regCount * 2 < offset + 7
    · rw [if_pos hend]
      exact ⟨[], by simp, fun _ => rfl, .inl ⟨rfl, (List.append_nil _).symm⟩⟩
    rw [if_neg hend]
    by_cases hret : (cb recNum len values w.app).1 ≠ 0
    · rw [if_pos hret]
      refine ⟨[], by simp, fun _ => hcb _ _ _ _ hret, .inr ⟨rfl,
        .writeMultipleRegisters recNum len values, _, rfl, hret, ?_⟩⟩
      rw [List.append_nil]
      rfl
    · rw [if_neg hret, not_not.mp hret]
      obtain ⟨done, hdone, -, hcalls⟩ := ih (offset + 7 + len.toNat * 2)
        (w.called (.writeMultipleRegisters recNum len values) 0 (cb recNum len values w.app).2)
      refine ⟨(.writeMultipleRegisters recNum len values, 0) :: done, ?_, by simp, ?_⟩
      · intro c hc
        rcases List.mem_cons.mp hc with rfl | hc
        · exact ⟨rfl, rfl⟩
        · exact hdone c hc
      · rw [List.append_cons]
        exact hcalls

theorem writeFileRecord_fails (residue : Residue) (hs : OverStore w.ctx.callbacks)
    (hw : w.ctx.request.slaveRegCount.toNat ≤ 127) :
    Fails (Spared 0x15 w) ((respondWriteFileRecord residue 0x15 >>= conclude).run w) := by
  rw [respondWriteFileRecord_run residue 0x15 w (by omega)]
  refine fails_callback _ w _ (spared_same _ rfl) fun cb hcb => ?_
  obtain ⟨done, hdone, happ, hcalls⟩ := writeRecords_calls residue cb
    w.ctx.request.slaveRegData.toList w.ctx.request.slaveRegCount.toNat
    (w.ctx.request.slaveRegCount.toNat * 2 + 1) 0 w (hs.writeMultipleRegisters cb hcb)
  dsimp only at happ hcalls ⊢
  have hctx := writeRecords_ctx residue cb w.ctx.request.slaveRegData.toList
    w.ctx.request.slaveRegCount.toNat (w.ctx.request.slaveRegCount.toNat * 2 + 1) 0 w
  generalize writeRecords residue cb _ _ _ _ w = r at happ hcalls hctx ⊢
  have hbytes := (UInt8.ofNat (w.ctx.request.slaveRegCount.toNat * 2)).toNat_lt
  rcases hcalls with ⟨hr, hc⟩ | ⟨hr, call, ret, hwrite, hret, hc⟩
  · rw [if_neg (by simp [hr])]
    cases done with
    | nil => exact fails_reply_same _ _ (by omega) (happ rfl)
    | cons c done =>
      obtain ⟨call, ret⟩ := c
      obtain ⟨hwrite, hzero⟩ := hdone (call, ret) (List.mem_cons_self ..)
      dsimp only at hwrite hzero
      rw [hzero] at hc
      exact fails_reply_late _ _ _ call (by omega) rfl hctx hc (List.mem_cons_self ..) hwrite
  · rw [if_pos hr]
    by_cases hnil : done = []
    · exact fails_error _ _ (spared_same _ (happ hnil))
    · exact fails_error _ _ (.inr (.laterRecord done call ret rfl hc hnil hdone hwrite hret))

/-- An error leaves the store untouched, unless it comes after a write that had
already succeeded. -/
theorem failed_request_spares (residue : Residue) (ctx : PaModbus σ) (data : Bytes) (w : World σ)
    (hfeed : (paModbusSlaveFeed data).run ctx = some (paOk, w.ctx))
    (hs : OverStore w.ctx.callbacks) :
    Fails (Spared w.ctx.lastFunction w) ((paModbusSlaveRespond residue).run w) := by
  obtain ⟨-, hw, -⟩ := feed_taken ctx w.ctx data hfeed
  rw [respond_run]
  generalize w.ctx.lastFunction = fc at hw ⊢
  unfold WellFormed at hw
  split at hw
  case h_1 => exact readBits_fails _ _ hs.readCoils
  case h_2 => exact readBits_fails _ _ hs.readDiscreteInputs
  case h_3 => exact readRegisters_fails residue _ _ hs.readHoldingRegisters
  case h_4 => exact readRegisters_fails residue _ _ hs.readInputRegisters
  case h_5 => exact writeSingleCoil_fails hs
  case h_6 => exact writeSingleRegister_fails hs
  case h_7 => exact exceptionStatus_fails residue hs
  case h_8 => exact diagnostic_fails
  case h_9 => exact comEventCounter_fails residue hs
  case h_10 => exact comEventLog_fails residue hs
  case h_11 => exact reportServerId_fails residue hs
  case h_12 => exact maskWriteRegister_fails residue hs
  case h_13 => exact readFifoQueue_fails residue hs
  case h_14 => exact writeMultipleCoils_fails hs
  case h_15 => exact writeMultipleRegisters_fails hs
  case h_16 => exact readFileRecord_fails residue hs hw
  case h_17 => exact writeFileRecord_fails residue hs hw
  case h_18 => exact readWriteRegisters_fails residue hs hw
  case h_19 => exact absurd hw not_false

/-- A slave whose one register takes values below 256, with `txSize` bytes to answer in. -/
def smallRegister (txSize : UInt16) : PaModbus UInt16 :=
  paModbusSetWriteSingleRegisterCb
    (some fun _ value s => if value < 256 then (0, value) else (1, s)) (station .rtu 1 txSize 16)

theorem smallRegister_store (txSize : UInt16) : OverStore (smallRegister txSize).callbacks where
  readCoils _ h := by cases h
  readDiscreteInputs _ h := by cases h
  readHoldingRegisters _ h := by cases h
  readInputRegisters _ h := by cases h
  writeSingleCoil _ h := by cases h
  writeSingleRegister _ h addr value s := by
    cases h
    dsimp only
    split
    · exact fun hret => absurd rfl hret
    · exact fun _ => rfl
  writeMultipleCoils _ h := by cases h
  writeMultipleRegisters _ h := by cases h

def registerFrame (value : UInt16) : Bytes := rtuFrame 1 ([0x06] ++ put16 0 ++ put16 value)

/-- The slave after the request for its register, which holds zero. -/
def asked (txSize value : UInt16) : World UInt16 :=
  ⟨(((paModbusSlaveFeed (registerFrame value)).run (smallRegister txSize)).getD
    (paOk, smallRegister txSize)).2, 0, 0, []⟩

theorem large_value_spared :
    Fails (Spared 0x06 (asked 16 300)) ((paModbusSlaveRespond fun _ _ => 0).run (asked 16 300)) :=
  failed_request_spares (fun _ _ => 0) (smallRegister 16) (registerFrame 300) (asked 16 300) rfl
    (smallRegister_store 16)

/-- Six bytes hold the response but not its frame: the register is written, and
the request ends with an error. -/
theorem small_buffer_written :
    (paModbusSlaveFeed (registerFrame 7)).run (smallRegister 6) = some (paOk, (asked 6 7).ctx) ∧
      OverStore (asked 6 7).ctx.callbacks ∧ (asked 6 7).app = 0 ∧
      ((paModbusSlaveRespond fun _ _ => 0).run (asked 6 7)).map (fun r => (r.1, r.2.app)) =
        some (paErrBufferFull, 7) :=
  ⟨rfl, smallRegister_store 6, rfl, by decide +kernel⟩

end Pamodbus.FailedRequests
