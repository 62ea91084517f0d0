import Pamodbus.Answering
import Pamodbus.Builders
import Pamodbus.Send

namespace Pamodbus.TransactionIds

open Pamodbus.Lib.Cells Pamodbus.Lib.CInt Pamodbus.Lib.Procedure Pamodbus.Lib.Hoare
open Pamodbus.Lib.Words
open Pamodbus.Context Pamodbus.FramerRtu Pamodbus.FramerTcp Pamodbus.Framer Pamodbus.Builders
open Pamodbus.SlaveParse Pamodbus.Feed Pamodbus.Respond Pamodbus.Send Pamodbus.Traversal
open Pamodbus.History Pamodbus.Answering

variable {σ τ : Type}

/-- How far a call that has returned `ret` moves the counter on. -/
def numbered (ctx : PaModbus σ) (ret : Int) : Nat :=
  if ctx.framerType = .tcp ∧ 0 < ret then 1 else 0

/-- A call that numbers the frame it builds, and builds at most one. -/
def Numbers (p : Proc (World σ) Int) : Prop :=
  ∀ w ret w', p.run w = some (ret, w') → SameConfig w.ctx w'.ctx ∧
    w'.nextTransactionId = w.nextTransactionId + UInt16.ofNat (numbered w.ctx ret)

theorem numbers_finish (n : Nat) (hn : n + 7 < 2 ^ 31) : Numbers (finish n : Proc (World σ) Int) := by
  intro w ret w' h
  refine ⟨keeps_finish n w ret w' h, ?_⟩
  by_cases hl : n + overhead w.ctx.framerType ≤ w.ctx.txbuf.cells.length
  · rw [finish_fits n w hn hl, Option.some.injEq, Prod.mk.injEq] at h
    obtain ⟨rfl, rfl⟩ := h
    rw [framed, numbered]
    cases hf : w.ctx.framerType with
    | rtu => exact (UInt16.add_zero _).symm
    | tcp =>
      rw [if_pos ⟨rfl, by rw [overhead]; omega⟩]
      rfl
  · rw [finish_full n w hn (by omega), Option.some.injEq, Prod.mk.injEq] at h
    obtain ⟨rfl, rfl⟩ := h
    rw [numbered, if_neg fun h => absurd h.2 (by decide)]
    exact (UInt16.add_zero _).symm

theorem numbers_ending :
    Ending (fun _ p V => Yields SameStation p V) (Numbers : Proc (World σ) Int → Prop) where
  refuse ret h w r w' hrun := by
    obtain ⟨rfl, rfl⟩ := (pure_run_iff _ _ _ _).mp hrun
    refine ⟨sameConfig_refl _, ?_⟩
    rw [numbered, if_neg (by omega)]
    exact (UInt16.add_zero _).symm
  after hp hf w ret w' h := by
    obtain ⟨a, u, hu, h⟩ := bind_inv _ _ _ _ _ h
    obtain ⟨⟨hconf, hid⟩, ha⟩ := hp w a u hu
    obtain ⟨hconf', hid'⟩ := hf a ha u ret w' h
    refine ⟨hconf.trans hconf', ?_⟩
    rw [hid', hid, numbered, hconf.framerType, numbered]
  get_bind _ hf w := hf w w
  finish n _ hn := numbers_finish n hn

inductive Build : Proc (World σ) Int → Prop
  | readCoils (addr count : UInt16) : Build (paModbusBuildReadCoils addr count)
  | readDiscreteInputs (addr count : UInt16) : Build (paModbusBuildReadDiscreteInputs addr count)
  | readHoldingRegisters (addr count : UInt16) : Build (paModbusBuildReadHoldingRegisters addr count)
  | readInputRegisters (addr count : UInt16) : Build (paModbusBuildReadInputRegisters addr count)
  | writeSingleCoil (addr : UInt16) (value : UInt8) : Build (paModbusBuildWriteSingleCoil addr value)
  | writeSingleRegister (addr value : UInt16) : Build (paModbusBuildWriteSingleRegister addr value)
  | writeMultipleCoils (addr : UInt16) (values : List UInt8) (count : UInt16) :
      Build (paModbusBuildWriteMultipleCoils addr values count)
  | writeMultipleRegisters (addr : UInt16) (values : List UInt16) (count : UInt16) :
      Build (paModbusBuildWriteMultipleRegisters addr values count)
  | reportSlaveId : Build paModbusBuildReportSlaveId
  | maskWriteRegister (addr andMask orMask : UInt16) :
      Build (paModbusBuildMaskWriteRegister addr andMask orMask)
  | readWriteRegisters (readAddr readCount writeAddr : UInt16) (values : Option (List UInt16))
      (writeCount : UInt16) :
      Build (paModbusBuildReadWriteRegisters readAddr readCount writeAddr values writeCount)
  | respond (residue : Residue) : Build (paModbusSlaveRespond residue)
  | respondError (code : UInt8) : Build (paModbusSlaveRespondError code)

theorem build_ends {J : Judgement σ} {K : Proc (World σ) Int → Prop} (hJ : Closed J)
    (hK : Ending J K) {p : Proc (World σ) Int} (h : Build p) : K p := by
  cases h with
  | readCoils addr count => exact hK.ends_buildRead hJ _ _ _ _
  | readDiscreteInputs addr count => exact hK.ends_buildRead hJ _ _ _ _
  | readHoldingRegisters addr count => exact hK.ends_buildRead hJ _ _ _ _
  | readInputRegisters addr count => exact hK.ends_buildRead hJ _ _ _ _
  | writeSingleCoil addr value => exact hK.ends_buildWriteSingle hJ _ _ _
  | writeSingleRegister addr value => exact hK.ends_buildWriteSingle hJ _ _ _
  | writeMultipleCoils addr values count => exact hK.ends_writeMultipleCoils hJ _ _ _
  | writeMultipleRegisters addr values count => exact hK.ends_writeMultipleRegisters hJ _ _ _
  | reportSlaveId => exact hK.store hJ (hK.finish 1 (by decide) (by decide))
  | maskWriteRegister addr andMask orMask =>
    exact hK.store hJ (hK.store hJ (hK.store hJ (hK.store hJ
      (hK.finish 7 (by decide) (by decide)))))
  | readWriteRegisters readAddr readCount writeAddr values writeCount =>
    exact hK.ends_readWriteRegisters hJ _ _ _ _ _
  | respond residue => exact hK.ends_respond hJ residue
  | respondError code => exact hK.ends_respondError hJ code

theorem build_numbers {p : Proc (World σ) Int} (h : Build p) : Numbers p :=
  build_ends stable_sameStation.closed numbers_ending h

/-- How far `pa_modbus_send_raw` moves the counter on: it has framed a PDU when its
callback has been called, whatever that has returned. -/
def delivered (w w' : World σ) : Nat :=
  if w.ctx.framerType = .tcp ∧ w.calls.length < w'.calls.length then 1 else 0

theorem wrap_counter {pduLen framed : Int} {w w' : World σ}
    (h : (wrap pduLen).run w = some (.ok framed, w')) :
    w'.nextTransactionId = w.nextTransactionId + if w.ctx.framerType = .tcp then 1 else 0 := by
  cases hf : w.ctx.framerType with
  | rtu =>
    rw [wrap_rtu pduLen w hf] at h
    have hsame := stable_sameStation.closed.holds_paFramerRtuWrap pduLen w _ w' h
    rw [hsame.1.2, if_neg (by decide), UInt16.add_zero]
  | tcp =>
    rw [wrap_tcp pduLen w hf, paFramerTcpWrap, get_bind_run] at h
    obtain ⟨_, -, h⟩ := (access_bind_iff _ _ _ _).mp h
    split at h
    · cases ((pure_run_iff _ _ _ _).mp h).1
    · obtain ⟨_, -, h⟩ := (access_bind_iff _ _ _ _).mp h
      obtain ⟨_, w₁, hpdu, h⟩ := bind_inv _ _ _ _ _ h
      rw [get_bind_run, modify_bind_run] at h
      obtain ⟨_, w₂, hheader, h⟩ := bind_inv _ _ _ _ _ h
      obtain ⟨-, rfl⟩ := (pure_run_iff _ _ _ _).mp h
      have hbefore := (stable_sameStation.keeps_txStore _ _ _ _ _ hpdu).2
      have hafter := (stable_sameStation.keeps_txStore _ _ _ _ _ hheader).2
      rw [hafter, if_pos rfl, ← hbefore]

theorem sendRaw_counter (pdu : Bytes) {w w' : World σ} {ret : Int}
    (h : (paModbusSendRaw pdu).run w = some (ret, w')) :
    SameConfig w.ctx w'.ctx ∧
      w'.nextTransactionId = w.nextTransactionId + UInt16.ofNat (delivered w w') := by
  have hidle (u : World σ) (hcalls : u.calls = w.calls) :
      w.nextTransactionId = w.nextTransactionId + UInt16.ofNat (delivered w u) := by
    rw [delivered, if_neg fun h => (hcalls ▸ h.2).false]
    exact (UInt16.add_zero _).symm
  by_cases hready : ∃ cb, Ready pdu w cb
  · obtain ⟨cb, hready⟩ := hready
    obtain ⟨-, r, w₁, hwrap, hdeliver⟩ := sendRaw_inv hready h
    have hstored := stable_sameConfig.stored w (w.ctx.txbuf.patch pdu) (by simp)
    cases r with
    | error e =>
      obtain ⟨-, rfl⟩ := wrap_error _ _ _ _ hwrap
      obtain ⟨-, rfl⟩ := (pure_run_iff _ _ _ _).mp hdeliver
      exact ⟨hstored, hidle _ rfl⟩
    | ok framed =>
      have hconf := keeps_wrap stable_sameConfig (fun u _ => sameConfig_refl u.ctx) _ _ _ _ hwrap
      have hcalls := keeps_wrap stable_calls (fun _ _ => List.prefix_refl _) _ _ _ _ hwrap
      have hcounter := wrap_counter hwrap
      obtain ⟨data, r, app, -, rfl⟩ := deliver_inv hdeliver
      refine ⟨hstored.trans ⟨hconf.framerType, hconf.slave, hconf.discoveryAddr, hconf.callbacks,
        hconf.txSize⟩, ?_⟩
      have hmore : w.calls.length < (w₁.calls ++ [(Call.send data, r)]).length := by
        have hle := hcalls.length_le
        rw [List.length_append, List.length_singleton]
        exact Nat.lt_succ_of_le hle
      refine hcounter.trans ?_
      rw [delivered, World.withTx_framerType]
      cases w.ctx.framerType with
      | rtu => rfl
      | tcp =>
        rw [if_pos rfl, if_pos ⟨rfl, hmore⟩]
        rfl
  · rw [sendRaw_refused pdu w fun cb hcb => hready ⟨cb, hcb⟩, Option.some.injEq,
      Prod.mk.injEq] at h
    obtain ⟨-, rfl⟩ := h
    exact ⟨sameConfig_refl _, hidle _ rfl⟩

/-- On the way from `w` on, the slave and other contexts of its process build
frames, `n` of them for TCP. -/
inductive Builds (τ : Type) (w : World σ) : Nat → World σ → Prop
  | nothing : Builds τ w 0 w
  -- requests that are taken in, and whatever the application does to its state
  | aside {n : Nat} {u : World σ} (h : Builds τ w n u) (ctx : PaModbus σ) (app : σ)
      (hctx : SameConfig u.ctx ctx) : Builds τ w n { u with ctx := ctx, app := app }
  | own {n : Nat} {u v : World σ} {p : Proc (World σ) Int} {ret : Int} (h : Builds τ w n u)
      (hp : Build p) (hrun : p.run u = some (ret, v)) : Builds τ w (n + numbered u.ctx ret) v
  | other {n : Nat} {u : World σ} {x y : World τ} {p : Proc (World τ) Int} {ret : Int}
      (h : Builds τ w n u) (hx : x.nextTransactionId = u.nextTransactionId) (hp : Build p)
      (hrun : p.run x = some (ret, y)) :
      Builds τ w (n + numbered x.ctx ret) { u with nextTransactionId := y.nextTransactionId }
  | ownRaw {n : Nat} {u v : World σ} {ret : Int} (h : Builds τ w n u) (pdu : Bytes)
      (hrun : (paModbusSendRaw pdu).run u = some (ret, v)) : Builds τ w (n + delivered u v) v
  | otherRaw {n : Nat} {u : World σ} {x y : World τ} {ret : Int} (h : Builds τ w n u)
      (hx : x.nextTransactionId = u.nextTransactionId) (pdu : Bytes)
      (hrun : (paModbusSendRaw pdu).run x = some (ret, y)) :
      Builds τ w (n + delivered x y) { u with nextTransactionId := y.nextTransactionId }

/-- The run lemma: the counter counts the frames. -/
theorem builds_counter {w v : World σ} {n : Nat} (h : Builds τ w n v) :
    SameConfig w.ctx v.ctx ∧ v.nextTransactionId = w.nextTransactionId + UInt16.ofNat n := by
  induction h with
  | nothing => exact ⟨sameConfig_refl _, (UInt16.add_zero _).symm⟩
  | aside h ctx app hctx ih => exact ⟨ih.1.trans hctx, ih.2⟩
  | own h hp hrun ih =>
    obtain ⟨hconf, hid⟩ := build_numbers hp _ _ _ hrun
    exact ⟨ih.1.trans hconf, by rw [hid, ih.2, UInt16.ofNat_add, UInt16.add_assoc]⟩
  | other h hx hp hrun ih =>
    obtain ⟨-, hid⟩ := build_numbers hp _ _ _ hrun
    exact ⟨ih.1, by rw [hid, hx, ih.2, UInt16.ofNat_add, UInt16.add_assoc]⟩
  | ownRaw h pdu hrun ih =>
    obtain ⟨hconf, hid⟩ := sendRaw_counter pdu hrun
    exact ⟨ih.1.trans hconf, by rw [hid, ih.2, UInt16.ofNat_add, UInt16.add_assoc]⟩
  | otherRaw h hx pdu hrun ih =>
    obtain ⟨-, hid⟩ := sendRaw_counter pdu hrun
    exact ⟨ih.1, by rw [hid, hx, ih.2, UInt16.ofNat_add, UInt16.add_assoc]⟩

def transactionId (data : Bytes) : Option UInt16 := get16 data 0

theorem frame_transactionId (w : World σ) (pdu : Bytes) (hf : w.ctx.framerType = .tcp) :
    transactionId (frame w pdu) = some w.nextTransactionId := by
  rw [frame, hf]
  exact (get16_eq _ 0 _ _ rfl rfl).trans (by rw [word_bytes])

/-- The answer to a request carries the number of its own frame. It is the
identifier of the request when as many frames happen to have been built. -/
theorem answer_transaction_id_iff (w₀ w₁ w₂ w₃ : World σ) (ctx' : PaModbus σ) (request : Bytes)
    (t : UInt16) (n₁ n₂ : Nat) (hf : w₀.ctx.framerType = .tcp) (hbefore : Builds τ w₀ n₁ w₁)
    (hfeed : (paModbusSlaveFeed request).run w₁.ctx = some (paOk, ctx'))
    (ht : transactionId request = some t)
    (hbetween : Builds τ { w₁ with ctx := ctx' } n₂ w₂) (hans : Answers w₂ w₃) :
    transactionId (sent w₃) = some (w₀.nextTransactionId + UInt16.ofNat (n₁ + n₂)) ∧
      (transactionId (sent w₃) = transactionId request ↔
        w₀.nextTransactionId + UInt16.ofNat (n₁ + n₂) = t) := by
  obtain ⟨hconf₁, hid₁⟩ := builds_counter hbefore
  have hfed := slaveFeed_sameConfig _ _ _ _ hfeed
  obtain ⟨hconf₂, hid₂⟩ := builds_counter hbetween
  have hframer : w₂.ctx.framerType = .tcp := by
    rw [hconf₂.framerType, hfed.framerType, hconf₁.framerType, hf]
  have hcounter : w₂.nextTransactionId = w₀.nextTransactionId + UInt16.ofNat (n₁ + n₂) := by
    rw [hid₂, hid₁, UInt16.ofNat_add, UInt16.add_assoc]
  obtain ⟨pdu, hsent⟩ := answers_sent hans
  rw [hsent, frame_transactionId w₂ pdu hframer, ht, hcounter]
  exact ⟨rfl, Option.some_inj⟩

def requestOf (t : UInt16) : Bytes := mbapHeader t 1 1 ++ [0x11, 0]

/-- A slave that has just been started, while the counter of the process is at `next`. -/
def started (next : UInt16) : World Unit := ⟨station .tcp 1 16 16, (), next, []⟩

/-- Another context builds a frame, and the answer happens to carry the identifier. -/
theorem counter_meets_request :
    ∃ ctx' w₂ w₃, (paModbusSlaveFeed (requestOf 1)).run (started 0).ctx = some (paOk, ctx') ∧
      Builds Unit { started 0 with ctx := ctx' } 1 w₂ ∧ Answers w₂ w₃ ∧
      transactionId (sent w₃) = transactionId (requestOf 1) := by
  obtain ⟨ctx', hfeed⟩ : ∃ ctx', (paModbusSlaveFeed (requestOf 1)).run (started 0).ctx =
      some (paOk, ctx') := ⟨_, rfl⟩
  obtain ⟨y, hrun, hy⟩ : ∃ y, (paModbusBuildReportSlaveId : Proc (World Unit) Int).run (started 0) =
      some (8, y) ∧ y.nextTransactionId = 1 := ⟨_, rfl, rfl⟩
  have hbuilds : Builds Unit { started 0 with ctx := ctx' } 1
      { started 0 with ctx := ctx', nextTransactionId := y.nextTransactionId } :=
    Builds.other (u := { started 0 with ctx := ctx' }) (x := started 0) .nothing rfl .reportSlaveId hrun
  obtain ⟨w₃, hans⟩ := answers_exist
    { started 0 with ctx := ctx', nextTransactionId := y.nextTransactionId } (by
      have hc := slaveFeed_sameConfig _ _ _ _ hfeed
      rw [hc.framerType, hc.txSize]
      decide)
  exact ⟨ctx', _, w₃, hfeed, hbuilds, hans, (answer_transaction_id_iff (started 0) (started 0) _ w₃
    ctx' (requestOf 1) 1 0 1 rfl .nothing hfeed rfl hbuilds hans).2.mpr rfl⟩

/-- The answer to request 7 is numbered 1. -/
theorem request_seven_answered_as_one :
    ∃ ctx' w', (paModbusSlaveFeed (requestOf 7)).run (started 1).ctx = some (paOk, ctx') ∧
      (paModbusSlaveRespondError 1).run { started 1 with ctx := ctx' } = some (9, w') ∧
      transactionId (requestOf 7) = some 7 ∧ transactionId (sent w') = some 1 :=
  ⟨_, _, rfl, rfl, rfl, rfl⟩

end Pamodbus.TransactionIds
