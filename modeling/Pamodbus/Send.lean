import Pamodbus.Framer

namespace Pamodbus.Send

open Pamodbus.Lib.Cells Pamodbus.Lib.CInt Pamodbus.Lib.Procedure
open Pamodbus.Context Pamodbus.FramerRtu Pamodbus.Framer

variable {σ : Type}

/-- `ctx->send_cb(ctx->txbuf, ctx->tx_len, ctx->send_userdata)`. -/
def sendTxbuf (cb : SendFn σ) : Proc (World σ) Int := do
  let w ← get
  let data ← access (block w.ctx.txbuf.cells 0 w.ctx.txLen)
  let (ret, app) := cb data w.app
  modify fun w => w.called (.send data) ret app
  return ret

def paModbusSend : Proc (World σ) Int := do
  match (← get).ctx.sendCb with
  | none => return paErrState
  | some cb =>
    let ret ← sendTxbuf cb
    return if ret = 0 then paOk else paErrCallback

def paModbusSendRaw (pdu : Bytes) : Proc (World σ) Int := do
  let ctx := (← get).ctx
  match ctx.sendCb with
  | none => return paErrState
  | some cb =>
    if ¬ ctx.txbufSet then return paErrState
    if sizeT ((ctx.txbuf.cells.length : Int) - 7) < pdu.length then return paErrBufferFull
    txStore 0 pdu
    match ← wrap (int32 pdu.length) with
    | .error ret => return ret
    | .ok framed =>
      modify fun w => { w with ctx := { w.ctx with txLen := sizeT framed } }
      let ret ← sendTxbuf cb
      return if ret = 0 then int32 (sizeT framed) else paErrCallback

theorem sendTxbuf_framed (cb : SendFn σ) (w : World σ) (xs : Bytes)
    (h : xs.length ≤ w.ctx.txbuf.cells.length) :
    (sendTxbuf cb).run (framed w xs) =
      some ((cb xs w.app).1, (framed w xs).called (.send xs) (cb xs w.app).1 (cb xs w.app).2) := by
  have hdata : block (framed w xs).ctx.txbuf.cells 0 (framed w xs).ctx.txLen = some xs := by
    rw [framed, Buffer.patch_cells, block_front _ _ (by rw [overlay_length]; exact h),
      overlay_take_self _ _ h]
  rw [sendTxbuf, get_bind_run, hdata, access_some, pure_bind]
  rfl

structure Ready (pdu : Bytes) (w : World σ) (cb : SendFn σ) : Prop where
  callback : w.ctx.sendCb = some cb
  buffer : w.ctx.txbufSet = true
  room : pdu.length ≤ sizeT ((w.ctx.txbuf.cells.length : Int) - 7)

def deliver (cb : SendFn σ) : Except Int Int → Proc (World σ) Int
  | .error ret => pure ret
  | .ok framed => do
    modify fun w => { w with ctx := { w.ctx with txLen := sizeT framed } }
    let ret ← sendTxbuf cb
    return if ret = 0 then int32 (sizeT framed) else paErrCallback

theorem sendRaw_ready (pdu : Bytes) (w : World σ) (cb : SendFn σ) (h : Ready pdu w cb) :
    (paModbusSendRaw pdu).run w =
      (emit pdu >>= fun _ => wrap (int32 pdu.length) >>= deliver cb).run w := by
  have hroom := h.room
  rw [paModbusSendRaw, get_bind_run]
  dsimp only
  rw [h.callback]
  dsimp only
  rw [if_neg (by simp [h.buffer]), if_neg (by omega), txStore_front]
  rfl

theorem sendRaw_refused (pdu : Bytes) (w : World σ) (h : ∀ cb, ¬ Ready pdu w cb) :
    (paModbusSendRaw pdu).run w =
      some (if w.ctx.sendCb.isSome ∧ w.ctx.txbufSet then paErrBufferFull else paErrState, w) := by
  rw [paModbusSendRaw, get_bind_run]
  dsimp only
  cases hcb : w.ctx.sendCb with
  | none => rfl
  | some cb =>
    dsimp only
    by_cases hset : w.ctx.txbufSet = true
    · have hroom : sizeT ((w.ctx.txbuf.cells.length : Int) - 7) < pdu.length := by
        by_contra hroom
        exact h cb ⟨hcb, hset, by omega⟩
      rw [if_neg (by simp [hset]), if_pos hroom, if_pos ⟨rfl, hset⟩]
      rfl
    · rw [if_pos (by simpa using hset), if_neg fun hboth => hset hboth.2]
      rfl

theorem sendRaw_inv {pdu : Bytes} {w w' : World σ} {cb : SendFn σ} {ret : Int}
    (hready : Ready pdu w cb) (h : (paModbusSendRaw pdu).run w = some (ret, w')) :
    pdu.length ≤ w.ctx.txbuf.cells.length ∧ ∃ r w₁,
      (wrap (int32 pdu.length)).run (w.withTx (w.ctx.txbuf.patch pdu)) = some (r, w₁) ∧
        (deliver cb r).run w₁ = some (ret, w') := by
  rw [sendRaw_ready pdu w cb hready] at h
  obtain ⟨_, w₀, hemit, h⟩ := bind_inv _ _ _ _ _ h
  by_cases hp : pdu.length ≤ w.ctx.txbuf.cells.length
  · rw [emit_run pdu w hp, Option.some.injEq, Prod.mk.injEq] at hemit
    obtain ⟨-, rfl⟩ := hemit
    exact ⟨hp, bind_inv _ _ _ _ _ h⟩
  · rw [emit_overrun pdu w (by omega)] at hemit
    cases hemit

theorem sendRaw_places (pdu : Bytes) (m : Nat) (w : World σ) (cb : SendFn σ)
    (hready : Ready pdu w cb) (hm : sizeT (int32 pdu.length) = m) (hmn : m ≤ pdu.length)
    (hi : int32 pdu.length + overhead w.ctx.framerType < 2 ^ 31)
    (hp : pdu.length ≤ w.ctx.txbuf.cells.length)
    (h : m + overhead w.ctx.framerType ≤ w.ctx.txbuf.cells.length) :
    (paModbusSendRaw pdu).run w =
      let xs := frame w (pdu.take m)
      some (if (cb xs w.app).1 = 0 then int32 xs.length else paErrCallback,
        (framed (w.withTx (w.ctx.txbuf.patch pdu)) xs).called (.send xs) (cb xs w.app).1
          (cb xs w.app).2) := by
  have hl := frame_length w (pdu.take m)
  rw [List.length_take_of_le hmn] at hl
  obtain ⟨len, hlen, hwrap⟩ := wrap_places (int32 pdu.length) m
    (w.withTx (w.ctx.txbuf.patch pdu)) hm ⟨(int32_bounds (pdu.length : Int)).1, by
      rw [World.withTx_framerType]
      exact hi⟩ (by simpa using h)
  rw [World.withTx_txbuf, Buffer.patch_cells, overlay_take _ _ _ hmn hp] at hwrap
  have hframe : frame (w.withTx (w.ctx.txbuf.patch pdu)) (pdu.take m) = frame w (pdu.take m) := rfl
  rw [hframe] at hwrap
  rw [World.withTx_framerType, ← hl] at hlen
  rw [sendRaw_ready pdu w cb hready, bind_defined _ _ _ _ _ (emit_run pdu w hp),
    bind_defined _ _ _ _ _ hwrap, deliver]
  generalize frame w (pdu.take m) = xs at hl hlen ⊢
  have hfit : xs.length ≤ (w.withTx (w.ctx.txbuf.patch pdu)).ctx.txbuf.cells.length := by
    rw [World.withTx_txbuf, Buffer.patch_cells, overlay_length]
    omega
  have hsent := bind_defined _ (fun ret => (pure (if ret = 0 then int32 xs.length
    else paErrCallback) : Proc (World σ) Int)) _ _ _ (sendTxbuf_framed cb _ xs hfit)
  rw [modify_bind_run, hlen]
  exact hsent

theorem sendRaw_run (pdu : Bytes) (m : Nat) (w : World σ) (cb : SendFn σ) (hready : Ready pdu w cb)
    (hm : int32 pdu.length = m) (hmn : m ≤ pdu.length)
    (hi : m + overhead w.ctx.framerType < 2 ^ 31) (hp : pdu.length ≤ w.ctx.txbuf.cells.length)
    (h : m + overhead w.ctx.framerType ≤ w.ctx.txbuf.cells.length) :
    (paModbusSendRaw pdu).run w =
      let xs := frame w (pdu.take m)
      some (if (cb xs w.app).1 = 0 then (xs.length : Int) else paErrCallback,
        (framed (w.withTx (w.ctx.txbuf.patch pdu)) xs).called (.send xs) (cb xs w.app).1
          (cb xs w.app).2) := by
  have hl := frame_length w (pdu.take m)
  rw [List.length_take_of_le hmn] at hl
  have hsize : sizeT (int32 pdu.length) = m := by rw [hm, sizeT_natCast m (by omega)]
  have hrun := sendRaw_places pdu m w cb hready hsize hmn (by rw [hm]; omega) hp h
  dsimp only at hrun ⊢
  rw [hrun, int32_eq _ (by omega) (by omega)]

theorem deliver_inv {w w' : World σ} {cb : SendFn σ} {framed ret : Int}
    (h : (deliver cb (.ok framed)).run w = some (ret, w')) :
    ∃ data r app, data.length = sizeT framed ∧
      w' = ({ w with ctx := { w.ctx with txLen := sizeT framed } } : World σ).called
        (.send data) r app := by
  rw [deliver, modify_bind_run] at h
  obtain ⟨r, w₁, hsend, h⟩ := bind_inv _ _ _ _ _ h
  obtain ⟨-, rfl⟩ := (pure_run_iff _ _ _ _).mp h
  rw [sendTxbuf, get_bind_run] at hsend
  obtain ⟨data, hdata, hsend⟩ := (access_bind_iff _ _ _ _).mp hsend
  rw [modify_bind_run] at hsend
  obtain ⟨-, rfl⟩ := (pure_run_iff _ _ _ _).mp hsend
  exact ⟨data, _, _, block_length hdata, rfl⟩

theorem sendRaw_accepted (pdu : Bytes) (w w' : World σ) (ret : Int)
    (h : (paModbusSendRaw pdu).run w = some (ret, w')) (hret : 0 ≤ ret) :
    ∃ cb, Ready pdu w cb ∧ pdu.length ≤ w.ctx.txbuf.cells.length ∧ ∃ framed w₁,
      (wrap (int32 pdu.length)).run (w.withTx (w.ctx.txbuf.patch pdu)) =
        some (.ok framed, w₁) ∧ 0 ≤ int32 (sizeT framed) := by
  by_cases hready : ∃ cb, Ready pdu w cb
  · obtain ⟨cb, hready⟩ := hready
    obtain ⟨hp, r, w₁, hwrap, h⟩ := sendRaw_inv hready h
    refine ⟨cb, hready, hp, ?_⟩
    cases r with
    | error e =>
      obtain ⟨hneg, -⟩ := wrap_error _ _ _ _ hwrap
      obtain ⟨he, -⟩ := (pure_run_iff _ _ _ _).mp h
      exact absurd (he ▸ hret) (by rw [hneg]; decide)
    | ok framed =>
      refine ⟨framed, w₁, hwrap, ?_⟩
      rw [deliver, modify_bind_run] at h
      obtain ⟨r, w₂, -, h⟩ := bind_inv _ _ _ _ _ h
      obtain ⟨he, -⟩ := (pure_run_iff _ _ _ _).mp h
      split at he
      · rw [← he]
        exact hret
      · exact absurd (he ▸ hret) (by decide)
  · rw [sendRaw_refused pdu w fun cb hcb => hready ⟨cb, hcb⟩, Option.some.injEq,
      Prod.mk.injEq] at h
    obtain ⟨rfl, -⟩ := h
    split at hret
    · exact absurd hret (by decide)
    · exact absurd hret (by decide)

end Pamodbus.Send
