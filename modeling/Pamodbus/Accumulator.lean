import Pamodbus.RawScan

namespace Pamodbus.Accumulator

open Pamodbus.Lib.Cells Pamodbus.Lib.CInt Pamodbus.Lib.Prefixes Pamodbus.Lib.Procedure
open Pamodbus.Lib.Scanner Pamodbus.Lib.Words
open Pamodbus.Context Pamodbus.Crc16 Pamodbus.Framer Pamodbus.ParseTotal
open Pamodbus.Recv Pamodbus.Receiver Pamodbus.RawScan

variable {σ : Type}

inductive Op
  | recv (poll : Poll)
  | recvRaw (poll : Poll) (capacity : Option Nat)
  | rxReset
  | setFramer (framer : Context.Framer)
  | setMode (mode : Mode)
  | setSlave (slave : UInt8)
  | setDiscoveryAddr (addr : UInt8)

/-- A function without a return value counts as one that returns `PA_OK`. -/
def Op.run (ctx : PaModbus σ) : Op → Option (Outcome σ)
  | recv poll => paModbusRecv ctx poll
  | recvRaw poll capacity => paModbusRecvRaw ctx poll capacity
  | rxReset => some ⟨paOk, paModbusRxReset ctx, none⟩
  | setFramer framer => some ⟨paOk, paModbusSetFramer framer ctx, none⟩
  | setMode mode => some ⟨paOk, paModbusSetMode mode ctx, none⟩
  | setSlave slave => some ⟨paOk, paModbusSetSlave slave ctx, none⟩
  | setDiscoveryAddr addr => some ⟨paOk, paModbusSetDiscoveryAddr addr ctx, none⟩

/-- The bytes that the receive callback copies during the call. -/
def Op.arriving : Op → Bytes
  | recv poll => poll.recv.getD []
  | recvRaw poll (some _) => poll.recv.getD []
  | _ => []

/-- The `max_len` that the receive callback is given. -/
def offered (ctx : PaModbus σ) : Nat := sizeT ((ctx.rxbuf.cells.length : Int) - ctx.rxLen)

/-- No call of the receive callback returns more than `max_len`. -/
def Honest : PaModbus σ → List Op → Prop
  | _, [] => True
  | ctx, op :: ops => op.arriving.length ≤ offered ctx ∧
      (op.run ctx).elim True fun out => Honest out.ctx ops

def withRxbuf (out : Outcome σ) (b : Buffer UInt8) : Outcome σ :=
  { out with ctx := { out.ctx with rxbuf := b } }

/-- The call returns. Of the cells of the receive buffer only the valid ones
matter to it, and it changes only the first `n`, some of which stay valid. -/
def Touches (n : Nat) (ctx : PaModbus σ) (run : PaModbus σ → Option (Outcome σ)) : Prop :=
  ∃ (out : Outcome σ) (xs : Bytes), xs.length = n ∧ out.ctx.rxLen ≤ n ∧
    out.ctx.recvCb = ctx.recvCb ∧ ∀ b : Buffer UInt8,
      b.cells.length = ctx.rxbuf.cells.length → b.cells.take ctx.rxLen = accumulator ctx →
      run { ctx with rxbuf := b } = some (withRxbuf out (b.patch xs))

structure Safe (ctx : PaModbus σ) (op : Op) : Prop where
  room : (offered ctx : Int) = (ctx.rxbuf.cells.length : Int) - ctx.rxLen
  consumed : ∀ now ctx' start frameLen, received ctx op.arriving now = some ctx' →
    paRxScanFrame ctx' = some (some (start, frameLen)) → start + frameLen ≤ ctx'.rxLen
  touches : Touches (ctx.rxLen + op.arriving.length) ctx fun ctx => op.run ctx

structure Ready (size : Nat) (ctx : PaModbus σ) : Prop where
  callback : ctx.recvCb = true
  fixed : ctx.rxbuf.cells.length = size
  nonempty : size ≠ 0
  held : ctx.rxLen ≤ size

/-- Every call of the run finds and leaves at most `size` valid bytes, and is safe. -/
def Sound (size : Nat) : PaModbus σ → List Op → Prop
  | ctx, [] => Ready size ctx
  | ctx, op :: ops => Ready size ctx ∧ Safe ctx op ∧
      ∃ out, op.run ctx = some out ∧ Sound size out.ctx ops

theorem offered_eq (ctx : PaModbus σ) (size : Nat) (h : Ready size ctx) :
    offered ctx = size - ctx.rxLen := by
  have hb := ctx.rxbuf.bounded
  have hheld := h.held
  rw [h.fixed] at hb
  rw [offered, h.fixed, ← Nat.cast_sub hheld, sizeT_natCast _ (by omega)]

theorem room_exact (ctx : PaModbus σ) (size : Nat) (h : Ready size ctx) :
    (offered ctx : Int) = (ctx.rxbuf.cells.length : Int) - ctx.rxLen := by
  rw [offered_eq ctx size h, h.fixed, Nat.cast_sub h.held]

theorem holding_other (ctx : PaModbus σ) (b : Buffer UInt8)
    (hl : ctx.rxLen ≤ ctx.rxbuf.cells.length) (hb : b.cells.length = ctx.rxbuf.cells.length)
    (ha : b.cells.take ctx.rxLen = accumulator ctx) :
    { ctx with rxbuf := b } = holding ctx b (accumulator ctx) ctx.lastRxTick := by
  have h := holding_self { ctx with rxbuf := b } (by rw [hb]; exact hl)
  have hacc : accumulator { ctx with rxbuf := b } = accumulator ctx := ha
  rw [hacc] at h
  exact h.symm

theorem touches_none (ctx : PaModbus σ) (out : Outcome σ) (hl : ctx.rxLen ≤ ctx.rxbuf.cells.length)
    (run : PaModbus σ → Option (Outcome σ)) (hlen : out.ctx.rxLen ≤ ctx.rxLen)
    (hc : out.ctx.recvCb = ctx.recvCb)
    (h : ∀ b : Buffer UInt8, b.cells.length = ctx.rxbuf.cells.length →
      run { ctx with rxbuf := b } = some (withRxbuf out b)) :
    Touches ctx.rxLen ctx run := by
  refine ⟨out, accumulator ctx, List.length_take_of_le hl, hlen, hc, fun b hb ha => ?_⟩
  rw [h b hb, ← ha, Buffer.patch_take_cells]

theorem keepWaiting_rxbuf (ctx : PaModbus σ) (b : Buffer UInt8) (now : UInt32)
    (hb : b.cells.length = ctx.rxbuf.cells.length) :
    keepWaiting { ctx with rxbuf := b } now =
      withRxbuf (keepWaiting ctx now) b := by
  simp only [keepWaiting, hb]
  split
  · rfl
  · split
    · rfl
    · rfl

theorem keepWaiting_keeps (ctx : PaModbus σ) (now : UInt32) :
    (keepWaiting ctx now).ctx.rxLen ≤ ctx.rxLen ∧
      (keepWaiting ctx now).ctx.recvCb = ctx.recvCb := by
  rcases keepWaiting_cases ctx now with h | ⟨ret, -, h⟩
  · rw [h]
    exact ⟨le_rfl, rfl⟩
  · rw [h]
    exact ⟨Nat.zero_le _, rfl⟩

theorem dispatch_other (ctx : PaModbus σ) (whole : Bytes) (t now : UInt32) (start p n : Nat)
    (hl : whole.length < 2 ^ 64) (hs : scan (accepted ctx) 0 whole = some (start, p, n)) :
    ∃ (out : Outcome σ) (xs : Bytes), xs.length = whole.length ∧ out.ctx.rxLen ≤ whole.length ∧
      out.ctx.recvCb = ctx.recvCb ∧ ∀ b : Buffer UInt8, whole.length ≤ b.cells.length →
        dispatchFrame (holding ctx b whole t) now start (frameLength ctx p n) =
          some (withRxbuf out (b.patch xs)) := by
  obtain ⟨hfit, ret, ctx', hfeed, -, hp⟩ := found_feeds ctx whole start p n hl hs
  obtain ⟨fc, result, request, rfl⟩ := hp
  generalize frameLength ctx p n = len at hfit hfeed
  have htail : (whole.drop (start + len)).length ≤ whole.length := by
    rw [List.length_drop]
    exact Nat.sub_le _ _
  let ctx' : PaModbus σ := { ctx with lastFunction := fc, result := result, request := request }
  let t' := if start + len < whole.length then now else t
  refine ⟨⟨ret, holding ctx' ctx.rxbuf (whole.drop (start + len)) t',
      some ((whole.drop start).take len)⟩,
    whole.drop (start + len) ++ whole.drop (whole.drop (start + len)).length, ?_, htail, rfl,
    fun b hb => ?_⟩
  · rw [List.length_append, List.length_drop, List.length_drop]
    omega
  · rw [dispatch_holding ctx ctx' b whole t now start len ret hb hfit hfeed, holding,
      Buffer.patch_patch b whole _ htail hb]
    rfl

theorem waiting_other (ctx : PaModbus σ) (whole : Bytes) (t now : UInt32) :
    ∃ (out : Outcome σ) (xs : Bytes), xs.length = whole.length ∧ out.ctx.rxLen ≤ whole.length ∧
      out.ctx.recvCb = ctx.recvCb ∧ ∀ b : Buffer UInt8, b.cells.length = ctx.rxbuf.cells.length →
        keepWaiting (holding ctx b whole t) now =
          withRxbuf out (b.patch xs) := by
  obtain ⟨hle, hc⟩ := keepWaiting_keeps (holding ctx ctx.rxbuf whole t) now
  refine ⟨keepWaiting (holding ctx ctx.rxbuf whole t) now, whole, rfl, hle, hc, fun b hb => ?_⟩
  exact keepWaiting_rxbuf (holding ctx ctx.rxbuf whole t) (b.patch whole) now
    (by simp [holding, hb])

theorem recv_touches (ctx : PaModbus σ) (size : Nat) (h : Ready size ctx) (tick : UInt32)
    (bytes : Bytes) (hl : bytes.length ≤ offered ctx) :
    Touches (ctx.rxLen + bytes.length) ctx fun ctx => paModbusRecv ctx ⟨tick, some bytes⟩ := by
  rw [offered_eq ctx size h] at hl
  have hheld := h.held
  have hfixed := h.fixed
  have hnonempty := h.nonempty
  have hbound := ctx.rxbuf.bounded
  have hacc : (accumulator ctx).length = ctx.rxLen := List.length_take_of_le (by omega)
  have hrun (b : Buffer UInt8) (hb : b.cells.length = ctx.rxbuf.cells.length)
      (ha : b.cells.take ctx.rxLen = accumulator ctx) :=
    (congrArg (fun c => paModbusRecv c ⟨tick, some bytes⟩)
      (holding_other ctx b (by omega) hb ha)).trans
      (recv_holding ctx b (accumulator ctx) bytes ctx.lastRxTick tick h.callback (by omega)
        (by omega))
  have hwhole : (accumulator ctx ++ bytes).length = ctx.rxLen + bytes.length := by
    rw [List.length_append, hacc]
  dsimp only at hrun
  generalize accumulator ctx ++ bytes = whole at hrun hwhole
  generalize (if 0 < bytes.length then (if ctx.ticksCb then tick else 0) else ctx.lastRxTick) = t
    at hrun
  rw [← hwhole]
  cases hs : scan (accepted ctx) 0 whole with
  | none =>
    obtain ⟨out, xs, hxs, hle, hc, hw⟩ := waiting_other ctx whole t (if ctx.ticksCb then tick else 0)
    refine ⟨out, xs, hxs, hle, hc, fun b hb ha => (hrun b hb ha).trans ?_⟩
    rw [hs]
    exact congrArg some (hw b hb)
  | some r =>
    obtain ⟨start, p, n⟩ := r
    obtain ⟨out, xs, hxs, hle, hc, hd⟩ :=
      dispatch_other ctx whole t (if ctx.ticksCb then tick else 0) start p n (by omega) hs
    refine ⟨out, xs, hxs, hle, hc, fun b hb ha => (hrun b hb ha).trans ?_⟩
    rw [hs]
    exact hd b (by omega)

theorem keepWaiting_nonempty (ctx : PaModbus σ) (now : UInt32) (h : ctx.rxbuf.cells.length ≠ 0) :
    keepWaiting ctx now =
      if ctx.rxbuf.cells.length ≤ ctx.rxLen then ⟨paErrBufferFull, { ctx with rxLen := 0 }, none⟩
      else if ctx.ticksCb ∧ 0 < ctx.rxLen ∧ ctx.idleTimeoutTicks ≤ now - ctx.lastRxTick then
        ⟨paErrTimeout, { ctx with rxLen := 0 }, none⟩
      else ⟨paWait, ctx, none⟩ := by
  rw [keepWaiting]
  by_cases hle : ctx.rxbuf.cells.length ≤ ctx.rxLen
  · rw [if_pos hle, if_pos ⟨by omega, hle⟩]
  · rw [if_neg hle, if_neg (fun hn => hle hn.2)]

def rawOutcome (ctx : PaModbus σ) (now : UInt32) (capacity : Nat) :
    Option Nat → Option (Outcome σ)
  | some n =>
    if capacity < n - 3 then some ⟨paErrBufferFull, ctx, none⟩
    else (block ctx.rxbuf.cells 1 (n - 3)).map fun pdu =>
      ⟨paOk, { ctx with rxLen := 0 }, some pdu⟩
  | none => some (keepWaiting ctx now)

theorem recvRaw_holding (ctx : PaModbus σ) (b : Buffer UInt8) (acc bytes : Bytes)
    (last tick : UInt32) (capacity : Nat) (hc : ctx.recvCb = true) (hb : b.cells.length ≠ 0)
    (h : acc.length + bytes.length ≤ b.cells.length) :
    paModbusRecvRaw (holding ctx b acc last) ⟨tick, some bytes⟩ (some capacity) =
      let now := if ctx.ticksCb then tick else 0
      let ctx' := holding ctx b (acc ++ bytes) (if 0 < bytes.length then now else last)
      (rawScan ctx').bind (rawOutcome ctx' now capacity) := by
  have hcb : (holding ctx b acc last).recvCb = true := hc
  have hsize : (holding ctx b acc last).rxbuf.cells.length = b.cells.length := by simp [holding]
  have hrec := received_holding ctx b acc bytes last (if ctx.ticksCb then tick else 0) h
  have hticks : (holding ctx b acc last).ticksCb = ctx.ticksCb := rfl
  rw [paModbusRecvRaw, if_neg (by simp [hcb]), if_neg (by omega)]
  dsimp only
  rw [hticks, hrec, Option.bind_eq_bind, Option.bind_some]
  generalize (if ctx.ticksCb = true then tick else 0) = now
  generalize (if 0 < bytes.length then now else last) = t
  have hfull : (holding ctx b (acc ++ bytes) t).rxbuf.cells.length ≠ 0 := by
    simpa [holding] using hb
  congr 1
  funext found
  cases found with
  | some n =>
    rw [rawOutcome, Option.map_eq_bind]
    rfl
  | none =>
    rw [rawOutcome, keepWaiting_nonempty _ _ hfull]
    dsimp only
    split
    · rfl
    · split
      · rfl
      · rfl

theorem recvRaw_shortest (ctx : PaModbus σ) (b : Buffer UInt8) (acc bytes : Bytes)
    (last tick : UInt32) (capacity : Nat) (hc : ctx.recvCb = true) (hb : b.cells.length ≠ 0)
    (h : acc.length + bytes.length ≤ b.cells.length) :
    paModbusRecvRaw (holding ctx b acc last) ⟨tick, some bytes⟩ (some capacity) =
      let now := if ctx.ticksCb then tick else 0
      let ctx' := holding ctx b (acc ++ bytes) (if 0 < bytes.length then now else last)
      match shortest crcValid 4 (acc ++ bytes) with
      | some n =>
        if capacity < n - 3 then some ⟨paErrBufferFull, ctx', none⟩
        else some ⟨paOk, { ctx' with rxLen := 0 }, some (((acc ++ bytes).drop 1).take (n - 3))⟩
      | none => some (keepWaiting ctx' now) := by
  have hwhole : (acc ++ bytes).length ≤ b.cells.length := by rwa [List.length_append]
  rw [recvRaw_holding ctx b acc bytes last tick capacity hc hb h]
  dsimp only
  rw [rawScan_shortest ctx b _ _ hwhole, Option.bind_some]
  cases hs : shortest crcValid 4 (acc ++ bytes) with
  | none => rfl
  | some n =>
    obtain ⟨hn, hlong, -, -⟩ := shortest_eq_some_iff.mp hs
    rw [List.length_take_of_le hn] at hlong
    rw [rawOutcome]
    dsimp only
    split
    · rfl
    · have hpdu := block_overlay b.cells (acc ++ bytes) 1 (n - 3) (by omega) hwhole
      rw [holding, Buffer.patch_cells, hpdu]
      rfl

theorem recvRaw_own (ctx : PaModbus σ) (bytes : Bytes) (tick : UInt32) (capacity : Nat)
    (hc : ctx.recvCb = true) (hn : ctx.rxbuf.cells.length ≠ 0)
    (h : ctx.rxLen + bytes.length ≤ ctx.rxbuf.cells.length) :
    paModbusRecvRaw ctx ⟨tick, some bytes⟩ (some capacity) =
      let now := if ctx.ticksCb then tick else 0
      let ctx' := holding ctx ctx.rxbuf (accumulator ctx ++ bytes)
        (if 0 < bytes.length then now else ctx.lastRxTick)
      match shortest crcValid 4 (accumulator ctx ++ bytes) with
      | some n =>
        if capacity < n - 3 then some ⟨paErrBufferFull, ctx', none⟩
        else some ⟨paOk, { ctx' with rxLen := 0 },
          some (((accumulator ctx ++ bytes).drop 1).take (n - 3))⟩
      | none => some (keepWaiting ctx' now) := by
  have hacc : (accumulator ctx).length = ctx.rxLen := List.length_take_of_le (by omega)
  have hrun := recvRaw_shortest ctx ctx.rxbuf (accumulator ctx) bytes ctx.lastRxTick tick capacity
    hc hn (by omega)
  rwa [holding_self ctx (by omega)] at hrun

theorem recvRaw_touches (ctx : PaModbus σ) (size : Nat) (h : Ready size ctx) (tick : UInt32)
    (bytes : Bytes) (capacity : Nat) (hl : bytes.length ≤ offered ctx) :
    Touches (ctx.rxLen + bytes.length) ctx
      fun ctx => paModbusRecvRaw ctx ⟨tick, some bytes⟩ (some capacity) := by
  rw [offered_eq ctx size h] at hl
  have hheld := h.held
  have hfixed := h.fixed
  have hnonempty := h.nonempty
  have hacc : (accumulator ctx).length = ctx.rxLen := List.length_take_of_le (by omega)
  have hrun (b : Buffer UInt8) (hb : b.cells.length = ctx.rxbuf.cells.length)
      (ha : b.cells.take ctx.rxLen = accumulator ctx) :=
    (congrArg (fun c => paModbusRecvRaw c ⟨tick, some bytes⟩ (some capacity))
      (holding_other ctx b (by omega) hb ha)).trans
      (recvRaw_shortest ctx b (accumulator ctx) bytes ctx.lastRxTick tick capacity h.callback
        (by omega) (by omega))
  have hwhole : (accumulator ctx ++ bytes).length = ctx.rxLen + bytes.length := by
    rw [List.length_append, hacc]
  dsimp only at hrun
  generalize accumulator ctx ++ bytes = whole at hrun hwhole
  generalize (if 0 < bytes.length then (if ctx.ticksCb then tick else 0) else ctx.lastRxTick) = t
    at hrun
  rw [← hwhole]
  cases hs : shortest crcValid 4 whole with
  | none =>
    obtain ⟨out, xs, hxs, hle, hc, hw⟩ := waiting_other ctx whole t (if ctx.ticksCb then tick else 0)
    refine ⟨out, xs, hxs, hle, hc, fun b hb ha => (hrun b hb ha).trans ?_⟩
    rw [hs]
    exact congrArg some (hw b hb)
  | some n =>
    by_cases hcap : capacity < n - 3
    · refine ⟨⟨paErrBufferFull, holding ctx ctx.rxbuf whole t, none⟩, whole, rfl, le_rfl, rfl,
        fun b hb ha => (hrun b hb ha).trans ?_⟩
      rw [hs]
      exact if_pos hcap
    · refine ⟨⟨paOk, { holding ctx ctx.rxbuf whole t with rxLen := 0 },
        some ((whole.drop 1).take (n - 3))⟩, whole, rfl, Nat.zero_le _, rfl,
        fun b hb ha => (hrun b hb ha).trans ?_⟩
      rw [hs]
      exact if_neg hcap

theorem op_touches (ctx : PaModbus σ) (size : Nat) (h : Ready size ctx) (op : Op)
    (hl : op.arriving.length ≤ offered ctx) :
    Touches (ctx.rxLen + op.arriving.length) ctx fun ctx => op.run ctx := by
  have hheld : ctx.rxLen ≤ ctx.rxbuf.cells.length := by
    rw [h.fixed]
    exact h.held
  have hnonempty (b : Buffer UInt8) (hb : b.cells.length = ctx.rxbuf.cells.length) :
      b.cells.length ≠ 0 := by
    rw [hb, h.fixed]
    exact h.nonempty
  have hcallback := h.callback
  cases op with
  | recv poll =>
    obtain ⟨tick, recv⟩ := poll
    cases recv with
    | some bytes => exact recv_touches ctx size h tick bytes hl
    | none =>
      refine touches_none ctx ⟨paErrCallback, ctx, none⟩ hheld _ le_rfl rfl fun b hb => ?_
      simp [Op.run, paModbusRecv, withRxbuf, hcallback, hnonempty b hb]
  | recvRaw poll capacity =>
    obtain ⟨tick, recv⟩ := poll
    cases capacity with
    | none =>
      refine touches_none ctx ⟨paErrBadParam, ctx, none⟩ hheld _ le_rfl rfl fun b hb => ?_
      simp [Op.run, paModbusRecvRaw, withRxbuf, hcallback, hnonempty b hb]
    | some capacity =>
      cases recv with
      | some bytes => exact recvRaw_touches ctx size h tick bytes capacity hl
      | none =>
        refine touches_none ctx ⟨paErrCallback, ctx, none⟩ hheld _ le_rfl rfl fun b hb => ?_
        simp [Op.run, paModbusRecvRaw, withRxbuf, hcallback, hnonempty b hb]
  | rxReset =>
    exact touches_none ctx ⟨paOk, paModbusRxReset ctx, none⟩ hheld _ (Nat.zero_le _) rfl
      fun b hb => rfl
  | setFramer framer =>
    exact touches_none ctx ⟨paOk, paModbusSetFramer framer ctx, none⟩ hheld _ le_rfl rfl
      fun b hb => rfl
  | setMode mode =>
    exact touches_none ctx ⟨paOk, paModbusSetMode mode ctx, none⟩ hheld _ le_rfl rfl
      fun b hb => rfl
  | setSlave slave =>
    exact touches_none ctx ⟨paOk, paModbusSetSlave slave ctx, none⟩ hheld _ le_rfl rfl
      fun b hb => rfl
  | setDiscoveryAddr addr =>
    exact touches_none ctx ⟨paOk, paModbusSetDiscoveryAddr addr ctx, none⟩ hheld _ le_rfl rfl
      fun b hb => rfl

theorem op_safe (ctx : PaModbus σ) (size : Nat) (h : Ready size ctx) (op : Op)
    (hl : op.arriving.length ≤ offered ctx) : Safe ctx op where
  room := room_exact ctx size h
  touches := op_touches ctx size h op hl
  consumed := by
    intro now ctx' start frameLen hreceived hscan
    rw [offered_eq ctx size h] at hl
    have hheld := h.held
    have hfixed := h.fixed
    have hbound := ctx.rxbuf.bounded
    have hacc : (accumulator ctx).length = ctx.rxLen := List.length_take_of_le (by omega)
    have hwhole : (accumulator ctx ++ op.arriving).length ≤ ctx.rxbuf.cells.length := by
      rw [List.length_append]
      omega
    have hr := received_holding ctx ctx.rxbuf (accumulator ctx) op.arriving ctx.lastRxTick now
      (by omega)
    rw [holding_self ctx (by omega), hreceived, Option.some.injEq] at hr
    rw [hr] at hscan ⊢
    obtain ⟨p, n, hs, rfl⟩ := (scan_holding ctx _ _ _ hwhole start frameLen).mp hscan
    exact (found_feeds ctx _ start p n (by omega) hs).1

theorem op_ready (ctx : PaModbus σ) (size : Nat) (h : Ready size ctx) (op : Op)
    (hl : op.arriving.length ≤ offered ctx) :
    ∃ out, op.run ctx = some out ∧ Ready size out.ctx := by
  obtain ⟨out, xs, hxs, hle, hc, hrun⟩ := op_touches ctx size h op hl
  rw [offered_eq ctx size h] at hl
  have hheld := h.held
  refine ⟨withRxbuf out (ctx.rxbuf.patch xs), hrun ctx.rxbuf rfl rfl, ?_, ?_, h.nonempty, ?_⟩
  · exact hc.trans h.callback
  · rw [← h.fixed]
    exact overlay_length _ _
  · exact hle.trans (by omega)

/-- However the calls follow one another and whatever arrives, the accumulator
stays inside of its buffer. -/
theorem accumulator_sound (ctx : PaModbus σ) (size : Nat) (ops : List Op) (h : Ready size ctx)
    (hops : Honest ctx ops) : Sound size ctx ops := by
  induction ops generalizing ctx with
  | nil => exact h
  | cons op ops ih =>
    obtain ⟨hl, hrest⟩ := hops
    obtain ⟨out, hrun, hready⟩ := op_ready ctx size h op hl
    rw [hrun] at hrest
    exact ⟨h, op_safe ctx size h op hl, out, hrun, ih out.ctx hready hrest⟩

/-- The framer is switched between the halves of a request, and the raw receiver
gets the last bytes. -/
def mixedRun : List Op :=
  [.recv ⟨0, some [0x01, 0x03, 0x00]⟩, .setFramer .tcp, .recv ⟨1, some [0x00, 0x00, 0x03]⟩,
    .recvRaw ⟨2, some [0x05, 0xCB]⟩ (some 8), .rxReset, .setFramer .rtu, .setSlave 2,
    .recv ⟨3, none⟩]

theorem mixed_run_sound : Sound 16 (station .rtu 1 16 16 : PaModbus Unit) mixedRun :=
  accumulator_sound (station .rtu 1 16 16) 16 mixedRun ⟨rfl, rfl, by decide, by decide⟩
    (And.intro (by decide) (And.intro (by decide) (And.intro (by decide) (And.intro (by decide)
      (And.intro (by decide) (And.intro (by decide) (And.intro (by decide) (And.intro (by decide)
        trivial))))))))

end Pamodbus.Accumulator
