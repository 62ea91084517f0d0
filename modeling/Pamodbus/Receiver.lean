import Pamodbus.Lib.Scanner
import Pamodbus.ParseTotal
import Pamodbus.Recv

namespace Pamodbus.Receiver

open Pamodbus.Lib.Cells Pamodbus.Lib.CInt Pamodbus.Lib.Procedure Pamodbus.Lib.Hoare
open Pamodbus.Lib.Scanner Pamodbus.Lib.Words
open Pamodbus.Context Pamodbus.FramerRtu Pamodbus.FramerTcp Pamodbus.Framer Pamodbus.Feed Pamodbus.ParseTotal
open Pamodbus.Recv

variable {σ : Type}

/-- Place and length of the PDU when `unwrap` takes the bytes. -/
def accepted (ctx : PaModbus σ) (data : Bytes) : Option (Nat × Nat) :=
  match unwrap ctx data with
  | some (.ok pdu pduLen) => some (pdu, pduLen)
  | _ => none

theorem accepted_iff (ctx : PaModbus σ) (data : Bytes) (p n : Nat) :
    accepted ctx data = some (p, n) ↔ unwrap ctx data = some (.ok p n) := by
  rw [accepted]
  obtain ⟨u, hu⟩ := Framer.unwrap_defined ctx data
  rw [hu]
  cases u with
  | ok p' n' => simp
  | ret r => simp

theorem accepted_none_iff (ctx : PaModbus σ) (data : Bytes) :
    accepted ctx data = none ↔ ∃ r, unwrap ctx data = some (.ret r) := by
  rw [accepted]
  obtain ⟨u, hu⟩ := Framer.unwrap_defined ctx data
  rw [hu]
  cases u with
  | ok p n => simp
  | ret r => simp

/-- The frame length as the scan computes it from the place of the PDU. -/
def frameLength (ctx : PaModbus σ) (pdu pduLen : Nat) : Nat :=
  if ctx.framerType = .rtu then sizeT (sizeT (pdu + pduLen) + 2) else sizeT (pdu + pduLen)

theorem scanFrom_eq (ctx : PaModbus σ) (off : Nat) (data : Bytes) :
    scanFrom ctx off data =
      some ((scan (accepted ctx) off data).map fun r => (r.1, frameLength ctx r.2.1 r.2.2)) := by
  induction data generalizing off with
  | nil => rfl
  | cons b data ih =>
    rw [scanFrom, scan]
    cases ha : accepted ctx (b :: data) with
    | some r =>
      rw [(accepted_iff ctx _ r.1 r.2).mp ha]
      rfl
    | none =>
      obtain ⟨r, hr⟩ := (accepted_none_iff ctx _).mp ha
      rw [hr]
      exact ih (off + 1)

/-- `ctx` as a receiver that holds the bytes `acc` in the buffer `b`. -/
def holding (ctx : PaModbus σ) (b : Buffer UInt8) (acc : Bytes) (tick : UInt32) : PaModbus σ :=
  { ctx with rxbuf := b.patch acc, rxLen := acc.length, lastRxTick := tick }

theorem holding_accumulator (ctx : PaModbus σ) (b : Buffer UInt8) (acc : Bytes) (tick : UInt32)
    (h : acc.length ≤ b.cells.length) : accumulator (holding ctx b acc tick) = acc :=
  overlay_take_self _ _ h

theorem holding_accepted (ctx : PaModbus σ) (b : Buffer UInt8) (acc : Bytes) (tick : UInt32) :
    accepted (holding ctx b acc tick) = accepted ctx := rfl

theorem holding_self (ctx : PaModbus σ) (h : ctx.rxLen ≤ ctx.rxbuf.cells.length) :
    holding ctx ctx.rxbuf (accumulator ctx) ctx.lastRxTick = ctx := by
  rw [holding, accumulator, Buffer.patch_take_cells, List.length_take_of_le h]

theorem holding_nil (ctx : PaModbus σ) (b : Buffer UInt8) (tick : UInt32) :
    holding ctx b [] tick = { ctx with rxbuf := b, rxLen := 0, lastRxTick := tick } := by
  rw [holding, Buffer.patch_nil]
  rfl

theorem block_holding (ctx : PaModbus σ) (b : Buffer UInt8) (pre suf : Bytes) (t : UInt32) (n : Nat)
    (hb : (pre ++ suf).length ≤ b.cells.length) (hn : n ≤ suf.length) :
    block (holding ctx b (pre ++ suf) t).rxbuf.cells pre.length n = some (suf.take n) := by
  rw [holding, Buffer.patch_cells, block_overlay _ _ _ _ (by simpa using hn) hb, List.drop_left]

theorem frameLength_rtu (ctx : PaModbus σ) (n : Nat) (hf : ctx.framerType = .rtu)
    (hn : n + 3 < 2 ^ 64) : frameLength ctx 1 n = n + 3 := by
  have hpdu : ((1 : Nat) : Int) + (n : Int) = ((n + 1 : Nat) : Int) := by omega
  have hcrc : ((n + 1 : Nat) : Int) + 2 = ((n + 3 : Nat) : Int) := by omega
  rw [frameLength, if_pos hf, hpdu, sizeT_natCast _ (by omega), hcrc, sizeT_natCast _ hn]

theorem received_holding (ctx : PaModbus σ) (b : Buffer UInt8) (acc bytes : Bytes)
    (tick now : UInt32) (h : acc.length + bytes.length ≤ b.cells.length) :
    received (holding ctx b acc tick) bytes now =
      some (holding ctx b (acc ++ bytes) (if 0 < bytes.length then now else tick)) := by
  have hs := Buffer.store_patch b acc bytes (by omega)
  rw [if_pos h] at hs
  rw [received, holding]
  simp only [hs, Option.bind_eq_bind, Option.bind_some, Option.pure_def]
  by_cases hb : 0 < bytes.length
  · rw [if_pos hb, if_pos hb, holding, List.length_append]
  · have hn : bytes = [] := List.length_eq_zero_iff.mp (by omega)
    rw [if_neg hb, if_neg hb, holding, hn, List.append_nil]

theorem scan_holding (ctx : PaModbus σ) (b : Buffer UInt8) (acc : Bytes) (t : UInt32)
    (hb : acc.length ≤ b.cells.length) (start frameLen : Nat) :
    paRxScanFrame (holding ctx b acc t) = some (some (start, frameLen)) ↔
      ∃ p n, scan (accepted ctx) 0 acc = some (start, p, n) ∧ frameLen = frameLength ctx p n := by
  rw [paRxScanFrame, holding_accumulator ctx b acc t hb, scanFrom_eq, holding_accepted,
    Option.some.injEq, Option.map_eq_some_iff]
  constructor
  · rintro ⟨⟨k, p, n⟩, hs, he⟩
    rw [Prod.mk.injEq] at he
    obtain ⟨rfl, rfl⟩ := he
    exact ⟨p, n, hs, rfl⟩
  · rintro ⟨p, n, hs, rfl⟩
    exact ⟨(start, p, n), hs, rfl⟩

/-- One call: the bytes join those held, and the first frame among them is
dispatched, or the receiver goes on waiting. -/
theorem recv_holding (ctx : PaModbus σ) (b : Buffer UInt8) (acc bytes : Bytes)
    (last tick : UInt32) (hc : ctx.recvCb = true) (hb : b.cells.length ≠ 0)
    (h : acc.length + bytes.length ≤ b.cells.length) :
    paModbusRecv (holding ctx b acc last) ⟨tick, some bytes⟩ =
      let now := if ctx.ticksCb then tick else 0
      let ctx' := holding ctx b (acc ++ bytes) (if 0 < bytes.length then now else last)
      match scan (accepted ctx) 0 (acc ++ bytes) with
      | some (start, pdu, pduLen) => dispatchFrame ctx' now start (frameLength ctx pdu pduLen)
      | none => some (keepWaiting ctx' now) := by
  have hcfg : ¬ (¬ (holding ctx b acc last).recvCb = true ∨
      (holding ctx b acc last).rxbuf.cells.length = 0) := by
    rw [holding]
    simp [hc, hb]
  rw [paModbusRecv, if_neg hcfg]
  have hr := received_holding ctx b acc bytes last (if ctx.ticksCb then tick else 0) h
  have hticks : (holding ctx b acc last).ticksCb = ctx.ticksCb := rfl
  dsimp only
  rw [hticks, hr, Option.bind_eq_bind, Option.bind_some]
  have ha := holding_accumulator ctx b (acc ++ bytes)
    (if 0 < bytes.length then (if ctx.ticksCb then tick else 0) else last) (by simpa using h)
  have hlen (t : UInt32) : (holding ctx b (acc ++ bytes) t).rxLen = (acc ++ bytes).length := rfl
  rw [hlen]
  by_cases hz : 0 < (acc ++ bytes).length
  · rw [if_pos hz, paRxScanFrame, ha, scanFrom_eq, holding_accepted]
    cases scan (accepted ctx) 0 (acc ++ bytes) with
    | none => rfl
    | some r => rfl
  · have hn : acc ++ bytes = [] := List.length_eq_zero_iff.mp (by omega)
    rw [if_neg hz, hn]
    rfl

theorem recv_own (ctx : PaModbus σ) (bytes : Bytes) (tick : UInt32) (hc : ctx.recvCb = true)
    (hn : ctx.rxbuf.cells.length ≠ 0)
    (h : ctx.rxLen + bytes.length ≤ ctx.rxbuf.cells.length) :
    paModbusRecv ctx ⟨tick, some bytes⟩ =
      let now := if ctx.ticksCb then tick else 0
      let ctx' := holding ctx ctx.rxbuf (accumulator ctx ++ bytes)
        (if 0 < bytes.length then now else ctx.lastRxTick)
      match scan (accepted ctx) 0 (accumulator ctx ++ bytes) with
      | some (start, pdu, pduLen) => dispatchFrame ctx' now start (frameLength ctx pdu pduLen)
      | none => some (keepWaiting ctx' now) := by
  have hacc : (accumulator ctx).length = ctx.rxLen := List.length_take_of_le (by omega)
  have hrun := recv_holding ctx ctx.rxbuf (accumulator ctx) bytes ctx.lastRxTick tick hc hn
    (by omega)
  rwa [holding_self ctx (by omega)] at hrun

theorem rtu_frame_cut (ctx : PaModbus σ) (data : Bytes) (p n k : Nat) (hf : ctx.framerType = .rtu)
    (hu : unwrap ctx data = some (.ok p n)) (hn : n + 3 ≤ k) (hk : k ≤ data.length) :
    unwrap ctx (data.take k) = some (.ok 1 n) := by
  rw [unwrap_rtu ctx _ hf] at hu ⊢
  obtain ⟨addr, fc, body, rest, hd, he, ha, rfl, rfl⟩ := (FramerRtu.unwrap_ok_iff _ _ _ _).mp hu
  have hl : (rtuFrame addr (fc :: body)).length ≤ k := by
    rw [rtuFrame_length, List.length_cons]
    exact hn
  refine (FramerRtu.unwrap_ok_iff _ _ _ _).mpr ⟨addr, fc, body,
    rest.take (k - (rtuFrame addr (fc :: body)).length), ?_, ?_, ha, rfl, rfl⟩
  · rw [hd, List.take_append, List.take_of_length_le hl]
  · exact expectedLen_take fc data _ _ (by omega) (by omega) hk he

theorem rtu_frame_alone (ctx : PaModbus σ) (data : Bytes) (p n : Nat)
    (hf : ctx.framerType = .rtu) (hu : unwrap ctx data = some (.ok p n)) :
    p = 1 ∧ 1 ≤ n ∧ n + 3 ≤ data.length ∧ unwrap ctx (data.take (n + 3)) = some (.ok 1 n) := by
  have hu' := hu
  rw [unwrap_rtu ctx _ hf] at hu'
  obtain ⟨addr, fc, body, rest, hd, -, -, rfl, rfl⟩ := (FramerRtu.unwrap_ok_iff _ _ _ _).mp hu'
  have hl : body.length + 1 + 3 ≤ data.length := by
    rw [hd]
    simp
  exact ⟨rfl, by omega, hl, rtu_frame_cut ctx data 1 _ _ hf hu le_rfl hl⟩

theorem roleFeed_total (ctx : PaModbus σ) (data : Bytes) (n : Nat)
    (hu : unwrap ctx data = some (.ok 1 n)) (hn : n + 3 ≤ data.length) :
    ∃ r ctx', (roleFeed ctx data).run ctx = some (r, ctx') ∧ Verdict r ∧ Parsed ctx ctx' := by
  have hl : n + 2 ≤ (data.drop 1).length := by
    rw [List.length_drop]
    omega
  have hle : n ≤ (data.drop 1).length := by omega
  rw [roleFeed]
  split
  · rw [slaveFeed_ok ctx data 1 n hu]
    obtain ⟨r, ctx', hrun, hr⟩ := sure_parseSlaveRequest hle ctx trivial
    exact ⟨r, ctx', hrun, hr, parseSlaveRequest_parsed _ _ _ _ _ hrun⟩
  · rw [masterFeed_ok ctx data 1 n hu]
    obtain ⟨r, ctx', hrun, hr⟩ := sure_parseMasterResponse hle (fun _ _ => by omega) ctx trivial
    exact ⟨r, ctx', hrun, hr, parseMasterResponse_parsed _ _ _ _ _ hrun⟩

theorem roleFeed_refused (ctx : PaModbus σ) (data : Bytes) (r : Int)
    (hu : unwrap ctx data = some (.ret r)) :
    ∃ ctx', (roleFeed ctx data).run ctx = some (r, ctx') ∧ Parsed ctx ctx' := by
  rw [roleFeed]
  split
  · exact ⟨ctx, slaveFeed_ret ctx data r hu, parsed_refl ctx⟩
  · refine ⟨_, masterFeed_ret ctx data r hu, ?_⟩
    split
    · exact ⟨_, _, _, rfl⟩
    · exact parsed_refl ctx

theorem frameLength_tcp (ctx : PaModbus σ) (length : UInt16) (hf : ctx.framerType = .tcp) :
    frameLength ctx 7 (sizeT (length.toNat - 1)) = 6 + length.toNat := by
  have hlt := length.toNat_lt
  rw [frameLength, if_neg (by rw [hf]; decide)]
  by_cases hz : length.toNat = 0
  · rw [hz]
    decide
  · have hpdu : (length.toNat : Int) - 1 = ((length.toNat - 1 : Nat) : Int) := by omega
    have hframe : ((7 : Nat) : Int) + ((length.toNat - 1 : Nat) : Int) =
        ((6 + length.toNat : Nat) : Int) := by omega
    rw [hpdu, sizeT_natCast _ (by omega), hframe, sizeT_natCast _ (by omega)]

theorem tcp_slice_refused (ctx : PaModbus σ) (data : Bytes) (length : UInt16)
    (hf : ctx.framerType = .tcp) (h : Acceptable ctx data length) :
    ∃ r, unwrap ctx (data.take (6 + length.toNat)) = some (.ret r) := by
  have htotal := h.total
  obtain ⟨u, hu⟩ := Framer.unwrap_defined ctx (data.take (6 + length.toNat))
  cases u with
  | ret r => exact ⟨r, hu⟩
  | ok p n =>
    rw [unwrap_tcp ctx _ hf] at hu
    obtain ⟨length', h', -, -⟩ := (FramerTcp.unwrap_ok_iff _ _ _ _).mp hu
    have h8 := h'.header
    have h7 := h'.total
    rw [List.length_take_of_le (by omega)] at h8 h7
    -- the length field lies inside of the slice, so it is the same
    obtain ⟨h4, h5⟩ := h.length_eq
    obtain ⟨h4', h5'⟩ := h'.length_eq
    rw [List.getElem?_take_of_lt (by omega), h4, Option.some.injEq] at h4'
    rw [List.getElem?_take_of_lt (by omega), h5, Option.some.injEq] at h5'
    have heq : length = length' := by rw [← word_bytes length, h4', h5', word_bytes]
    rw [← heq] at h7
    omega

theorem found_feeds (ctx : PaModbus σ) (acc : Bytes) (start p n : Nat) (hl : acc.length < 2 ^ 64)
    (hs : scan (accepted ctx) 0 acc = some (start, p, n)) :
    start + frameLength ctx p n ≤ acc.length ∧
      ∃ r ctx', (roleFeed ctx ((acc.drop start).take (frameLength ctx p n))).run ctx =
        some (r, ctx') ∧ r ≠ paErrTimeout ∧ Parsed ctx ctx' := by
  obtain ⟨pre, suf, rfl, hk, -, ha⟩ := scan_some hs
  obtain rfl : start = pre.length := by omega
  have hu := (accepted_iff _ _ _ _).mp ha
  rw [List.length_append] at hl ⊢
  rw [List.drop_left]
  cases hf : ctx.framerType with
  | rtu =>
    obtain ⟨rfl, -, hn, hw⟩ := rtu_frame_alone ctx suf p n hf hu
    rw [frameLength_rtu ctx n hf (by omega)]
    obtain ⟨r, ctx', hrun, hv, hp⟩ := roleFeed_total ctx (suf.take (n + 3)) n hw
      (by rw [List.length_take_of_le hn])
    exact ⟨by omega, r, ctx', hrun, hv.ne_timeout, hp⟩
  | tcp =>
    rw [unwrap_tcp ctx _ hf] at hu
    obtain ⟨length, hacc, rfl, rfl⟩ := (FramerTcp.unwrap_ok_iff _ _ _ _).mp hu
    have htotal := hacc.total
    obtain ⟨r, hr⟩ := tcp_slice_refused ctx suf length hf hacc
    obtain ⟨ctx', hrun, hp⟩ := roleFeed_refused ctx _ r hr
    rw [frameLength_tcp ctx length hf]
    exact ⟨by omega, r, ctx', hrun, (unwrap_refused ctx _ r hr).ne_timeout, hp⟩

theorem roleFeed_blind (role : PaModbus σ) (b : Buffer UInt8) (n : Nat) (t : UInt32) (data : Bytes) :
    Blind (fun ctx => { ctx with rxbuf := b, rxLen := n, lastRxTick := t })
      (roleFeed role data) := by
  rw [roleFeed]
  split
  · refine blind_get_bind (fun _ => rfl) fun ctx => blind_access_bind fun u => ?_
    cases u with
    | ret r => exact blind_pure r
    | ok p n =>
      refine blind_ite (blind_pure _) (blind_access_bind fun fc => ?_)
      refine blind_bind (blind_modify fun _ => rfl) fun _ => blind_ite (blind_pure _) ?_
      exact blind_focus _ _ _ (fun _ => rfl) fun _ _ => rfl
  · refine blind_get_bind (fun _ => rfl) fun ctx => blind_access_bind fun u => ?_
    cases u with
    | ret r =>
      exact blind_ite (blind_bind (blind_modify fun _ => rfl) fun _ => blind_pure r) (blind_pure r)
    | ok p n =>
      refine blind_ite (blind_pure _) (blind_access_bind fun fc => ?_)
      refine blind_bind (blind_modify fun _ => rfl) fun _ => blind_ite ?_ ?_
      · refine blind_ite (blind_pure _) (blind_access_bind fun e => ?_)
        exact blind_bind (blind_modify fun _ => rfl) fun _ => blind_pure _
      · refine blind_bind (blind_modify fun _ => rfl) fun _ => ?_
        exact blind_focus _ _ _ (fun _ => rfl) fun _ _ => rfl

theorem roleFeed_holding (ctx : PaModbus σ) (b : Buffer UInt8) (acc : Bytes) (t : UInt32)
    (data : Bytes) :
    (roleFeed (holding ctx b acc t) data).run (holding ctx b acc t) =
      ((roleFeed ctx data).run ctx).map fun r => (r.1, holding r.2 b acc t) :=
  roleFeed_blind ctx (b.patch acc) acc.length t data ctx

/-- What a dispatched message leaves: the bytes behind it, at the front of the buffer. -/
theorem dispatch_holding (ctx ctx' : PaModbus σ) (b : Buffer UInt8) (acc : Bytes) (t now : UInt32)
    (start len : Nat) (r : Int) (hb : acc.length ≤ b.cells.length) (hl : start + len ≤ acc.length)
    (hrun : (roleFeed ctx ((acc.drop start).take len)).run ctx = some (r, ctx')) :
    dispatchFrame (holding ctx b acc t) now start len =
      some ⟨r, holding ctx' (b.patch acc) (acc.drop (start + len))
        (if start + len < acc.length then now else t), some ((acc.drop start).take len)⟩ := by
  have hbound := b.bounded
  have hdata : block (holding ctx b acc t).rxbuf.cells start len = some ((acc.drop start).take len) :=
    block_overlay _ _ _ _ hl hb
  have hconsumed : sizeT ((start : Int) + (len : Int)) = start + len := by
    rw [← Nat.cast_add, sizeT_natCast _ (by omega)]
  have hremaining : sizeT ((acc.length : Int) - ((start + len : Nat) : Int)) =
      acc.length - (start + len) := by
    rw [← Nat.cast_sub hl, sizeT_natCast _ (by omega)]
  have hfeed := roleFeed_holding ctx b acc t ((acc.drop start).take len)
  rw [hrun, Option.map_some] at hfeed
  have hlen : (holding ctx' b acc t).rxLen = acc.length := rfl
  simp only [dispatchFrame, hdata, hfeed, Option.bind_eq_bind, Option.bind_some, hconsumed, hlen,
    hremaining, Option.pure_def]
  by_cases hrest : start + len < acc.length
  · have htail : block (holding ctx' b acc t).rxbuf.cells (start + len)
        (acc.length - (start + len)) = some (acc.drop (start + len)) := by
      rw [holding, Buffer.patch_cells, block_overlay _ _ _ _ (by omega) hb,
        List.take_of_length_le (by simp)]
    have hmove : (holding ctx' b acc t).rxbuf.store 0 (acc.drop (start + len)) =
        some ((b.patch acc).patch (acc.drop (start + len))) := by
      rw [holding, Buffer.store_front, if_pos]
      rw [Buffer.patch_cells, overlay_length, List.length_drop]
      omega
    rw [if_pos (by omega), if_pos hrest, htail, Option.bind_some, hmove, Option.bind_some, holding,
      holding, List.length_drop]
  · have hnil : acc.drop (start + len) = [] := List.drop_of_length_le (by omega)
    rw [if_neg (by omega), if_neg hrest, hnil, holding_nil, holding, Nat.sub_eq_zero_of_le (by omega)]

theorem keepWaiting_cases (ctx : PaModbus σ) (now : UInt32) :
    keepWaiting ctx now = ⟨paWait, ctx, none⟩ ∨
      ∃ ret, ret < 0 ∧ keepWaiting ctx now = ⟨ret, { ctx with rxLen := 0 }, none⟩ := by
  rw [keepWaiting]
  split
  · exact .inr ⟨paErrBufferFull, by decide, rfl⟩
  · split
    · exact .inr ⟨paErrTimeout, by decide, rfl⟩
    · exact .inl rfl

theorem keepWaiting_waits (ctx : PaModbus σ) (now : UInt32)
    (hroom : ctx.rxLen < ctx.rxbuf.cells.length)
    (ht : ctx.ticksCb = true → 0 < ctx.rxLen → now - ctx.lastRxTick < ctx.idleTimeoutTicks) :
    keepWaiting ctx now = ⟨paWait, ctx, none⟩ := by
  rw [keepWaiting, if_neg (by omega), if_neg]
  rintro ⟨hc, hn, hi⟩
  exact absurd (ht hc hn) (UInt32.not_lt.mpr hi)

theorem keepWaiting_expires (ctx : PaModbus σ) (now : UInt32) (hc : ctx.ticksCb = true)
    (hn : 0 < ctx.rxLen) (ht : ctx.idleTimeoutTicks ≤ now - ctx.lastRxTick) :
    (keepWaiting ctx now).ctx = { ctx with rxLen := 0 } := by
  rw [keepWaiting]
  split
  · rfl
  · rw [if_pos ⟨hc, hn, ht⟩]

theorem dispatch_dispatched (ctx : PaModbus σ) (now : UInt32) (start frameLen : Nat)
    (out : Outcome σ) (h : dispatchFrame ctx now start frameLen = some out) :
    out.dispatched ≠ none := by
  simp only [dispatchFrame, Option.bind_eq_bind, Option.bind_eq_some_iff, Option.pure_def] at h
  obtain ⟨data, -, r, -, h⟩ := h
  split at h
  · simp only [Option.bind_eq_some_iff, Option.some.injEq] at h
    obtain ⟨_, -, _, -, rfl⟩ := h
    exact Option.some_ne_none data
  · rw [Option.some.injEq] at h
    rw [← h]
    exact Option.some_ne_none data

end Pamodbus.Receiver
