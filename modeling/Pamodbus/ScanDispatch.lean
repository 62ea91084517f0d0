import Pamodbus.Receiver

namespace Pamodbus.ScanDispatch

open Pamodbus.Lib.Cells Pamodbus.Lib.CInt Pamodbus.Lib.Procedure Pamodbus.Lib.Scanner
open Pamodbus.Lib.Words
open Pamodbus.Context Pamodbus.FramerRtu Pamodbus.FramerTcp Pamodbus.Framer Pamodbus.Feed
open Pamodbus.Recv Pamodbus.Receiver

variable {σ : Type}

/-- What the scan reports is a frame for the feed as well, with the same PDU. -/
def ScanAgrees (ctx : PaModbus σ) : Prop :=
  ∀ start frameLen, paRxScanFrame ctx = some (some (start, frameLen)) →
    ∃ data p q n, block ctx.rxbuf.cells start frameLen = some data ∧
      unwrap ctx ((accumulator ctx).drop start) = some (.ok p n) ∧
      unwrap ctx data = some (.ok q n) ∧
      (data.drop q).take n = (((accumulator ctx).drop start).drop p).take n

/-- A positive return value leaves everything received in the accumulator. -/
def PositiveKeeps (ctx : PaModbus σ) (tick : UInt32) (bytes : Bytes) : Prop :=
  ∀ out, paModbusRecv ctx ⟨tick, some bytes⟩ = some out → 0 < out.ret →
    accumulator out.ctx = accumulator ctx ++ bytes

/-- Scan and feed agree on the bytes that one call finds in the accumulator. -/
def Agrees (ctx : PaModbus σ) (tick : UInt32) (bytes : Bytes) : Prop :=
  (∃ ctx', received ctx bytes (if ctx.ticksCb then tick else 0) = some ctx' ∧ ScanAgrees ctx') ∧
    PositiveKeeps ctx tick bytes

theorem scan_agrees_rtu (ctx : PaModbus σ) (b : Buffer UInt8) (acc : Bytes) (t : UInt32)
    (hf : ctx.framerType = .rtu) (hb : acc.length ≤ b.cells.length) :
    ScanAgrees (holding ctx b acc t) := by
  intro start frameLen hscan
  obtain ⟨p, n, hs, rfl⟩ := (scan_holding ctx b acc t hb _ _).mp hscan
  obtain ⟨pre, suf, rfl, hk, -, ha⟩ := scan_some hs
  obtain rfl : start = pre.length := by omega
  have hu := (accepted_iff _ _ _ _).mp ha
  obtain ⟨rfl, -, hl, hw⟩ := rtu_frame_alone ctx suf p n hf hu
  have hbound := b.bounded
  rw [List.length_append] at hb
  rw [frameLength_rtu ctx n hf (by omega), holding_accumulator _ _ _ _ (by simpa using hb),
    List.drop_left]
  refine ⟨suf.take (n + 3), 1, 1, n, block_holding ctx b pre suf t (n + 3) (by simpa using hb) hl,
    hu, hw, ?_⟩
  rw [List.drop_take, List.take_take]
  congr 1
  omega

/-- Under TCP the slice is one byte short of what `unwrap` asks for. -/
theorem scan_disagrees_tcp (ctx : PaModbus σ) (b : Buffer UInt8) (acc : Bytes) (t : UInt32)
    (hf : ctx.framerType = .tcp) (hb : acc.length ≤ b.cells.length) (start p n : Nat)
    (hs : scan (accepted ctx) 0 acc = some (start, p, n)) :
    ¬ ScanAgrees (holding ctx b acc t) := by
  intro hagree
  obtain ⟨data, p', q, n', hdata, -, hq, -⟩ :=
    hagree start _ ((scan_holding ctx b acc t hb _ _).mpr ⟨p, n, hs, rfl⟩)
  obtain ⟨pre, suf, rfl, hk, -, ha⟩ := scan_some hs
  obtain rfl : start = pre.length := by omega
  have hu := (accepted_iff _ _ _ _).mp ha
  rw [unwrap_tcp ctx _ hf] at hu
  obtain ⟨length, hacc, rfl, rfl⟩ := (FramerTcp.unwrap_ok_iff _ _ _ _).mp hu
  have htotal := hacc.total
  rw [frameLength_tcp ctx length hf, block_holding ctx b pre suf t _ hb (by omega),
    Option.some.injEq] at hdata
  obtain ⟨r, hr⟩ := tcp_slice_refused ctx suf length hf hacc
  change unwrap ctx data = _ at hq
  rw [← hdata, hr] at hq
  cases hq

theorem keepWaiting_positive (ctx : PaModbus σ) (now : UInt32) (h : 0 < (keepWaiting ctx now).ret) :
    (keepWaiting ctx now).ctx = ctx := by
  rcases keepWaiting_cases ctx now with hw | ⟨ret, hr, hw⟩
  · rw [hw]
  · rw [hw] at h
    exact absurd h (Int.not_lt.mpr hr.le)

theorem dispatch_nonpositive (ctx : PaModbus σ) (b : Buffer UInt8) (acc : Bytes) (t now : UInt32)
    (hf : ctx.framerType = .rtu) (hb : acc.length ≤ b.cells.length) (start p n : Nat)
    (hs : scan (accepted ctx) 0 acc = some (start, p, n)) (out : Outcome σ)
    (ho : dispatchFrame (holding ctx b acc t) now start (frameLength ctx p n) = some out) :
    out.ret ≤ 0 := by
  have hbound := b.bounded
  obtain ⟨pre, suf, rfl, hk, -, ha⟩ := scan_some hs
  obtain rfl : start = pre.length := by omega
  obtain ⟨rfl, -, hl, hw⟩ := rtu_frame_alone ctx suf p n hf ((accepted_iff _ _ _ _).mp ha)
  obtain ⟨r, ctx', hrun, hr, -⟩ := roleFeed_total ctx (suf.take (n + 3)) n hw
    (by rw [List.length_take_of_le hl])
  have hlen := hb
  rw [List.length_append] at hlen
  rw [frameLength_rtu ctx n hf (by omega), dispatch_holding ctx ctx' b _ t now pre.length (n + 3) r
    hb (by rw [List.length_append]; omega) (by rw [List.drop_left]; exact hrun),
    Option.some.injEq] at ho
  rw [← ho]
  exact hr.nonpos

theorem positive_keeps (ctx : PaModbus σ) (tick : UInt32) (bytes : Bytes) (hc : ctx.recvCb = true)
    (hb : ctx.rxbuf.cells.length ≠ 0) (hroom : ctx.rxLen + bytes.length ≤ ctx.rxbuf.cells.length)
    (h : ctx.framerType = .rtu ∨ scan (accepted ctx) 0 (accumulator ctx ++ bytes) = none) :
    PositiveKeeps ctx tick bytes := by
  intro out ho hpos
  have hl : (accumulator ctx).length = ctx.rxLen := by
    rw [accumulator, List.length_take_of_le (by omega)]
  rw [recv_own ctx bytes tick hc hb hroom] at ho
  dsimp only at ho
  cases hs : scan (accepted ctx) 0 (accumulator ctx ++ bytes) with
  | none =>
    rw [hs, Option.some.injEq] at ho
    rw [← ho] at hpos ⊢
    rw [keepWaiting_positive _ _ hpos]
    exact holding_accumulator _ _ _ _ (by rw [List.length_append]; omega)
  | some r =>
    obtain ⟨start, p, n⟩ := r
    rcases h with hf | hn
    · rw [hs] at ho
      have hle := dispatch_nonpositive ctx _ _ _ _ hf (by rw [List.length_append]; omega) start p n
        hs out ho
      omega
    · rw [hs] at hn
      cases hn

/-- Scan and dispatch agree over RTU, and under TCP only while nothing is found. -/
theorem scan_dispatch_agree_iff (ctx : PaModbus σ) (tick : UInt32) (bytes : Bytes)
    (hc : ctx.recvCb = true) (hb : ctx.rxbuf.cells.length ≠ 0)
    (hroom : ctx.rxLen + bytes.length ≤ ctx.rxbuf.cells.length) :
    Agrees ctx tick bytes ↔ ctx.framerType = .rtu ∨
      ∀ suf, suf <:+ accumulator ctx ++ bytes → ∀ p n, unwrap ctx suf ≠ some (.ok p n) := by
  have hl : (accumulator ctx).length = ctx.rxLen := by
    rw [accumulator, List.length_take_of_le (by omega)]
  have hr := received_holding ctx ctx.rxbuf (accumulator ctx) bytes ctx.lastRxTick
    (if ctx.ticksCb then tick else 0) (by omega)
  rw [holding_self ctx (by omega)] at hr
  have hlen : (accumulator ctx ++ bytes).length ≤ ctx.rxbuf.cells.length := by
    rw [List.length_append]
    omega
  constructor
  · rintro ⟨⟨ctx', hctx, hagree⟩, -⟩
    rw [hr, Option.some.injEq] at hctx
    subst hctx
    cases hf : ctx.framerType with
    | rtu => exact .inl rfl
    | tcp =>
      refine .inr fun suf hs p n hu => ?_
      cases hscan : scan (accepted ctx) 0 (accumulator ctx ++ bytes) with
      | some r => exact scan_disagrees_tcp ctx _ _ _ hf hlen r.1 r.2.1 r.2.2 hscan hagree
      | none =>
        have hn : suf ≠ [] := by
          rintro rfl
          rw [unwrap_tcp _ _ hf] at hu
          cases hu
        have hnone := (scan_none_iff 0 _).mp hscan suf hs hn
        rw [(accepted_iff ctx suf p n).mpr hu] at hnone
        cases hnone
  · rintro (hf | hnone)
    · exact ⟨⟨_, hr, scan_agrees_rtu ctx _ _ _ hf hlen⟩,
        positive_keeps ctx tick bytes hc hb hroom (.inl hf)⟩
    · have hscan : scan (accepted ctx) 0 (accumulator ctx ++ bytes) = none := by
        rw [scan_none_iff]
        intro suf hs hn
        obtain ⟨u, hu⟩ := Framer.unwrap_defined ctx suf
        cases u with
        | ok p n => exact absurd hu (hnone suf hs p n)
        | ret r => exact (accepted_none_iff ctx suf).mpr ⟨r, hu⟩
      refine ⟨⟨_, hr, ?_⟩, positive_keeps ctx tick bytes hc hb hroom (.inr hscan)⟩
      intro start frameLen hs
      obtain ⟨p, n, hs', -⟩ := (scan_holding ctx _ _ _ hlen _ _).mp hs
      rw [hscan] at hs'
      cases hs'

def serialStation : PaModbus Unit := station .rtu 1 16 16

def tcpStation : PaModbus Unit := station .tcp 1 16 16

theorem serial_scan_agrees :
    Agrees serialStation 0 [0x01, 0x03, 0x00, 0x00, 0x00, 0x03, 0x05, 0xCB] :=
  (scan_dispatch_agree_iff serialStation 0 [0x01, 0x03, 0x00, 0x00, 0x00, 0x03, 0x05, 0xCB] rfl
    (by decide) (by decide)).mpr (.inl rfl)

/-- A TCP request with one more byte behind it is removed with the return value 1. -/
theorem tcp_request_removed :
    ¬ Agrees tcpStation 0
      [0x00, 0x01, 0x00, 0x00, 0x00, 0x06, 0x01, 0x03, 0x00, 0x00, 0x00, 0x03, 0xAA] := by
  rintro ⟨-, hkeep⟩
  obtain ⟨out, ho, hr, ha⟩ : ∃ out, paModbusRecv tcpStation ⟨0, some [0x00, 0x01, 0x00, 0x00, 0x00,
      0x06, 0x01, 0x03, 0x00, 0x00, 0x00, 0x03, 0xAA]⟩ = some out ∧ out.ret = 1 ∧
      accumulator out.ctx = [0xAA] := ⟨_, rfl, rfl, rfl⟩
  have hacc := hkeep out ho (by rw [hr]; decide)
  rw [ha] at hacc
  cases hacc

end Pamodbus.ScanDispatch
