import Pamodbus.Accumulator
import Pamodbus.Send

namespace Pamodbus.RawRoundTrip

open Pamodbus.Lib.Cells Pamodbus.Lib.CInt Pamodbus.Lib.Prefixes Pamodbus.Lib.Procedure
open Pamodbus.Context Pamodbus.Crc16 Pamodbus.FramerRtu Pamodbus.Framer Pamodbus.Send
open Pamodbus.Recv Pamodbus.Receiver Pamodbus.RawScan Pamodbus.Accumulator

variable {σ : Type}

structure Listening (data : Bytes) (peer : PaModbus σ) : Prop where
  callback : peer.recvCb = true
  empty : peer.rxLen = 0
  nonempty : peer.rxbuf.cells.length ≠ 0
  room : data.length ≤ peer.rxbuf.cells.length

def Delivered (peer : PaModbus σ) (tick : UInt32) (data : Bytes) (capacity : Nat) (pdu : Bytes) :
    Prop :=
  ∃ out, paModbusRecvRaw peer ⟨tick, some data⟩ (some capacity) = some out ∧ out.ret = paOk ∧
    out.dispatched = some pdu

theorem sendRaw_sent (pdu : Bytes) (w w' : World σ) (ret : Int)
    (h : (paModbusSendRaw pdu).run w = some (ret, w')) (hret : 0 ≤ ret) :
    ∃ m : Nat, int32 pdu.length = m ∧ m ≤ pdu.length ∧
      w'.calls = w.calls ++ [(.send (frame w (pdu.take m)), 0)] := by
  obtain ⟨cb, hready, hp, framed, w₁, hwrap, hframed⟩ := sendRaw_accepted pdu w w' ret h hret
  obtain ⟨hnonneg, hint, hfits⟩ := Framer.wrap_ok _ _ _ _ (int32_bounds _).1 hwrap hframed
  rw [World.withTx_framerType] at hint hfits
  rw [World.withTx_txbuf, Buffer.patch_cells, overlay_length] at hfits
  obtain ⟨m, hm⟩ := Int.eq_ofNat_of_zero_le hnonneg
  have hmn : m ≤ pdu.length := by
    simp only [int32] at hm
    omega
  have hrun := sendRaw_run pdu m w cb hready hm hmn (by omega) hp (by omega)
  rw [h, Option.some.injEq, Prod.mk.injEq] at hrun
  obtain ⟨hr, rfl⟩ := hrun
  refine ⟨m, hm, hmn, ?_⟩
  split at hr
  · next hzero =>
    rw [World.called, hzero]
    rfl
  · exact absurd (hr ▸ hret) (by decide)

theorem delivered_iff (peer : PaModbus σ) (tick : UInt32) (data : Bytes) (capacity : Nat)
    (pdu : Bytes) (hl : Listening data peer) (hcap : pdu.length ≤ capacity) :
    Delivered peer tick data capacity pdu ↔
      shortest crcValid 4 data = some (pdu.length + 3) ∧ (data.drop 1).take pdu.length = pdu := by
  have hnone : accumulator peer = [] := by
    rw [accumulator, hl.empty, List.take_zero]
  have hrun := recvRaw_shortest peer peer.rxbuf [] data peer.lastRxTick tick capacity hl.callback
    hl.nonempty (by simpa using hl.room)
  rw [← hnone, holding_self peer (by rw [hl.empty]; exact Nat.zero_le _), hnone,
    List.nil_append] at hrun
  dsimp only at hrun
  rw [Delivered, hrun]
  generalize (if peer.ticksCb = true then tick else 0) = now
  cases hs : shortest crcValid 4 data with
  | none =>
    simp only [reduceCtorEq, false_and, iff_false, Option.some.injEq]
    rintro ⟨out, rfl, -, hd⟩
    rcases keepWaiting_cases (holding peer peer.rxbuf data
      (if 0 < data.length then now else peer.lastRxTick)) now with hw | ⟨r, -, hw⟩
    · rw [hw] at hd
      cases hd
    · rw [hw] at hd
      cases hd
  | some n =>
    obtain ⟨hn, hlong, -, -⟩ := shortest_eq_some_iff.mp hs
    rw [List.length_take_of_le hn] at hlong
    dsimp only
    constructor
    · rintro ⟨out, hout, hret, hd⟩
      split at hout
      · rw [← Option.some.inj hout] at hret
        exact absurd hret (by decide : ¬ paErrBufferFull = paOk)
      · rw [← Option.some.inj hout] at hd
        have hpdu : (data.drop 1).take (n - 3) = pdu := Option.some.inj hd
        have hlen := congrArg List.length hpdu
        rw [List.length_take_of_le (by rw [List.length_drop]; omega)] at hlen
        rw [← hlen]
        exact ⟨congrArg some (by omega), hpdu⟩
    · rintro ⟨hlen, hpdu⟩
      have hlen := Option.some.inj hlen
      have hthree : n - 3 = pdu.length := by omega
      rw [if_neg (by omega), hthree, hpdu]
      exact ⟨_, rfl, rfl, rfl⟩

theorem rtuFrame_prefix_iff (data pdu : Bytes) (h : pdu.length + 3 ≤ data.length) :
    (∃ addr, rtuFrame addr pdu <+: data) ↔
      crcValid (data.take (pdu.length + 3)) = true ∧ (data.drop 1).take pdu.length = pdu := by
  constructor
  · rintro ⟨addr, rest, rfl⟩
    rw [List.take_left' (rtuFrame_length addr pdu)]
    refine ⟨crcValid_rtuFrame addr pdu, ?_⟩
    rw [rtuFrame, List.append_assoc, List.cons_append, List.drop_one, List.tail_cons,
      List.take_left]
  · rintro ⟨hvalid, hpdu⟩
    cases data with
    | nil => exact absurd h (Nat.not_succ_le_zero _)
    | cons addr data =>
      refine ⟨addr, ?_⟩
      rw [List.drop_one, List.tail_cons] at hpdu
      have hlen : ((addr :: data).take (pdu.length + 3)).length = pdu.length + 3 :=
        List.length_take_of_le h
      have hfront : (addr :: data).take (pdu.length + 1) = addr :: pdu := by
        rw [List.take_succ_cons, hpdu]
      have hparts := List.take_append_drop (pdu.length + 1) ((addr :: data).take (pdu.length + 3))
      rw [crcValid, hlen, decide_eq_true_eq, List.take_take, min_eq_left (by omega)] at hvalid
      change ((addr :: data).take (pdu.length + 3)).drop (pdu.length + 1) =
        crcBytes ((addr :: data).take (pdu.length + 1)) at hvalid
      rw [hvalid, List.take_take, min_eq_left (by omega), hfront] at hparts
      rw [List.prefix_iff_eq_take, rtuFrame_length, ← hparts, rtuFrame]

/-- A raw PDU comes back as it was sent if and only if its length is an `int`, its
frame starts as a frame for the serial line, and no shorter front part of it passes
for a message. -/
theorem raw_round_trip_iff (pdu : Bytes) (w w' : World σ) (ret : Int) (hne : pdu ≠ [])
    (hsend : (paModbusSendRaw pdu).run w = some (ret, w')) (hret : 0 ≤ ret) :
    ∃ data, w'.calls = w.calls ++ [(.send data, 0)] ∧
      ∀ (peer : PaModbus σ) (tick : UInt32) (capacity : Nat), Listening data peer →
        pdu.length ≤ capacity → (Delivered peer tick data capacity pdu ↔
          pdu.length < 2 ^ 31 ∧ (∃ addr, rtuFrame addr pdu <+: frame w pdu) ∧
            ∀ k, 4 ≤ k → k < pdu.length + 3 → crcValid ((frame w pdu).take k) = false) := by
  obtain ⟨m, hm, hmn, hcalls⟩ := sendRaw_sent pdu w w' ret hsend hret
  have hbounds := int32_bounds (pdu.length : Int)
  have hpos := List.length_pos_iff.mpr hne
  have ho := overhead_le w.ctx.framerType
  have hlen := frame_length w (pdu.take m)
  rw [List.length_take_of_le hmn] at hlen
  refine ⟨_, hcalls, fun peer tick capacity hl hcap => ?_⟩
  rw [delivered_iff peer tick _ capacity pdu hl hcap, shortest_eq_some_iff]
  by_cases hshort : pdu.length < 2 ^ 31
  · rw [int32_eq _ (by omega) (by omega)] at hm
    obtain rfl : m = pdu.length := by omega
    rw [List.take_length] at hlen ⊢
    have hthree := overhead_ge w.ctx.framerType
    generalize frame w pdu = data at hlen ⊢
    rw [rtuFrame_prefix_iff data pdu (by omega)]
    have hfront : (data.take (pdu.length + 3)).length = pdu.length + 3 :=
      List.length_take_of_le (by omega)
    have hcut (k : Nat) (hk : k < pdu.length + 3) :
        (data.take (pdu.length + 3)).take k = data.take k := by
      rw [List.take_take, min_eq_left (by omega)]
    constructor
    · rintro ⟨⟨-, hfirst⟩, hpdu⟩
      refine ⟨hshort, ⟨hfirst.holds, hpdu⟩, fun k hk hless => ?_⟩
      rw [← hcut k hless]
      exact hfirst.before k hk (by omega)
    · rintro ⟨-, ⟨hvalid, hpdu⟩, hbefore⟩
      refine ⟨⟨by omega, by omega, hvalid, fun k hk hless => ?_⟩, hpdu⟩
      rw [hcut k (by omega)]
      exact hbefore k hk (by omega)
  · refine iff_of_false (fun h => ?_) fun h => hshort h.1
    have hlong := h.1.1
    simp only [int32] at hm
    omega

def sender (framer : Context.Framer) : World Unit :=
  ⟨paModbusSetSendCb (some fun _ app => (0, app)) (station framer 1 16 16), (), 1, []⟩

theorem two_bytes_round_trip :
    ((paModbusSendRaw [0x41, 0x42]).run (sender .rtu)).map (fun r => (r.1, r.2.calls)) =
        some (5, [(.send [0x01, 0x41, 0x42, 0x90, 0x61], 0)]) ∧
      Delivered (station .rtu 2 0 16 : PaModbus Unit) 0 [0x01, 0x41, 0x42, 0x90, 0x61] 2
        [0x41, 0x42] := by
  have hok : ((paModbusSendRaw [0x41, 0x42]).run (sender .rtu)).map (fun r => (r.1, r.2.calls)) =
      some (5, [(.send [0x01, 0x41, 0x42, 0x90, 0x61], 0)]) := by decide
  obtain ⟨⟨ret, w'⟩, hrun, hret⟩ := Option.map_eq_some_iff.mp hok
  obtain ⟨rfl, hsent⟩ := Prod.mk.inj hret
  obtain ⟨data, hcalls, hiff⟩ := raw_round_trip_iff [0x41, 0x42] (sender .rtu) w' 5 nofun hrun
    (by decide)
  obtain rfl : data = [0x01, 0x41, 0x42, 0x90, 0x61] := by
    simpa [sender] using hcalls.symm.trans hsent
  refine ⟨hok, (hiff _ 0 2 ⟨rfl, rfl, by decide, by decide⟩ (by decide)).mpr
    ⟨by decide, ⟨1, List.prefix_refl _⟩, ?_⟩⟩
  intro k hk hless
  obtain rfl : k = 4 := Nat.le_antisymm (Nat.lt_succ_iff.mp hless) hk
  decide

/-- A PDU behind an MBAP header, and one that starts with the check value of its front. -/
theorem raw_frames_not_delivered :
    ((paModbusSendRaw [0x41]).run (sender .tcp)).map (fun r => (r.1, r.2.calls)) =
        some (8, [(.send [0x00, 0x01, 0x00, 0x00, 0x00, 0x02, 0x01, 0x41], 0)]) ∧
      ¬ Delivered (station .tcp 2 0 16 : PaModbus Unit) 0
        [0x00, 0x01, 0x00, 0x00, 0x00, 0x02, 0x01, 0x41] 16 [0x41] ∧
      ((paModbusSendRaw [0x41, 0xC0, 0x10, 0x42]).run (sender .rtu)).map (fun r => (r.1, r.2.calls)) =
        some (7, [(.send [0x01, 0x41, 0xC0, 0x10, 0x42, 0x80, 0x31], 0)]) ∧
      ¬ Delivered (station .rtu 2 0 16 : PaModbus Unit) 0
        [0x01, 0x41, 0xC0, 0x10, 0x42, 0x80, 0x31] 16 [0x41, 0xC0, 0x10, 0x42] := by
  refine ⟨by decide, ?_, by decide, ?_⟩
  · rw [delivered_iff _ _ _ _ _ ⟨rfl, rfl, by decide, by decide⟩ (by decide)]
    decide
  · rw [delivered_iff _ _ _ _ _ ⟨rfl, rfl, by decide, by decide⟩ (by decide)]
    decide

end Pamodbus.RawRoundTrip
