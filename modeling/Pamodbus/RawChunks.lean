import Pamodbus.Lib.Collector
import Pamodbus.CallEffects

namespace Pamodbus.RawChunks

open Pamodbus.Lib.Collector Pamodbus.Lib.Prefixes
open Pamodbus.Context Pamodbus.FramerRtu
open Pamodbus.Recv Pamodbus.Receiver Pamodbus.RawScan Pamodbus.Accumulator Pamodbus.CallEffects

variable {σ : Type}

/-- A raw call: its tick, the bytes that the drain copies, and what `*pdu_len` holds. -/
structure RawPoll where
  tick : UInt32
  bytes : Bytes
  capacity : Nat

def rawRun : PaModbus σ → List RawPoll → Option (List (Outcome σ))
  | _, [] => some []
  | ctx, c :: polls => do
    let out ← paModbusRecvRaw ctx ⟨c.tick, some c.bytes⟩ (some c.capacity)
    let outs ← rawRun out.ctx polls
    return out :: outs

def delivered (outs : List (Outcome σ)) : List Bytes := outs.filterMap Outcome.dispatched

def pduOf (message : Bytes) : Bytes := (message.drop 1).take (message.length - 3)

/-- The bytes of a call, and the longest message it has room for. -/
def RawPoll.chunk (c : RawPoll) : Bytes × Nat := (c.bytes, c.capacity + 3)

def bytesOf (polls : List RawPoll) : Bytes := polls.flatMap RawPoll.bytes

theorem pduOf_take (whole : Bytes) (n : Nat) (hn : n ≤ whole.length) :
    pduOf (whole.take n) = (whole.drop 1).take (n - 3) := by
  rw [pduOf, List.length_take_of_le hn, List.drop_take, List.take_take, min_eq_left (by omega)]

theorem pduOf_length (message : Bytes) (h : 4 ≤ message.length) :
    (pduOf message).length + 3 = message.length := by
  rw [pduOf, List.length_take_of_le (by rw [List.length_drop]; omega)]
  omega

theorem pduOf_rtuFrame (addr : UInt8) (pdu : Bytes) : pduOf (rtuFrame addr pdu) = pdu := by
  rw [pduOf, rtuFrame_length, rtuFrame, List.cons_append, List.drop_one, List.tail_cons,
    Nat.add_sub_cancel, List.take_left]

theorem delivered_cons_none {out : Outcome σ} (outs : List (Outcome σ))
    (h : out.dispatched = none) : delivered (out :: outs) = delivered outs := by
  rw [delivered, List.filterMap_cons, h]
  rfl

theorem delivered_cons_some {out : Outcome σ} {pdu : Bytes} (outs : List (Outcome σ))
    (h : out.dispatched = some pdu) : delivered (out :: outs) = pdu :: delivered outs := by
  rw [delivered, List.filterMap_cons, h]
  rfl

theorem recvRaw_collects (ctx : PaModbus σ) (size : Nat) (c : RawPoll) (h : Ready size ctx)
    (hroom : ctx.rxLen + c.bytes.length < size) :
    ∃ out, paModbusRecvRaw ctx ⟨c.tick, some c.bytes⟩ (some c.capacity) = some out ∧
      Ready size out.ctx ∧ out.ctx.rxLen ≤ ctx.rxLen + c.bytes.length ∧
      (out.ret ≠ paErrTimeout → ∀ (outs : List (Outcome σ)) (chunks : List (Bytes × Nat)),
        delivered outs = (collect crcValid 4 (accumulator out.ctx) chunks).map pduOf →
        delivered (out :: outs) =
          (collect crcValid 4 (accumulator ctx) (c.chunk :: chunks)).map pduOf) := by
  have hl : c.bytes.length ≤ offered ctx := by
    rw [offered_eq ctx size h]
    omega
  obtain ⟨out, hrun, hready⟩ :=
    op_ready ctx size h (.recvRaw ⟨c.tick, some c.bytes⟩ (some c.capacity)) hl
  obtain ⟨out', hrun', -, hout⟩ := recvRaw_leaves ctx size h c.bytes c.tick c.capacity hl
  obtain rfl : out' = out := Option.some.inj (hrun'.symm.trans hrun)
  refine ⟨out', hrun, hready, ?_⟩
  have hwhole : (accumulator ctx ++ c.bytes).length = ctx.rxLen + c.bytes.length := by
    rw [List.length_append, accumulator_length ctx size h]
  rw [← accumulator_length out'.ctx size hready, ← hwhole]
  cases hs : shortest crcValid 4 (accumulator ctx ++ c.bytes) with
  | none =>
    rw [hs] at hout
    obtain ⟨hd, ⟨-, hacc, -⟩ | ⟨-, hacc, -, htimeout⟩⟩ := hout
    · rw [hacc]
      refine ⟨le_rfl, fun _ outs chunks houts => ?_⟩
      rw [delivered_cons_none outs hd, houts, RawPoll.chunk, collect, hs]
    · rw [hacc]
      exact ⟨Nat.zero_le _, fun hno => absurd (htimeout (by omega)) hno⟩
  | some n =>
    obtain ⟨hn, hlong, -, -⟩ := shortest_eq_some_iff.mp hs
    rw [List.length_take_of_le hn] at hlong
    rw [hs] at hout
    dsimp only at hout
    split at hout
    · next hcap =>
      obtain ⟨-, hacc, hd⟩ := hout
      rw [hacc]
      refine ⟨le_rfl, fun _ outs chunks houts => ?_⟩
      rw [delivered_cons_none outs hd, houts, RawPoll.chunk, collect, hs]
      dsimp only
      rw [if_neg (by omega)]
    · next hcap =>
      obtain ⟨-, hacc, hd⟩ := hout
      rw [hacc]
      refine ⟨Nat.zero_le _, fun _ outs chunks houts => ?_⟩
      rw [delivered_cons_some outs hd, houts, RawPoll.chunk, collect, hs]
      dsimp only
      rw [if_pos (by omega), List.map_cons, pduOf_take _ _ hn]

/-- Without an idle timeout the calls take what a collector takes. -/
theorem rawRun_collects (ctx : PaModbus σ) (size : Nat) (polls : List RawPoll)
    (h : Ready size ctx) (hroom : ctx.rxLen + (bytesOf polls).length < size) :
    ∃ outs, rawRun ctx polls = some outs ∧ ((∀ out ∈ outs, out.ret ≠ paErrTimeout) →
      delivered outs =
        (collect crcValid 4 (accumulator ctx) (polls.map RawPoll.chunk)).map pduOf) := by
  induction polls generalizing ctx with
  | nil => exact ⟨[], rfl, fun _ => rfl⟩
  | cons c polls ih =>
    have hbytes : bytesOf (c :: polls) = c.bytes ++ bytesOf polls := rfl
    rw [hbytes, List.length_append] at hroom
    obtain ⟨out, hrun, hready, hless, hstep⟩ := recvRaw_collects ctx size c h (by omega)
    obtain ⟨outs, houts, hrest⟩ := ih out.ctx hready (by omega)
    refine ⟨out :: outs, ?_, fun hno => ?_⟩
    · rw [rawRun, hrun, Option.bind_eq_bind, Option.bind_some, houts]
      rfl
    · obtain ⟨hfirst, hlater⟩ := List.forall_mem_cons.mp hno
      exact hstep hfirst outs _ (hrest hlater)

/-- Raw messages are all received, each whole and in order, if and only if no
call gets bytes of two of them. -/
theorem raw_messages_received_iff (ctx : PaModbus σ) (size : Nat) (polls : List RawPoll)
    (messages : List (UInt8 × Bytes)) (h : Ready size ctx) (hempty : ctx.rxLen = 0)
    (hbytes : bytesOf polls = messages.flatMap fun m => rtuFrame m.1 m.2)
    (hroom : (bytesOf polls).length < size)
    (hm : ∀ m ∈ messages, m.2 ≠ [] ∧ ∀ k, 4 ≤ k → k < (rtuFrame m.1 m.2).length →
      crcValid ((rtuFrame m.1 m.2).take k) = false)
    (hcap : ∀ c ∈ polls, ∀ m ∈ messages, m.2.length ≤ c.capacity) :
    ∃ outs, rawRun ctx polls = some outs ∧ ((∀ out ∈ outs, out.ret ≠ paErrTimeout) →
      (delivered outs = messages.map Prod.snd ↔
        Aligned [] (polls.map RawPoll.bytes) (messages.map fun m => rtuFrame m.1 m.2))) := by
  obtain ⟨outs, hrun, hcollect⟩ := rawRun_collects ctx size polls h (by omega)
  refine ⟨outs, hrun, fun hno => ?_⟩
  have hacc : accumulator ctx = [] := by rw [accumulator, hempty, List.take_zero]
  have hchunks : (polls.map RawPoll.chunk).map Prod.fst = polls.map RawPoll.bytes := by
    rw [List.map_map]
    rfl
  have hflatten : ((polls.map RawPoll.chunk).map Prod.fst).flatten =
      (messages.map fun m => rtuFrame m.1 m.2).flatten := by
    rw [hchunks, ← List.flatMap_def, ← List.flatMap_def]
    exact hbytes
  have hfirst : ∀ m ∈ messages.map fun m => rtuFrame m.1 m.2, First crcValid 4 m := by
    intro m hmem
    obtain ⟨⟨addr, pdu⟩, hin, rfl⟩ := List.mem_map.mp hmem
    obtain ⟨hne, hbefore⟩ := hm _ hin
    have hpos := List.length_pos_iff.mpr hne
    exact ⟨by rw [rtuFrame_length]; omega, crcValid_rtuFrame addr pdu, hbefore⟩
  have hpdus : messages.map Prod.snd = (messages.map fun m => rtuFrame m.1 m.2).map pduOf := by
    rw [List.map_map]
    exact List.map_congr_left fun m _ => (pduOf_rtuFrame m.1 m.2).symm
  have hlengths (xs : List Bytes) (hxs : ∀ m ∈ xs, First crcValid 4 m) :
      xs.map List.length = (xs.map pduOf).map fun pdu => pdu.length + 3 := by
    rw [List.map_map]
    exact List.map_congr_left fun m hmem => (pduOf_length m (hxs m hmem).long).symm
  rw [hcollect hno, hacc, ← hchunks, ← collect_eq_iff (p := crcValid) _ _ (by decide) hflatten hfirst,
    hpdus]
  · constructor
    · intro heq
      refine collect_eq_of_lengths _ _ hflatten ?_
      rw [hlengths _ fun m => collect_first, hlengths _ hfirst, heq]
    · intro heq
      rw [heq]
  · intro c hc m hmem
    obtain ⟨poll, hpoll, rfl⟩ := List.mem_map.mp hc
    obtain ⟨⟨addr, pdu⟩, hin, rfl⟩ := List.mem_map.mp hmem
    rw [rtuFrame_length]
    exact Nat.add_le_add_right (hcap poll hpoll _ hin) 3

def inTurn : List RawPoll :=
  [⟨0, [0x01, 0x41], 8⟩, ⟨1, [0x42, 0x90, 0x61], 8⟩, ⟨2, [0x02, 0x43, 0x41, 0x21], 8⟩]

theorem messages_in_turn_received :
    (rawRun (station .rtu 1 16 16 : PaModbus Unit) inTurn).map delivered =
      some [[0x41, 0x42], [0x43]] := by
  have hm : ∀ m ∈ [((1 : UInt8), ([0x41, 0x42] : Bytes)), (2, [0x43])], m.2 ≠ [] ∧
      ∀ k, 4 ≤ k → k < (rtuFrame m.1 m.2).length →
        crcValid ((rtuFrame m.1 m.2).take k) = false := by
    intro m hmem
    rcases List.mem_cons.mp hmem with rfl | hmem
    · refine ⟨nofun, fun k hk hless => ?_⟩
      obtain rfl : k = 4 := Nat.le_antisymm (Nat.lt_succ_iff.mp hless) hk
      decide
    · obtain rfl := List.mem_singleton.mp hmem
      exact ⟨nofun, fun k hk hless => absurd hless (Nat.not_lt.mpr hk)⟩
  obtain ⟨outs, hrun, hiff⟩ := raw_messages_received_iff (station .rtu 1 16 16 : PaModbus Unit) 16
    inTurn [(1, [0x41, 0x42]), (2, [0x43])] ⟨rfl, rfl, by decide, by decide⟩ rfl (by decide)
    (by decide) hm (by decide)
  have hrets : (rawRun (station .rtu 1 16 16 : PaModbus Unit) inTurn).map
      (fun outs => outs.map Outcome.ret) = some [1, 0, 0] := by decide
  rw [hrun, Option.map_some, Option.some.injEq] at hrets
  have hno : ∀ out ∈ outs, out.ret ≠ paErrTimeout := by
    intro out hout he
    have hmem : out.ret ∈ outs.map Outcome.ret := List.mem_map_of_mem hout
    rw [hrets, he] at hmem
    exact absurd hmem (by decide)
  rw [hrun, Option.map_some, (hiff hno).mpr (.part (.whole (.whole .nil)))]
  rfl

/-- The same two messages in one drain. -/
theorem second_message_lost :
    (rawRun (station .rtu 1 16 16 : PaModbus Unit)
      [⟨0, [0x01, 0x41, 0x42, 0x90, 0x61, 0x02, 0x43, 0x41, 0x21], 8⟩, ⟨1, [], 8⟩]).map delivered =
      some [[0x41, 0x42]] := by decide

end Pamodbus.RawChunks
