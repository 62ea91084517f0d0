import Pamodbus.Accumulator
import Pamodbus.BackToBack

namespace Pamodbus.CallEffects

open Pamodbus.Lib.Cells Pamodbus.Lib.Prefixes Pamodbus.Lib.Scanner
open Pamodbus.Context Pamodbus.Framer Pamodbus.ParseTotal
open Pamodbus.Recv Pamodbus.Receiver Pamodbus.RawScan Pamodbus.Accumulator
open Pamodbus.BackToBack (parsed_keeps)

variable {σ : Type}

structure HearsSame (ctx ctx' : PaModbus σ) : Prop where
  accepted : accepted ctx' = accepted ctx
  framer : ctx'.framerType = ctx.framerType

theorem HearsSame.trans {c d e : PaModbus σ} (h : HearsSame c d) (h' : HearsSame d e) :
    HearsSame c e :=
  ⟨h'.accepted.trans h.accepted, h'.framer.trans h.framer⟩

theorem HearsSame.frameLength {c d : PaModbus σ} (h : HearsSame c d) (p n : Nat) :
    frameLength d p n = frameLength c p n := by
  rw [Receiver.frameLength, Receiver.frameLength, h.framer]

/-- The call has found nothing among the bytes: it keeps them and waits for more, or drops them. -/
def FindsNothing (size : Nat) (whole : Bytes) (out : Outcome σ) : Prop :=
  out.dispatched = none ∧
    (out.ret = paWait ∧ accumulator out.ctx = whole ∧ whole.length < size ∨
      out.ret < 0 ∧ accumulator out.ctx = [] ∧ 0 < whole.length ∧
        (whole.length < size → out.ret = paErrTimeout))

section

variable (ctx : PaModbus σ) (size : Nat) (h : Ready size ctx) (bytes : Bytes) (tick : UInt32)
include h

theorem accumulator_length : (accumulator ctx).length = ctx.rxLen :=
  List.length_take_of_le (by rw [h.fixed]; exact h.held)

theorem whole_fits (hl : bytes.length ≤ offered ctx) :
    (accumulator ctx).length + bytes.length ≤ ctx.rxbuf.cells.length := by
  have hheld := h.held
  rw [offered_eq ctx size h] at hl
  rw [accumulator_length ctx size h, h.fixed]
  omega

theorem waiting_leaves (t now : UInt32) (hl : bytes.length ≤ offered ctx) :
    let out := keepWaiting (holding ctx ctx.rxbuf (accumulator ctx ++ bytes) t) now
    HearsSame ctx out.ctx ∧ FindsNothing size (accumulator ctx ++ bytes) out := by
  have hwhole : (accumulator ctx ++ bytes).length ≤ ctx.rxbuf.cells.length := by
    rw [List.length_append]
    exact whole_fits ctx size h bytes hl
  generalize accumulator ctx ++ bytes = whole at hwhole ⊢
  have hsize : (holding ctx ctx.rxbuf whole t).rxbuf.cells.length = size := by
    rw [holding, Buffer.patch_cells, overlay_length, h.fixed]
  have hlen : (holding ctx ctx.rxbuf whole t).rxLen = whole.length := rfl
  have hnonempty := h.nonempty
  have hfixed := h.fixed
  dsimp only
  rw [keepWaiting, hsize, hlen]
  split
  · next hfull => exact ⟨⟨rfl, rfl⟩, rfl, .inr ⟨(by decide : paErrBufferFull < 0), rfl, hfull.1,
      fun hroom => absurd hroom (by omega)⟩⟩
  · next hfull =>
    split
    · next hexpired =>
      exact ⟨⟨rfl, rfl⟩, rfl,
        .inr ⟨(by decide : paErrTimeout < 0), rfl, hexpired.2.1, fun _ => rfl⟩⟩
    · exact ⟨⟨rfl, rfl⟩, rfl,
        .inl ⟨rfl, holding_accumulator ctx ctx.rxbuf whole t hwhole, by omega⟩⟩

theorem recv_leaves (hl : bytes.length ≤ offered ctx) :
    ∃ out, paModbusRecv ctx ⟨tick, some bytes⟩ = some out ∧ HearsSame ctx out.ctx ∧
      match scan (accepted ctx) 0 (accumulator ctx ++ bytes) with
      | some (start, p, n) =>
        accumulator out.ctx = (accumulator ctx ++ bytes).drop (start + frameLength ctx p n) ∧
          out.dispatched =
            some (((accumulator ctx ++ bytes).drop start).take (frameLength ctx p n))
      | none => FindsNothing size (accumulator ctx ++ bytes) out := by
  have hfit := whole_fits ctx size h bytes hl
  have hheld := accumulator_length ctx size h
  have hfixed := h.fixed
  have hnonempty := h.nonempty
  have hbound := ctx.rxbuf.bounded
  rw [recv_own ctx bytes tick h.callback (by omega) (by omega)]
  dsimp only
  rw [← List.length_append] at hfit
  generalize (if ctx.ticksCb = true then tick else 0) = now
  generalize (if 0 < bytes.length then now else ctx.lastRxTick) = t
  cases hs : scan (accepted ctx) 0 (accumulator ctx ++ bytes) with
  | none =>
    obtain ⟨hsame, hout⟩ := waiting_leaves ctx size h bytes t now hl
    exact ⟨_, rfl, hsame, hout⟩
  | some r =>
    obtain ⟨start, p, n⟩ := r
    obtain ⟨hend, ret, role, hfeed, -, hp⟩ := found_feeds ctx _ start p n (by omega) hs
    obtain ⟨hframer, -, haccepted⟩ := parsed_keeps hp
    dsimp only
    rw [dispatch_holding ctx role ctx.rxbuf _ t now start _ ret hfit hend hfeed]
    refine ⟨_, rfl, ⟨haccepted, hframer⟩, holding_accumulator _ _ _ _ ?_, rfl⟩
    rw [Buffer.patch_cells, overlay_length, List.length_drop]
    omega

theorem recvRaw_leaves (capacity : Nat) (hl : bytes.length ≤ offered ctx) :
    ∃ out, paModbusRecvRaw ctx ⟨tick, some bytes⟩ (some capacity) = some out ∧
      HearsSame ctx out.ctx ∧
      match shortest crcValid 4 (accumulator ctx ++ bytes) with
      | some n =>
        if capacity < n - 3 then
          out.ret = paErrBufferFull ∧ accumulator out.ctx = accumulator ctx ++ bytes ∧
            out.dispatched = none
        else out.ret = paOk ∧ accumulator out.ctx = [] ∧
          out.dispatched = some (((accumulator ctx ++ bytes).drop 1).take (n - 3))
      | none => FindsNothing size (accumulator ctx ++ bytes) out := by
  have hfit := whole_fits ctx size h bytes hl
  have hheld := accumulator_length ctx size h
  have hfixed := h.fixed
  have hnonempty := h.nonempty
  rw [recvRaw_own ctx bytes tick capacity h.callback (by omega) (by omega)]
  dsimp only
  rw [← List.length_append] at hfit
  generalize (if ctx.ticksCb = true then tick else 0) = now
  generalize (if 0 < bytes.length then now else ctx.lastRxTick) = t
  cases hs : shortest crcValid 4 (accumulator ctx ++ bytes) with
  | none =>
    obtain ⟨hsame, hout⟩ := waiting_leaves ctx size h bytes t now hl
    exact ⟨_, rfl, hsame, hout⟩
  | some n =>
    dsimp only
    split
    · exact ⟨_, rfl, ⟨rfl, rfl⟩, rfl, holding_accumulator _ _ _ _ hfit, rfl⟩
    · exact ⟨_, rfl, ⟨rfl, rfl⟩, rfl, rfl, rfl⟩

end

end Pamodbus.CallEffects
