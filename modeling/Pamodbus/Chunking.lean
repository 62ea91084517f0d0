import Pamodbus.ScanDispatch

namespace Pamodbus.Chunking

open Pamodbus.Lib.Cells Pamodbus.Lib.CInt Pamodbus.Lib.Procedure Pamodbus.Lib.Scanner
open Pamodbus.Context Pamodbus.FramerRtu Pamodbus.Framer Pamodbus.Feed
open Pamodbus.Recv Pamodbus.Receiver Pamodbus.ScanDispatch

variable {σ : Type}

/-- A chunk of the stream with the tick at which it is received. -/
abbrev Chunk := UInt32 × Bytes

def Chunk.poll (c : Chunk) : Poll := ⟨c.1, some c.2⟩

def bytesOf (chunks : List Chunk) : Bytes := chunks.flatMap Prod.snd

/-- No silence between the chunks is as long as the idle timeout, while `held`
bytes are pending that came last at `last`. -/
def Quiet (timeout : UInt32) : (last : UInt32) → (held : Nat) → List Chunk → Prop
  | _, _, [] => True
  | last, held, c :: chunks =>
    let last := if 0 < c.2.length then c.1 else last
    (0 < held + c.2.length → c.1 - last < timeout) ∧
      Quiet timeout last (held + c.2.length) chunks

/-- The calls before the last chunk wait and dispatch nothing. The last one
dispatches `frame`, and ends as a call does that gets all of `frame` at once. -/
def DispatchedOnce (ctx : PaModbus σ) (init : List Chunk) (last : Chunk) (frame : Bytes) : Prop :=
  ∃ outs ctx' out, recvRun ctx (init.map Chunk.poll) = some (outs, ctx') ∧
    (∀ o ∈ outs, o.ret = paWait ∧ o.dispatched = none) ∧
    paModbusRecv ctx' last.poll = some out ∧ out.dispatched = some frame ∧
    paModbusRecv ctx ⟨last.1, some frame⟩ = some out

theorem recv_waits (ctx : PaModbus σ) (b : Buffer UInt8) (acc : Bytes) (t : UInt32) (c : Chunk)
    (hc : ctx.recvCb = true) (h : acc.length + c.2.length < b.cells.length)
    (hq : ctx.ticksCb = true → 0 < acc.length + c.2.length →
      c.1 - (if 0 < c.2.length then c.1 else t) < ctx.idleTimeoutTicks)
    (hs : scan (accepted ctx) 0 (acc ++ c.2) = none) :
    ∃ t', paModbusRecv (holding ctx b acc t) c.poll =
        some ⟨paWait, holding ctx b (acc ++ c.2) t', none⟩ ∧
      (ctx.ticksCb = true → t' = if 0 < c.2.length then c.1 else t) := by
  refine ⟨if 0 < c.2.length then (if ctx.ticksCb then c.1 else 0) else t, ?_, ?_⟩
  · rw [Chunk.poll, recv_holding ctx b acc c.2 t c.1 hc (by omega) (by omega)]
    dsimp only
    rw [hs, Option.some.injEq]
    apply keepWaiting_waits
    · rw [holding, Buffer.patch_cells, overlay_length, List.length_append]
      exact h
    · intro ht hn
      have hq := hq ht (by simpa [holding] using hn)
      have hticks : ctx.ticksCb = true := ht
      rw [hticks]
      exact hq
  · intro ht
    rw [ht]
    rfl

theorem run_waits (ctx : PaModbus σ) (b : Buffer UInt8) (init : List Chunk) (acc : Bytes)
    (t : UInt32) (hc : ctx.recvCb = true) (h : acc.length + (bytesOf init).length < b.cells.length)
    (hq : ctx.ticksCb = true → Quiet ctx.idleTimeoutTicks t acc.length init)
    (hs : ∀ k ≤ init.length, ∀ suf, suf <:+ acc ++ bytesOf (init.take k) →
      accepted ctx suf = none) :
    ∃ outs t', recvRun (holding ctx b acc t) (init.map Chunk.poll) =
        some (outs, holding ctx b (acc ++ bytesOf init) t') ∧
      ∀ o ∈ outs, o.ret = paWait ∧ o.dispatched = none := by
  induction init generalizing acc t with
  | nil =>
    refine ⟨[], t, ?_, by simp⟩
    simp [recvRun, bytesOf]
  | cons c init ih =>
    have hl : (bytesOf (c :: init)).length = c.2.length + (bytesOf init).length := by
      simp [bytesOf]
    have h1 := hs 1 (by simp)
    simp only [bytesOf, List.take_succ_cons, List.take_zero, List.flatMap_cons, List.flatMap_nil,
      List.append_nil] at h1
    obtain ⟨t', hrun, ht'⟩ := recv_waits ctx b acc t c hc (by omega) (fun ht hn => (hq ht).1 hn)
      ((scan_none_iff 0 _).mpr fun suf hsuf _ => h1 suf hsuf)
    obtain ⟨outs, t'', hruns, houts⟩ := ih (acc ++ c.2) t' (by rw [List.length_append]; omega)
      (fun ht => by
        have hq := (hq ht).2
        rw [← ht' ht, ← List.length_append] at hq
        exact hq)
      (fun k hk suf hsuf => by
        have hk' := hs (k + 1) (by simpa using hk) suf
        simp only [bytesOf, List.take_succ_cons, List.flatMap_cons, ← List.append_assoc] at hk'
        exact hk' hsuf)
    refine ⟨⟨paWait, holding ctx b (acc ++ c.2) t', none⟩ :: outs, t'', ?_, ?_⟩
    · rw [List.map_cons, recvRun, hrun]
      simp only [Option.bind_eq_bind, Option.bind_some, hruns, Option.pure_def]
      simp [bytesOf]
    · intro o ho
      rcases List.mem_cons.mp ho with rfl | ho
      · exact ⟨rfl, rfl⟩
      · exact houts o ho

/-- A run that only waits has seen nothing that `unwrap` takes. -/
theorem run_silent (ctx : PaModbus σ) (b : Buffer UInt8) (init : List Chunk) (acc : Bytes)
    (t : UInt32) (hc : ctx.recvCb = true) (h : acc.length + (bytesOf init).length < b.cells.length)
    (hq : ctx.ticksCb = true → Quiet ctx.idleTimeoutTicks t acc.length init)
    (h0 : ∀ suf, suf <:+ acc → accepted ctx suf = none) (outs : List (Outcome σ))
    (ctx' : PaModbus σ)
    (hrun : recvRun (holding ctx b acc t) (init.map Chunk.poll) = some (outs, ctx'))
    (houts : ∀ o ∈ outs, o.ret = paWait ∧ o.dispatched = none) :
    ∀ k ≤ init.length, ∀ suf, suf <:+ acc ++ bytesOf (init.take k) → accepted ctx suf = none := by
  induction init generalizing acc t outs with
  | nil =>
    intro k hk suf hsuf
    apply h0
    simpa [bytesOf] using hsuf
  | cons c init ih =>
    have hl : (bytesOf (c :: init)).length = c.2.length + (bytesOf init).length := by
      simp [bytesOf]
    rw [List.map_cons, recvRun] at hrun
    simp only [Option.bind_eq_bind, Option.bind_eq_some_iff, Option.pure_def, Option.some.injEq,
      Prod.mk.injEq] at hrun
    obtain ⟨out, ho, ⟨outs', ctx''⟩, hruns, rfl, rfl⟩ := hrun
    -- had the scan found something, this call would have dispatched it
    have hscan : scan (accepted ctx) 0 (acc ++ c.2) = none := by
      cases hs : scan (accepted ctx) 0 (acc ++ c.2) with
      | none => rfl
      | some r =>
        rw [Chunk.poll, recv_holding ctx b acc c.2 t c.1 hc (by omega) (by omega), hs] at ho
        exact absurd (houts out (by simp)).2 (dispatch_dispatched _ _ _ _ _ ho)
    obtain ⟨t', hrun, ht'⟩ := recv_waits ctx b acc t c hc (by omega) (fun ht hn => (hq ht).1 hn)
      hscan
    rw [hrun, Option.some.injEq] at ho
    subst ho
    have hnil : accepted ctx [] = none := h0 [] (List.nil_suffix)
    have hacc : ∀ suf, suf <:+ acc ++ c.2 → accepted ctx suf = none := by
      intro suf hsuf
      by_cases hn : suf = []
      · rw [hn, hnil]
      · exact (scan_none_iff 0 _).mp hscan suf hsuf hn
    have hrest := ih (acc ++ c.2) t' (by rw [List.length_append]; omega)
      (fun ht => by
        have hq := (hq ht).2
        rw [← ht' ht, ← List.length_append] at hq
        exact hq)
      hacc outs' hruns (fun o ho => houts o (List.mem_cons_of_mem _ ho))
    intro k hk suf hsuf
    cases k with
    | zero =>
      apply h0
      simpa [bytesOf] using hsuf
    | succ k =>
      apply hrest k (by simpa using hk) suf
      simpa [bytesOf] using hsuf

theorem dispatch_whole (ctx : PaModbus σ) (b : Buffer UInt8) (frame : Bytes) (t now : UInt32)
    (n : Nat) (hf : ctx.framerType = .rtu) (hu : unwrap ctx frame = some (.ok 1 n))
    (hn : n + 3 = frame.length) (hb : frame.length ≤ b.cells.length) :
    ∃ out, dispatchFrame (holding ctx b frame t) now 0 (frameLength ctx 1 n) = some out ∧
      out.dispatched = some frame := by
  have hbound := b.bounded
  obtain ⟨r, ctx', hrun, -⟩ := roleFeed_total ctx frame n hu (by omega)
  have hlen : frameLength ctx 1 n = frame.length := by
    rw [frameLength_rtu ctx n hf (by omega), hn]
  have hdata : (frame.drop 0).take frame.length = frame := by
    rw [List.drop_zero, List.take_length]
  rw [hlen, dispatch_holding ctx ctx' b frame t now 0 frame.length r hb (by omega)
    (by rw [hdata]; exact hrun)]
  exact ⟨_, rfl, congrArg some hdata⟩

/-- A frame that arrives in chunks is dispatched as a whole exactly when no call
before the last finds a frame at the end of what has arrived so far. -/
theorem chunk_independent_iff (ctx : PaModbus σ) (init : List Chunk) (last : Chunk)
    (frame : Bytes) (n : Nat) (hf : ctx.framerType = .rtu) (hc : ctx.recvCb = true)
    (hempty : ctx.rxLen = 0) (hu : unwrap ctx frame = some (.ok 1 n)) (hn : n + 3 = frame.length)
    (hb : frame.length ≤ ctx.rxbuf.cells.length) (hsplit : bytesOf init ++ last.2 = frame)
    (hlast : last.2 ≠ [])
    (hq : ctx.ticksCb = true → Quiet ctx.idleTimeoutTicks ctx.lastRxTick 0 init) :
    DispatchedOnce ctx init last frame ↔
      ∀ k ≤ init.length, ∀ suf, suf <:+ bytesOf (init.take k) →
        ∀ p m, unwrap ctx suf ≠ some (.ok p m) := by
  have hself : holding ctx ctx.rxbuf [] ctx.lastRxTick = ctx := by
    rw [holding_nil, ← hempty]
  have hpos := List.length_pos_iff.mpr hlast
  have hlen : (bytesOf init).length + last.2.length = frame.length := by
    rw [← hsplit, List.length_append]
  have hsilent (suf : Bytes) : (∀ p m, unwrap ctx suf ≠ some (.ok p m)) ↔
      accepted ctx suf = none := by
    rw [Option.eq_none_iff_forall_ne_some]
    constructor
    · rintro h ⟨p, m⟩ ha
      exact h p m ((accepted_iff ctx suf p m).mp ha)
    · intro h p m hm
      exact h (p, m) ((accepted_iff ctx suf p m).mpr hm)
  simp only [hsilent]
  constructor
  · rintro ⟨outs, ctx', out, hrun, houts, -⟩
    rw [← hself] at hrun
    have h := run_silent ctx ctx.rxbuf init [] ctx.lastRxTick hc (by simpa using by omega) hq
      (fun suf hs => by
        rw [List.suffix_nil.mp hs]
        obtain ⟨r, hr⟩ : ∃ r, unwrap ctx [] = some (.ret r) :=
          ⟨_, by rw [unwrap_rtu ctx [] hf]; rfl⟩
        exact (accepted_none_iff ctx []).mpr ⟨r, hr⟩) outs ctx' hrun houts
    simpa using h
  · intro h
    obtain ⟨outs, t, hrun, houts⟩ := run_waits ctx ctx.rxbuf init [] ctx.lastRxTick hc
      (by simpa using by omega) hq (by simpa using h)
    rw [hself, List.nil_append] at hrun
    have hne : frame ≠ [] := by
      rintro rfl
      simp at hn
    have hscan := scan_front 0 hne ((accepted_iff ctx frame 1 n).mpr hu)
    obtain ⟨out, ho, hd⟩ := dispatch_whole ctx ctx.rxbuf frame (if ctx.ticksCb then last.1 else 0)
      (if ctx.ticksCb then last.1 else 0) n hf hu hn hb
    refine ⟨outs, _, out, hrun, houts, ?_, hd, ?_⟩
    · rw [Chunk.poll, recv_holding ctx _ _ _ _ _ hc (by omega) (by omega), hsplit, hscan]
      dsimp only
      rw [if_pos hpos]
      exact ho
    · have hdrain := recv_holding ctx ctx.rxbuf [] frame ctx.lastRxTick last.1 hc (by omega)
        (by simpa using hb)
      rw [hself, List.nil_append, hscan] at hdrain
      dsimp only at hdrain
      rw [if_pos (by omega)] at hdrain
      rw [hdrain]
      exact ho

def slaveOne : PaModbus Unit := paModbusSetMode .slave (station .rtu 1 32 32)

theorem read_request_in_two_chunks :
    DispatchedOnce slaveOne [(0, [0x01, 0x03, 0x00])] (0, [0x00, 0x00, 0x03, 0x05, 0xCB])
      [0x01, 0x03, 0x00, 0x00, 0x00, 0x03, 0x05, 0xCB] := by
  refine (chunk_independent_iff slaveOne [(0, [0x01, 0x03, 0x00])]
    (0, [0x00, 0x00, 0x03, 0x05, 0xCB]) _ 5 rfl rfl rfl rfl rfl (by decide) rfl (by decide)
    (fun h => Bool.noConfusion h)).mpr ?_
  intro k hk suf hsuf p m hu
  obtain ⟨-, hm, hl, -⟩ := rtu_frame_alone slaveOne suf p m rfl hu
  have hle := hsuf.length_le
  have hpre : (bytesOf (List.take k [((0 : UInt32), [(0x01 : UInt8), 0x03, 0x00])])).length ≤ 3 := by
    match k with
    | 0 => decide
    | k + 1 => simp [bytesOf]
  omega

/-- A request to write four registers whose data is itself a request, to switch
a coil on. -/
def nestedRequest : Bytes :=
  [0x01, 0x10, 0x00, 0x00, 0x00, 0x04, 0x08, 0x01, 0x05, 0x00, 0x00, 0xFF, 0x00, 0x8C, 0x3A]

/-- Cut before its own check value, the frame has the one in its data dispatched. -/
theorem nested_request_dispatched :
    unwrap slaveOne (nestedRequest ++ [0xF6, 0x71]) = some (.ok 1 14) ∧
      ¬ DispatchedOnce slaveOne [(0, nestedRequest)] (0, [0xF6, 0x71])
        (nestedRequest ++ [0xF6, 0x71]) := by
  refine ⟨rfl, ?_⟩
  rintro ⟨outs, ctx', out, hrun, houts, -⟩
  have hret : (recvRun slaveOne [(⟨0, some nestedRequest⟩ : Poll)]).map
      (fun r => r.1.map Outcome.ret) = some [paOk] := rfl
  change recvRun slaveOne [⟨0, some nestedRequest⟩] = some (outs, ctx') at hrun
  rw [hrun, Option.map_some, Option.some.injEq] at hret
  obtain ⟨o, rest, rfl⟩ : ∃ o rest, outs = o :: rest := by
    cases outs with
    | nil => cases hret
    | cons o rest => exact ⟨o, rest, rfl⟩
  rw [List.map_cons, List.cons.injEq, (houts o (by simp)).1] at hret
  cases hret.1

end Pamodbus.Chunking
