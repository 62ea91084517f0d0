import Pamodbus.Receiver

namespace Pamodbus.Isolation

open Pamodbus.Lib.Cells Pamodbus.Lib.CInt Pamodbus.Lib.Procedure Pamodbus.Lib.Hoare
open Pamodbus.Lib.Scanner
open Pamodbus.Context Pamodbus.FramerRtu Pamodbus.Framer Pamodbus.SlaveParse Pamodbus.Feed
open Pamodbus.ParseTotal Pamodbus.Recv Pamodbus.Receiver

variable {σ : Type}

/-- A frame on the line that is for somebody else than slave `s`, who also
answers discovery at `d`. -/
structure ForeignFrame (s d : UInt8) where
  addr : UInt8
  pdu : Bytes
  nonempty : pdu ≠ []
  foreign : addr ≠ s ∧ (d = 0 ∨ addr ≠ d)

def ForeignFrame.bytes {s d : UInt8} (f : ForeignFrame s d) : Bytes := rtuFrame f.addr f.pdu

def traffic {s d : UInt8} (frames : List (ForeignFrame s d)) : Bytes :=
  frames.flatMap ForeignFrame.bytes

structure Listening (s d : UInt8) (ctx : PaModbus σ) : Prop where
  framer : ctx.framerType = .rtu
  slave : ctx.slave = s
  discovery : ctx.discoveryAddr = d
  role : paRxMode ctx = .slave
  receives : ctx.recvCb = true
  buffer : ctx.rxbuf.cells.length ≠ 0
  empty : ctx.rxLen = 0

/-- What the receive callback hands over fits the room that it is given. -/
def Fits : PaModbus σ → List Poll → Prop
  | _, [] => True
  | ctx, poll :: polls =>
    (∀ bytes, poll.recv = some bytes → ctx.rxLen + bytes.length ≤ ctx.rxbuf.cells.length) ∧
      ∀ out, paModbusRecv ctx poll = some out → Fits out.ctx polls

def delivered (polls : List Poll) : Bytes := polls.flatMap fun poll => poll.recv.getD []

/-- No call returns `PA_OK` or touches the parsed request. -/
def Undisturbed (ctx : PaModbus σ) (polls : List Poll) : Prop :=
  ∃ outs ctx', recvRun ctx polls = some (outs, ctx') ∧ ∀ o ∈ outs,
    o.ret ≠ paOk ∧ o.ctx.lastFunction = ctx.lastFunction ∧ o.ctx.request = ctx.request

/-- The bytes are, for slave `s`, a message to itself. -/
def Heard (s d : UInt8) (part : Bytes) : Prop :=
  ∃ p n, paFramerRtuUnwrap (paModbusSetDiscoveryAddr d (station .rtu s 256 256) : PaModbus Unit)
    part = some (.ok p n)

theorem heard_iff (s d : UInt8) (ctx : PaModbus σ) (h : Listening s d ctx) (part : Bytes) :
    Heard s d part ↔ ∃ r, accepted ctx part = some r := by
  have hu : unwrap ctx part =
      paFramerRtuUnwrap (paModbusSetDiscoveryAddr d (station .rtu s 256 256) : PaModbus Unit) part := by
    rw [unwrap_rtu ctx part h.framer]
    unfold paFramerRtuUnwrap accepts
    rw [h.slave, h.discovery]
    rfl
  rw [Heard, ← hu]
  constructor
  · rintro ⟨p, n, hp⟩
    exact ⟨(p, n), (accepted_iff ctx part p n).mpr hp⟩
  · rintro ⟨⟨p, n⟩, hp⟩
    exact ⟨p, n, (accepted_iff ctx part p n).mp hp⟩

theorem recv_quiet (ctx : PaModbus σ) (b : Buffer UInt8) (acc : Bytes) (t : UInt32) (poll : Poll)
    (hc : ctx.recvCb = true) (hb : b.cells.length ≠ 0)
    (hroom : ∀ bytes, poll.recv = some bytes → acc.length + bytes.length ≤ b.cells.length)
    (hs : scan (accepted ctx) 0 (acc ++ poll.recv.getD []) = none) :
    ∃ ret b' acc' t', paModbusRecv (holding ctx b acc t) poll =
        some ⟨ret, holding ctx b' acc' t', none⟩ ∧ ret ≠ paOk ∧
      b'.cells.length = b.cells.length ∧ acc' <:+ acc ++ poll.recv.getD [] := by
  obtain ⟨tick, recv⟩ := poll
  cases recv with
  | none =>
    have hcfg : ¬ (¬ (holding ctx b acc t).recvCb = true ∨
        (holding ctx b acc t).rxbuf.cells.length = 0) := by
      rw [holding]
      simp [hc, hb]
    refine ⟨paErrCallback, b, acc, t, ?_, by decide, rfl, by simp⟩
    rw [paModbusRecv, if_neg hcfg]
    rfl
  | some bytes =>
    rw [Option.getD_some] at hs ⊢
    rw [recv_holding ctx b acc bytes t tick hc hb (hroom bytes rfl)]
    dsimp only
    rw [hs]
    generalize (if 0 < bytes.length then (if ctx.ticksCb then tick else 0) else t) = t'
    rcases keepWaiting_cases (holding ctx b (acc ++ bytes) t') (if ctx.ticksCb then tick else 0)
      with hw | ⟨ret, hr, hw⟩
    · rw [hw]
      exact ⟨paWait, b, acc ++ bytes, t', rfl, by decide, rfl, List.suffix_rfl⟩
    · refine ⟨ret, b.patch (acc ++ bytes), [], t', ?_, hr.ne, by simp, List.nil_suffix⟩
      rw [hw, holding_nil]
      rfl

/-- The run lemma: as long as the stream is silent, the slave is left alone. -/
theorem run_quiet (ctx : PaModbus σ) (n : Nat) (polls : List Poll) (b : Buffer UInt8) (acc : Bytes)
    (t : UInt32) (hc : ctx.recvCb = true) (hb : b.cells.length = n) (hn : n ≠ 0)
    (hacc : acc.length ≤ n) (hfits : Fits (holding ctx b acc t) polls)
    (hs : Silent (accepted ctx) n (acc ++ delivered polls)) :
    Undisturbed (holding ctx b acc t) polls := by
  induction polls generalizing b acc t with
  | nil => exact ⟨[], _, rfl, by simp⟩
  | cons poll polls ih =>
    obtain ⟨hroom, hrest⟩ := hfits
    have hd : delivered (poll :: polls) = poll.recv.getD [] ++ delivered polls := by
      simp [delivered]
    rw [hd, ← List.append_assoc] at hs
    have hroom' (bytes : Bytes) (hr : poll.recv = some bytes) :
        acc.length + bytes.length ≤ b.cells.length := by
      simpa [holding] using hroom bytes hr
    have hlen : (acc ++ poll.recv.getD []).length ≤ n := by
      cases hr : poll.recv with
      | none => simpa using hacc
      | some bytes =>
        rw [Option.getD_some, List.length_append, ← hb]
        exact hroom' bytes hr
    have hscan := hs.scan_none (List.prefix_append _ (delivered polls)).isInfix hlen 0
    obtain ⟨ret, b', acc', t', hrun, hret, hb', hsuf⟩ :=
      recv_quiet ctx b acc t poll hc (by omega) hroom' hscan
    have hinfix : acc' ++ delivered polls <:+: acc ++ poll.recv.getD [] ++ delivered polls := by
      obtain ⟨pre, hpre⟩ := hsuf
      rw [← hpre, List.append_assoc]
      exact (List.suffix_append pre _).isInfix
    obtain ⟨outs, ctx', hruns, houts⟩ := ih b' acc' t' (by omega)
      (hsuf.length_le.trans hlen) (hrest _ hrun) (hs.part hinfix)
    refine ⟨⟨ret, holding ctx b' acc' t', none⟩ :: outs, ctx', ?_, ?_⟩
    · rw [recvRun, hrun]
      simp only [Option.bind_eq_bind, Option.bind_some, hruns, Option.pure_def]
    · intro o ho
      rcases List.mem_cons.mp ho with rfl | ho
      · exact ⟨hret, rfl, rfl⟩
      · exact houts o ho

theorem parse_lastFunction (ctx ctx' : PaModbus σ) (pdu : Bytes) (n : Nat) (r : Int) (hn : 1 ≤ n)
    (h : (parseSlaveRequest pdu n).run ctx = some (r, ctx')) :
    pdu[0]? = some ctx'.lastFunction := by
  rw [parseSlaveRequest, if_neg (by omega), access_bind_iff] at h
  obtain ⟨fc, hfc, h⟩ := h
  rw [modify_bind_run] at h
  have hkeep : Within (fun s t : PaModbus σ => t.lastFunction = s.lastFunction)
      (if fc &&& 0x80 ≠ 0 then pure paErrProtocol else onRequest (parseRequest fc pdu n)) :=
    within_ite (within_pure _ fun _ => rfl) (within_focus _ _ _ fun _ _ => rfl)
  rw [hfc, hkeep _ _ _ h]

theorem dispatch_lastFunction (ctx : PaModbus σ) (b : Buffer UInt8) (part : Bytes) (t now : UInt32)
    (p n : Nat) (hf : ctx.framerType = .rtu) (hr : paRxMode ctx = .slave)
    (hu : unwrap ctx part = some (.ok p n)) (hb : part.length ≤ b.cells.length) (out : Outcome σ)
    (ho : dispatchFrame (holding ctx b part t) now 0 (frameLength ctx p n) = some out) :
    part[1]? = some out.ctx.lastFunction := by
  have hbound := b.bounded
  obtain ⟨rfl, hn, hl, hw⟩ := rtu_frame_alone ctx part p n hf hu
  obtain ⟨r, ctx', hrun, -⟩ := roleFeed_total ctx (part.take (n + 3)) n hw
    (by rw [List.length_take_of_le hl])
  rw [frameLength_rtu ctx n hf (by omega), dispatch_holding ctx ctx' b part t now 0 (n + 3) r hb
    (by omega) (by rw [List.drop_zero]; exact hrun), Option.some.injEq] at ho
  have hrole : roleFeed ctx (part.take (n + 3)) = paModbusSlaveFeed (part.take (n + 3)) :=
    if_pos hr
  rw [hrole, slaveFeed_ok ctx _ 1 n hw] at hrun
  have hlast := parse_lastFunction _ _ _ n r hn hrun
  rw [List.getElem?_drop, List.getElem?_take_of_lt (by omega)] at hlast
  rw [← ho]
  exact hlast

theorem recv_forgets (ctx : PaModbus σ) (b : Buffer UInt8) (t : UInt32) (x : UInt8)
    (hf : ctx.framerType = .rtu) (hc : ctx.recvCb = true) (ht : ctx.ticksCb = true)
    (hi : ctx.idleTimeoutTicks = 0) (hb : b.cells.length ≠ 0) :
    ∃ out b' t', paModbusRecv (holding ctx b [] t) ⟨0, some [x]⟩ = some out ∧
      out.ctx = holding ctx b' [] t' ∧ b'.cells.length = b.cells.length := by
  have hs : scan (accepted ctx) 0 [x] = none := by
    cases hs : scan (accepted ctx) 0 [x] with
    | none => rfl
    | some r =>
      obtain ⟨pre, suf, hx, -, -, ha⟩ := scan_some hs
      obtain ⟨-, hn, hl, -⟩ := rtu_frame_alone ctx suf _ _ hf ((accepted_iff ctx suf _ _).mp ha)
      have hlen := congrArg List.length hx
      rw [List.length_singleton, List.length_append] at hlen
      omega
  have hrecv := recv_holding ctx b [] [x] t 0 hc hb (by simp; omega)
  rw [List.nil_append, hs] at hrecv
  simp only [ht, if_true, List.length_singleton, Nat.zero_lt_one] at hrecv
  have hidle : (holding ctx b [x] 0).idleTimeoutTicks = 0 := hi
  have hctx := keepWaiting_expires (holding ctx b [x] 0) 0 ht (Nat.zero_lt_one)
    (by rw [hidle]; exact UInt32.zero_le)
  refine ⟨_, b.patch [x], 0, hrecv, ?_, by simp⟩
  rw [hctx, holding_nil]
  rfl

theorem run_disturbed (ctx : PaModbus σ) (b : Buffer UInt8) (t : UInt32) (pre part : Bytes)
    (p n : Nat) (hf : ctx.framerType = .rtu) (hr : paRxMode ctx = .slave)
    (hc : ctx.recvCb = true) (ht : ctx.ticksCb = true) (hi : ctx.idleTimeoutTicks = 0)
    (hb : b.cells.length ≠ 0) (hroom : part.length ≤ b.cells.length)
    (hu : unwrap ctx part = some (.ok p n)) (hl : part[1]? ≠ some ctx.lastFunction) :
    Fits (holding ctx b [] t) (pre.map (fun x => ⟨0, some [x]⟩) ++ [⟨0, some part⟩]) ∧
      ¬ Undisturbed (holding ctx b [] t)
        (pre.map (fun x => ⟨0, some [x]⟩) ++ [⟨0, some part⟩]) := by
  induction pre generalizing b t with
  | nil =>
    constructor
    · refine ⟨?_, fun _ _ => trivial⟩
      rintro bytes ⟨rfl⟩
      simpa [holding] using hroom
    · rintro ⟨outs, ctx', hrun, houts⟩
      simp only [List.map_nil, List.nil_append, recvRun, Option.bind_eq_bind,
        Option.bind_eq_some_iff, Option.pure_def, Option.some.injEq, Prod.mk.injEq] at hrun
      obtain ⟨out, ho, ⟨outs', ctx''⟩, hnil, rfl, rfl⟩ := hrun
      obtain ⟨-, hlast, -⟩ := houts out List.mem_cons_self
      have hne : part ≠ [] := by
        rintro rfl
        obtain ⟨-, -, h3, -⟩ := rtu_frame_alone ctx [] p n hf hu
        simp at h3
      rw [recv_holding ctx b [] part t 0 hc hb (by simpa using hroom), List.nil_append,
        scan_front 0 hne ((accepted_iff ctx part p n).mpr hu)] at ho
      have hd := dispatch_lastFunction ctx b part _ _ p n hf hr hu hroom out ho
      rw [hlast] at hd
      exact hl hd
  | cons x pre ih =>
    obtain ⟨out, b', t', hrun, hctx, hb'⟩ := recv_forgets ctx b t x hf hc ht hi hb
    obtain ⟨hfits, hdist⟩ := ih b' t' (by omega) (by omega)
    rw [List.map_cons, List.cons_append]
    constructor
    · refine ⟨?_, ?_⟩
      · rintro bytes ⟨rfl⟩
        simp [holding]
        omega
      · intro out' ho
        rw [hrun, Option.some.injEq] at ho
        rw [← ho, hctx]
        exact hfits
    · rintro ⟨outs, ctx', hrun', houts⟩
      rw [recvRun, hrun, Option.bind_eq_bind, Option.bind_some, hctx] at hrun'
      simp only [Option.bind_eq_bind, Option.bind_eq_some_iff, Option.pure_def, Option.some.injEq,
        Prod.mk.injEq] at hrun'
      obtain ⟨⟨outs', ctx''⟩, hrest, rfl, rfl⟩ := hrun'
      exact hdist ⟨outs', ctx'', hrest, fun o ho => houts o (List.mem_cons_of_mem _ ho)⟩

/-- A slave that hears the part: it does not wait between bytes, and has not
seen the function code before. -/
def eavesdropper (s d : UInt8) (part : Bytes) (h : part.length < 2 ^ 64) : PaModbus σ :=
  { paModbusSetMode .slave (paModbusSetTicksCb true (paModbusSetRxIdleTimeout 0
      (paModbusSetDiscoveryAddr d (station .rtu s 256 256)))) with
    rxbuf := ⟨part, h⟩
    lastFunction := part[1]?.getD 0 + 1 }

/-- The slave is isolated from foreign traffic exactly when no part of that
traffic reads as a message to the slave. -/
theorem isolated_iff (s d : UInt8) (frames : List (ForeignFrame s d)) :
    (∀ ctx : PaModbus σ, Listening s d ctx → ∀ polls, Fits ctx polls →
      delivered polls <+: traffic frames → Undisturbed ctx polls) ↔
      ∀ part, part <:+: traffic frames → part.length < 2 ^ 64 → ¬ Heard s d part := by
  constructor
  · rintro h part ⟨pre, post, hpart⟩ hlt hheard
    obtain ⟨p, n, hu⟩ := hheard
    rw [← unwrap_rtu _ _ rfl] at hu
    obtain ⟨-, hn, hl, -⟩ := rtu_frame_alone _ part p n rfl hu
    generalize hctx : (eavesdropper s d part hlt : PaModbus σ) = ctx
    have hlisten : Listening s d ctx := by
      subst hctx
      refine ⟨rfl, rfl, rfl, rfl, rfl, ?_, rfl⟩
      change part.length ≠ 0
      omega
    have hu' : unwrap ctx part = some (.ok p n) := by
      subst hctx
      exact hu
    have hself : holding ctx ctx.rxbuf [] 0 = ctx := by
      subst hctx
      exact holding_nil _ _ _
    have hroom : part.length ≤ ctx.rxbuf.cells.length := by
      subst hctx
      exact le_rfl
    have hlast : part[1]? ≠ some ctx.lastFunction := by
      subst hctx
      obtain ⟨fc, hfc⟩ := getElem?_some part 1 (by omega)
      rw [eavesdropper, hfc]
      simp
    obtain ⟨hfits, hdist⟩ := run_disturbed ctx ctx.rxbuf 0 pre part p n hlisten.framer hlisten.role
      hlisten.receives (by rw [← hctx]; rfl) (by rw [← hctx]; rfl) hlisten.buffer hroom hu' hlast
    rw [hself] at hfits hdist
    refine hdist (h ctx hlisten _ hfits ⟨post, ?_⟩)
    rw [← hpart]
    simp [delivered, List.flatMap_map]
  · intro h ctx hlisten polls hfits hpre
    have hself : holding ctx ctx.rxbuf [] ctx.lastRxTick = ctx := by
      rw [holding_nil, ← hlisten.empty]
    rw [← hself] at hfits ⊢
    refine run_quiet ctx ctx.rxbuf.cells.length polls ctx.rxbuf [] ctx.lastRxTick hlisten.receives
      rfl hlisten.buffer (by simp) hfits ?_
    intro part hpart hne hlen
    rw [List.nil_append] at hpart
    have hbound := ctx.rxbuf.bounded
    have hnot := h part (hpart.trans hpre.isInfix) (by omega)
    rw [heard_iff s d ctx hlisten] at hnot
    exact Option.eq_none_iff_forall_ne_some.mpr fun r hr => hnot ⟨r, hr⟩

def writeToTwo : ForeignFrame 1 0 :=
  ⟨2, [0x10, 0x00, 0x00, 0x00, 0x04, 0x08, 0x01, 0x05, 0x00, 0x00, 0xFF, 0x00, 0x8C, 0x3A],
    List.cons_ne_nil _ _, by decide⟩

theorem foreign_write_heard :
    ¬ ∀ ctx : PaModbus Unit, Listening 1 0 ctx → ∀ polls, Fits ctx polls →
      delivered polls <+: traffic [writeToTwo] → Undisturbed ctx polls := by
  intro h
  obtain ⟨outs, ctx', hrun, houts⟩ := h (paModbusSetMode .slave (station .rtu 1 32 32))
    ⟨rfl, rfl, rfl, rfl, rfl, by decide, rfl⟩ [⟨0, some (traffic [writeToTwo])⟩]
    ⟨by rintro bytes ⟨rfl⟩; decide, fun _ _ => trivial⟩ (by simp [delivered])
  have hret : (recvRun (paModbusSetMode .slave (station .rtu 1 32 32) : PaModbus Unit)
      [⟨0, some (traffic [writeToTwo])⟩]).map (fun r => r.1.map Outcome.ret) = some [paOk] := rfl
  rw [hrun, Option.map_some, Option.some.injEq] at hret
  cases outs with
  | nil => cases hret
  | cons o rest =>
    rw [List.map_cons, List.cons.injEq] at hret
    exact (houts o List.mem_cons_self).1 hret.1

end Pamodbus.Isolation
