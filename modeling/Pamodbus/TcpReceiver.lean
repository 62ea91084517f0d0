import Pamodbus.Accumulator
import Pamodbus.Lib.Runs

namespace Pamodbus.TcpReceiver

open Pamodbus.Lib.Cells Pamodbus.Lib.Runs Pamodbus.Lib.Scanner Pamodbus.Lib.Words
open Pamodbus.Context Pamodbus.FramerTcp Pamodbus.Framer Pamodbus.Feed
open Pamodbus.Recv Pamodbus.Receiver Pamodbus.Accumulator

variable {σ : Type}

structure Unmoved (ctx ctx' : PaModbus σ) : Prop where
  framer : ctx'.framerType = ctx.framerType
  function : ctx'.lastFunction = ctx.lastFunction
  result : ctx'.result = ctx.result
  request : ctx'.request = ctx.request

theorem Unmoved.trans {c d e : PaModbus σ} (h : Unmoved c d) (k : Unmoved d e) : Unmoved c e :=
  ⟨k.framer.trans h.framer, k.function.trans h.function, k.result.trans h.result,
    k.request.trans h.request⟩

theorem unmoved_holding (ctx : PaModbus σ) (b : Buffer UInt8) (acc : Bytes) (t : UInt32) :
    Unmoved ctx (holding ctx b acc t) := ⟨rfl, rfl, rfl, rfl⟩

theorem slice_incomplete {ctx : PaModbus σ} {data : Bytes} {length : UInt16}
    (hf : ctx.framerType = .tcp) (h : Acceptable ctx data length) :
    ∃ r, 0 < r ∧ unwrap ctx (data.take (6 + length.toNat)) = some (.ret r) := by
  have htotal := h.total
  have hlen : (data.take (6 + length.toNat)).length = 6 + length.toNat :=
    List.length_take_of_le (by omega)
  obtain ⟨h4, h5⟩ := h.length_eq
  rw [unwrap_tcp ctx _ hf, paFramerTcpUnwrap, hlen]
  dsimp only
  by_cases h8 : 6 + length.toNat < 8
  · exact ⟨_, by omega, if_pos h8⟩
  · rw [if_neg h8, List.getElem?_take_of_lt (by omega), List.getElem?_take_of_lt (by omega), h4, h5]
    simp only [Option.bind_eq_bind, Option.bind_some, word_bytes]
    exact ⟨_, by omega, if_pos (by omega)⟩

theorem roleFeed_incomplete {ctx : PaModbus σ} {data : Bytes} {r : Int} (hr : 0 < r)
    (hu : unwrap ctx data = some (.ret r)) : (roleFeed ctx data).run ctx = some (r, ctx) := by
  rw [roleFeed]
  split
  · exact slaveFeed_ret ctx data r hu
  · rw [masterFeed_ret ctx data r hu, if_neg (by omega)]

theorem keepWaiting_unmoved (ctx : PaModbus σ) (now : UInt32) :
    (keepWaiting ctx now).ret ≠ paOk ∧ Unmoved ctx (keepWaiting ctx now).ctx := by
  rcases keepWaiting_cases ctx now with h | ⟨ret, hret, h⟩
  · have hwait : paWait ≠ paOk := by decide
    rw [h]
    exact ⟨hwait, rfl, rfl, rfl, rfl⟩
  · rw [h]
    exact ⟨Int.ne_of_lt hret, rfl, rfl, rfl, rfl⟩

theorem recv_unmoved {ctx : PaModbus σ} {size : Nat} (h : Ready size ctx)
    (hf : ctx.framerType = .tcp) {poll : Poll} (hl : (poll.recv.getD []).length ≤ offered ctx)
    {out : Outcome σ} (hrun : paModbusRecv ctx poll = some out) :
    out.ret ≠ paOk ∧ Unmoved ctx out.ctx := by
  have hfixed := h.fixed
  have hnonempty := h.nonempty
  have hheld := h.held
  obtain ⟨tick, recv⟩ := poll
  cases recv with
  | none =>
    have hfails : paErrCallback ≠ paOk := by decide
    have hcfg : ¬ (¬ ctx.recvCb = true ∨ ctx.rxbuf.cells.length = 0) := by
      simp [h.callback, hfixed, hnonempty]
    rw [paModbusRecv, if_neg hcfg] at hrun
    obtain rfl := Option.some.inj hrun
    exact ⟨hfails, rfl, rfl, rfl, rfl⟩
  | some bytes =>
    rw [Option.getD_some, offered_eq ctx size h] at hl
    have hbound := ctx.rxbuf.bounded
    have hacc : (accumulator ctx).length = ctx.rxLen := List.length_take_of_le (by omega)
    have hwhole : (accumulator ctx ++ bytes).length ≤ ctx.rxbuf.cells.length := by
      rw [List.length_append]
      omega
    rw [recv_own ctx bytes tick h.callback (by omega) (by omega)] at hrun
    dsimp only at hrun
    generalize (if ctx.ticksCb = true then tick else 0) = now at hrun
    generalize (if 0 < bytes.length then now else ctx.lastRxTick) = t at hrun
    generalize accumulator ctx ++ bytes = whole at hrun hwhole
    cases hs : scan (accepted ctx) 0 whole with
    | none =>
      rw [hs] at hrun
      obtain rfl := Option.some.inj hrun
      obtain ⟨hret, hsame⟩ := keepWaiting_unmoved (holding ctx ctx.rxbuf whole t) now
      exact ⟨hret, (unmoved_holding ctx _ _ _).trans hsame⟩
    | some found =>
      obtain ⟨start, p, n⟩ := found
      rw [hs] at hrun
      obtain ⟨hfit, -⟩ := found_feeds ctx whole start p n (by omega) hs
      obtain ⟨pre, suf, rfl, hk, -, ha⟩ := scan_some hs
      obtain rfl : start = pre.length := by omega
      have hu := (accepted_iff _ _ _ _).mp ha
      rw [unwrap_tcp ctx _ hf] at hu
      obtain ⟨length, hacc, rfl, rfl⟩ := (FramerTcp.unwrap_ok_iff _ _ _ _).mp hu
      obtain ⟨r, hr, hshort⟩ := slice_incomplete hf hacc
      dsimp only at hrun
      rw [frameLength_tcp ctx length hf] at hfit hrun
      have hfeed : (roleFeed ctx (((pre ++ suf).drop pre.length).take (6 + length.toNat))).run ctx =
          some (r, ctx) := by
        rw [List.drop_left]
        exact roleFeed_incomplete hr hshort
      rw [dispatch_holding ctx ctx ctx.rxbuf (pre ++ suf) t now pre.length _ r hwhole hfit hfeed]
        at hrun
      obtain rfl := Option.some.inj hrun
      exact ⟨Int.ne_of_gt hr, unmoved_holding ctx _ _ _⟩

theorem recvRaw_unmoved {ctx : PaModbus σ} {size : Nat} (h : Ready size ctx) {poll : Poll}
    {capacity : Option Nat} (hl : (Op.recvRaw poll capacity).arriving.length ≤ offered ctx)
    {out : Outcome σ} (hrun : paModbusRecvRaw ctx poll capacity = some out) :
    Unmoved ctx out.ctx := by
  have hfixed := h.fixed
  have hnonempty := h.nonempty
  have hheld := h.held
  have hc : ¬ ¬ ctx.recvCb = true := not_not.mpr h.callback
  have hn : ¬ ctx.rxbuf.cells.length = 0 := by omega
  obtain ⟨tick, recv⟩ := poll
  cases capacity with
  | none =>
    unfold paModbusRecvRaw at hrun
    rw [if_neg hc, if_neg hn] at hrun
    obtain rfl := Option.some.inj hrun
    exact ⟨rfl, rfl, rfl, rfl⟩
  | some capacity =>
    cases recv with
    | none =>
      rw [paModbusRecvRaw, if_neg hc, if_neg hn] at hrun
      obtain rfl := Option.some.inj hrun
      exact ⟨rfl, rfl, rfl, rfl⟩
    | some bytes =>
      rw [Op.arriving, Option.getD_some, offered_eq ctx size h] at hl
      rw [recvRaw_own ctx bytes tick capacity h.callback hn (by omega)] at hrun
      dsimp only at hrun
      split at hrun
      · split at hrun
        · obtain rfl := Option.some.inj hrun
          exact unmoved_holding ctx _ _ _
        · obtain rfl := Option.some.inj hrun
          exact ⟨rfl, rfl, rfl, rfl⟩
      · obtain rfl := Option.some.inj hrun
        exact (unmoved_holding ctx _ _ _).trans (keepWaiting_unmoved _ _).2

def step (ctx : PaModbus σ) (op : Op) : Option (PaModbus σ) :=
  (op.run ctx).map Outcome.ctx

/-- The receive callback keeps to `max_len`, and no call selects the other framer. -/
def Steady (ctx : PaModbus σ) (op : Op) : Prop :=
  op.arriving.length ≤ offered ctx ∧ op ≠ .setFramer .rtu

instance : DecidablePred fun op : Op => op = .setFramer .rtu
  | .setFramer framer => decidable_of_iff (framer = .rtu) ⟨congrArg _, Op.setFramer.inj⟩
  | .recv _ | .recvRaw .. | .rxReset | .setMode _ | .setSlave _ | .setDiscoveryAddr _ =>
    .isFalse nofun

instance (ctx : PaModbus σ) : DecidablePred (Steady ctx) :=
  fun _ => inferInstanceAs (Decidable (_ ∧ ¬ _))

def Deaf (ctx : PaModbus σ) (op : Op) : Prop :=
  ∀ poll, op = .recv poll → ∀ out, op.run ctx = some out → out.ret ≠ paOk

theorem op_unmoved {ctx : PaModbus σ} {size : Nat} (h : Ready size ctx)
    (hf : ctx.framerType = .tcp) {op : Op} (hop : Steady ctx op) {out : Outcome σ}
    (hrun : op.run ctx = some out) : Unmoved ctx out.ctx := by
  obtain ⟨hl, hkeep⟩ := hop
  cases op with
  | recv poll => exact (recv_unmoved h hf hl hrun).2
  | recvRaw poll capacity => exact recvRaw_unmoved h hl hrun
  | rxReset =>
    obtain rfl := Option.some.inj hrun
    exact ⟨rfl, rfl, rfl, rfl⟩
  | setFramer framer =>
    obtain rfl := Option.some.inj hrun
    cases framer with
    | rtu => exact absurd rfl hkeep
    | tcp => exact ⟨hf.symm, rfl, rfl, rfl⟩
  | setMode mode =>
    obtain rfl := Option.some.inj hrun
    exact ⟨rfl, rfl, rfl, rfl⟩
  | setSlave slave =>
    obtain rfl := Option.some.inj hrun
    exact ⟨rfl, rfl, rfl, rfl⟩
  | setDiscoveryAddr addr =>
    obtain rfl := Option.some.inj hrun
    exact ⟨rfl, rfl, rfl, rfl⟩

theorem op_deaf {ctx : PaModbus σ} {size : Nat} (h : Ready size ctx) (hf : ctx.framerType = .tcp)
    {op : Op} (hop : Steady ctx op) : Deaf ctx op := by
  rintro poll rfl out hrun
  exact (recv_unmoved h hf hop.1 hrun).1

/-- Whatever arrives at a receiver with the TCP framer, and however it is polled, no call receives
a message, and neither a request nor a result ever gets to the application. -/
theorem tcp_receives_nothing (ctx : PaModbus σ) (size : Nat) (ops : List Op)
    (h : Ready size ctx) (hf : ctx.framerType = .tcp) (hops : Throughout step Steady ctx ops) :
    ∃ ctx', after step ctx ops = some ctx' ∧ Along step Deaf ctx ops ∧ Unmoved ctx ctx' := by
  induction ops generalizing ctx with
  | nil => exact ⟨ctx, rfl, trivial, rfl, rfl, rfl, rfl⟩
  | cons op ops ih =>
    obtain ⟨hop, hrest⟩ := hops
    obtain ⟨out, hrun, hready⟩ := op_ready ctx size h op hop.1
    have hstep : step ctx op = some out.ctx := by rw [step, hrun, Option.map_some]
    have hsame := op_unmoved h hf hop hrun
    obtain ⟨ctx', hafter, hdeaf, hrest⟩ :=
      ih out.ctx hready (hsame.framer.trans hf) (hrest out.ctx hstep)
    exact ⟨ctx', by rw [after, hstep, Option.bind_some, hafter],
      ⟨op_deaf h hf hop, out.ctx, hstep, hdeaf⟩, hsame.trans hrest⟩

def splitRequest : List Op :=
  [.recv ⟨1, some [0x00, 0x01, 0x00, 0x00, 0x00]⟩,
    .recv ⟨2, some [0x06, 0x01, 0x03, 0x00, 0x00, 0x00, 0x02]⟩, .recv ⟨3, none⟩, .setMode .slave,
    .recvRaw ⟨4, some [0x00, 0x02]⟩ (some 8), .setFramer .tcp, .recv ⟨5, some [0x00, 0x00]⟩,
    .rxReset]

theorem split_request_nothing :
    ∃ ctx', after step (station .tcp 1 32 32 : PaModbus Unit) splitRequest = some ctx' ∧
      Along step Deaf (station .tcp 1 32 32 : PaModbus Unit) splitRequest ∧
      Unmoved (station .tcp 1 32 32) ctx' :=
  tcp_receives_nothing (station .tcp 1 32 32) 32 splitRequest ⟨rfl, rfl, by decide, by decide⟩ rfl
    (by decide +kernel)

end Pamodbus.TcpReceiver
