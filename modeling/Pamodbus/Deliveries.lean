import Pamodbus.Lib.Stream
import Pamodbus.ReceiveErrors

namespace Pamodbus.Deliveries

open Pamodbus.Lib.Prefixes Pamodbus.Lib.Runs Pamodbus.Lib.Scanner Pamodbus.Lib.Stream
open Pamodbus.Context Pamodbus.Recv Pamodbus.Receiver
open Pamodbus.RawScan Pamodbus.Accumulator Pamodbus.CallEffects Pamodbus.ReceiveErrors
open Pamodbus.BackToBack

variable {σ : Type} {ctx : PaModbus σ} {size : Nat}

/-- The message that a call hands on, and the frame that it has been taken from. -/
def Delivers (ctx : PaModbus σ) (op : Op) (frame message : Bytes) : Prop :=
  match op with
  | .recv _ => message = frame ∧ (ctx.framerType = .rtu → Whole ctx frame)
  | .recvRaw _ _ => 4 ≤ frame.length ∧ crcValid frame = true ∧
      message = (frame.drop 1).take (frame.length - 3)
  | _ => False

/-- What becomes of the bytes that a call has found and received: those that it
takes contain the frame of the message, if it hands one on, and the others stay. -/
def Accounts (ctx : PaModbus σ) (op : Op) (out : Outcome σ) : Prop :=
  ∃ taken frames, accumulator ctx ++ op.arriving = taken ++ accumulator out.ctx ∧
    Pieces frames taken ∧ List.Forall₂ (Delivers ctx op) frames out.dispatched.toList

theorem accounts_kept {op : Op} {out : Outcome σ} (hd : out.dispatched = none)
    (h : accumulator out.ctx = accumulator ctx ++ op.arriving) : Accounts ctx op out := by
  refine ⟨[], [], ?_, .nil [], ?_⟩
  · rw [h, List.nil_append]
  · rw [hd]
    exact .nil

theorem accounts_dropped {op : Op} {out : Outcome σ} (hd : out.dispatched = none)
    (h : accumulator out.ctx = []) : Accounts ctx op out := by
  refine ⟨accumulator ctx ++ op.arriving, [], ?_, .nil _, ?_⟩
  · rw [h, List.append_nil]
  · rw [hd]
    exact .nil

theorem accounts_nothing {op : Op} {out : Outcome σ}
    (h : FindsNothing size (accumulator ctx ++ op.arriving) out) : Accounts ctx op out := by
  obtain ⟨hd, ⟨-, hkept, -⟩ | ⟨-, hdropped, -⟩⟩ := h
  · exact accounts_kept hd hkept
  · exact accounts_dropped hd hdropped

theorem accounts_taken {op : Op} {out : Outcome σ} (pre frame : Bytes) {suf message : Bytes}
    (hwhole : accumulator ctx ++ op.arriving = pre ++ frame ++ suf)
    (hd : out.dispatched = some message) (hdelivers : Delivers ctx op frame message)
    (h : accumulator out.ctx = suf) : Accounts ctx op out := by
  refine ⟨pre ++ frame, [frame], ?_, ?_, ?_⟩
  · rw [h, hwhole]
  · have hpiece := pieces_one pre frame []
    rwa [List.append_nil] at hpiece
  · rw [hd]
    exact .cons hdelivers .nil

theorem recv_accounts (h : Ready size ctx) (tick : UInt32) {bytes : Bytes}
    (hl : bytes.length ≤ offered ctx) {out : Outcome σ}
    (hrun : paModbusRecv ctx ⟨tick, some bytes⟩ = some out) :
    Accounts ctx (.recv ⟨tick, some bytes⟩) out := by
  have hfit := whole_fits ctx size h bytes hl
  have hbound := ctx.rxbuf.bounded
  obtain ⟨out', hrun', -, hout⟩ := recv_leaves ctx size h bytes tick hl
  obtain rfl : out' = out := Option.some.inj (hrun'.symm.trans hrun)
  rw [← List.length_append] at hfit
  cases hs : scan (accepted ctx) 0 (accumulator ctx ++ bytes) with
  | none =>
    rw [hs] at hout
    exact accounts_nothing hout
  | some found =>
    obtain ⟨start, p, n⟩ := found
    rw [hs] at hout
    obtain ⟨hleft, hd⟩ := hout
    obtain ⟨hend, -⟩ := found_feeds ctx _ start p n (by omega) hs
    obtain ⟨pre, suf, hsplit, hk, -, ha⟩ := scan_some hs
    obtain rfl : start = pre.length := by omega
    rw [hsplit, List.drop_left] at hd
    rw [hsplit, ← List.drop_drop, List.drop_left] at hleft
    refine accounts_taken pre (suf.take (frameLength ctx p n)) ?_ hd ⟨rfl, fun hf => ?_⟩ hleft
    · rw [List.append_assoc, List.take_append_drop]
      exact hsplit
    · rw [hsplit, List.length_append] at hfit
      obtain ⟨rfl, -, hn, hu⟩ := rtu_frame_alone ctx suf p n hf ((accepted_iff _ _ _ _).mp ha)
      rw [frameLength_rtu ctx n hf (by omega)]
      exact ⟨n, hu, (List.length_take_of_le hn).symm⟩

theorem recvRaw_accounts (h : Ready size ctx) (tick : UInt32) {bytes : Bytes} (capacity : Nat)
    (hl : bytes.length ≤ offered ctx) {out : Outcome σ}
    (hrun : paModbusRecvRaw ctx ⟨tick, some bytes⟩ (some capacity) = some out) :
    Accounts ctx (.recvRaw ⟨tick, some bytes⟩ (some capacity)) out := by
  obtain ⟨out', hrun', -, hout⟩ := recvRaw_leaves ctx size h bytes tick capacity hl
  obtain rfl : out' = out := Option.some.inj (hrun'.symm.trans hrun)
  cases hs : shortest crcValid 4 (accumulator ctx ++ bytes) with
  | none =>
    rw [hs] at hout
    exact accounts_nothing hout
  | some n =>
    rw [hs] at hout
    dsimp only at hout
    split at hout
    next hcap => exact accounts_kept hout.2.2 hout.2.1
    next hcap =>
      obtain ⟨-, hleft, hd⟩ := hout
      obtain ⟨hn, hlong, hvalid, -⟩ := shortest_eq_some_iff.mp hs
      have hlen : ((accumulator ctx ++ bytes).take n).length = n := List.length_take_of_le hn
      -- what is behind the message is dropped with it
      refine ⟨accumulator ctx ++ bytes, [(accumulator ctx ++ bytes).take n], ?_, ?_, ?_⟩
      · rw [hleft, List.append_nil]
        rfl
      · have hpiece := pieces_one [] ((accumulator ctx ++ bytes).take n)
          ((accumulator ctx ++ bytes).drop n)
        rwa [List.nil_append, List.take_append_drop] at hpiece
      · rw [hd]
        refine .cons ⟨hlong, hvalid, ?_⟩ .nil
        rw [hlen, List.drop_take, List.take_take, min_eq_left (by omega)]

theorem accounts_idle {op : Op} {out : Outcome σ} (hrun : op.run ctx = some out) (ret : Int)
    (ctx' : PaModbus σ) (hidle : op.run ctx = some ⟨ret, ctx', none⟩)
    (harriving : op.arriving = []) (hkept : accumulator ctx' = accumulator ctx) :
    Accounts ctx op out := by
  obtain rfl := Option.some.inj (hrun.symm.trans hidle)
  exact accounts_kept rfl (by rw [harriving, List.append_nil, hkept])

theorem op_accounts (h : Ready size ctx) (op : Op) (hl : op.arriving.length ≤ offered ctx)
    {out : Outcome σ} (hrun : op.run ctx = some out) : Accounts ctx op out := by
  have hcallback := h.callback
  have hnonempty : ctx.rxbuf.cells.length ≠ 0 := by
    rw [h.fixed]
    exact h.nonempty
  cases op with
  | recv poll =>
    obtain ⟨tick, recv⟩ := poll
    cases recv with
    | some bytes => exact recv_accounts h tick hl hrun
    | none =>
      exact accounts_idle hrun paErrCallback ctx
        (by simp [Op.run, paModbusRecv, hcallback, hnonempty]) rfl rfl
  | recvRaw poll capacity =>
    obtain ⟨tick, recv⟩ := poll
    cases capacity with
    | none =>
      exact accounts_idle hrun paErrBadParam ctx
        (by simp [Op.run, paModbusRecvRaw, hcallback, hnonempty]) rfl rfl
    | some capacity =>
      cases recv with
      | some bytes => exact recvRaw_accounts h tick capacity hl hrun
      | none =>
        exact accounts_idle hrun paErrCallback ctx
          (by simp [Op.run, paModbusRecvRaw, hcallback, hnonempty]) rfl rfl
  | rxReset =>
    obtain rfl := Option.some.inj hrun
    exact accounts_dropped rfl rfl
  | setFramer framer => exact accounts_idle hrun paOk _ rfl rfl rfl
  | setMode mode => exact accounts_idle hrun paOk _ rfl rfl rfl
  | setSlave slave => exact accounts_idle hrun paOk _ rfl rfl rfl
  | setDiscoveryAddr addr => exact accounts_idle hrun paOk _ rfl rfl rfl

/-- The frames of the messages that the calls of a run hand on, call by call. -/
def Handed : PaModbus σ → List Op → List Bytes → Prop
  | _, [], frames => frames = []
  | ctx, op :: ops, frames => ∃ out own rest, op.run ctx = some out ∧ frames = own ++ rest ∧
      List.Forall₂ (Delivers ctx op) own out.dispatched.toList ∧ Handed out.ctx ops rest

/-- Whatever arrives and whatever calls follow one another, the messages that are handed on lie
in the bytes received, in order and apart from each other, and all that follows the last of the
bytes taken is still held. -/
theorem messages_in_stream (ops : List Op) (h : Ready size ctx) (hops : Honest ctx ops) :
    ∃ ctx' taken frames, after step ctx ops = some ctx' ∧
      accumulator ctx ++ ops.flatMap Op.arriving = taken ++ accumulator ctx' ∧
      Pieces frames taken ∧ Handed ctx ops frames := by
  induction ops generalizing ctx with
  | nil => exact ⟨ctx, [], [], rfl, by simp, .nil [], rfl⟩
  | cons op ops ih =>
    obtain ⟨hl, hrest⟩ := hops
    obtain ⟨out, hrun, hready⟩ := op_ready ctx size h op hl
    rw [hrun] at hrest
    obtain ⟨ctx', taken', frames', hafter, hstream, hpieces, hhanded⟩ := ih hready hrest
    obtain ⟨taken, frames, hfirst, hown, hdelivers⟩ := op_accounts h op hl hrun
    refine ⟨ctx', taken ++ taken', frames ++ frames', ?_, ?_, hown.append hpieces,
      out, frames, frames', hrun, rfl, hdelivers, hhanded⟩
    · rw [after, step, hrun, Option.map_some, Option.bind_some]
      exact hafter
    · rw [List.flatMap_cons, ← List.append_assoc, hfirst, List.append_assoc, hstream,
        List.append_assoc]

def cutRequests : List Op :=
  [.recv ⟨0, some [0x2A, 0x01, 0x03, 0x00]⟩, .recv ⟨1, some [0x00, 0x00, 0x03, 0x05]⟩,
    .recv ⟨2, some [0xCB, 0x01, 0x11, 0xC0]⟩, .recv ⟨3, some [0x2C]⟩]

theorem cut_requests_in_stream :
    ∃ ctx' taken frames, after step (station .rtu 1 16 16 : PaModbus Unit) cutRequests = some ctx' ∧
      accumulator (station .rtu 1 16 16 : PaModbus Unit) ++ cutRequests.flatMap Op.arriving =
        taken ++ accumulator ctx' ∧
      Pieces frames taken ∧ Handed (station .rtu 1 16 16 : PaModbus Unit) cutRequests frames :=
  messages_in_stream cutRequests ⟨rfl, rfl, by decide, by decide⟩
    (And.intro (by decide) (And.intro (by decide) (And.intro (by decide +kernel)
      (And.intro (by decide +kernel) trivial))))

end Pamodbus.Deliveries
