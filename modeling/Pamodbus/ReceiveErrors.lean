import Pamodbus.Lib.Runs
import Pamodbus.CallEffects

namespace Pamodbus.ReceiveErrors

open Pamodbus.Lib.Cells Pamodbus.Lib.CInt Pamodbus.Lib.Prefixes Pamodbus.Lib.Runs
open Pamodbus.Lib.Scanner
open Pamodbus.Context Pamodbus.FramerRtu Pamodbus.FramerTcp Pamodbus.Framer Pamodbus.ParseTotal
open Pamodbus.Recv Pamodbus.Receiver Pamodbus.RawScan Pamodbus.Accumulator
open Pamodbus.CallEffects

variable {σ : Type}

def step (ctx : PaModbus σ) (op : Op) : Option (PaModbus σ) := (op.run ctx).map Outcome.ctx

def Fails (op : Op) (out : Outcome σ) : Prop :=
  out.ret < 0 ∧ out.ret ≠ paErrCallback ∧ out.ret ≠ paErrState ∧ ∀ poll, op ≠ .recvRaw poll none

/-- If the call fails, it leaves less than it has found and received. -/
def Shrinks (ctx : PaModbus σ) (op : Op) : Prop :=
  ∀ out, op.run ctx = some out → Fails op out → out.ctx.rxLen < ctx.rxLen + op.arriving.length

/-- The message that the raw call finds is longer than the buffer it is for. -/
def TooLong (ctx : PaModbus σ) : Op → Prop
  | .recvRaw ⟨_, some bytes⟩ (some capacity) =>
    ∃ n, shortest crcValid 4 (accumulator ctx ++ bytes) = some n ∧ capacity < n - 3
  | _ => False

theorem found_positive (ctx : PaModbus σ) (data : Bytes) (p n : Nat) (hl : data.length < 2 ^ 64)
    (ha : accepted ctx data = some (p, n)) : 0 < frameLength ctx p n := by
  have hu := (accepted_iff _ _ _ _).mp ha
  cases hf : ctx.framerType with
  | rtu =>
    obtain ⟨rfl, -, hn, -⟩ := rtu_frame_alone ctx data p n hf hu
    rw [frameLength_rtu ctx n hf (by omega)]
    omega
  | tcp =>
    rw [unwrap_tcp ctx _ hf] at hu
    obtain ⟨length, -, rfl, rfl⟩ := (FramerTcp.unwrap_ok_iff _ _ _ _).mp hu
    rw [frameLength_tcp ctx length hf]
    omega

theorem found_removes (ctx : PaModbus σ) (data : Bytes) (start p n : Nat)
    (hl : data.length < 2 ^ 64) (hs : scan (accepted ctx) 0 data = some (start, p, n)) :
    (data.drop (start + frameLength ctx p n)).length < data.length := by
  obtain ⟨hend, -⟩ := found_feeds ctx data start p n hl hs
  obtain ⟨pre, suf, rfl, -, -, ha⟩ := scan_some hs
  rw [List.length_append] at hl
  have hpos := found_positive ctx suf p n (by omega) ha
  rw [List.length_drop]
  omega

theorem left_length (ctx : PaModbus σ) (size : Nat) (h : Ready size ctx) (op : Op)
    (hl : op.arriving.length ≤ offered ctx) (out : Outcome σ) (hrun : op.run ctx = some out) :
    (accumulator out.ctx).length = out.ctx.rxLen := by
  obtain ⟨out', hrun', hready⟩ := op_ready ctx size h op hl
  obtain rfl : out' = out := Option.some.inj (hrun'.symm.trans hrun)
  exact accumulator_length out'.ctx size hready

theorem recv_shrinks (ctx : PaModbus σ) (size : Nat) (h : Ready size ctx) (tick : UInt32)
    (bytes : Bytes) (hl : bytes.length ≤ offered ctx) : Shrinks ctx (.recv ⟨tick, some bytes⟩) := by
  intro out hrun hfails
  have hleft := left_length ctx size h (.recv ⟨tick, some bytes⟩) hl out hrun
  have hheld := accumulator_length ctx size h
  have hfit := whole_fits ctx size h bytes hl
  have hbound := ctx.rxbuf.bounded
  obtain ⟨out', hrun', -, hout⟩ := recv_leaves ctx size h bytes tick hl
  obtain rfl : out' = out := Option.some.inj (hrun'.symm.trans hrun)
  have harriving : (Op.recv ⟨tick, some bytes⟩).arriving = bytes := rfl
  rw [harriving, ← hheld, ← hleft, ← List.length_append]
  rw [← List.length_append] at hfit
  cases hs : scan (accepted ctx) 0 (accumulator ctx ++ bytes) with
  | some r =>
    obtain ⟨start, p, n⟩ := r
    rw [hs] at hout
    rw [hout.1]
    exact found_removes ctx _ start p n (by omega) hs
  | none =>
    rw [hs] at hout
    rcases hout with ⟨-, ⟨hret, -, -⟩ | ⟨-, hnil, hpos, -⟩⟩
    · exact absurd (hret ▸ hfails.1) (by decide)
    · rw [hnil]
      exact hpos

theorem recvRaw_shrinks_iff (ctx : PaModbus σ) (size : Nat) (h : Ready size ctx) (tick : UInt32)
    (bytes : Bytes) (capacity : Nat) (hl : bytes.length ≤ offered ctx) :
    Shrinks ctx (.recvRaw ⟨tick, some bytes⟩ (some capacity)) ↔
      ¬ TooLong ctx (.recvRaw ⟨tick, some bytes⟩ (some capacity)) := by
  obtain ⟨out, hrun, -, hout⟩ := recvRaw_leaves ctx size h bytes tick capacity hl
  have hleft := left_length ctx size h (.recvRaw ⟨tick, some bytes⟩ (some capacity)) hl out hrun
  have hheld := accumulator_length ctx size h
  have hshrinks : Shrinks ctx (.recvRaw ⟨tick, some bytes⟩ (some capacity)) ↔
      (Fails (.recvRaw ⟨tick, some bytes⟩ (some capacity)) out →
        (accumulator out.ctx).length < (accumulator ctx ++ bytes).length) := by
    rw [hleft, List.length_append, hheld]
    constructor
    · exact fun hs => hs out hrun
    · intro hs out' hrun'
      obtain rfl : out = out' := Option.some.inj (hrun.symm.trans hrun')
      exact hs
  rw [hshrinks, TooLong]
  cases hs : shortest crcValid 4 (accumulator ctx ++ bytes) with
  | none =>
    rw [hs] at hout
    constructor
    · rintro - ⟨n, hn, -⟩
      cases hn
    · intro _ hfails
      rcases hout with ⟨-, ⟨hret, -, -⟩ | ⟨-, hnil, hpos, -⟩⟩
      · exact absurd (hret ▸ hfails.1) (by decide)
      · rw [hnil]
        exact hpos
  | some n =>
    rw [hs] at hout
    dsimp only at hout
    split at hout
    · next hcap =>
      obtain ⟨hret, hacc, -⟩ := hout
      rw [hacc]
      refine ⟨fun hless => absurd (hless ⟨?_, ?_, ?_, fun poll he => ?_⟩) (Nat.lt_irrefl _),
        fun hfits => absurd ⟨n, rfl, hcap⟩ hfits⟩
      · rw [hret]; decide
      · rw [hret]; decide
      · rw [hret]; decide
      · cases he
    · next hcap =>
      refine ⟨fun _ ⟨m, hm, hlong⟩ => hcap (Option.some.inj hm ▸ hlong), fun _ hfails => ?_⟩
      exact absurd (hout.1 ▸ hfails.1) (by decide)

theorem shrinks_iff (ctx : PaModbus σ) (size : Nat) (h : Ready size ctx) (op : Op)
    (hl : op.arriving.length ≤ offered ctx) : Shrinks ctx op ↔ ¬ TooLong ctx op := by
  have hcallback := h.callback
  have hnonempty : ctx.rxbuf.cells.length ≠ 0 := by
    rw [h.fixed]
    exact h.nonempty
  have hquiet {op : Op} (hop : ∀ out, op.run ctx = some out → ¬ Fails op out)
      (hfits : ¬ TooLong ctx op) : Shrinks ctx op ↔ ¬ TooLong ctx op :=
    ⟨fun _ => hfits, fun _ out hrun hfails => absurd hfails (hop out hrun)⟩
  have hok {op : Op} {ctx' : PaModbus σ} (hrun : op.run ctx = some ⟨paOk, ctx', none⟩) (out : Outcome σ)
      (hout : op.run ctx = some out) : ¬ Fails op out := by
    rw [hrun, Option.some.injEq] at hout
    rw [← hout]
    exact fun hfails => absurd hfails.1 (by decide : ¬ paOk < 0)
  cases op with
  | recv poll =>
    obtain ⟨tick, recv⟩ := poll
    cases recv with
    | some bytes =>
      exact ⟨fun _ => id, fun _ => recv_shrinks ctx size h tick bytes hl⟩
    | none =>
      refine hquiet (fun out hout hfails => hfails.2.1 ?_) id
      have hrun : (Op.recv ⟨tick, none⟩).run ctx = some ⟨paErrCallback, ctx, none⟩ := by
        simp [Op.run, paModbusRecv, hcallback, hnonempty]
      rw [hrun, Option.some.injEq] at hout
      rw [← hout]
  | recvRaw poll capacity =>
    obtain ⟨tick, recv⟩ := poll
    cases capacity with
    | none =>
      refine hquiet (fun out _ hfails => hfails.2.2.2 _ rfl) ?_
      cases recv with
      | none => exact id
      | some bytes => exact id
    | some capacity =>
      cases recv with
      | some bytes => exact recvRaw_shrinks_iff ctx size h tick bytes capacity hl
      | none =>
        refine hquiet (fun out hout hfails => hfails.2.1 ?_) id
        have hrun : (Op.recvRaw ⟨tick, none⟩ (some capacity)).run ctx =
            some ⟨paErrCallback, ctx, none⟩ := by
          simp [Op.run, paModbusRecvRaw, hcallback, hnonempty]
        rw [hrun, Option.some.injEq] at hout
        rw [← hout]
  | rxReset => exact hquiet (hok rfl) id
  | setFramer framer => exact hquiet (hok rfl) id
  | setMode mode => exact hquiet (hok rfl) id
  | setSlave slave => exact hquiet (hok rfl) id
  | setDiscoveryAddr addr => exact hquiet (hok rfl) id

/-- The run keeps to the room offered, and leads to `ctx'`. -/
structure Reaches (ctx : PaModbus σ) (ops : List Op) (ctx' : PaModbus σ) : Prop where
  polite : Along step (fun ctx op => op.arriving.length ≤ offered ctx) ctx ops
  ends : after step ctx ops = some ctx'

theorem Reaches.refl (ctx : PaModbus σ) : Reaches ctx [] ctx := ⟨trivial, rfl⟩

theorem Reaches.trans {c d e : PaModbus σ} {ops ops' : List Op} (h : Reaches c ops d)
    (h' : Reaches d ops' e) : Reaches c (ops ++ ops') e :=
  ⟨(along_append h.ends).mpr ⟨h.polite, h'.polite⟩, (after_append h.ends).trans h'.ends⟩

theorem Reaches.single {ctx : PaModbus σ} {op : Op} {out : Outcome σ}
    (hl : op.arriving.length ≤ offered ctx) (hrun : op.run ctx = some out) :
    Reaches ctx [op] out.ctx := by
  have hstep : step ctx op = some out.ctx := by rw [step, hrun, Option.map_some]
  exact ⟨⟨hl, out.ctx, hstep, trivial⟩, by rw [after, hstep]; rfl⟩

theorem step_ready (size : Nat) (ctx ctx' : PaModbus σ) (op : Op) (h : Ready size ctx)
    (hl : op.arriving.length ≤ offered ctx) (hstep : step ctx op = some ctx') : Ready size ctx' := by
  obtain ⟨out, hrun, hready⟩ := op_ready ctx size h op hl
  rw [step, hrun, Option.map_some, Option.some.injEq] at hstep
  exact hstep ▸ hready

theorem Reaches.ready {ctx ctx' : PaModbus σ} {size : Nat} {ops : List Op} (h : Ready size ctx)
    (hr : Reaches ctx ops ctx') : Ready size ctx' :=
  Along.invariant h (fun ctx op ctx' h hl hstep => step_ready size ctx ctx' op h hl hstep)
    hr.polite hr.ends

theorem accepted_cut (ctx : PaModbus σ) (data : Bytes) (p n k : Nat) (hl : data.length < 2 ^ 64)
    (ha : accepted ctx data = some (p, n)) (hk : frameLength ctx p n + 2 ≤ k)
    (hd : k ≤ data.length) : accepted ctx (data.take k) ≠ none := by
  have hu := (accepted_iff _ _ _ _).mp ha
  have hlen : (data.take k).length = k := List.length_take_of_le hd
  have hsome (p n : Nat) (hu : unwrap ctx (data.take k) = some (.ok p n)) :
      accepted ctx (data.take k) ≠ none := by
    rw [(accepted_iff _ _ _ _).mpr hu]
    exact Option.some_ne_none _
  cases hf : ctx.framerType with
  | rtu =>
    obtain ⟨rfl, -, hn, -⟩ := rtu_frame_alone ctx data p n hf hu
    rw [frameLength_rtu ctx n hf (by omega)] at hk
    exact hsome 1 n (rtu_frame_cut ctx data 1 n k hf hu (by omega) hd)
  | tcp =>
    rw [unwrap_tcp ctx _ hf] at hu
    obtain ⟨length, hacc, rfl, rfl⟩ := (FramerTcp.unwrap_ok_iff _ _ _ _).mp hu
    rw [frameLength_tcp ctx length hf] at hk
    refine hsome 7 (sizeT (length.toNat - 1)) ?_
    rw [unwrap_tcp ctx _ hf]
    refine (FramerTcp.unwrap_ok_iff _ _ _ _).mpr ⟨length, ⟨by omega, ?_, by omega, ?_, ?_⟩, rfl, rfl⟩
    · rw [List.getElem?_take_of_lt (by omega), List.getElem?_take_of_lt (by omega)]
      exact hacc.length_eq
    · rw [List.getElem?_take_of_lt (by omega), List.getElem?_take_of_lt (by omega)]
      exact hacc.proto
    · rw [List.getElem?_take_of_lt (by omega)]
      exact hacc.unit

/-- A frame that is found only when more bytes have come takes what was there, but one byte. -/
theorem found_covers (ctx : PaModbus σ) (acc more : Bytes) (start p n : Nat)
    (hl : (acc ++ more).length < 2 ^ 64) (hnone : scan (accepted ctx) 0 acc = none)
    (hs : scan (accepted ctx) 0 (acc ++ more) = some (start, p, n)) :
    acc.length ≤ start + frameLength ctx p n + 1 := by
  obtain ⟨pre, suf, hsplit, hk, -, ha⟩ := scan_some hs
  obtain rfl : start = pre.length := by omega
  by_contra hshort
  have hsuf : suf = acc.drop pre.length ++ more := by
    rw [← List.drop_append_of_le_length (by omega), hsplit, List.drop_left]
  have hheld : (acc.drop pre.length).length = acc.length - pre.length := List.length_drop
  have htotal := congrArg List.length hsuf
  rw [List.length_append] at htotal hl
  have hcut := accepted_cut ctx suf p n (acc.length - pre.length) (by omega) ha (by omega) (by omega)
  rw [hsuf, ← hheld, List.take_left] at hcut
  refine hcut ((scan_none_iff 0 acc).mp hnone _ (List.drop_suffix _ _) ?_)
  exact List.ne_nil_of_length_pos (by omega)

/-- A call in which bytes that belong to no frame fill up the buffer. -/
def padding (size : Nat) (ctx : PaModbus σ) : Poll :=
  ⟨0, some (List.replicate (size - ctx.rxLen) 0xFF)⟩

theorem padding_silent (ctx : PaModbus σ) (r : Bytes) (m : Nat) (hr : r.length ≤ 1) :
    scan (accepted ctx) 0 (r ++ List.replicate m 0xFF) = none := by
  rw [scan_none_iff]
  intro data hsuffix _
  have hpadding (i : Nat) (hi : 1 ≤ i) (b : UInt8) (hb : data[i]? = some b) : b = 0xFF := by
    rw [List.suffix_iff_eq_drop.mp hsuffix, List.getElem?_drop,
      List.getElem?_append_right (by omega)] at hb
    exact List.eq_of_mem_replicate (List.mem_of_getElem? hb)
  refine (accepted_none_iff ctx data).mpr ?_
  obtain ⟨u, hu⟩ := Framer.unwrap_defined ctx data
  cases u with
  | ret r => exact ⟨r, hu⟩
  | ok p n =>
    exfalso
    cases hf : ctx.framerType with
    | rtu =>
      rw [unwrap_rtu ctx _ hf] at hu
      obtain ⟨addr, fc, body, rest, hd, he, -, -, -⟩ := (FramerRtu.unwrap_ok_iff _ _ _ _).mp hu
      have hfc : fc = 0xFF := hpadding 1 le_rfl fc (by rw [hd]; rfl)
      rw [hfc] at he
      cases he
    | tcp =>
      rw [unwrap_tcp ctx _ hf] at hu
      obtain ⟨length, hacc, -, -⟩ := (FramerTcp.unwrap_ok_iff _ _ _ _).mp hu
      exact absurd (hpadding 2 (by omega) 0 hacc.proto.1) (by decide)

section

variable (ctx : PaModbus σ) (size : Nat) (h : Ready size ctx)
include h

theorem recv_reaches (bytes : Bytes) (tick : UInt32) (hl : bytes.length ≤ offered ctx) :
    ∃ out, paModbusRecv ctx ⟨tick, some bytes⟩ = some out ∧
      Reaches ctx [.recv ⟨tick, some bytes⟩] out.ctx ∧ Ready size out.ctx := by
  obtain ⟨out, hrun, hready⟩ := op_ready ctx size h (.recv ⟨tick, some bytes⟩) hl
  exact ⟨out, hrun, Reaches.single hl hrun, hready⟩

theorem frames_used_up : ∃ (polls : List Poll) (ctx' : PaModbus σ),
    Reaches ctx (polls.map .recv) ctx' ∧ HearsSame ctx ctx' ∧
      scan (accepted ctx') 0 (accumulator ctx') = none := by
  induction hn : ctx.rxLen using Nat.strong_induction_on generalizing ctx with
  | _ n ih =>
    cases hs : scan (accepted ctx) 0 (accumulator ctx) with
    | none => exact ⟨[], ctx, Reaches.refl ctx, ⟨rfl, rfl⟩, hs⟩
    | some r =>
      obtain ⟨out, hrun, hreach, hready⟩ := recv_reaches ctx size h [] 0 (Nat.zero_le _)
      obtain ⟨out', hrun', hsame, hout⟩ := recv_leaves ctx size h [] 0 (Nat.zero_le _)
      obtain rfl : out' = out := Option.some.inj (hrun'.symm.trans hrun)
      have hless : out'.ctx.rxLen < n := by
        have hheld := accumulator_length ctx size h
        have hbound := ctx.rxbuf.bounded
        have hle := h.held
        have hfixed := h.fixed
        rw [List.append_nil, hs] at hout
        rw [← hn, ← accumulator_length _ size hready, ← hheld, hout.1]
        exact found_removes ctx _ r.1 r.2.1 r.2.2 (by omega) hs
      obtain ⟨polls, ctx', hrest, hsame', hnone⟩ := ih _ hless out'.ctx hready rfl
      exact ⟨⟨0, some []⟩ :: polls, ctx', hreach.trans hrest, hsame.trans hsame', hnone⟩

theorem padding_fits (b : UInt8) :
    (List.replicate (size - ctx.rxLen) b).length ≤ offered ctx ∧
      (accumulator ctx ++ List.replicate (size - ctx.rxLen) b).length = size := by
  have hheld := h.held
  rw [offered_eq ctx size h, List.length_append, accumulator_length ctx size h,
    List.length_replicate]
  exact ⟨le_rfl, by omega⟩

theorem filled_with_padding (hnone : scan (accepted ctx) 0 (accumulator ctx) = none) :
    ∃ (ctx' : PaModbus σ) (r : Bytes) (m : Nat),
      Reaches ctx [.recv (padding size ctx)] ctx' ∧
        HearsSame ctx ctx' ∧ r.length ≤ 1 ∧ accumulator ctx' = r ++ List.replicate m 0xFF := by
  obtain ⟨hl, hfull⟩ := padding_fits ctx size h 0xFF
  have hbound := ctx.rxbuf.bounded
  have hfixed := h.fixed
  obtain ⟨out, hrun, hreach, -⟩ := recv_reaches ctx size h _ 0 hl
  obtain ⟨out', hrun', hsame, hout⟩ := recv_leaves ctx size h _ 0 hl
  obtain rfl : out' = out := Option.some.inj (hrun'.symm.trans hrun)
  cases hs : scan (accepted ctx) 0
      (accumulator ctx ++ List.replicate (size - ctx.rxLen) 0xFF) with
  | none =>
    rw [hs] at hout
    rcases hout with ⟨-, ⟨-, -, hroom⟩ | ⟨-, hnil, -⟩⟩
    · omega
    · exact ⟨out'.ctx, [], 0, hreach, hsame, Nat.zero_le _, hnil⟩
  | some f =>
    obtain ⟨start, p, n⟩ := f
    rw [hs] at hout
    dsimp only at hout
    have hcovers := found_covers ctx _ _ start p n (by omega) hnone hs
    generalize start + frameLength ctx p n = k at hout hcovers
    refine ⟨out'.ctx, (accumulator ctx).drop k, size - ctx.rxLen - (k - (accumulator ctx).length),
      hreach, hsame, ?_, ?_⟩
    · rw [List.length_drop]
      omega
    · rw [hout.1, List.drop_append, List.drop_replicate]

theorem padding_discarded (r : Bytes) (m : Nat) (hr : r.length ≤ 1)
    (hheld : accumulator ctx = r ++ List.replicate m 0xFF) :
    ∃ ctx' : PaModbus σ, Reaches ctx [.recv (padding size ctx)] ctx' ∧
      HearsSame ctx ctx' ∧ ctx'.rxLen = 0 := by
  obtain ⟨hl, hfull⟩ := padding_fits ctx size h 0xFF
  obtain ⟨out, hrun, hreach, hready⟩ := recv_reaches ctx size h _ 0 hl
  obtain ⟨out', hrun', hsame, hout⟩ := recv_leaves ctx size h _ 0 hl
  obtain rfl : out' = out := Option.some.inj (hrun'.symm.trans hrun)
  have hnone : scan (accepted ctx) 0
      (accumulator ctx ++ List.replicate (size - ctx.rxLen) 0xFF) = none := by
    rw [hheld, List.append_assoc, List.replicate_append_replicate]
    exact padding_silent ctx r _ hr
  rw [hnone] at hout
  refine ⟨out'.ctx, hreach, hsame, ?_⟩
  rcases hout with ⟨-, ⟨-, -, hroom⟩ | ⟨-, hnil, -⟩⟩
  · omega
  · rw [← accumulator_length _ size hready, hnil]
    rfl

/-- From any state some calls lead to an accumulator that is empty, whatever it held. -/
theorem recv_recovers : ∃ (polls : List Poll) (ctx' : PaModbus σ),
    Reaches ctx (polls.map .recv) ctx' ∧ HearsSame ctx ctx' ∧ ctx'.rxLen = 0 := by
  obtain ⟨polls, c, hreach, hsame, hnone⟩ := frames_used_up ctx size h
  have hc := hreach.ready h
  obtain ⟨d, r, m, hreach', hsame', hr, hheld⟩ := filled_with_padding c size hc hnone
  have hd := hreach'.ready hc
  obtain ⟨e, hreach'', hsame'', hempty⟩ := padding_discarded d size hd r m hr hheld
  refine ⟨polls ++ [padding size c, padding size d], e, ?_, (hsame.trans hsame').trans hsame'', hempty⟩
  rw [List.map_append]
  exact hreach.trans (hreach'.trans hreach'')

theorem recvRaw_recovers (capacity : Nat) (hcap : size ≤ capacity + 3) :
    ∃ (polls : List Poll) (ctx' : PaModbus σ),
      Reaches ctx (polls.map fun poll => .recvRaw poll (some capacity)) ctx' ∧ ctx'.rxLen = 0 := by
  obtain ⟨hl, hfull⟩ := padding_fits ctx size h 0
  generalize List.replicate (size - ctx.rxLen) (0 : UInt8) = zeros at hl hfull
  obtain ⟨out, hrun, -, hout⟩ := recvRaw_leaves ctx size h zeros 0 capacity hl
  have hreach : Reaches ctx [.recvRaw ⟨0, some zeros⟩ (some capacity)] out.ctx :=
    Reaches.single hl hrun
  refine ⟨[⟨0, some zeros⟩], out.ctx, hreach, ?_⟩
  rw [← accumulator_length _ size (hreach.ready h)]
  cases hs : shortest crcValid 4 (accumulator ctx ++ zeros) with
  | none =>
    rw [hs] at hout
    rcases hout with ⟨-, ⟨-, -, hroom⟩ | ⟨-, hnil, -⟩⟩
    · omega
    · rw [hnil]
      rfl
  | some n =>
    have hn := (shortest_eq_some_iff.mp hs).1
    rw [hs] at hout
    dsimp only at hout
    rw [if_neg (by omega)] at hout
    rw [hout.2.1]
    rfl

theorem honest_polite (ops : List Op) (hops : Honest ctx ops) :
    Along step (fun ctx op => op.arriving.length ≤ offered ctx) ctx ops := by
  induction ops generalizing ctx with
  | nil => trivial
  | cons op ops ih =>
    obtain ⟨hl, hrest⟩ := hops
    obtain ⟨out, hrun, hready⟩ := op_ready ctx size h op hl
    rw [hrun] at hrest
    exact ⟨hl, out.ctx, by rw [step, hrun, Option.map_some], ih out.ctx hready hrest⟩

theorem idle_failures_end (ops : List Op)
    (hrun : Along step (fun ctx op => op.arriving = [] ∧ ¬ TooLong ctx op ∧
      ∃ out, op.run ctx = some out ∧ Fails op out) ctx ops) : ops.length ≤ ctx.rxLen := by
  have hnothing {ctx : PaModbus σ} {op : Op} (ha : op.arriving = []) :
      op.arriving.length ≤ offered ctx := by
    rw [ha]
    exact Nat.zero_le _
  refine Along.length_le (fun ctx : PaModbus σ => ctx.rxLen) (Along.mono h ?_ ?_ hrun)
  · exact fun ctx op ctx' h hp hstep => step_ready size ctx ctx' op h (hnothing hp.1) hstep
  · rintro ctx op h ⟨ha, hfits, out, hout, hfails⟩ ctx' hstep
    have hless := (shrinks_iff ctx size h op (hnothing ha)).mpr hfits out hout hfails
    rw [ha] at hless
    rw [step, hout, Option.map_some, Option.some.injEq] at hstep
    exact hstep ▸ hless

end

/-- A call that fails leaves less in the accumulator than it found there and
received, unless it has found a raw message that is too long for its buffer.
Without that the errors come to an end, and what is sent next is received. -/
theorem errors_shrink_iff (ctx : PaModbus σ) (size : Nat) (h : Ready size ctx) :
    (∀ ops, Honest ctx ops →
      (Along step Shrinks ctx ops ↔ Along step (fun ctx op => ¬ TooLong ctx op) ctx ops)) ∧
    (∀ ops, Along step (fun ctx op => op.arriving = [] ∧ ¬ TooLong ctx op ∧
      ∃ out, op.run ctx = some out ∧ Fails op out) ctx ops → ops.length ≤ ctx.rxLen) ∧
    (∀ data p n tick, unwrap ctx data = some (.ok p n) → data.length ≤ size →
      ∃ (polls : List Poll) (ctx' : PaModbus σ) (out : Outcome σ),
        Reaches ctx (polls.map .recv) ctx' ∧ data.length ≤ offered ctx' ∧
        paModbusRecv ctx' ⟨tick, some data⟩ = some out ∧
        out.dispatched = some (data.take (frameLength ctx p n))) ∧
    ∀ data tick capacity, First crcValid 4 data → data.length ≤ size → size ≤ capacity + 3 →
      ∃ (polls : List Poll) (ctx' : PaModbus σ) (out : Outcome σ),
        Reaches ctx (polls.map fun poll => .recvRaw poll (some capacity)) ctx' ∧
        data.length ≤ offered ctx' ∧
        paModbusRecvRaw ctx' ⟨tick, some data⟩ (some capacity) = some out ∧ out.ret = paOk ∧
        out.dispatched = some ((data.drop 1).take (data.length - 3)) := by
  have hoffered {ctx' : PaModbus σ} (h' : Ready size ctx') (hempty : ctx'.rxLen = 0) :
      offered ctx' = size ∧ accumulator ctx' = [] := by
    rw [offered_eq ctx' size h', accumulator, hempty]
    exact ⟨Nat.sub_zero size, List.take_zero⟩
  refine ⟨fun ops hops => ?_, idle_failures_end ctx size h, fun data p n tick hu hl => ?_,
    fun data tick capacity hfirst hl hcap => ?_⟩
  · exact Along.congr h (fun ctx op ctx' h hl => step_ready size ctx ctx' op h hl)
      (fun ctx op h hl => shrinks_iff ctx size h op hl) (honest_polite ctx size h ops hops)
  · obtain ⟨polls, ctx', hreach, hsame, hempty⟩ := recv_recovers ctx size h
    obtain ⟨hroom, hacc⟩ := hoffered (hreach.ready h) hempty
    obtain ⟨out, hrun, -, hout⟩ := recv_leaves ctx' size (hreach.ready h) data tick (by omega)
    have hne : data ≠ [] := by
      rintro rfl
      cases hf : ctx.framerType with
      | rtu => simp [unwrap_rtu ctx _ hf, paFramerRtuUnwrap] at hu
      | tcp => simp [unwrap_tcp ctx _ hf, paFramerTcpUnwrap] at hu
    rw [hacc, List.nil_append, hsame.accepted,
      scan_front 0 hne ((accepted_iff ctx data p n).mpr hu)] at hout
    refine ⟨polls, ctx', out, hreach, by omega, hrun, ?_⟩
    rw [hout.2, hsame.frameLength, List.drop_zero]
  · obtain ⟨polls, ctx', hreach, hempty⟩ := recvRaw_recovers ctx size h capacity hcap
    obtain ⟨hroom, hacc⟩ := hoffered (hreach.ready h) hempty
    obtain ⟨out, hrun, -, hout⟩ := recvRaw_leaves ctx' size (hreach.ready h) data tick capacity
      (by omega)
    have hfound := hfirst.shortest_append []
    rw [List.append_nil] at hfound
    rw [hacc, List.nil_append, hfound] at hout
    dsimp only at hout
    rw [if_neg (by omega)] at hout
    exact ⟨polls, ctx', out, hreach, by omega, hrun, hout.1, hout.2.2⟩

/-- Noise fills up the buffer of a slave and is dropped. -/
theorem noise_shrinks : Along step Shrinks (station .rtu 1 16 16 : PaModbus Unit)
    [.recv ⟨0, some (List.replicate 16 0xAA)⟩] :=
  ((errors_shrink_iff (station .rtu 1 16 16) 16 ⟨rfl, rfl, by decide, by decide⟩).1
    [.recv ⟨0, some (List.replicate 16 0xAA)⟩] ⟨by decide, trivial⟩).mpr ⟨id, _, rfl, trivial⟩

/-- A raw message of two bytes comes to a caller who has room for one. -/
theorem short_buffer_wedges : Ready 16 (station .rtu 1 16 16 : PaModbus Unit) ∧
    ¬ Shrinks (station .rtu 1 16 16 : PaModbus Unit)
      (.recvRaw ⟨0, some [0x01, 0x41, 0x42, 0x90, 0x61]⟩ (some 1)) :=
  ⟨⟨rfl, rfl, by decide, by decide⟩,
    fun hs => absurd (hs _ rfl ⟨by decide, by decide, by decide, fun _ => nofun⟩) (by decide)⟩

end Pamodbus.ReceiveErrors
