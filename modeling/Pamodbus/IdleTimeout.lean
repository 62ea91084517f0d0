import Pamodbus.Lib.Runs
import Pamodbus.CallEffects

namespace Pamodbus.IdleTimeout

open Pamodbus.Lib.Cells Pamodbus.Lib.Prefixes Pamodbus.Lib.Runs Pamodbus.Lib.Scanner
open Pamodbus.Context Pamodbus.ParseTotal
open Pamodbus.Recv Pamodbus.Receiver Pamodbus.RawScan Pamodbus.Accumulator

variable {σ : Type}

/-- The function that a poll calls, `capacity` as `paModbusRecvRaw` has it. -/
inductive Via
  | recv
  | recvRaw (capacity : Option Nat)
  deriving DecidableEq

structure Timed where
  time : Nat
  via : Via
  recv : Option Bytes

def Timed.tick (p : Timed) : UInt32 := UInt32.ofNat p.time

def Timed.op (p : Timed) : Op :=
  match p.via with
  | .recv => .recv ⟨p.tick, p.recv⟩
  | .recvRaw capacity => .recvRaw ⟨p.tick, p.recv⟩ capacity

def Asks (ctx : PaModbus σ) (p : Timed) : Prop :=
  ctx.recvCb = true ∧ ctx.rxbuf.cells.length ≠ 0 ∧ p.via ≠ .recvRaw none

instance (ctx : PaModbus σ) (p : Timed) : Decidable (Asks ctx p) :=
  inferInstanceAs (Decidable (_ ∧ _ ∧ _))

def heard (ctx : PaModbus σ) (p : Timed) : Bytes := if Asks ctx p then p.recv.getD [] else []

/-- A receiver with the times of its last poll, of the last one that appended bytes, and of the
last one that appended bytes or consumed a frame. -/
structure Timeline (σ : Type) where
  ctx : PaModbus σ
  time : Nat
  appended : Option Nat
  touched : Option Nat

def Timeline.begin (ctx : PaModbus σ) : Timeline σ := ⟨ctx, 0, none, none⟩

/-- When bytes were appended last, the poll `p` included. -/
def lastAppend (s : Timeline σ) (p : Timed) : Option Nat :=
  if heard s.ctx p = [] then s.appended else some p.time

/-- The same for `touched`, as long as `p` consumes no frame. -/
def lastTouch (s : Timeline σ) (p : Timed) : Option Nat :=
  if heard s.ctx p = [] then s.touched else some p.time

def step (s : Timeline σ) (p : Timed) : Option (Timeline σ) :=
  (p.op.run s.ctx).map fun out =>
    ⟨out.ctx, p.time, lastAppend s p,
      if out.dispatched = none then lastTouch s p else some p.time⟩

def OnTime (s : Timeline σ) (p : Timed) : Prop := s.time ≤ p.time

/-- No bytes have been appended for `idle` ticks. -/
def Quiet (idle : UInt32) (s : Timeline σ) (p : Timed) : Prop :=
  ∃ t, lastAppend s p = some t ∧ t + idle.toNat ≤ p.time

/-- Bytes are lost that were in no frame, and not because the accumulator is full. -/
def Forgets (ctx : PaModbus σ) (p : Timed) (out : Outcome σ) : Prop :=
  out.dispatched = none ∧ accumulator out.ctx ≠ accumulator ctx ++ heard ctx p ∧
    ¬ (out.ret = paErrBufferFull ∧
      ctx.rxbuf.cells.length ≤ (accumulator ctx ++ heard ctx p).length)

def Incomplete (ctx : PaModbus σ) : Via → Prop
  | .recv => ∀ data, data <:+ accumulator ctx → data ≠ [] → accepted ctx data = none
  | .recvRaw _ => ∀ n, 4 ≤ n → n ≤ (accumulator ctx).length →
      crcValid ((accumulator ctx).take n) = false

def NeverEarly (idle : UInt32) (s : Timeline σ) (p : Timed) : Prop :=
  ∀ out, p.op.run s.ctx = some out → out.ret = paErrTimeout ∨ Forgets s.ctx p out → Quiet idle s p

def NeverLate (idle : UInt32) (s : Timeline σ) (p : Timed) : Prop :=
  ∀ t ∈ s.touched, Asks s.ctx p → p.recv = some [] → accumulator s.ctx ≠ [] →
    (accumulator s.ctx).length < s.ctx.rxbuf.cells.length → Incomplete s.ctx p.via →
    idle.toNat ≤ p.time - t → p.time - t < 2 ^ 32 →
    ∃ out, p.op.run s.ctx = some out ∧ out.ret = paErrTimeout ∧ accumulator out.ctx = []

theorem elapsed_toNat (now last : Nat) (h : last ≤ now) :
    (UInt32.ofNat now - UInt32.ofNat last).toNat = (now - last) % 2 ^ 32 := by
  rw [UInt32.toNat_sub, UInt32.toNat_ofNat', UInt32.toNat_ofNat']
  omega

theorem elapsed_le (now last : Nat) (idle : UInt32) (h : last ≤ now)
    (hidle : idle ≤ UInt32.ofNat now - UInt32.ofNat last) : last + idle.toNat ≤ now := by
  have hle := UInt32.le_iff_toNat_le.mp hidle
  rw [elapsed_toNat now last h] at hle
  have hmod := Nat.mod_le (now - last) (2 ^ 32)
  omega

theorem elapsed_ge (now last : Nat) (idle : UInt32) (h : last ≤ now)
    (hidle : idle.toNat ≤ now - last) (hlt : now - last < 2 ^ 32) :
    idle ≤ UInt32.ofNat now - UInt32.ofNat last := by
  rw [UInt32.le_iff_toNat_le, elapsed_toNat now last h, Nat.mod_eq_of_lt hlt]
  exact hidle

/-- How a poll at `now` ends with the bytes `whole`, of which the last came at `last`. -/
inductive Ends (ctx : PaModbus σ) (whole : Bytes) (last now : UInt32) (out : Outcome σ) : Prop
  | waits (hret : out.ret ≠ paErrTimeout) (hnone : out.dispatched = none)
      (hctx : out.ctx = holding ctx ctx.rxbuf whole last)
  | overflows (hret : out.ret = paErrBufferFull) (hnone : out.dispatched = none)
      (hfull : ctx.rxbuf.cells.length ≤ whole.length)
      (hctx : out.ctx = holding ctx (ctx.rxbuf.patch whole) [] last)
  | expires (hret : out.ret = paErrTimeout) (hnone : out.dispatched = none) (hwhole : whole ≠ [])
      (hidle : ctx.idleTimeoutTicks ≤ now - last)
      (hctx : out.ctx = holding ctx (ctx.rxbuf.patch whole) [] last)
  | consumes (role : PaModbus σ) (rest : Bytes) (t : UInt32) (hret : out.ret ≠ paErrTimeout)
      (hsome : out.dispatched ≠ none) (hrole : Parsed ctx role) (hrest : rest.length ≤ whole.length)
      (ht : rest ≠ [] → t = now) (hctx : out.ctx = holding role (ctx.rxbuf.patch whole) rest t)

theorem keepWaiting_ends (ctx : PaModbus σ) (whole : Bytes) (last now : UInt32) :
    Ends ctx whole last now (keepWaiting (holding ctx ctx.rxbuf whole last) now) := by
  have hlen : (holding ctx ctx.rxbuf whole last).rxLen = whole.length := rfl
  have hsize : (holding ctx ctx.rxbuf whole last).rxbuf.cells.length = ctx.rxbuf.cells.length := by
    rw [holding, Buffer.patch_cells, overlay_length]
  rw [keepWaiting, hlen, hsize]
  split
  · next hfull => exact .overflows rfl rfl hfull.2 (holding_nil _ _ _).symm
  · split
    · next hexpired =>
      exact .expires rfl rfl (List.ne_nil_of_length_pos hexpired.2.1) hexpired.2.2
        (holding_nil _ _ _).symm
    · exact .waits (by decide : paWait ≠ paErrTimeout) rfl rfl

theorem recv_ends (ctx : PaModbus σ) (bytes : Bytes) (tick : UInt32) (hc : ctx.recvCb = true)
    (hn : ctx.rxbuf.cells.length ≠ 0) (hticks : ctx.ticksCb = true)
    (hfit : ctx.rxLen + bytes.length ≤ ctx.rxbuf.cells.length) (out : Outcome σ)
    (hrun : paModbusRecv ctx ⟨tick, some bytes⟩ = some out) :
    Ends ctx (accumulator ctx ++ bytes) (if 0 < bytes.length then tick else ctx.lastRxTick) tick
      out := by
  have hbound := ctx.rxbuf.bounded
  have hacc : (accumulator ctx).length = ctx.rxLen := List.length_take_of_le (by omega)
  have h := recv_own ctx bytes tick hc hn hfit
  rw [← hacc, ← List.length_append] at hfit
  rw [hrun, hticks] at h
  simp only [if_true] at h
  generalize (if 0 < bytes.length then tick else ctx.lastRxTick) = last at h ⊢
  cases hs : scan (accepted ctx) 0 (accumulator ctx ++ bytes) with
  | none =>
    rw [hs, Option.some.injEq] at h
    rw [h]
    exact keepWaiting_ends ctx _ last tick
  | some r =>
    obtain ⟨start, p, n⟩ := r
    obtain ⟨hend, ret, role, hfeed, hret, hrole⟩ := found_feeds ctx _ start p n (by omega) hs
    rw [hs] at h
    dsimp only at h
    rw [dispatch_holding ctx role ctx.rxbuf _ last tick start _ ret hfit hend hfeed,
      Option.some.injEq] at h
    rw [h]
    refine .consumes role _ _ hret (Option.some_ne_none _) hrole ?_ (fun hrest => ?_) rfl
    · rw [List.length_drop]
      exact Nat.sub_le _ _
    · exact if_pos (not_le.mp fun hle => hrest (List.drop_of_length_le hle))

theorem recvRaw_ends (ctx : PaModbus σ) (bytes : Bytes) (tick : UInt32) (capacity : Nat)
    (hc : ctx.recvCb = true) (hn : ctx.rxbuf.cells.length ≠ 0) (hticks : ctx.ticksCb = true)
    (hfit : ctx.rxLen + bytes.length ≤ ctx.rxbuf.cells.length) (out : Outcome σ)
    (hrun : paModbusRecvRaw ctx ⟨tick, some bytes⟩ (some capacity) = some out) :
    Ends ctx (accumulator ctx ++ bytes) (if 0 < bytes.length then tick else ctx.lastRxTick) tick
      out := by
  have h := recvRaw_own ctx bytes tick capacity hc hn hfit
  rw [hrun, hticks] at h
  simp only [if_true] at h
  generalize (if 0 < bytes.length then tick else ctx.lastRxTick) = last at h ⊢
  cases hs : shortest crcValid 4 (accumulator ctx ++ bytes) with
  | none =>
    rw [hs, Option.some.injEq] at h
    rw [h]
    exact keepWaiting_ends ctx _ last tick
  | some n =>
    rw [hs] at h
    dsimp only at h
    split at h
    · rw [Option.some.injEq] at h
      rw [h]
      exact .waits (by decide : paErrBufferFull ≠ paErrTimeout) rfl rfl
    · rw [Option.some.injEq] at h
      rw [h]
      exact .consumes ctx [] last (by decide : paOk ≠ paErrTimeout) (Option.some_ne_none _)
        (parsed_refl ctx) (Nat.zero_le _) (fun hne => absurd rfl hne) (holding_nil _ _ _).symm

theorem received_fits (ctx ctx' : PaModbus σ) (bytes : Bytes) (now : UInt32)
    (h : received ctx bytes now = some ctx') :
    ctx.rxLen + bytes.length ≤ ctx.rxbuf.cells.length := by
  by_contra hlong
  rw [received, Buffer.store_none _ _ _ (not_le.mp hlong)] at h
  cases h

/-- The tick of the last byte, the poll `p` included. -/
def lastTick (ctx : PaModbus σ) (p : Timed) : UInt32 :=
  if heard ctx p = [] then ctx.lastRxTick else p.tick

theorem poll_refused (ctx : PaModbus σ) (p : Timed) (h : ¬ (Asks ctx p ∧ p.recv ≠ none)) :
    heard ctx p = [] ∧
      ∃ ret, ret ≠ paErrTimeout ∧ p.op.run ctx = some ⟨ret, ctx, none⟩ := by
  obtain ⟨time, via, recv⟩ := p
  by_cases ha : Asks ctx ⟨time, via, recv⟩
  · obtain rfl : recv = none := by_contra fun hne => h ⟨ha, hne⟩
    obtain ⟨hc, hn, hvia⟩ := ha
    refine ⟨by rw [heard, if_pos ⟨hc, hn, hvia⟩]; rfl, paErrCallback, by decide, ?_⟩
    cases via with
    | recv => simp [Timed.op, Op.run, paModbusRecv, hc, hn]
    | recvRaw capacity =>
      cases capacity with
      | none => exact absurd rfl hvia
      | some capacity => simp [Timed.op, Op.run, paModbusRecvRaw, hc, hn]
  · refine ⟨if_neg ha, ?_⟩
    cases via with
    | recv =>
      have hcfg : ¬ ctx.recvCb = true ∨ ctx.rxbuf.cells.length = 0 := by
        by_contra hno
        exact ha ⟨not_not.mp fun hc => hno (.inl hc), fun hn => hno (.inr hn), by simp⟩
      exact ⟨paErrState, by decide, if_pos hcfg⟩
    | recvRaw capacity =>
      by_cases hc : ctx.recvCb = true
      · by_cases hn : ctx.rxbuf.cells.length = 0
        · exact ⟨paErrBadParam, by decide, by simp [Timed.op, Op.run, paModbusRecvRaw, hc, hn]⟩
        · cases capacity with
          | none =>
            exact ⟨paErrBadParam, by decide, by simp [Timed.op, Op.run, paModbusRecvRaw, hc, hn]⟩
          | some capacity => exact absurd ⟨hc, hn, by simp⟩ ha
      · exact ⟨paErrState, by decide, if_pos hc⟩

theorem poll_fits (ctx : PaModbus σ) (p : Timed) (bytes : Bytes) (ha : Asks ctx p)
    (hr : p.recv = some bytes) (out : Outcome σ) (hrun : p.op.run ctx = some out) :
    ctx.rxLen + bytes.length ≤ ctx.rxbuf.cells.length := by
  obtain ⟨time, via, recv⟩ := p
  obtain ⟨hc, hn, hvia⟩ := ha
  obtain rfl : recv = some bytes := hr
  cases via with
  | recv =>
    simp only [Timed.op, Op.run, paModbusRecv, hc, hn, Option.bind_eq_bind, not_true_eq_false,
      false_or, if_false, Option.bind_eq_some_iff] at hrun
    obtain ⟨ctx', hctx, -⟩ := hrun
    exact received_fits ctx ctx' bytes _ hctx
  | recvRaw capacity =>
    cases capacity with
    | none => exact absurd rfl hvia
    | some capacity =>
      simp only [Timed.op, Op.run, paModbusRecvRaw, hc, hn, Option.bind_eq_bind, not_true_eq_false,
        if_false, Option.bind_eq_some_iff] at hrun
      obtain ⟨ctx', hctx, -⟩ := hrun
      exact received_fits ctx ctx' bytes _ hctx

theorem poll_ends (ctx : PaModbus σ) (p : Timed) (hticks : ctx.ticksCb = true)
    (hheld : ctx.rxLen ≤ ctx.rxbuf.cells.length) (out : Outcome σ)
    (hrun : p.op.run ctx = some out) :
    (accumulator ctx ++ heard ctx p).length ≤ ctx.rxbuf.cells.length ∧
      Ends ctx (accumulator ctx ++ heard ctx p) (lastTick ctx p) p.tick out := by
  have hacc : (accumulator ctx).length = ctx.rxLen := List.length_take_of_le hheld
  by_cases h : Asks ctx p ∧ p.recv ≠ none
  · obtain ⟨ha, hne⟩ := h
    obtain ⟨bytes, hr⟩ := Option.ne_none_iff_exists'.mp hne
    have hfit := poll_fits ctx p bytes ha hr out hrun
    have hheard : heard ctx p = bytes := by rw [heard, if_pos ha, hr, Option.getD_some]
    have hlast : lastTick ctx p = if 0 < bytes.length then p.tick else ctx.lastRxTick := by
      rw [lastTick, hheard]
      cases bytes with
      | nil => rfl
      | cons b bytes => rfl
    rw [hlast, hheard, List.length_append, hacc]
    refine ⟨hfit, ?_⟩
    obtain ⟨time, via, recv⟩ := p
    obtain rfl : recv = some bytes := hr
    cases via with
    | recv => exact recv_ends ctx bytes _ ha.1 ha.2.1 hticks hfit out hrun
    | recvRaw capacity =>
      cases capacity with
      | none => exact absurd rfl ha.2.2
      | some capacity =>
        exact recvRaw_ends ctx bytes _ capacity ha.1 ha.2.1 hticks hfit out hrun
  · obtain ⟨hheard, ret, hret, hout⟩ := poll_refused ctx p h
    rw [hout, Option.some.injEq] at hrun
    have hlast : lastTick ctx p = ctx.lastRxTick := if_pos hheard
    rw [hlast, hheard, List.append_nil, hacc, ← hrun]
    exact ⟨hheld, .waits hret rfl (holding_self ctx hheld).symm⟩

/-- `last_rx_tick` shows when something came or went last, and that was no sooner than the
last byte came. -/
structure Dated (idle : UInt32) (s : Timeline σ) : Prop where
  ticks : s.ctx.ticksCb = true
  limit : s.ctx.idleTimeoutTicks = idle
  held : s.ctx.rxLen ≤ s.ctx.rxbuf.cells.length
  dates : s.ctx.rxLen ≠ 0 → ∃ a t, s.appended = some a ∧ s.touched = some t ∧ a ≤ t ∧
    t ≤ s.time ∧ s.ctx.lastRxTick = UInt32.ofNat t

variable {idle : UInt32} {s s' : Timeline σ} {p : Timed}

theorem begin_dated (ctx : PaModbus σ) (hticks : ctx.ticksCb = true)
    (hidle : ctx.idleTimeoutTicks = idle) (hempty : ctx.rxLen = 0) :
    Dated idle (Timeline.begin ctx) where
  ticks := hticks
  limit := hidle
  held := hempty.trans_le (Nat.zero_le _)
  dates := fun hne => absurd hempty hne

theorem Dated.whole (h : Dated idle s) (hp : OnTime s p)
    (hne : accumulator s.ctx ++ heard s.ctx p ≠ []) :
    ∃ a t, lastAppend s p = some a ∧ lastTouch s p = some t ∧ a ≤ t ∧ t ≤ p.time ∧
      lastTick s.ctx p = UInt32.ofNat t := by
  by_cases hh : heard s.ctx p = []
  · rw [hh, List.append_nil] at hne
    have hlen : s.ctx.rxLen ≠ 0 := fun hz => hne (by rw [accumulator, hz, List.take_zero])
    obtain ⟨a, t, ha, ht, hat, hts, hlast⟩ := h.dates hlen
    rw [lastAppend, lastTouch, lastTick, if_pos hh, if_pos hh, if_pos hh]
    exact ⟨a, t, ha, ht, hat, hts.trans hp, hlast⟩
  · rw [lastAppend, lastTouch, lastTick, if_neg hh, if_neg hh, if_neg hh]
    exact ⟨p.time, p.time, rfl, rfl, le_rfl, le_rfl, rfl⟩

/-- What a poll leaves is dated when the bytes left are. -/
theorem Dated.leaves (h : Dated idle s) {role : PaModbus σ} (hrole : Parsed s.ctx role)
    (b : Buffer UInt8) (rest : Bytes) (tick : UInt32) (time : Nat) (appended touched : Option Nat)
    (hb : b.cells.length = s.ctx.rxbuf.cells.length)
    (hrest : rest.length ≤ s.ctx.rxbuf.cells.length)
    (hdates : rest ≠ [] → ∃ a t, appended = some a ∧ touched = some t ∧ a ≤ t ∧ t ≤ time ∧
      tick = UInt32.ofNat t) :
    Dated idle ⟨holding role b rest tick, time, appended, touched⟩ := by
  obtain ⟨fc, result, request, rfl⟩ := hrole
  refine ⟨h.ticks, h.limit, ?_, fun hne => hdates ?_⟩
  case refine_2 => exact List.ne_nil_of_length_pos (Nat.pos_of_ne_zero hne)
  rw [holding, Buffer.patch_cells, overlay_length, hb]
  exact hrest

theorem step_dated (h : Dated idle s) (hp : OnTime s p) (hstep : step s p = some s') :
    Dated idle s' := by
  obtain ⟨out, hrun, rfl⟩ := Option.map_eq_some_iff.mp hstep
  obtain ⟨hfit, hends⟩ := poll_ends s.ctx p h.ticks h.held out hrun
  have hpatch (xs : Bytes) :
      (s.ctx.rxbuf.patch xs).cells.length = s.ctx.rxbuf.cells.length := overlay_length _ _
  cases hends with
  | waits hret hnone hctx =>
    rw [hctx, if_pos hnone]
    exact h.leaves (parsed_refl _) _ _ _ _ _ _ rfl hfit (h.whole hp)
  | overflows hret hnone hfull hctx =>
    rw [hctx]
    exact h.leaves (parsed_refl _) _ _ _ _ _ _ (hpatch _) (Nat.zero_le _) fun hne => absurd rfl hne
  | expires hret hnone hwhole hidle hctx =>
    rw [hctx]
    exact h.leaves (parsed_refl _) _ _ _ _ _ _ (hpatch _) (Nat.zero_le _) fun hne => absurd rfl hne
  | consumes role rest t hret hsome hrole hrest ht hctx =>
    rw [hctx, if_neg hsome]
    refine h.leaves hrole _ _ _ _ _ _ (hpatch _) (hrest.trans hfit) fun hne => ?_
    have hwhole : accumulator s.ctx ++ heard s.ctx p ≠ [] :=
      List.ne_nil_of_length_pos (Nat.lt_of_lt_of_le (List.length_pos_of_ne_nil hne) hrest)
    obtain ⟨a, t', ha, -, hat, htp, -⟩ := h.whole hp hwhole
    exact ⟨a, p.time, ha, rfl, hat.trans htp, le_rfl, ht hne⟩

theorem never_early (h : Dated idle s) (hp : OnTime s p) : NeverEarly idle s p := by
  intro out hrun hearly
  obtain ⟨hfit, hends⟩ := poll_ends s.ctx p h.ticks h.held out hrun
  cases hends with
  | waits hret hnone hctx =>
    rcases hearly with htimeout | ⟨-, hlost, -⟩
    · exact absurd htimeout hret
    · rw [hctx, holding_accumulator _ _ _ _ hfit] at hlost
      exact absurd rfl hlost
  | overflows hret hnone hfull hctx =>
    rcases hearly with htimeout | ⟨-, -, hroom⟩
    · exact absurd (hret.symm.trans htimeout) (by decide)
    · exact absurd ⟨hret, hfull⟩ hroom
  | expires hret hnone hwhole hidle hctx =>
    obtain ⟨a, t, ha, -, hat, htp, hlast⟩ := h.whole hp hwhole
    rw [hlast, h.limit] at hidle
    exact ⟨a, ha, (Nat.add_le_add_right hat _).trans (elapsed_le p.time t idle htp hidle)⟩
  | consumes role rest t hret hsome hrole hrest ht hctx =>
    rcases hearly with htimeout | ⟨hnone, -, -⟩
    · exact absurd htimeout hret
    · exact absurd hnone hsome

theorem keepWaiting_gives_up (ctx : PaModbus σ) (now : UInt32) (hticks : ctx.ticksCb = true)
    (hpos : 0 < ctx.rxLen) (hroom : ctx.rxLen < ctx.rxbuf.cells.length)
    (hidle : ctx.idleTimeoutTicks ≤ now - ctx.lastRxTick) :
    keepWaiting ctx now = ⟨paErrTimeout, { ctx with rxLen := 0 }, none⟩ := by
  rw [keepWaiting, if_neg fun hfull => absurd hfull.2 (not_le.mpr hroom),
    if_pos ⟨hticks, hpos, hidle⟩]

theorem silent_poll (ctx : PaModbus σ) (p : Timed) (ha : Asks ctx p) (hr : p.recv = some [])
    (hticks : ctx.ticksCb = true) (hheld : ctx.rxLen ≤ ctx.rxbuf.cells.length)
    (hpart : Incomplete ctx p.via) : p.op.run ctx = some (keepWaiting ctx p.tick) := by
  obtain ⟨time, via, recv⟩ := p
  obtain ⟨hc, hn, hvia⟩ := ha
  obtain rfl : recv = some [] := hr
  cases via with
  | recv =>
    have h := recv_own ctx [] (UInt32.ofNat time) hc hn hheld
    have hs : scan (accepted ctx) 0 (accumulator ctx) = none := (scan_none_iff 0 _).mpr hpart
    simp only [List.append_nil, hs, hticks, if_true, List.length_nil, Nat.lt_irrefl, if_false,
      holding_self ctx hheld] at h
    exact h
  | recvRaw capacity =>
    cases capacity with
    | none => exact absurd rfl hvia
    | some capacity =>
      have h := recvRaw_own ctx [] (UInt32.ofNat time) capacity hc hn hheld
      have hs : shortest crcValid 4 (accumulator ctx) = none := shortest_eq_none_iff.mpr hpart
      simp only [List.append_nil, hs, hticks, if_true, List.length_nil, Nat.lt_irrefl, if_false,
        holding_self ctx hheld] at h
      exact h

theorem never_late (h : Dated idle s) (hp : OnTime s p) : NeverLate idle s p := by
  intro t ht ha hr hne hroom hpart hidle hlt
  have hacc : (accumulator s.ctx).length = s.ctx.rxLen := List.length_take_of_le h.held
  have hpos := List.length_pos_of_ne_nil hne
  rw [hacc] at hroom hpos
  obtain ⟨-, t', -, ht', -, hts, hlast⟩ := h.dates hpos.ne'
  obtain rfl : t = t' := Option.some.inj (ht.symm.trans ht')
  refine ⟨_, silent_poll s.ctx p ha hr h.ticks h.held hpart, ?_⟩
  rw [keepWaiting_gives_up s.ctx p.tick h.ticks hpos hroom ?_]
  · exact ⟨rfl, rfl⟩
  · rw [h.limit, hlast]
    exact elapsed_ge p.time t idle (hts.trans hp) hidle hlt

/-- In every run that starts with nothing received, no poll gives up before `idle` ticks of the
true time are over since the last byte, and a poll that hears nothing gives up when they are over
since the last byte or frame, as long as fewer than 2³² have gone by. -/
theorem idle_timeout_exact (ctx : PaModbus σ) (idle : UInt32) (hticks : ctx.ticksCb = true)
    (hidle : ctx.idleTimeoutTicks = idle) (hempty : ctx.rxLen = 0) (polls : List Timed)
    (s : Timeline σ) (hrun : Along step OnTime (.begin ctx) polls)
    (hafter : after step (.begin ctx) polls = some s) (p : Timed) (hp : OnTime s p) :
    NeverEarly idle s p ∧ NeverLate idle s p := by
  have h : Dated idle s := Along.invariant (begin_dated ctx hticks hidle hempty)
    (fun s p s' h hp hstep => step_dated h hp hstep) hrun hafter
  exact ⟨never_early h hp, never_late h hp⟩

def shortOfWrap : Timed := ⟨4294967290, .recv, some [0x01, 0x03, 0x00]⟩

def silenceAfterWrap : Timed := ⟨4294967310, .recvRaw (some 8), some []⟩

def twentyTicks : PaModbus Unit :=
  paModbusSetTicksCb true (paModbusSetRxIdleTimeout 20 (station .rtu 1 16 16))

theorem silence_across_wrap :
    ∃ s, after step (.begin twentyTicks) [shortOfWrap] = some s ∧ NeverEarly 20 s silenceAfterWrap ∧
      ∃ out, silenceAfterWrap.op.run s.ctx = some out ∧ out.ret = paErrTimeout ∧
        accumulator out.ctx = [] := by
  obtain ⟨s, hs, htime, htouched, hasks, hheld, hsize⟩ :
      ∃ s, after step (.begin twentyTicks) [shortOfWrap] = some s ∧ s.time = 4294967290 ∧
        s.touched = some 4294967290 ∧ Asks s.ctx silenceAfterWrap ∧
        (accumulator s.ctx).length = 3 ∧ s.ctx.rxbuf.cells.length = 16 :=
    ⟨_, rfl, rfl, rfl, ⟨rfl, by decide, by decide⟩, rfl, rfl⟩
  have hlater : s.time ≤ silenceAfterWrap.time := by
    rw [htime]
    exact Nat.le_add_right 4294967290 20
  obtain ⟨hearly, hlate⟩ := idle_timeout_exact twentyTicks 20 rfl rfl rfl [shortOfWrap] s
    ⟨Nat.zero_le _, _, rfl, trivial⟩ hs silenceAfterWrap hlater
  refine ⟨s, hs, hearly, hlate _ htouched hasks rfl (List.ne_nil_of_length_pos (by omega))
    (by omega) (fun n h4 hn => by omega) ?_ ?_⟩
  · exact Nat.le_refl 20
  · simp [silenceAfterWrap]

end Pamodbus.IdleTimeout
