import Pamodbus.Receiver

namespace Pamodbus.BackToBack

open Pamodbus.Lib.Cells Pamodbus.Lib.Procedure Pamodbus.Lib.Scanner
open Pamodbus.Context Pamodbus.FramerRtu Pamodbus.Framer Pamodbus.ParseTotal
open Pamodbus.Recv Pamodbus.Receiver

variable {σ : Type}

def Whole (ctx : PaModbus σ) (frame : Bytes) : Prop :=
  ∃ n, unwrap ctx frame = some (.ok 1 n) ∧ n + 3 = frame.length

def functionCode (frame : Bytes) : UInt8 := frame[1]?.getD 0

def SelfDelimiting (frame : Bytes) : Prop :=
  match functionCode frame with
  | 0x11 =>
    let bc := (frame[2]?.getD 0).toNat
    0 < bc ∧ bc ≤ 250 ∧ frame.length = 3 + bc + 2
  | 0x14 | 0x15 => False
  | _ => True

def idle (tick : UInt32) : Poll := ⟨tick, some []⟩

/-- The calls before the last dispatch these frames in order, and the last one
waits with nothing in the accumulator. -/
def InOrder (ctx : PaModbus σ) (polls : List Poll) (frames : List Bytes) : Prop :=
  ∃ outs last ctx', recvRun ctx polls = some (outs ++ [last], ctx') ∧
    outs.map Outcome.dispatched = frames.map some ∧
    last.ret = paWait ∧ last.dispatched = none ∧ last.ctx.rxLen = 0

def frameLen (pdu : Nat × Nat) : Nat := pdu.2 + 3

theorem parsed_keeps {ctx ctx' : PaModbus σ} (h : Parsed ctx ctx') :
    ctx'.framerType = ctx.framerType ∧ ctx'.recvCb = ctx.recvCb ∧ accepted ctx' = accepted ctx := by
  obtain ⟨fc, result, request, rfl⟩ := h
  exact ⟨rfl, rfl, rfl⟩

theorem recv_extracts (ctx : PaModbus σ) (b : Buffer UInt8) (acc bytes m rest : Bytes)
    (t tick : UInt32) (hf : ctx.framerType = .rtu) (hc : ctx.recvCb = true)
    (hn : b.cells.length ≠ 0) (hb : acc.length + bytes.length ≤ b.cells.length)
    (hx : extract (accepted ctx) frameLen (acc ++ bytes) = some (m, rest)) :
    ∃ ret ctx' t', Parsed ctx ctx' ∧ paModbusRecv (holding ctx b acc t) ⟨tick, some bytes⟩ =
      some ⟨ret, holding ctx' (b.patch (acc ++ bytes)) rest t', some m⟩ := by
  rw [extract, Option.map_eq_some_iff] at hx
  obtain ⟨⟨start, p, n⟩, hs, he⟩ := hx
  rw [Prod.mk.injEq] at he
  obtain ⟨rfl, rfl⟩ := he
  have hbound := b.bounded
  have hall : (acc ++ bytes).length ≤ b.cells.length := by rwa [List.length_append]
  obtain ⟨hfit, ret, ctx', hfeed, -, hp⟩ := found_feeds ctx (acc ++ bytes) start p n (by omega) hs
  have hlen : frameLength ctx p n = frameLen (p, n) := by
    obtain ⟨pre, suf, hsplit, -, -, ha⟩ := scan_some hs
    obtain ⟨rfl, -, hl, -⟩ := rtu_frame_alone ctx suf p n hf ((accepted_iff ctx suf p n).mp ha)
    rw [hsplit, List.length_append] at hall
    exact frameLength_rtu ctx n hf (by omega)
  have hrecv := recv_holding ctx b acc bytes t tick hc hn hb
  rw [hs] at hrecv
  dsimp only at hrecv
  rw [hlen] at hfit hfeed hrecv
  rw [dispatch_holding ctx ctx' b (acc ++ bytes) _ _ start _ ret hall hfit hfeed] at hrecv
  exact ⟨ret, ctx', _, hp, hrecv⟩

theorem recv_finds_nothing (ctx : PaModbus σ) (b : Buffer UInt8) (acc : Bytes) (t tick : UInt32)
    (hc : ctx.recvCb = true) (hn : b.cells.length ≠ 0) (hb : acc.length ≤ b.cells.length)
    (hx : extract (accepted ctx) frameLen acc = none) :
    paModbusRecv (holding ctx b acc t) (idle tick) =
      some (keepWaiting (holding ctx b acc t) (if ctx.ticksCb then tick else 0)) := by
  rw [extract, Option.map_eq_none_iff] at hx
  have hrecv := recv_holding ctx b acc [] t tick hc hn (by simpa using hb)
  rw [List.append_nil, hx] at hrecv
  exact hrecv

theorem recv_empty_iff (ctx : PaModbus σ) (b : Buffer UInt8) (acc : Bytes) (t tick : UInt32)
    (hf : ctx.framerType = .rtu) (hc : ctx.recvCb = true) (hn : b.cells.length ≠ 0)
    (hb : acc.length ≤ b.cells.length) :
    (∃ out, paModbusRecv (holding ctx b acc t) (idle tick) = some out ∧
      out.ret = paWait ∧ out.dispatched = none ∧ out.ctx.rxLen = 0) ↔ acc = [] := by
  constructor
  · rintro ⟨out, ho, hret, hd, hlen⟩
    cases hx : extract (accepted ctx) frameLen acc with
    | some r =>
      rw [← List.append_nil acc] at hx
      obtain ⟨ret, ctx', t', -, hrun⟩ := recv_extracts ctx b acc [] r.1 r.2 t tick hf hc hn hb hx
      rw [idle, hrun, Option.some.injEq] at ho
      rw [← ho] at hd
      cases hd
    | none =>
      rw [recv_finds_nothing ctx b acc t tick hc hn hb hx, Option.some.injEq] at ho
      rw [← ho] at hret hlen
      rcases keepWaiting_cases (holding ctx b acc t) (if ctx.ticksCb then tick else 0)
        with hw | ⟨ret, hneg, hw⟩
      · rw [hw] at hlen
        exact List.length_eq_zero_iff.mp hlen
      · rw [hw] at hret
        dsimp only at hret
        rw [hret] at hneg
        exact absurd hneg (by decide)
  · rintro rfl
    refine ⟨_, recv_finds_nothing ctx b [] t tick hc hn (Nat.zero_le _) rfl, ?_⟩
    have hwait : keepWaiting (holding ctx b [] t) (if ctx.ticksCb then tick else 0) =
        ⟨paWait, holding ctx b [] t, none⟩ := by
      refine keepWaiting_waits _ _ ?_ fun _ hpos => absurd hpos (Nat.lt_irrefl 0)
      simp [holding]
      omega
    rw [hwait]
    exact ⟨rfl, rfl, rfl⟩

theorem recvRun_cons {ctx ctx' : PaModbus σ} {poll : Poll} {polls : List Poll} {out : Outcome σ}
    {outs : List (Outcome σ)} : recvRun ctx (poll :: polls) = some (out :: outs, ctx') ↔
      paModbusRecv ctx poll = some out ∧ recvRun out.ctx polls = some (outs, ctx') := by
  simp only [recvRun, Option.bind_eq_bind, Option.bind_eq_some_iff, Option.pure_def,
    Option.some.injEq, Prod.mk.injEq, List.cons.injEq]
  constructor
  · rintro ⟨out', ho, ⟨outs', ctx''⟩, hrun, ⟨rfl, rfl⟩, rfl⟩
    exact ⟨ho, hrun⟩
  · rintro ⟨ho, hrun⟩
    exact ⟨out, ho, (outs, ctx'), hrun, ⟨rfl, rfl⟩, rfl⟩

theorem recvRun_append {ctx ctx₁ ctx₂ : PaModbus σ} {polls polls' : List Poll}
    {outs outs' : List (Outcome σ)} (h : recvRun ctx polls = some (outs, ctx₁))
    (h' : recvRun ctx₁ polls' = some (outs', ctx₂)) :
    recvRun ctx (polls ++ polls') = some (outs ++ outs', ctx₂) := by
  induction polls generalizing ctx outs with
  | nil =>
    rw [recvRun, Option.some.injEq, Prod.mk.injEq] at h
    obtain ⟨rfl, rfl⟩ := h
    exact h'
  | cons poll polls ih =>
    cases outs with
    | nil => simp [recvRun, Option.bind_eq_some_iff] at h
    | cons out outs =>
      obtain ⟨ho, hrun⟩ := recvRun_cons.mp h
      exact recvRun_cons.mpr ⟨ho, ih hrun⟩

theorem recvRun_rest {ctx ctx₁ ctx₂ : PaModbus σ} {polls polls' : List Poll}
    {outs outs' : List (Outcome σ)} (h : recvRun ctx polls = some (outs, ctx₁))
    (h' : recvRun ctx (polls ++ polls') = some (outs', ctx₂)) :
    ∃ outs'', recvRun ctx₁ polls' = some (outs'', ctx₂) := by
  induction polls generalizing ctx outs outs' with
  | nil =>
    rw [recvRun, Option.some.injEq, Prod.mk.injEq] at h
    obtain ⟨rfl, rfl⟩ := h
    exact ⟨outs', h'⟩
  | cons poll polls ih =>
    cases outs with
    | nil => simp [recvRun, Option.bind_eq_some_iff] at h
    | cons out outs =>
      cases outs' with
      | nil => simp [recvRun, Option.bind_eq_some_iff] at h'
      | cons out' outs' =>
        obtain ⟨ho, hrun⟩ := recvRun_cons.mp h
        obtain ⟨ho', hrun'⟩ := recvRun_cons.mp h'
        rw [ho, Option.some.injEq] at ho'
        exact ih hrun (ho'.symm ▸ hrun')

theorem inOrder_nil_iff (ctx : PaModbus σ) (poll : Poll) :
    InOrder ctx [poll] [] ↔ ∃ out, paModbusRecv ctx poll = some out ∧
      out.ret = paWait ∧ out.dispatched = none ∧ out.ctx.rxLen = 0 := by
  constructor
  · rintro ⟨outs, last, ctx', hrun, hd, hlast⟩
    rw [List.map_eq_nil_iff.mp hd, List.nil_append, recvRun_cons] at hrun
    exact ⟨last, hrun.1, hlast⟩
  · rintro ⟨out, ho, hlast⟩
    exact ⟨[], out, out.ctx, recvRun_cons.mpr ⟨ho, rfl⟩, rfl, hlast⟩

theorem inOrder_cons_iff (ctx : PaModbus σ) (poll : Poll) (polls : List Poll) (frame : Bytes)
    (frames : List Bytes) :
    InOrder ctx (poll :: polls) (frame :: frames) ↔ ∃ out, paModbusRecv ctx poll = some out ∧
      out.dispatched = some frame ∧ InOrder out.ctx polls frames := by
  constructor
  · rintro ⟨outs, last, ctx', hrun, hd, hlast⟩
    cases outs with
    | nil => cases hd
    | cons out outs =>
      rw [List.cons_append, recvRun_cons] at hrun
      rw [List.map_cons, List.map_cons, List.cons.injEq] at hd
      exact ⟨out, hrun.1, hd.1, outs, last, ctx', hrun.2, hd.2, hlast⟩
  · rintro ⟨out, ho, hout, outs, last, ctx', hrun, hd, hlast⟩
    refine ⟨out :: outs, last, ctx', ?_, ?_, hlast⟩
    · rw [List.cons_append, recvRun_cons]
      exact ⟨ho, hrun⟩
    · rw [List.map_cons, List.map_cons, hout, hd]

/-- What calls without new bytes dispatch is what drains from those held. -/
theorem run_drains_iff (ctx : PaModbus σ) (b : Buffer UInt8) (acc : Bytes) (t : UInt32)
    (frames : List Bytes) (ticks : List UInt32) (hf : ctx.framerType = .rtu)
    (hc : ctx.recvCb = true) (hn : b.cells.length ≠ 0) (hb : acc.length ≤ b.cells.length)
    (hticks : ticks.length = frames.length + 1) :
    InOrder (holding ctx b acc t) (ticks.map idle) frames ↔
      Drains (accepted ctx) frameLen acc frames := by
  induction frames generalizing ctx b acc t ticks with
  | nil =>
    obtain ⟨tick, rfl⟩ := List.length_eq_one_iff.mp hticks
    rw [drains_nil_iff, ← recv_empty_iff ctx b acc t tick hf hc hn hb]
    exact inOrder_nil_iff _ _
  | cons frame frames ih =>
    obtain ⟨tick, ticks, rfl⟩ : ∃ tick ticks', ticks = tick :: ticks' :=
      List.exists_cons_of_length_eq_add_one hticks
    rw [List.length_cons, List.length_cons] at hticks
    rw [drains_cons_iff, List.map_cons, inOrder_cons_iff]
    cases hx : extract (accepted ctx) frameLen acc with
    | none =>
      refine iff_of_false ?_ (by simp)
      rintro ⟨out, ho, hd, -⟩
      rw [recv_finds_nothing ctx b acc t tick hc hn hb hx, Option.some.injEq] at ho
      rcases keepWaiting_cases (holding ctx b acc t) (if ctx.ticksCb then tick else 0)
        with hw | ⟨ret, -, hw⟩
      · rw [← ho, hw] at hd
        cases hd
      · rw [← ho, hw] at hd
        cases hd
    | some r =>
      obtain ⟨m, rest⟩ := r
      obtain ⟨k, v, -, -, -, hrest⟩ := extract_some hx
      rw [← List.append_nil acc] at hx
      obtain ⟨ret, ctx', t', hp, hrun⟩ := recv_extracts ctx b acc [] m rest t tick hf hc hn hb hx
      rw [List.append_nil] at hrun
      have hlen : rest.length ≤ (b.patch acc).cells.length := by
        rw [hrest, List.length_drop, Buffer.patch_cells, overlay_length]
        omega
      obtain ⟨hf', hc', hacc⟩ := parsed_keeps hp
      have ih := ih ctx' (b.patch acc) rest t' ticks (hf'.trans hf) (hc'.trans hc)
        (by simpa using hn) hlen (by omega)
      rw [hacc] at ih
      rw [idle, hrun]
      simp only [Option.some.injEq, Prod.mk.injEq]
      constructor
      · rintro ⟨out, rfl, hd, hrest⟩
        rw [Option.some.injEq] at hd
        exact ⟨rest, ⟨hd, rfl⟩, ih.mp hrest⟩
      · rintro ⟨rest', ⟨rfl, rfl⟩, hrest⟩
        exact ⟨_, rfl, rfl, ih.mpr hrest⟩

theorem expectedLen_append_iff (frame rest : Bytes) (h4 : 4 ≤ frame.length) (hrest : rest ≠ [])
    (he : expectedLen (functionCode frame) frame = some (.ok frame.length)) :
    expectedLen (functionCode frame) (frame ++ rest) = some (.ok frame.length) ↔
      SelfDelimiting frame := by
  have hpos := List.length_pos_iff.mpr hrest
  have hl : (frame ++ rest).length = frame.length + rest.length := List.length_append
  obtain ⟨b, hb⟩ := getElem?_some frame 2 (by omega)
  have hb' : (frame ++ rest)[2]? = some b := by rw [List.getElem?_append_left (by omega), hb]
  have hcell (i : Nat) (hi : i < frame.length) : (frame ++ rest)[i]? = frame[i]? :=
    List.getElem?_append_left hi
  rw [SelfDelimiting]
  generalize functionCode frame = fc at he ⊢
  unfold expectedLen at he ⊢
  split at he
  all_goals
    simp only [hb, Option.bind_eq_bind, Option.pure_def, Option.bind_some, Option.some.injEq,
      Except.ok.injEq] at he
    simp only [hl, hb, hb', Option.bind_eq_bind, Option.pure_def, Option.bind_some, Option.getD_some]
  all_goals grind

theorem whole_iff (ctx : PaModbus σ) (frame : Bytes) (hf : ctx.framerType = .rtu) :
    Whole ctx frame ↔ ∃ addr fc body, frame = rtuFrame addr (fc :: body) ∧
      expectedLen fc frame = some (.ok frame.length) ∧ accepts ctx addr = true := by
  rw [Whole]
  constructor
  · rintro ⟨n, hu, hn⟩
    rw [unwrap_rtu ctx _ hf] at hu
    obtain ⟨addr, fc, body, rest, hd, he, ha, -, rfl⟩ := (FramerRtu.unwrap_ok_iff _ _ _ _).mp hu
    rw [hn] at he
    have hl := congrArg List.length hd
    rw [List.length_append, rtuFrame_length, List.length_cons] at hl
    have hnil : rest = [] := List.length_eq_zero_iff.mp (by omega)
    rw [hnil, List.append_nil] at hd
    exact ⟨addr, fc, body, hd, he, ha⟩
  · rintro ⟨addr, fc, body, hd, he, ha⟩
    have hl : frame.length = body.length + 4 := by
      rw [hd]
      simp
    refine ⟨body.length + 1, ?_, hl.symm⟩
    rw [unwrap_rtu ctx _ hf]
    exact (FramerRtu.unwrap_ok_iff _ _ _ _).mpr
      ⟨addr, fc, body, [], by rw [hd, List.append_nil], hl ▸ he, ha, rfl, rfl⟩

theorem functionCode_frame (addr fc : UInt8) (body rest : Bytes) :
    functionCode (rtuFrame addr (fc :: body) ++ rest) = fc := by
  simp [functionCode, rtuFrame]

theorem front_found_iff (ctx : PaModbus σ) (frame rest : Bytes) (hf : ctx.framerType = .rtu)
    (hw : Whole ctx frame) (hrest : rest ≠ []) :
    (∃ b, accepted ctx (frame ++ rest) = some b ∧ frameLen b = frame.length) ↔
      SelfDelimiting frame := by
  obtain ⟨addr, fc, body, hd, he, ha⟩ := (whole_iff ctx frame hf).mp hw
  have hl : frame.length = body.length + 4 := by
    rw [hd]
    simp
  have hfc : functionCode frame = fc := by
    have h := functionCode_frame addr fc body []
    rwa [List.append_nil, ← hd] at h
  rw [← expectedLen_append_iff frame rest (by omega) hrest (by rw [hfc]; exact he), hfc]
  constructor
  · rintro ⟨⟨p, n⟩, hb, hn⟩
    have hu := (accepted_iff ctx _ p n).mp hb
    rw [unwrap_rtu ctx _ hf] at hu
    obtain ⟨addr', fc', body', rest', hd', he', -, -, rfl⟩ :=
      (FramerRtu.unwrap_ok_iff _ _ _ _).mp hu
    have hsame : fc = fc' := by
      rw [← functionCode_frame addr fc body rest, ← hd, hd', functionCode_frame]
    rw [hsame, ← hn]
    exact he'
  · intro h
    refine ⟨(1, body.length + 1), (accepted_iff ctx _ _ _).mpr ?_, hl.symm⟩
    rw [unwrap_rtu ctx _ hf]
    exact (FramerRtu.unwrap_ok_iff _ _ _ _).mpr
      ⟨addr, fc, body, rest, by rw [hd], hl ▸ h, ha, rfl, rfl⟩

theorem delimited_iff (ctx : PaModbus σ) (frames : List Bytes) (hf : ctx.framerType = .rtu)
    (hw : ∀ frame ∈ frames, Whole ctx frame) :
    Delimited (accepted ctx) frameLen frames ↔ ∀ frame ∈ frames.dropLast, SelfDelimiting frame := by
  induction frames with
  | nil => exact iff_of_true trivial (List.forall_mem_nil _)
  | cons frame frames ih =>
    have ih := ih fun frame hm => hw frame (List.mem_cons_of_mem _ hm)
    have hframe := hw frame (List.mem_cons_self ..)
    rw [Delimited, ih]
    cases frames with
    | nil =>
      obtain ⟨n, hu, hn⟩ := hframe
      refine iff_of_true ⟨⟨(1, n), ?_, hn⟩, List.forall_mem_nil _⟩ (List.forall_mem_nil _)
      rw [List.flatten_nil, List.append_nil]
      exact (accepted_iff ctx frame 1 n).mpr hu
    | cons next frames =>
      have hrest : (next :: frames).flatten ≠ [] := by
        obtain ⟨n, -, hn⟩ := hw next (List.mem_cons_of_mem _ (List.mem_cons_self ..))
        rw [List.flatten_cons]
        refine List.append_ne_nil_of_left_ne_nil ?_ _
        rw [← List.length_pos_iff]
        omega
      rw [front_found_iff ctx frame _ hf hframe hrest, List.dropLast_cons_cons, List.forall_mem_cons]

/-- Frames that arrive in one drain are dispatched in order and one by one
exactly when each but the last shows its own length. -/
theorem back_to_back_iff (ctx : PaModbus σ) (frames : List Bytes) (tick : UInt32)
    (ticks : List UInt32) (hf : ctx.framerType = .rtu) (hc : ctx.recvCb = true)
    (hn : ctx.rxbuf.cells.length ≠ 0) (hempty : ctx.rxLen = 0)
    (hw : ∀ frame ∈ frames, Whole ctx frame)
    (hroom : frames.flatten.length ≤ ctx.rxbuf.cells.length)
    (hticks : ticks.length = frames.length) :
    InOrder ctx (⟨tick, some frames.flatten⟩ :: ticks.map idle) frames ↔
      ∀ frame ∈ frames.dropLast, SelfDelimiting frame := by
  have hself : holding ctx ctx.rxbuf [] ctx.lastRxTick = ctx := by
    rw [holding_nil, ← hempty]
  -- the bytes may as well have been there before the first call
  obtain ⟨t, hfirst⟩ : ∃ t, paModbusRecv ctx ⟨tick, some frames.flatten⟩ =
      paModbusRecv (holding ctx ctx.rxbuf frames.flatten t) (idle tick) := by
    have hall := recv_holding ctx ctx.rxbuf [] frames.flatten ctx.lastRxTick tick hc hn
      (by simpa using hroom)
    rw [hself, List.nil_append] at hall
    dsimp only at hall
    generalize (if 0 < frames.flatten.length then (if ctx.ticksCb then tick else 0)
      else ctx.lastRxTick) = t at hall
    have hheld := recv_holding ctx ctx.rxbuf frames.flatten [] t tick hc hn (by simpa using hroom)
    rw [List.append_nil] at hheld
    dsimp only [List.length_nil] at hheld
    rw [if_neg (Nat.lt_irrefl 0)] at hheld
    exact ⟨t, hall.trans hheld.symm⟩
  have hne (frame : Bytes) (hm : frame ∈ frames) : frame ≠ [] := by
    obtain ⟨n, -, h3⟩ := hw frame hm
    rw [← List.length_pos_iff]
    omega
  have hlen (data : Bytes) (b : Nat × Nat) (hb : accepted ctx data = some b) :
      frameLen b ≤ data.length :=
    (rtu_frame_alone ctx data b.1 b.2 hf ((accepted_iff ctx data b.1 b.2).mp hb)).2.2.1
  rw [← delimited_iff ctx frames hf hw, ← drains_flatten_iff frames hne hlen,
    ← run_drains_iff ctx ctx.rxbuf frames.flatten t frames (tick :: ticks) hf hc hn hroom
      (by rw [List.length_cons, hticks])]
  cases frames with
  | nil =>
    obtain rfl : ticks = [] := List.length_eq_zero_iff.mp hticks
    rw [List.map_nil, List.map_singleton, inOrder_nil_iff, inOrder_nil_iff, hfirst]
  | cons frame frames => rw [List.map_cons, inOrder_cons_iff, inOrder_cons_iff, hfirst]

def slaveOne : PaModbus Unit := paModbusSetMode .slave (station .rtu 1 32 32)

def readThenWrite : List Bytes :=
  [[0x01, 0x03, 0x00, 0x00, 0x00, 0x03, 0x05, 0xCB], [0x01, 0x05, 0x00, 0x00, 0xFF, 0x00, 0x8C, 0x3A]]

theorem read_then_write_dispatched :
    InOrder slaveOne (⟨0, some readThenWrite.flatten⟩ :: [1, 2].map idle) readThenWrite := by
  refine (back_to_back_iff slaveOne readThenWrite 0 [1, 2] rfl rfl (by decide) rfl ?_ (by decide)
    rfl).mpr ?_
  · intro frame hm
    simp only [readThenWrite, List.mem_cons, List.not_mem_nil, or_false] at hm
    rcases hm with rfl | rfl
    · exact ⟨5, rfl, rfl⟩
    · exact ⟨5, rfl, rfl⟩
  · intro frame hm
    rw [List.mem_singleton.mp hm]
    trivial

/-- Two requests for the server id: together they are taken for one long frame,
with a wrong check value. -/
def twoReports : List Bytes := [[0x01, 0x11, 0xC0, 0x2C], [0x01, 0x11, 0xC0, 0x2C]]

theorem first_report_lost :
    (∀ frame ∈ twoReports, Whole slaveOne frame) ∧
      (recvRun slaveOne (⟨0, some twoReports.flatten⟩ :: [1, 2].map idle)).map
        (fun r => r.1.map fun o => (o.ret, o.dispatched)) =
          some [(paOk, some [0x01, 0x11, 0xC0, 0x2C]), (paWait, none), (paWait, none)] ∧
      ¬ InOrder slaveOne (⟨0, some twoReports.flatten⟩ :: [1, 2].map idle) twoReports := by
  have hrun : (recvRun slaveOne (⟨0, some twoReports.flatten⟩ :: [1, 2].map idle)).map
      (fun r => r.1.map fun o => (o.ret, o.dispatched)) =
        some [(paOk, some [0x01, 0x11, 0xC0, 0x2C]), (paWait, none), (paWait, none)] := rfl
  refine ⟨fun frame hm => ?_, hrun, ?_⟩
  · simp only [twoReports, List.mem_cons, List.not_mem_nil, or_false, or_self] at hm
    exact ⟨1, hm ▸ rfl, hm ▸ rfl⟩
  · rintro ⟨outs, last, ctx', hall, hd, -⟩
    rw [hall, Option.map_some, Option.some.injEq] at hrun
    obtain ⟨o₁, o₂, rfl⟩ : ∃ o₁ o₂, outs = [o₁, o₂] :=
      List.length_eq_two.mp (by simpa [twoReports] using congrArg List.length hd)
    have hsecond : o₂.dispatched = some [0x01, 0x11, 0xC0, 0x2C] :=
      (List.cons.inj (List.cons.inj hd).2).1
    have hnone : o₂.dispatched = none :=
      congrArg Prod.snd (List.cons.inj (List.cons.inj hrun).2).1
    rw [hsecond] at hnone
    cases hnone

end Pamodbus.BackToBack
