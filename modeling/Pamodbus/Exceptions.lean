import Pamodbus.ParseTotal
import Pamodbus.RespondRun

namespace Pamodbus.Exceptions

open Pamodbus.Lib.Cells Pamodbus.Lib.CInt Pamodbus.Lib.Procedure Pamodbus.Lib.Words
open Pamodbus.Context Pamodbus.Crc16 Pamodbus.FramerRtu Pamodbus.FramerTcp Pamodbus.Framer Pamodbus.Feed
open Pamodbus.SlaveParse Pamodbus.MasterParse Pamodbus.ParseTotal Pamodbus.Respond
open Pamodbus.RespondRun

variable {σ τ : Type}

def paModbusGetException (ctx : PaModbus σ) : UInt8 := ctx.result.lastException

/-- The data begins with a whole request that is addressed to the station. -/
def RequestFrame (ctx : PaModbus σ) (fc : UInt8) (data : Bytes) : Prop :=
  ∃ addr body rest, accepts ctx addr = true ∧
    match ctx.framerType with
    | .rtu => data = rtuFrame addr (fc :: body) ++ rest
    | .tcp => body.length + 2 < 2 ^ 16 ∧
        ∃ transId, data = mbapHeader transId (body.length + 1) addr ++ fc :: body ++ rest

/-- The exception goes out with the code of the request, and on the serial line
every master of the station gets it. -/
def ExceptionSent (fc code : UInt8) (w : World σ) : Prop :=
  ∃ ret w', (paModbusSlaveRespondError code).run w = some (ret, w') ∧ 0 < ret ∧
    sent w' = frame w [fc ||| 0x80, code] ∧
    (w.ctx.framerType = .rtu → ∀ {τ : Type} (peer : PaModbus τ), peer.framerType = .rtu →
      peer.slave = w.ctx.slave → ∃ peer', (paModbusMasterFeed (sent w')).run peer =
        some (paErrException, peer') ∧ paModbusGetException peer' = code)

/-- The codes that `pa_framer_rtu_unwrap` has a length for. -/
def framedCodes : List UInt8 :=
  [0x01, 0x02, 0x03, 0x04, 0x05, 0x06, 0x07, 0x08, 0x0B, 0x0C, 0x0F, 0x10, 0x11, 0x14, 0x15,
    0x16, 0x17, 0x18]

theorem expectedLen_unknown (fc : UInt8) (data : Bytes) (hfc : fc &&& 0x80 = 0)
    (h : fc ∉ framedCodes) : expectedLen fc data = some (.error paErrProtocol) := by
  unfold expectedLen
  split
  case h_19 => rw [if_neg (by simp [hfc])]
  all_goals exact absurd (by decide) h

theorem expectedLen_known (fc : UInt8) (data : Bytes) (hl : 4 ≤ data.length)
    (h : fc ∈ framedCodes) : expectedLen fc data ≠ some (.error paErrProtocol) := by
  obtain ⟨b, hb⟩ := getElem?_some data 2 (by omega)
  intro he
  unfold expectedLen at he
  split at he
  case h_19 =>
    simp only [framedCodes, List.mem_cons, List.not_mem_nil, or_false] at h
    tauto
  all_goals
    simp only [hb, Option.bind_eq_bind, Option.pure_def, Option.bind_some, Option.some.injEq,
      reduceCtorEq] at he
  all_goals grind

theorem parse_lastFunction (pdu : Bytes) (n : Nat) (fc : UInt8) (ctx ctx' : PaModbus σ) (r : Int)
    (h0 : pdu[0]? = some fc) (hn : 1 ≤ n)
    (h : (parseSlaveRequest pdu n).run ctx = some (r, ctx')) : ctx'.lastFunction = fc := by
  rw [parseSlaveRequest, if_neg (by omega), h0, access_some, pure_bind, modify_bind_run] at h
  split at h
  · obtain ⟨-, rfl⟩ := (pure_run_iff _ _ _ _).mp h
    rfl
  · rw [onRequest, focus_run, Option.map_eq_some_iff] at h
    obtain ⟨⟨r', req⟩, -, he⟩ := h
    obtain rfl := congrArg Prod.snd he
    rfl

theorem rtu_protocol (ctx : PaModbus σ) (data : Bytes) (fc : UInt8) (hl : 4 ≤ data.length)
    (h1 : data[1]? = some fc) (h : paFramerRtuUnwrap ctx data = some (.ret paErrProtocol)) :
    fc ∉ framedCodes := by
  intro hfc
  have hne := expectedLen_known fc data hl hfc
  obtain ⟨e, he⟩ := expectedLen_defined fc data hl
  have h4 : ¬ data.length < 4 := by omega
  simp only [paFramerRtuUnwrap, h1, he, h4, if_false, Option.bind_eq_bind, Option.bind_some,
    Option.pure_def] at h
  cases e with
  | error r =>
    simp only [Option.some.injEq, Unwrapped.ret.injEq] at h
    rw [he, h] at hne
    exact hne rfl
  | ok n =>
    have hg := expectedLen_ge fc data n hl he
    dsimp only at h
    split at h
    · simp only [Option.some.injEq, Unwrapped.ret.injEq, paErrProtocol] at h
      omega
    next hlen =>
      obtain ⟨lo, hlo⟩ := getElem?_some data (n - 2) (by omega)
      obtain ⟨hi, hhi⟩ := getElem?_some data (n - 1) (by omega)
      obtain ⟨a, ha⟩ := getElem?_some data 0 (by omega)
      simp only [hlo, hhi, ha, paCrc16_eq data (n - 2) (by omega), Option.bind_some] at h
      split at h
      · simp at h
      · split at h
        · simp at h
        · simp at h

theorem rtu_unframed (ctx : PaModbus σ) (data : Bytes) (fc : UInt8) (hl : 4 ≤ data.length)
    (h1 : data[1]? = some fc) (he : expectedLen fc data = some (.error paErrProtocol)) :
    paFramerRtuUnwrap ctx data = some (.ret paErrProtocol) := by
  have h4 : ¬ data.length < 4 := by omega
  simp only [paFramerRtuUnwrap, h1, he, h4, if_false, Option.bind_eq_bind, Option.bind_some,
    Option.pure_def]

theorem tcp_protocol (ctx : PaModbus σ) (data : Bytes) (h2 : data[2]? = some 0)
    (h3 : data[3]? = some 0) : paFramerTcpUnwrap ctx data ≠ some (.ret paErrProtocol) := by
  intro h
  unfold paFramerTcpUnwrap at h
  dsimp only at h
  split at h
  · simp only [Option.pure_def, Option.some.injEq, Unwrapped.ret.injEq, paErrProtocol] at h
    omega
  next h8 =>
    obtain ⟨b4, h4⟩ := getElem?_some data 4 (by omega)
    obtain ⟨b5, h5⟩ := getElem?_some data 5 (by omega)
    obtain ⟨b6, h6⟩ := getElem?_some data 6 (by omega)
    have hz : ¬ word 0 0 ≠ 0 := by decide
    simp only [h2, h3, h4, h5, h6, Option.bind_eq_bind, Option.bind_some, Option.pure_def,
      if_neg hz] at h
    split at h
    · simp only [Option.some.injEq, Unwrapped.ret.injEq, paErrProtocol] at h
      omega
    · split at h
      · simp at h
      · simp at h

/-- The code of the last request as the next exception will name it. -/
def knownAs (ctx : PaModbus σ) (fc : UInt8) : UInt8 :=
  if ctx.framerType = .rtu ∧ fc ∉ framedCodes then ctx.lastFunction else fc

theorem refused_protocol {ctx : PaModbus σ} {addr : Option UInt8} {r : Int}
    (h : Refused ctx addr r) (hr : r = paErrBadParam ∨ r = paErrProtocol) : r = paErrProtocol := by
  cases h with
  | incomplete r h =>
    rcases hr with rfl | rfl
    · exact absurd h (by decide)
    · rfl
  | protocol => rfl
  | crc => exact absurd hr (by decide)
  | slave a h ha => exact absurd hr (by decide)

/-- Whoever rejects a request, the parser or before it the framer, decides
whether its code is known. -/
theorem feed_rejected (ctx ctx' : PaModbus σ) (fc : UInt8) (data : Bytes) (r : Int)
    (hfc : fc &&& 0x80 = 0) (hdata : RequestFrame ctx fc data)
    (h : (paModbusSlaveFeed data).run ctx = some (r, ctx'))
    (hr : r = paErrBadParam ∨ r = paErrProtocol) :
    Parsed ctx ctx' ∧ ctx'.lastFunction = knownAs ctx fc := by
  obtain ⟨addr, body, rest, hacc, hframe⟩ := hdata
  obtain ⟨u, hu⟩ := Framer.unwrap_defined ctx data
  cases u with
  | ret r' =>
    rw [slaveFeed_ret ctx data r' hu, Option.some.injEq, Prod.mk.injEq] at h
    obtain ⟨rfl, rfl⟩ := h
    obtain rfl := refused_protocol (Framer.unwrap_refused ctx data _ hu) hr
    refine ⟨parsed_refl ctx, ?_⟩
    cases hf : ctx.framerType with
    | rtu =>
      rw [hf] at hframe
      subst hframe
      rw [unwrap_rtu ctx _ hf] at hu
      rw [knownAs, if_pos ⟨hf, rtu_protocol ctx _ fc (by simp; omega) rfl hu⟩]
    | tcp =>
      rw [hf] at hframe
      obtain ⟨-, transId, rfl⟩ := hframe
      rw [unwrap_tcp ctx _ hf] at hu
      exact absurd hu (tcp_protocol ctx _ rfl rfl)
  | ok p n =>
    rw [slaveFeed_ok ctx data p n hu] at h
    refine ⟨parseSlaveRequest_parsed _ _ _ _ _ h, ?_⟩
    cases hf : ctx.framerType with
    | rtu =>
      rw [hf] at hframe
      subst hframe
      rw [unwrap_rtu ctx _ hf] at hu
      have hknown : fc ∈ framedCodes := by
        by_contra hnot
        rw [rtu_unframed ctx _ fc (by simp; omega) rfl (expectedLen_unknown fc _ hfc hnot)] at hu
        cases hu
      obtain ⟨_, _, body', _, -, -, -, rfl, rfl⟩ := (FramerRtu.unwrap_ok_iff _ _ _ _).mp hu
      rw [knownAs, if_neg fun hk => hk.2 hknown]
      exact parse_lastFunction _ _ fc ctx ctx' r rfl (by omega) h
    | tcp =>
      rw [hf] at hframe
      obtain ⟨hb, transId, rfl⟩ := hframe
      rw [unwrap_tcp ctx _ hf] at hu
      obtain ⟨length, ha, rfl, rfl⟩ := (FramerTcp.unwrap_ok_iff _ _ _ _).mp hu
      rw [knownAs, if_neg (by simp [hf])]
      refine parse_lastFunction _ _ fc ctx ctx' r rfl ?_ h
      have hlen : length = UInt16.ofNat (body.length + 1 + 1) := by
        obtain ⟨h4, h5⟩ := ha.length_eq
        rw [← word_bytes length, ← Option.some.inj h4, ← Option.some.inj h5, word_bytes]
      have hnat : (length.toNat : Int) - 1 = ((body.length + 1 : Nat) : Int) := by
        rw [hlen, UInt16.toNat_ofNat']
        omega
      rw [hnat, sizeT_natCast _ (by omega)]
      omega

theorem plain_code (fc : UInt8) (h : fc ≤ 127) : fc &&& 0x80 = 0 := by
  have hlt : fc.toNat < 2 ^ 7 := Nat.lt_succ_of_le (UInt8.le_iff_toNat_le.mp h)
  apply UInt8.toNat_inj.mp
  rw [UInt8.toNat_and]
  change fc.toNat &&& 2 ^ 7 = 0
  rw [Nat.and_two_pow, Nat.testBit_lt_two_pow hlt]
  rfl

theorem exception_code (fc : UInt8) (h : fc ≤ 127) :
    (fc ||| 0x80) &&& 0x80 ≠ 0 ∧ (fc ||| 0x80) &&& 0x7F = fc := by
  have h0 : fc.toNat &&& 0x80 = 0 := by
    have hz := congrArg UInt8.toNat (plain_code fc h)
    rwa [UInt8.toNat_and] at hz
  have hself : fc.toNat &&& 0x7F = fc.toNat := by
    have hlt : fc.toNat < 2 ^ 7 := Nat.lt_succ_of_le (UInt8.le_iff_toNat_le.mp h)
    exact (Nat.and_two_pow_sub_one_eq_mod _ 7).trans (Nat.mod_eq_of_lt hlt)
  constructor
  · rw [ne_eq, ← UInt8.toNat_inj, UInt8.toNat_and, UInt8.toNat_or]
    change ¬ (fc.toNat ||| 0x80) &&& 0x80 = 0
    rw [Nat.and_or_distrib_right, h0]
    decide
  · rw [← UInt8.toNat_inj, UInt8.toNat_and, UInt8.toNat_or]
    change (fc.toNat ||| 0x80) &&& 0x7F = fc.toNat
    rw [Nat.and_or_distrib_right, hself]
    exact Nat.or_zero _

theorem exception_received_iff (fc code : UInt8) (peer : PaModbus τ)
    (hf : peer.framerType = .rtu) (hfc : 1 ≤ fc ∧ fc ≤ 127) :
    (∃ peer', (paModbusMasterFeed (rtuFrame peer.slave [fc ||| 0x80, code])).run peer =
        some (paErrException, peer') ∧ paModbusGetException peer' = code) ↔ fc ≤ 0x18 := by
  obtain ⟨hbit, hlow⟩ := exception_code fc hfc.2
  have he : expectedLen (fc ||| 0x80) (rtuFrame peer.slave [fc ||| 0x80, code]) =
      if fc ≤ 0x18 then some (.ok 5) else some (.error paErrProtocol) := by
    unfold expectedLen
    split
    case h_19 =>
      rw [hlow]
      by_cases h18 : fc ≤ 0x18
      · rw [if_pos ⟨hbit, hfc.1, h18⟩, if_pos h18]
      · rw [if_neg fun h => h18 h.2.2, if_neg h18]
    all_goals
      next heq => exact absurd (congrArg (· &&& 0x80) heq) hbit
  by_cases h18 : fc ≤ 0x18
  · rw [if_pos h18] at he
    refine iff_of_true ?_ h18
    have hu := unwrap_frame peer peer.slave (fc ||| 0x80) [code] he (accepts_self peer)
    rw [← unwrap_rtu peer _ hf] at hu
    rw [masterFeed_ok _ _ _ _ hu, parseMasterResponse, if_neg (by simp)]
    change ∃ peer', (access (some (fc ||| 0x80)) >>= _).run peer = _ ∧ _
    rw [access_some, pure_bind, modify_bind_run, if_pos hbit, if_neg (by simp)]
    exact ⟨_, rfl, rfl⟩
  · rw [if_neg h18] at he
    refine iff_of_false ?_ h18
    have hu : unwrap peer (rtuFrame peer.slave [fc ||| 0x80, code]) =
        some (.ret paErrProtocol) := by
      rw [unwrap_rtu peer _ hf]
      exact rtu_unframed peer _ _ (by simp) rfl he
    rintro ⟨peer', hfeed, -⟩
    rw [masterFeed_ret _ _ _ hu, Option.some.injEq, Prod.mk.injEq] at hfeed
    exact absurd hfeed.1 (by decide)

theorem respondError_fits (code : UInt8) (w : World σ)
    (h : 2 + overhead w.ctx.framerType ≤ w.ctx.txbuf.cells.length) :
    ∃ ret w', (paModbusSlaveRespondError code).run w = some (ret, w') ∧ 0 < ret ∧
      sent w' = frame w [w.ctx.lastFunction ||| 0x80, code] := by
  have hlen : [w.ctx.lastFunction ||| 0x80, code].length = 2 := rfl
  rw [respondError_run]
  refine ⟨_, _, emit_finish _ 2 w (by decide) (Nat.le_refl _) (by omega) h, by omega, ?_⟩
  refine sent_framed _ _ ?_
  rw [World.withTx_txbuf, Buffer.patch_cells, overlay_length]
  exact (frame_length w _).trans_le h

theorem respondError_full (code : UInt8) (w w' : World σ) (ret : Int)
    (hrun : (paModbusSlaveRespondError code).run w = some (ret, w')) (hret : 0 < ret) :
    2 + overhead w.ctx.framerType ≤ w.ctx.txbuf.cells.length := by
  by_contra h
  have hlen : [w.ctx.lastFunction ||| 0x80, code].length = 2 := rfl
  rw [respondError_run] at hrun
  by_cases h2 : [w.ctx.lastFunction ||| 0x80, code].length ≤ w.ctx.txbuf.cells.length
  · rw [reply, bind_defined _ _ _ _ _ (emit_run _ w h2), finish_full 2 _ (by decide) (by
      rw [World.withTx_txbuf, World.withTx_framerType, Buffer.patch_cells, overlay_length]
      omega), Option.some.injEq, Prod.mk.injEq] at hrun
    rw [← hrun.1] at hret
    exact absurd hret (by decide)
  · rw [reply, bind_undefined _ _ _ (emit_overrun _ w (by omega))] at hrun
    cases hrun

theorem exception_sent_iff (fc code : UInt8) (w : World σ) (hfc : 1 ≤ fc ∧ fc ≤ 127) :
    ExceptionSent fc code w ↔ 2 + overhead w.ctx.framerType ≤ w.ctx.txbuf.cells.length ∧
      w.ctx.lastFunction ||| 0x80 = fc ||| 0x80 ∧ (w.ctx.framerType = .rtu → fc ≤ 0x18) := by
  constructor
  · rintro ⟨ret, w', hrun, hret, hsent, hmaster⟩
    have hroom := respondError_full code w w' ret hrun hret
    obtain ⟨ret₁, w₁, hrun₁, -, hsent₁⟩ := respondError_fits code w hroom
    rw [hrun, Option.some.injEq, Prod.mk.injEq] at hrun₁
    rw [← hrun₁.2, hsent] at hsent₁
    refine ⟨hroom, (List.cons_eq_cons.mp (frame_injective w _ _ hsent₁)).1.symm, fun hf => ?_⟩
    obtain ⟨peer, hp, hid⟩ : ∃ peer : PaModbus Unit,
        peer.framerType = .rtu ∧ peer.slave = w.ctx.slave :=
      ⟨paModbusSetSlave w.ctx.slave paModbusInit, rfl, rfl⟩
    have hframe : sent w' = rtuFrame peer.slave [fc ||| 0x80, code] := by
      rw [hsent, frame, hf, hid]
    have hpeer := hmaster hf peer hp hid
    rw [hframe] at hpeer
    exact (exception_received_iff fc code peer hp hfc).mp hpeer
  · rintro ⟨hroom, hcode, hknown⟩
    obtain ⟨ret, w', hrun, hret, hsent⟩ := respondError_fits code w hroom
    rw [hcode] at hsent
    refine ⟨ret, w', hrun, hret, hsent, fun hf τ peer hp hid => ?_⟩
    have hframe : sent w' = rtuFrame peer.slave [fc ||| 0x80, code] := by
      rw [hsent, frame, hf, hid]
    rw [hframe]
    exact (exception_received_iff fc code peer hp hfc).mpr (hknown hf)

/-- On the serial line a code that the framer has rejected is not remembered, so the
exception names the code of the request before. -/
theorem rejected_request_answered_iff (fc code : UInt8) (data : Bytes) (w : World σ)
    (ctx' : PaModbus σ) (r : Int) (hfc : 1 ≤ fc ∧ fc ≤ 127) (hdata : RequestFrame w.ctx fc data)
    (hfeed : (paModbusSlaveFeed data).run w.ctx = some (r, ctx'))
    (hr : r = paErrBadParam ∨ r = paErrProtocol) :
    ExceptionSent fc code { w with ctx := ctx' } ↔
      2 + overhead w.ctx.framerType ≤ w.ctx.txbuf.cells.length ∧
        (w.ctx.framerType = .tcp ∨ fc ≤ 0x18 ∧
          (fc ∈ framedCodes ∨ w.ctx.lastFunction ||| 0x80 = fc ||| 0x80)) := by
  obtain ⟨hparsed, hlast⟩ := feed_rejected w.ctx ctx' fc data r (plain_code fc hfc.2) hdata hfeed hr
  rw [exception_sent_iff fc code _ hfc]
  dsimp only
  rw [hlast, knownAs]
  obtain ⟨_, _, _, rfl⟩ := hparsed
  dsimp only
  refine and_congr_right fun _ => ?_
  cases hf : w.ctx.framerType with
  | tcp => simp
  | rtu =>
    by_cases hk : fc ∈ framedCodes
    · simp [hk]
    · simp [hk, and_comm]

def slave : PaModbus Unit := station .rtu 1 64 64

def master : PaModbus Unit := station .rtu 1 64 64

/-- A request for no register at all. -/
theorem empty_read_answered :
    ExceptionSent 0x03 2 (⟨{ slave with lastFunction := 0x03 }, (), 0, []⟩ : World Unit) :=
  (rejected_request_answered_iff 0x03 2 (rtuFrame 1 [0x03, 0, 0, 0, 0]) ⟨slave, (), 0, []⟩
    { slave with lastFunction := 0x03 } paErrBadParam (by decide)
    ⟨1, [0, 0, 0, 0], [], rfl, rfl⟩ rfl (.inl rfl)).mpr ⟨by decide, .inr ⟨by decide, .inl (by decide)⟩⟩

/-- The exception for an unknown code names code 0, and the master cannot take it. -/
theorem unknown_code_misreported :
    RequestFrame slave 0x2B (rtuFrame 1 [0x2B, 0x0E, 1, 0]) ∧
      (paModbusSlaveFeed (rtuFrame 1 [0x2B, 0x0E, 1, 0])).run slave = some (paErrProtocol, slave) ∧
      (∃ w', (paModbusSlaveRespondError 1).run ⟨slave, (), 0, []⟩ = some (5, w') ∧
        sent w' = rtuFrame 1 [0x80, 1]) ∧
      (∃ peer', (paModbusMasterFeed (rtuFrame 1 [0x80, 1])).run master =
        some (paErrProtocol, peer')) ∧
      ¬ ExceptionSent 0x2B 1 (⟨slave, (), 0, []⟩ : World Unit) := by
  refine ⟨⟨1, [0x0E, 1, 0], [], rfl, rfl⟩, rfl, ⟨_, rfl, rfl⟩, ⟨_, rfl⟩, fun h => ?_⟩
  exact absurd ((exception_sent_iff 0x2B 1 _ (by decide)).mp h).2.1 (by decide)

end Pamodbus.Exceptions
