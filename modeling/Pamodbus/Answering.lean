import Pamodbus.History
import Pamodbus.RespondRun

namespace Pamodbus.Answering

open Pamodbus.Lib.Cells Pamodbus.Lib.CInt Pamodbus.Lib.Procedure Pamodbus.Lib.Hoare
open Pamodbus.Context Pamodbus.Crc16 Pamodbus.FramerRtu Pamodbus.FramerTcp Pamodbus.Framer
open Pamodbus.SlaveParse Pamodbus.SlaveAccept Pamodbus.Feed Pamodbus.Respond Pamodbus.RespondRun
open Pamodbus.History Pamodbus.Traversal

variable {σ τ : Type}

/-- What the frame of a response depends on besides the PDU. -/
def SameStation (w w' : World σ) : Prop :=
  SameConfig w.ctx w'.ctx ∧ w'.nextTransactionId = w.nextTransactionId

theorem stable_sameStation : Stable (SameStation : World σ → World σ → Prop) where
  refl w := ⟨sameConfig_refl w.ctx, rfl⟩
  trans _ _ _ h k := ⟨h.1.trans k.1, k.2.trans h.2⟩
  stored _ _ h := ⟨⟨rfl, rfl, rfl, rfl, h⟩, rfl⟩
  called w _ _ _ := ⟨sameConfig_refl w.ctx, rfl⟩

theorem SameStation.frame_eq {w w' : World σ} (h : SameStation w w') (pdu : Bytes) :
    frame w' pdu = frame w pdu := by
  rw [frame, frame, h.1.framerType, h.1.slave, h.2]

/-- The frame of some PDU, or an error that leaves the length alone. -/
def Frames (p : Proc (World σ) Int) : Prop :=
  ∀ w ret w', p.run w = some (ret, w') →
    ret < 0 ∧ w'.ctx.txLen = w.ctx.txLen ∨
      ∃ pdu, sent w' = frame w pdu ∧ ret = (frame w pdu).length

def SameFrame (w w' : World σ) : Prop := SameStation w w' ∧ w'.ctx.txLen = w.ctx.txLen

theorem stable_sameFrame : Stable (SameFrame : World σ → World σ → Prop) where
  refl w := ⟨stable_sameStation.refl w, rfl⟩
  trans u v w h k := ⟨stable_sameStation.trans u v w h.1 k.1, k.2.trans h.2⟩
  stored w b h := ⟨stable_sameStation.stored w b h, rfl⟩
  called w call ret app := ⟨stable_sameStation.called w call ret app, rfl⟩

theorem frames_finish (n : Nat) (hn : n + 7 < 2 ^ 31) : Frames (finish n : Proc (World σ) Int) := by
  intro w ret w' h
  by_cases hl : n + overhead w.ctx.framerType ≤ w.ctx.txbuf.cells.length
  · have hlen := frame_length w (w.ctx.txbuf.cells.take n)
    rw [List.length_take_of_le (by omega)] at hlen
    rw [finish_fits n w hn hl, Option.some.injEq, Prod.mk.injEq] at h
    obtain ⟨rfl, rfl⟩ := h
    exact .inr ⟨_, sent_framed _ _ (by omega), by rw [hlen]⟩
  · rw [finish_full n w hn (by omega), Option.some.injEq, Prod.mk.injEq] at h
    obtain ⟨rfl, rfl⟩ := h
    exact .inl ⟨by decide, rfl⟩

theorem frames_ending :
    Ending (fun _ p V => Yields SameFrame p V) (Frames : Proc (World σ) Int → Prop) where
  refuse ret h w r w' hrun := by
    obtain ⟨rfl, rfl⟩ := (pure_run_iff _ _ _ _).mp hrun
    exact .inl ⟨h, rfl⟩
  after hp hf w ret w' h := by
    obtain ⟨a, u, hu, h⟩ := bind_inv _ _ _ _ _ h
    obtain ⟨⟨hsame, hlen⟩, ha⟩ := hp w a u hu
    rw [← hlen, ← funext fun pdu => hsame.frame_eq pdu]
    exact hf a ha u ret w' h
  get_bind _ hf w := hf w w
  finish n _ hn := frames_finish n hn

inductive Answers (w w' : World σ) : Prop
  | respond (residue : Residue) (ret : Int) (hret : 0 < ret)
      (h : (paModbusSlaveRespond residue).run w = some (ret, w'))
  | respondError (code : UInt8) (ret : Int) (hret : 0 < ret)
      (h : (paModbusSlaveRespondError code).run w = some (ret, w'))

theorem answers_sent {w w' : World σ} (h : Answers w w') : ∃ pdu, sent w' = frame w pdu := by
  have hframes {p : Proc (World σ) Int} {ret : Int} (hp : Frames p) (hret : 0 < ret)
      (hrun : p.run w = some (ret, w')) : ∃ pdu, sent w' = frame w pdu := by
    rcases hp w ret w' hrun with ⟨hneg, -⟩ | ⟨pdu, hsent, -⟩
    · exact absurd hret (Int.not_lt.mpr (le_of_lt hneg))
    · exact ⟨pdu, hsent⟩
  cases h with
  | respond residue ret hret h =>
    exact hframes (frames_ending.ends_respond stable_sameFrame.closed residue) hret h
  | respondError code ret hret h =>
    exact hframes (frames_ending.ends_respondError stable_sameFrame.closed code) hret h

theorem frame_address (w : World σ) (pdu : Bytes) :
    (frame w pdu)[addressIndex w.ctx.framerType]? = some w.ctx.slave := by
  rw [frame]
  cases w.ctx.framerType with
  | rtu => rfl
  | tcp => rfl

theorem accepts_iff (ctx : PaModbus σ) (a : UInt8) :
    accepts ctx a = true ↔ ctx.slave = 0xFF ∨ a = ctx.slave ∨
      (ctx.discoveryAddr ≠ 0 ∧ a = ctx.discoveryAddr) := by
  simp only [accepts, Bool.not_eq_true', Bool.and_eq_false_iff, Bool.or_eq_false_iff,
    bne_eq_false_iff_eq, beq_eq_false_iff_ne]
  tauto

structure Configured (framer : Framer) (slave discoveryAddr : UInt8) (ctx : PaModbus σ) : Prop where
  framer : ctx.framerType = framer
  slave : ctx.slave = slave
  discoveryAddr : ctx.discoveryAddr = discoveryAddr

/-- What a slave answers to a request for `m` a master with the identifier `m`
does not refuse as somebody else's. -/
def AnswersTaken (σ τ : Type) (framer : Framer) (slave discoveryAddr m : UInt8) : Prop :=
  ∀ (ctx : PaModbus σ) (peer : PaModbus τ) (request : Bytes) (p n : Nat) (ret : Int)
    (w w' : World σ), Configured framer slave discoveryAddr ctx → Configured framer m 0 peer →
    request[addressIndex framer]? = some m → unwrap ctx request = some (.ok p n) →
    (paModbusSlaveFeed request).run ctx = some (ret, w.ctx) → Answers w w' →
    (∃ a, (sent w')[addressIndex framer]? = some a ∧ accepts peer a = true) ∧
      unwrap peer (sent w') ≠ some (.ret paErrInvalidSlave)

theorem unwrap_ok_accepts (ctx : PaModbus σ) (data : Bytes) (p n : Nat)
    (h : unwrap ctx data = some (.ok p n)) :
    ∃ a, data[addressIndex ctx.framerType]? = some a ∧ accepts ctx a = true := by
  cases hf : ctx.framerType with
  | rtu =>
    rw [unwrap_rtu ctx data hf] at h
    obtain ⟨addr, fc, body, rest, rfl, -, ha, -, -⟩ := (FramerRtu.unwrap_ok_iff _ _ _ _).mp h
    exact ⟨addr, rfl, ha⟩
  | tcp =>
    rw [unwrap_tcp ctx data hf] at h
    obtain ⟨length, hacc, -, -⟩ := (FramerTcp.unwrap_ok_iff _ _ _ _).mp h
    exact hacc.unit

theorem unwrap_taken (peer : PaModbus τ) (data : Bytes) (a : UInt8)
    (h : data[addressIndex peer.framerType]? = some a) (ha : accepts peer a = true) :
    unwrap peer data ≠ some (.ret paErrInvalidSlave) := by
  intro hu
  generalize hr : paErrInvalidSlave = r at hu
  cases unwrap_refused peer data r hu with
  | incomplete _ hpos =>
    rw [← hr] at hpos
    exact absurd hpos (by decide)
  | protocol => exact absurd hr (by decide)
  | crc => exact absurd hr (by decide)
  | slave b hb hacc =>
    rw [h, Option.some.injEq] at hb
    rw [← hb, ha] at hacc
    cases hacc

/-- The shortest request there is, addressed to `m`. Over TCP one more byte has
to follow for `unwrap` to take it. -/
def probe (framer : Framer) (m : UInt8) : Bytes :=
  match framer with
  | .rtu => rtuFrame m [0x11]
  | .tcp => mbapHeader 1 1 m ++ [0x11, 0]

theorem probe_address (framer : Framer) (m : UInt8) :
    (probe framer m)[addressIndex framer]? = some m := by
  cases framer with
  | rtu => rfl
  | tcp => rfl

theorem probe_unwrapped (framer : Framer) (m : UInt8) (ctx : PaModbus σ)
    (hf : ctx.framerType = framer) (ha : accepts ctx m = true) :
    ∃ p, unwrap ctx (probe framer m) = some (.ok p 1) ∧ ((probe framer m).drop p)[0]? = some 0x11 := by
  cases framer with
  | rtu =>
    rw [unwrap_rtu ctx _ hf]
    exact ⟨1, unwrap_frame ctx m 0x11 [] rfl ha, rfl⟩
  | tcp =>
    rw [unwrap_tcp ctx _ hf]
    refine ⟨7, (FramerTcp.unwrap_ok_iff _ _ _ _).mpr ⟨2, ⟨?_, ⟨rfl, rfl⟩, ?_, ⟨rfl, rfl⟩,
      m, rfl, ha⟩, rfl, rfl⟩, rfl⟩
    · simp [probe, mbapHeader]
    · simp [probe, mbapHeader]

theorem probe_fed (framer : Framer) (m : UInt8) (ctx : PaModbus σ)
    (hf : ctx.framerType = framer) (ha : accepts ctx m = true) :
    ∃ p ctx', unwrap ctx (probe framer m) = some (.ok p 1) ∧
      (paModbusSlaveFeed (probe framer m)).run ctx = some (paOk, ctx') := by
  obtain ⟨p, hu, h0⟩ := probe_unwrapped framer m ctx hf ha
  exact ⟨p, _, hu, by rw [slaveFeed_ok ctx _ p 1 hu, (parseSlaveRequest_accepts _ _ _ _).mpr
    ⟨le_rfl, 0x11, h0, by decide, _, rfl, rfl⟩]⟩

theorem answers_exist (w : World σ) (h : 2 + overhead w.ctx.framerType ≤ w.ctx.txbuf.cells.length) :
    ∃ w', Answers w w' := by
  have hl : [w.ctx.lastFunction ||| 0x80, 1].length ≤ w.ctx.txbuf.cells.length := by
    simp only [List.length_cons, List.length_nil]
    omega
  have hrun := emit_finish [w.ctx.lastFunction ||| 0x80, 1] 2 w (by decide) le_rfl hl h
  exact ⟨_, .respondError 1 _ (by omega) ((respondError_run 1 w).trans hrun)⟩

/-- A master takes the answer to its request exactly when it asked for the
slave's own identifier, or takes answers from everybody. -/
theorem answers_taken_iff [Inhabited σ] (framer : Framer) (slave discoveryAddr m : UInt8) :
    AnswersTaken σ τ framer slave discoveryAddr m ↔
      (slave = 0xFF ∨ m = slave ∨ (discoveryAddr ≠ 0 ∧ m = discoveryAddr) →
        m = 0xFF ∨ m = slave) := by
  constructor
  · intro h hacc
    let ctx : PaModbus σ := paModbusSetDiscoveryAddr discoveryAddr (station framer slave 16 16)
    obtain ⟨p, ctx', hu, hfeed⟩ := probe_fed framer m ctx rfl ((accepts_iff ctx m).mpr hacc)
    have hsame := slaveFeed_sameConfig _ _ _ _ hfeed
    let w : World σ := ⟨ctx', default, 1, []⟩
    have hroom : 2 + overhead w.ctx.framerType ≤ w.ctx.txbuf.cells.length := by
      have hl : ctx.txbuf.cells.length = 16 := List.length_replicate
      have ho : overhead w.ctx.framerType ≤ 7 := by
        cases w.ctx.framerType with
        | rtu => decide
        | tcp => decide
      rw [hsame.txSize, hl]
      omega
    obtain ⟨w', hans⟩ := answers_exist w hroom
    obtain ⟨⟨a, haddr, htaken⟩, -⟩ := h ctx (station framer m 16 16) _ p 1 paOk w w'
      ⟨rfl, rfl, rfl⟩ ⟨rfl, rfl, rfl⟩ (probe_address framer m) hu hfeed hans
    obtain ⟨pdu, hsent⟩ := answers_sent hans
    have hown : (frame w pdu)[addressIndex framer]? = some slave := by
      have haddress := frame_address w pdu
      rw [hsame.framerType, hsame.slave] at haddress
      exact haddress
    rw [hsent, hown, Option.some.injEq] at haddr
    subst haddr
    rcases (accepts_iff _ _).mp htaken with hm | hm | hm
    · exact .inl hm
    · exact .inr hm.symm
    · exact absurd rfl hm.1
  · intro h ctx peer request p n ret w w' hctx hpeer hm hu hfeed hans
    have hsame := slaveFeed_sameConfig _ _ _ _ hfeed
    obtain ⟨pdu, hsent⟩ := answers_sent hans
    have hown := frame_address w pdu
    rw [hsame.framerType, hctx.framer, hsame.slave, hctx.slave, ← hsent] at hown
    obtain ⟨m', hm', hacc⟩ := unwrap_ok_accepts ctx request p n hu
    rw [hctx.framer, hm, Option.some.injEq] at hm'
    subst hm'
    rw [accepts_iff, hctx.slave, hctx.discoveryAddr] at hacc
    have htaken : accepts peer slave = true := by
      rw [accepts_iff, hpeer.slave]
      exact (h hacc).imp_right fun hm => .inl hm.symm
    refine ⟨⟨slave, hown, htaken⟩, unwrap_taken peer _ slave ?_ htaken⟩
    rw [hpeer.framer]
    exact hown

/-- A slave that responds to everybody does not reach a master with an identifier. -/
theorem answer_of_any_refused :
    (∃ w', (paModbusSlaveRespondError 2).run
        (⟨{ station .rtu 0xFF 16 16 with lastFunction := 0x03 }, (), 1, []⟩ : World Unit) =
          some (5, w') ∧ sent w' = rtuFrame 0xFF [0x83, 2] ∧
        unwrap (station .rtu 1 16 16 : PaModbus Unit) (sent w') = some (.ret paErrInvalidSlave)) ∧
      ¬ AnswersTaken Unit Unit .rtu 0xFF 0 1 := by
  refine ⟨⟨_, rfl, rfl, rfl⟩, fun h => ?_⟩
  obtain ⟨ctx', hfeed, hrun⟩ : ∃ ctx', (paModbusSlaveFeed (probe .rtu 1)).run
      (station .rtu 0xFF 16 16 : PaModbus Unit) = some (paOk, ctx') ∧ ∃ w',
        (paModbusSlaveRespondError 1).run (⟨ctx', (), 1, []⟩ : World Unit) = some (5, w') ∧
        unwrap (station .rtu 1 16 16 : PaModbus Unit) (sent w') = some (.ret paErrInvalidSlave) :=
    ⟨_, rfl, _, rfl, rfl⟩
  obtain ⟨w', hrun, hrefused⟩ := hrun
  exact (h (station .rtu 0xFF 16 16) (station .rtu 1 16 16) (probe .rtu 1) 1 1 paOk
    ⟨ctx', (), 1, []⟩ w' ⟨rfl, rfl, rfl⟩ ⟨rfl, rfl, rfl⟩ rfl rfl hfeed
    (.respondError 1 5 (by decide) hrun)).2 hrefused

end Pamodbus.Answering
