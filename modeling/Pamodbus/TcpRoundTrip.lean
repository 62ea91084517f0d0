import Pamodbus.FramerTcp

namespace Pamodbus.TcpRoundTrip

open Pamodbus.Lib.Cells Pamodbus.Lib.CInt Pamodbus.Lib.Procedure Pamodbus.Lib.Words
open Pamodbus.Context Pamodbus.FramerRtu Pamodbus.FramerTcp

variable {σ τ : Type}

/-- The peer gets back exactly the PDU out of the framed bytes. -/
def Recovers (peer : PaModbus τ) (bytes pdu : Bytes) : Prop :=
  ∃ off, paFramerTcpUnwrap peer bytes = some (.ok off pdu.length) ∧
    (bytes.drop off).take pdu.length = pdu

theorem wrap_undefined (n : Nat) (w : World σ) (h : 2 ^ 31 ≤ n + 7) :
    (paFramerTcpWrap n).run w = none := by
  have hn : intExpr (7 + (n : Int)) = none := if_neg (by omega)
  simp only [paFramerTcpWrap, StateT.run_bind, StateT.run_get, access_run, hn, Option.map_none,
    Option.pure_def, Option.bind_eq_bind, Option.bind_some, Option.bind_none]

theorem wrap_inv (n : Nat) (w w' : World σ) (framed : Int)
    (h : (paFramerTcpWrap n).run w = some (.ok framed, w')) :
    n + 7 < 2 ^ 31 ∧ n + 7 ≤ w.ctx.txbuf.cells.length ∧ framed = (n + 7 : Nat) ∧
      w'.ctx.txbuf = w.ctx.txbuf.patch
        (mbapHeader w.nextTransactionId n w.ctx.slave ++ w.ctx.txbuf.cells.take n) := by
  by_cases hi : n + 7 < 2 ^ 31
  · by_cases hl : n + 7 ≤ w.ctx.txbuf.cells.length
    · rw [wrap_fits n w hi hl, Option.some.injEq, Prod.mk.injEq, Except.ok.injEq] at h
      obtain ⟨rfl, rfl⟩ := h
      exact ⟨hi, hl, rfl, rfl⟩
    · rw [wrap_full n w hi (by omega)] at h
      simp at h
  · rw [wrap_undefined n w (by omega)] at h
    cases h

/-- The receiver counts the unit id twice, so it never takes a framed PDU:
either one byte is missing, or the 16-bit length field has wrapped around. -/
theorem unwrap_header (peer : PaModbus τ) (transId : UInt16) (unit : UInt8) (pdu : Bytes)
    (h : pdu.length < 2 ^ 31) : ¬ Recovers peer (mbapHeader transId pdu.length unit ++ pdu) pdu := by
  rintro ⟨off, ho, -⟩
  obtain ⟨length, ha, -, hn⟩ := (FramerTcp.unwrap_ok_iff _ _ _ _).mp ho
  have hlen : length = UInt16.ofNat (pdu.length + 1) := by
    obtain ⟨h4, h5⟩ := ha.length_eq
    simp only [mbapHeader, List.cons_append, List.getElem?_cons_succ, List.getElem?_cons_zero,
      Option.some.injEq] at h4 h5
    rw [← word_bytes length, ← h4, ← h5, word_bytes]
  have htotal := ha.total
  have hheader : (mbapHeader transId pdu.length unit).length = 7 := rfl
  rw [List.length_append, hheader] at htotal
  by_cases hz : length.toNat = 0
  · have hw : sizeT ((length.toNat : Int) - 1) = 2 ^ 64 - 1 := by
      rw [hz]
      decide
    omega
  · have hw : sizeT ((length.toNat : Int) - 1) = length.toNat - 1 := by
      have hlt := length.toNat_lt
      have hcast : (length.toNat : Int) - 1 = ((length.toNat - 1 : Nat) : Int) := by omega
      rw [hcast, sizeT_natCast _ (by omega)]
    omega

/-- No PDU survives framing and unframing, whatever its bytes, the unit id, the
transaction counter and the receiving context. -/
theorem tcp_frame_never_recovered (w w' : World σ) (peer : PaModbus τ) (pdu rest : Bytes)
    (framed : Int) (hbuf : w.ctx.txbuf.cells = pdu ++ rest)
    (hw : (paFramerTcpWrap pdu.length).run w = some (.ok framed, w')) :
    ¬ Recovers peer (w'.ctx.txbuf.cells.take framed.toNat) pdu := by
  obtain ⟨hi, hl, rfl, htx⟩ := wrap_inv _ _ _ _ hw
  have hp : w.ctx.txbuf.cells.take pdu.length = pdu := by rw [hbuf, List.take_left]
  have hlen : (mbapHeader w.nextTransactionId pdu.length w.ctx.slave ++ pdu).length =
      pdu.length + 7 := by
    rw [List.length_append, Nat.add_comm]
    rfl
  have ht := overlay_take_self w.ctx.txbuf.cells _ (by rw [hlen]; exact hl)
  rw [hlen] at ht
  rw [htx, hp, Buffer.patch_cells, Int.toNat_natCast, ht]
  exact unwrap_header peer _ _ pdu (by omega)

def requestWorld : World Unit :=
  let ctx := station .tcp 1 16 16
  ⟨{ ctx with txbuf := ctx.txbuf.patch [0x03, 0x00, 0x00, 0x00, 0x03] }, (), 1, []⟩

theorem tcp_request_never_recovered :
    ∃ w', (paFramerTcpWrap 5).run requestWorld = some (.ok 12, w') ∧
      ¬ Recovers requestWorld.ctx (w'.ctx.txbuf.cells.take 12) [0x03, 0x00, 0x00, 0x00, 0x03] :=
  ⟨_, rfl, tcp_frame_never_recovered requestWorld _ requestWorld.ctx
    [0x03, 0x00, 0x00, 0x00, 0x03] (List.replicate 11 0) 12 rfl rfl⟩

/-- Framed as twelve bytes, the request makes its peer wait for a thirteenth. -/
theorem tcp_request_incomplete :
    ∃ w', (paFramerTcpWrap 5).run requestWorld = some (.ok 12, w') ∧
      paFramerTcpUnwrap requestWorld.ctx (w'.ctx.txbuf.cells.take 12) = some (.ret 1) ∧
      ¬ Recovers requestWorld.ctx (w'.ctx.txbuf.cells.take 12)
        [0x03, 0x00, 0x00, 0x00, 0x03] := by
  refine ⟨_, rfl, rfl, ?_⟩
  rintro ⟨off, ho, -⟩
  change some (Unwrapped.ret 1) = some (Unwrapped.ok off 5) at ho
  cases ho

end Pamodbus.TcpRoundTrip
