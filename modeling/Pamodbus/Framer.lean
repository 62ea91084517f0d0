import Pamodbus.FramerTcp

namespace Pamodbus.Framer

open Pamodbus.Lib.Cells Pamodbus.Lib.CInt Pamodbus.Lib.Procedure
open Pamodbus.Context Pamodbus.FramerRtu Pamodbus.FramerTcp

variable {σ : Type}

/-- `ctx->framer->wrap`. -/
def wrap (pduLen : Int) : Proc (World σ) (Except Int Int) := do
  match (← get).ctx.framerType with
  | .rtu => paFramerRtuWrap pduLen
  | .tcp => paFramerTcpWrap pduLen

/-- `ctx->framer->unwrap`. -/
def unwrap (ctx : PaModbus σ) (data : Bytes) : Option Unwrapped :=
  match ctx.framerType with
  | .rtu => paFramerRtuUnwrap ctx data
  | .tcp => paFramerTcpUnwrap ctx data

def addressIndex : Framer → Nat
  | .rtu => 0
  | .tcp => 6

theorem unwrap_rtu (ctx : PaModbus σ) (data : Bytes) (hf : ctx.framerType = .rtu) :
    unwrap ctx data = paFramerRtuUnwrap ctx data := by
  rw [unwrap, hf]

theorem unwrap_tcp (ctx : PaModbus σ) (data : Bytes) (hf : ctx.framerType = .tcp) :
    unwrap ctx data = paFramerTcpUnwrap ctx data := by
  rw [unwrap, hf]

theorem unwrap_verdict (ctx : PaModbus σ) (data : Bytes) :
    (∃ p n, unwrap ctx data = some (.ok p n)) ∨
      ∃ r, unwrap ctx data = some (.ret r) ∧
        Refused ctx data[addressIndex ctx.framerType]? r := by
  cases hf : ctx.framerType with
  | rtu =>
    rw [unwrap_rtu ctx data hf]
    exact FramerRtu.unwrap_verdict ctx data
  | tcp =>
    rw [unwrap_tcp ctx data hf]
    exact FramerTcp.unwrap_verdict ctx data

theorem unwrap_refused (ctx : PaModbus σ) (data : Bytes) (r : Int)
    (h : unwrap ctx data = some (.ret r)) : Refused ctx data[addressIndex ctx.framerType]? r := by
  rcases unwrap_verdict ctx data with ⟨p, n, hu⟩ | ⟨r', hu, hr⟩
  · rw [hu] at h
    cases h
  · rw [hu, Option.some.injEq, Unwrapped.ret.injEq] at h
    exact h ▸ hr

theorem unwrap_ret_ne (ctx : PaModbus σ) (data : Bytes) (r : Int)
    (h : unwrap ctx data = some (.ret r)) : r ≠ 0 := (unwrap_refused ctx data r h).ne_zero

theorem unwrap_defined (ctx : PaModbus σ) (data : Bytes) : ∃ u, unwrap ctx data = some u := by
  rcases unwrap_verdict ctx data with ⟨p, n, hu⟩ | ⟨r, hu, -⟩
  · exact ⟨_, hu⟩
  · exact ⟨_, hu⟩

/-- How every build function ends: wrap the PDU and record the framed length. -/
def finish (pduLen : Int) : Proc (World σ) Int := do
  match ← wrap pduLen with
  | .ok framed =>
    modify fun w => { w with ctx := { w.ctx with txLen := sizeT framed } }
    return framed
  | .error ret => return ret

def overhead : Framer → Nat
  | .rtu => 3
  | .tcp => 7

theorem overhead_le (framer : Context.Framer) : overhead framer ≤ 7 := by
  cases framer with
  | rtu => decide
  | tcp => decide

theorem overhead_ge (framer : Context.Framer) : 3 ≤ overhead framer := by
  cases framer with
  | rtu => decide
  | tcp => decide

/-- The frame that `wrap` makes of a PDU. -/
def frame (w : World σ) (pdu : Bytes) : Bytes :=
  match w.ctx.framerType with
  | .rtu => rtuFrame w.ctx.slave pdu
  | .tcp => mbapHeader w.nextTransactionId pdu.length w.ctx.slave ++ pdu

/-- The world in which `xs` is the last frame built. -/
def framed (w : World σ) (xs : Bytes) : World σ :=
  { w with
    ctx := { w.ctx with txbuf := w.ctx.txbuf.patch xs, txLen := xs.length }
    nextTransactionId := match w.ctx.framerType with
      | .rtu => w.nextTransactionId
      | .tcp => w.nextTransactionId + 1 }

theorem frame_length (w : World σ) (pdu : Bytes) :
    (frame w pdu).length = pdu.length + overhead w.ctx.framerType := by
  rw [frame]
  cases w.ctx.framerType with
  | rtu => simp [overhead]
  | tcp => simp [overhead, mbapHeader]

theorem frame_injective (w : World σ) (p q : Bytes) (h : frame w p = frame w q) : p = q := by
  have hl := congrArg List.length h
  rw [frame_length, frame_length] at hl
  rw [frame, frame] at h
  cases hf : w.ctx.framerType with
  | rtu =>
    rw [hf] at h
    exact (List.cons_eq_cons.mp (List.append_inj h (by simp; omega)).1).2
  | tcp =>
    rw [hf] at h
    exact (List.append_inj h rfl).2

/-- What `pa_modbus_send` transmits. -/
def sent (w : World σ) : Bytes := w.ctx.txbuf.cells.take w.ctx.txLen

theorem sent_framed (w : World σ) (xs : Bytes) (h : xs.length ≤ w.ctx.txbuf.cells.length) :
    sent (framed w xs) = xs := overlay_take_self _ _ h

theorem wrap_rtu (pduLen : Int) (w : World σ) (hf : w.ctx.framerType = .rtu) :
    (wrap pduLen).run w = (paFramerRtuWrap pduLen).run w := by
  rw [wrap, get_bind_run, hf]

theorem wrap_tcp (pduLen : Int) (w : World σ) (hf : w.ctx.framerType = .tcp) :
    (wrap pduLen).run w = (paFramerTcpWrap pduLen).run w := by
  rw [wrap, get_bind_run, hf]

theorem wrap_error_iff (pduLen : Int) (w w' : World σ) (e : Int) :
    (wrap pduLen).run w = some (.error e, w') ↔
      (e = paErrBufferFull ∧ w' = w) ∧
        (-2 ^ 31 ≤ pduLen + overhead w.ctx.framerType ∧
          pduLen + overhead w.ctx.framerType < 2 ^ 31) ∧
        w.ctx.txbuf.cells.length < sizeT (pduLen + overhead w.ctx.framerType) := by
  cases hf : w.ctx.framerType with
  | rtu =>
    rw [wrap_rtu pduLen w hf]
    exact FramerRtu.wrap_error_iff pduLen w w' e
  | tcp =>
    rw [wrap_tcp pduLen w hf]
    exact FramerTcp.wrap_error_iff pduLen w w' e

theorem wrap_error (pduLen : Int) (w w' : World σ) (e : Int)
    (h : (wrap pduLen).run w = some (.error e, w')) : e = paErrBufferFull ∧ w' = w :=
  ((wrap_error_iff pduLen w w' e).mp h).1

theorem wrap_full (n : Nat) (w : World σ) (hi : n + 7 < 2 ^ 31)
    (h : w.ctx.txbuf.cells.length < n + overhead w.ctx.framerType) :
    (wrap n).run w = some (.error paErrBufferFull, w) := by
  have ho := overhead_le w.ctx.framerType
  have hs : sizeT ((n : Int) + overhead w.ctx.framerType) = n + overhead w.ctx.framerType :=
    sizeT_natCast (n + overhead w.ctx.framerType) (by omega)
  exact (wrap_error_iff n w w _).mpr ⟨⟨rfl, rfl⟩, by omega, by omega⟩

theorem wrap_places (pduLen : Int) (n : Nat) (w : World σ) (hn : sizeT pduLen = n)
    (hi : -2 ^ 31 ≤ pduLen ∧ pduLen + overhead w.ctx.framerType < 2 ^ 31)
    (h : n + overhead w.ctx.framerType ≤ w.ctx.txbuf.cells.length) :
    ∃ len, sizeT len = n + overhead w.ctx.framerType ∧ (wrap pduLen).run w = some (.ok len,
      { framed w (frame w (w.ctx.txbuf.cells.take n)) with
        ctx := { w.ctx with txbuf := w.ctx.txbuf.patch (frame w (w.ctx.txbuf.cells.take n)) } }) := by
  have hbound := w.ctx.txbuf.bounded
  rw [frame, framed]
  cases hf : w.ctx.framerType with
  | rtu =>
    rw [hf, overhead] at h hi
    refine ⟨_, sizeT_natCast (n + 3) (by omega), ?_⟩
    rw [wrap_rtu pduLen w hf, FramerRtu.wrap_places pduLen n w hn hi h]
    rfl
  | tcp =>
    rw [hf, overhead] at h hi
    have hsize : sizeT (7 + pduLen) = n + 7 := by
      rw [Int.add_comm]
      exact sizeT_add 7 hn (by omega)
    have htake : (w.ctx.txbuf.cells.take n).length = n := List.length_take_of_le (by omega)
    refine ⟨_, hsize, ?_⟩
    rw [wrap_tcp pduLen w hf, FramerTcp.wrap_places pduLen n w hn hi h, htake]
    rfl

theorem wrap_fits (n : Nat) (w : World σ) (hi : n + overhead w.ctx.framerType < 2 ^ 31)
    (h : n + overhead w.ctx.framerType ≤ w.ctx.txbuf.cells.length) :
    (wrap n).run w = some (.ok ((n + overhead w.ctx.framerType : Nat) : Int),
      { framed w (frame w (w.ctx.txbuf.cells.take n)) with
        ctx := { w.ctx with txbuf := w.ctx.txbuf.patch (frame w (w.ctx.txbuf.cells.take n)) } }) := by
  rw [frame, framed]
  cases hf : w.ctx.framerType with
  | rtu =>
    rw [hf, overhead] at h hi
    rw [wrap_rtu n w hf, FramerRtu.wrap_fits n w hi h]
    rfl
  | tcp =>
    rw [hf, overhead] at h hi
    have hn : (w.ctx.txbuf.cells.take n).length = n := List.length_take_of_le (by omega)
    rw [wrap_tcp n w hf, FramerTcp.wrap_fits n w hi h, hn]
    rfl

theorem wrap_ok (pduLen framed : Int) (w w' : World σ) (hlow : -2 ^ 31 ≤ pduLen)
    (h : (wrap pduLen).run w = some (.ok framed, w')) (hframed : 0 ≤ int32 (sizeT framed)) :
    0 ≤ pduLen ∧ pduLen + overhead w.ctx.framerType < 2 ^ 31 ∧
      pduLen + overhead w.ctx.framerType ≤ w.ctx.txbuf.cells.length := by
  cases hf : w.ctx.framerType with
  | rtu =>
    rw [wrap_rtu pduLen w hf] at h
    exact FramerRtu.wrap_ok pduLen framed w w' hlow h hframed
  | tcp =>
    rw [wrap_tcp pduLen w hf] at h
    exact FramerTcp.wrap_ok pduLen framed w w' hlow h hframed

theorem wrap_ok_length {pduLen framed : Int} {w w' : World σ}
    (h : (wrap pduLen).run w = some (.ok framed, w')) :
    pduLen + overhead w.ctx.framerType < 2 ^ 31 ∧
      sizeT (pduLen + overhead w.ctx.framerType) ≤ w.ctx.txbuf.cells.length ∧
      ∀ n : Nat, -2 ^ 31 ≤ pduLen → sizeT framed = n + overhead w.ctx.framerType →
        sizeT pduLen = n := by
  have hbound := w.ctx.txbuf.bounded
  cases hf : w.ctx.framerType with
  | rtu =>
    rw [wrap_rtu pduLen w hf] at h
    obtain ⟨hrange, hroom, -, hall, hframed⟩ := FramerRtu.wrap_ok_length h
    refine ⟨hrange.2, hroom, fun n hlow hn => ?_⟩
    rw [overhead] at hn
    simp only [sizeT] at hall hframed hn ⊢
    omega
  | tcp =>
    rw [wrap_tcp pduLen w hf] at h
    obtain ⟨hrange, hroom, hpdu, hframed⟩ := FramerTcp.wrap_ok_length h
    refine ⟨hrange.2, hroom, fun n hlow hn => ?_⟩
    rw [overhead] at hn
    simp only [sizeT] at hroom hpdu hframed hn ⊢
    omega

theorem wrap_short (pduLen : Int) (w w' : World σ) (r : Except Int Int)
    (hshort : w.ctx.txbuf.cells.length < sizeT (pduLen + overhead w.ctx.framerType))
    (h : (wrap pduLen).run w = some (r, w')) : r = .error paErrBufferFull ∧ w' = w := by
  cases r with
  | error e =>
    obtain ⟨rfl, rfl⟩ := wrap_error pduLen w w' e h
    exact ⟨rfl, rfl⟩
  | ok framed =>
    obtain ⟨-, hroom, -⟩ := wrap_ok_length h
    exact absurd hshort (by omega)

theorem wrap_overflow (n : Nat) (w : World σ) (h : 2 ^ 31 ≤ n + overhead w.ctx.framerType) :
    (wrap n).run w = none := by
  cases hf : w.ctx.framerType with
  | rtu =>
    rw [hf, overhead] at h
    have hn : intExpr (1 + (n : Int) + 2) = none := if_neg (by omega)
    rw [wrap_rtu n w hf, paFramerRtuWrap, get_bind_run, hn]
    rfl
  | tcp =>
    rw [hf, overhead] at h
    have hn : intExpr (7 + (n : Int)) = none := if_neg (by omega)
    rw [wrap_tcp n w hf, paFramerTcpWrap, get_bind_run, hn]
    rfl

theorem finish_fits (n : Nat) (w : World σ) (hi : n + 7 < 2 ^ 31)
    (h : n + overhead w.ctx.framerType ≤ w.ctx.txbuf.cells.length) :
    (finish n).run w = some (((n + overhead w.ctx.framerType : Nat) : Int),
      framed w (frame w (w.ctx.txbuf.cells.take n))) := by
  have hl := frame_length w (w.ctx.txbuf.cells.take n)
  rw [List.length_take_of_le (by omega)] at hl
  have ho := overhead_le w.ctx.framerType
  have hs : sizeT ((n + overhead w.ctx.framerType : Nat) : Int) = n + overhead w.ctx.framerType :=
    sizeT_natCast _ (by omega)
  rw [finish, bind_defined _ _ _ _ _ (wrap_fits n w (by omega) h)]
  simp only [StateT.run_bind, StateT.run_modify, Option.pure_def, Option.bind_eq_bind,
    Option.bind_some, StateT.run_pure, hs, framed, hl]

theorem finish_full (n : Nat) (w : World σ) (hi : n + 7 < 2 ^ 31)
    (h : w.ctx.txbuf.cells.length < n + overhead w.ctx.framerType) :
    (finish n).run w = some (paErrBufferFull, w) := by
  rw [finish, bind_defined _ _ _ _ _ (wrap_full n w hi h)]
  rfl

theorem emit_finish (pdu : Bytes) (n : Nat) (w : World σ) (hi : n + 7 < 2 ^ 31)
    (hn : n ≤ pdu.length) (hp : pdu.length ≤ w.ctx.txbuf.cells.length)
    (h : n + overhead w.ctx.framerType ≤ w.ctx.txbuf.cells.length) :
    (emit pdu >>= fun _ => finish n).run w =
      some (((n + overhead w.ctx.framerType : Nat) : Int),
        framed (w.withTx (w.ctx.txbuf.patch pdu)) (frame w (pdu.take n))) := by
  have ht := overlay_take w.ctx.txbuf.cells pdu n hn hp
  rw [bind_defined _ _ _ _ _ (emit_run pdu w hp), finish_fits n _ hi (by simpa using h),
    World.withTx_txbuf, Buffer.patch_cells, ht]
  rfl

theorem emit_finish_rtu (pdu : Bytes) (w : World σ) (hf : w.ctx.framerType = .rtu)
    (hi : pdu.length + 7 < 2 ^ 31) (h : pdu.length + 3 ≤ w.ctx.txbuf.cells.length) :
    ∃ w', (emit pdu >>= fun _ => finish pdu.length).run w =
      some (((pdu.length + 3 : Nat) : Int), w') ∧ sent w' = rtuFrame w.ctx.slave pdu := by
  have ho : overhead w.ctx.framerType = 3 := by rw [hf, overhead]
  have hp : frame w pdu = rtuFrame w.ctx.slave pdu := by rw [frame, hf]
  have he := emit_finish pdu pdu.length w hi le_rfl (by omega) (by rw [ho]; exact h)
  rw [ho, List.take_length, hp] at he
  refine ⟨_, he, sent_framed _ _ ?_⟩
  rw [World.withTx_txbuf, Buffer.patch_cells, overlay_length, rtuFrame_length]
  exact h

end Pamodbus.Framer
