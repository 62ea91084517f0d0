import Pamodbus.History
import Pamodbus.Send

namespace Pamodbus.SendRawLimits

open Pamodbus.Lib.Cells Pamodbus.Lib.CInt Pamodbus.Lib.Procedure Pamodbus.Lib.Words
open Pamodbus.Context Pamodbus.Framer Pamodbus.Send Pamodbus.History
open Pamodbus.SlaveParse (get16 get16_eq)

variable {σ : Type} {w w' : World σ} {pdu : Bytes}

def lengthField (data : Bytes) : Option Nat := (get16 data 4).map UInt16.toNat

/-- The callback has got the frame of the PDU, out of the transmit buffer. -/
structure HandedOver (w : World σ) (pdu : Bytes) (w' : World σ) (ret : Int) : Prop where
  calls : w'.calls = w.calls ++ [(.send (frame w pdu), ret)]
  length : (frame w pdu).length = pdu.length + overhead w.ctx.framerType
  inside : (frame w pdu).length ≤ w.ctx.txbuf.cells.length
  field : w.ctx.framerType = .tcp → lengthField (frame w pdu) = some (pdu.length + 1)

/-- The call stores inside of the transmit buffer only, and it fails without a
callback or hands over the frame. -/
def Safe (w : World σ) (pdu : Bytes) : Prop :=
  ∃ ret w', (paModbusSendRaw pdu).run w = some (ret, w') ∧
    (ret < 0 ∧ w'.calls = w.calls ∨ ∃ r, HandedOver w pdu w' r)

/-- The length is the same after its way through `int`, and the frame is in the
transmit buffer with its length in the header. -/
structure Framable (w : World σ) (pdu : Bytes) : Prop where
  kept : sizeT (int32 pdu.length) = pdu.length
  fits : pdu.length + overhead w.ctx.framerType ≤ w.ctx.txbuf.cells.length
  field : w.ctx.framerType = .tcp → pdu.length + 1 < 2 ^ 16

/-- The PDU is in the transmit buffer, and adding to its length gives an `int` that
the framer finds too long, or a frame. -/
structure Sound (w : World σ) (pdu : Bytes) : Prop where
  inside : pdu.length ≤ w.ctx.txbuf.cells.length
  int : int32 pdu.length + overhead w.ctx.framerType < 2 ^ 31
  framer : w.ctx.txbuf.cells.length < sizeT (int32 pdu.length + overhead w.ctx.framerType) ∨
    Framable w pdu

/-- The check of the length lets everything through when the size is less than 7. -/
theorem small_buffer_ready (cb : SendFn σ) (hcb : w.ctx.sendCb = some cb)
    (hset : w.ctx.txbufSet = true) (hsize : w.ctx.txbuf.cells.length < 7)
    (hlen : pdu.length < 2 ^ 63) : Ready pdu w cb := by
  refine ⟨hcb, hset, ?_⟩
  rw [sizeT]
  omega

theorem frame_lengthField (hf : w.ctx.framerType = .tcp) :
    lengthField (frame w pdu) = some ((pdu.length + 1) % 2 ^ 16) := by
  have hfield : get16 (frame w pdu) 4 = some (UInt16.ofNat (pdu.length + 1)) := by
    rw [frame, hf]
    exact (get16_eq _ 4 _ _ rfl rfl).trans (by rw [word_bytes])
  rw [lengthField, hfield, Option.map_some, UInt16.toNat_ofNat']

theorem sound_safe (cb : SendFn σ) (hready : Ready pdu w cb) (h : Sound w pdu) : Safe w pdu := by
  have hlow := (int32_bounds (pdu.length : Int)).1
  rcases h.framer with hfull | hframable
  · have hpatch : (w.withTx (w.ctx.txbuf.patch pdu)).ctx.txbuf.cells.length =
        w.ctx.txbuf.cells.length := by simp
    have hwrap := (wrap_error_iff (int32 pdu.length) (w.withTx (w.ctx.txbuf.patch pdu)) _ _).mpr
      ⟨⟨rfl, rfl⟩, ⟨by omega, h.int⟩, by rw [hpatch]; exact hfull⟩
    refine ⟨paErrBufferFull, w.withTx (w.ctx.txbuf.patch pdu), ?_, .inl ⟨by decide, rfl⟩⟩
    rw [sendRaw_ready pdu w cb hready, bind_defined _ _ _ _ _ (emit_run pdu w h.inside),
      bind_defined _ _ _ _ _ hwrap]
    rfl
  · have hrun := sendRaw_places pdu pdu.length w cb hready hframable.kept le_rfl h.int h.inside
      hframable.fits
    rw [List.take_length] at hrun
    have hlen := frame_length w pdu
    refine ⟨_, _, hrun, .inr ⟨(cb (frame w pdu) w.app).1, rfl, hlen, ?_, fun hf => ?_⟩⟩
    · rw [hlen]
      exact hframable.fits
    · rw [frame_lengthField hf, Nat.mod_eq_of_lt (hframable.field hf)]

theorem safe_sound (cb : SendFn σ) (hready : Ready pdu w cb) (h : Safe w pdu) : Sound w pdu := by
  obtain ⟨ret, w', hrun, hends⟩ := h
  obtain ⟨hp, r, w₁, hwrap, hdeliver⟩ := sendRaw_inv hready hrun
  have hpatch : (w.withTx (w.ctx.txbuf.patch pdu)).ctx.txbuf.cells.length =
      w.ctx.txbuf.cells.length := by simp
  cases r with
  | error e =>
    obtain ⟨-, hint, hfull⟩ := (wrap_error_iff _ _ _ _).mp hwrap
    exact ⟨hp, hint.2, .inl (hpatch ▸ hfull)⟩
  | ok framed =>
    obtain ⟨hint, -, hkept⟩ := wrap_ok_length hwrap
    obtain ⟨front, hfront⟩ := keeps_wrap stable_calls (fun _ _ => List.prefix_refl _) _ _ _ _ hwrap
    obtain ⟨data, r, app, hdata, hleft⟩ := deliver_inv hdeliver
    have hcalls : w'.calls = w₁.calls ++ [(.send data, r)] := congrArg World.calls hleft
    have hbefore : (w.withTx (w.ctx.txbuf.patch pdu)).calls = w.calls := rfl
    rw [← hfront, hbefore] at hcalls
    rcases hends with ⟨-, hnone⟩ | ⟨r', hover⟩
    · have hl := congrArg List.length (hcalls.symm.trans hnone)
      simp only [List.length_append, List.length_singleton] at hl
      omega
    · obtain ⟨-, hlast⟩ := List.append_inj' (hcalls.symm.trans hover.calls) rfl
      have hsent : data = frame w pdu :=
        Call.send.inj (Prod.mk.inj (List.cons.inj hlast).1).1
      refine ⟨hp, hint, .inr ⟨hkept pdu.length (int32_bounds _).1 ?_, ?_, fun hf => ?_⟩⟩
      · rw [← hdata, hsent]
        exact hover.length
      · rw [← hover.length]
        exact hover.inside
      · have hfield := hover.field hf
        rw [frame_lengthField hf, Option.some.injEq] at hfield
        omega

/-- A transmit buffer of less than 7 bytes is written over by every PDU that is longer. -/
theorem small_buffer_unsafe (cb : SendFn σ) (hcb : w.ctx.sendCb = some cb)
    (hset : w.ctx.txbufSet = true) (hsize : w.ctx.txbuf.cells.length < 7)
    (hlen : pdu.length < 2 ^ 63) (hover : w.ctx.txbuf.cells.length < pdu.length) :
    ¬ Safe w pdu := by
  intro h
  have hsound := safe_sound cb (small_buffer_ready cb hcb hset hsize hlen) h
  exact absurd hsound.inside (by omega)

/-- Exactly what is refused by the first checks and what is framed in full, or found too
long by the framer, is safe. -/
theorem sendRaw_safe_iff (w : World σ) (pdu : Bytes) :
    Safe w pdu ↔ (∀ cb, ¬ Ready pdu w cb) ∨ Sound w pdu := by
  by_cases hready : ∃ cb, Ready pdu w cb
  · obtain ⟨cb, hready⟩ := hready
    constructor
    · exact fun h => .inr (safe_sound cb hready h)
    · rintro (hnone | h)
      · exact absurd hready (hnone cb)
      · exact sound_safe cb hready h
  · have hnone := not_exists.mp hready
    refine iff_of_true ⟨_, _, sendRaw_refused pdu w hnone, .inl ⟨?_, rfl⟩⟩ (.inl hnone)
    split
    · decide
    · decide

/-- A station with a transmit buffer of `size` bytes. -/
def sized (framer : Context.Framer) (size : UInt16) : World Unit :=
  ⟨paModbusSetSendCb (some fun _ app => (0, app)) (station framer 1 size 16), (), 1, []⟩

/-- Subtracting 7 from the size of a transmit buffer of four bytes lets a PDU of five
bytes through, which is copied over its end. -/
theorem small_buffer_overrun :
    (paModbusSendRaw [1, 2, 3, 4, 5]).run (sized .rtu 4) = none ∧
      ¬ Safe (sized .rtu 4) [1, 2, 3, 4, 5] := by
  have hrun : (paModbusSendRaw [1, 2, 3, 4, 5]).run (sized .rtu 4) = none := by decide
  refine ⟨hrun, ?_⟩
  rintro ⟨ret, w', hdefined, -⟩
  rw [hrun] at hdefined
  cases hdefined

end Pamodbus.SendRawLimits
