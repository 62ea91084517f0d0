import Pamodbus.Framer

namespace Pamodbus.UnwrapBounds

open Pamodbus.Lib.Cells Pamodbus.Lib.CInt
open Pamodbus.Context Pamodbus.FramerRtu Pamodbus.FramerTcp Pamodbus.Framer

variable {σ : Type}

def trailer : Framer → Nat
  | .rtu => 2
  | .tcp => 0

/-- `unwrap` reads nothing past the bytes it is given, and a PDU that it reports
is not empty and lies, with its check value, among them. -/
def StaysWithin (ctx : PaModbus σ) (data : Buffer UInt8) : Prop :=
  ∃ u, unwrap ctx data.cells = some u ∧ ∀ pdu pduLen, u = .ok pdu pduLen →
    0 < pduLen ∧ pdu + pduLen + trailer ctx.framerType ≤ data.cells.length

/-- A header for this station whose length field leaves no room for a PDU. -/
def Hollow (ctx : PaModbus σ) (data : Bytes) : Prop :=
  ctx.framerType = .tcp ∧ ∃ length, Acceptable ctx data length ∧ length.toNat < 2

theorem staysWithin_iff (ctx : PaModbus σ) (data : Buffer UInt8) :
    StaysWithin ctx data ↔ ∀ pdu pduLen, unwrap ctx data.cells = some (.ok pdu pduLen) →
      0 < pduLen ∧ pdu + pduLen + trailer ctx.framerType ≤ data.cells.length := by
  constructor
  · rintro ⟨u, hu, h⟩ pdu pduLen hok
    rw [hu, Option.some.injEq] at hok
    exact h pdu pduLen hok
  · intro h
    obtain ⟨u, hu⟩ := Framer.unwrap_defined ctx data.cells
    refine ⟨u, hu, fun pdu pduLen hok => h pdu pduLen ?_⟩
    rw [hu, hok]

theorem rtu_within (ctx : PaModbus σ) (data : Bytes) (pdu pduLen : Nat)
    (h : paFramerRtuUnwrap ctx data = some (.ok pdu pduLen)) :
    0 < pduLen ∧ pdu + pduLen + 2 ≤ data.length := by
  obtain ⟨addr, fc, body, rest, rfl, -, -, rfl, rfl⟩ := (FramerRtu.unwrap_ok_iff _ _ _ _).mp h
  simp only [List.length_append, rtuFrame_length, List.length_cons]
  omega

/-- Under a length field of zero the length of the PDU wraps around. -/
theorem tcp_within_iff (ctx : PaModbus σ) (data : Buffer UInt8) (length : UInt16)
    (h : Acceptable ctx data.cells length) :
    (0 < sizeT (length.toNat - 1) ∧ 7 + sizeT (length.toNat - 1) ≤ data.cells.length) ↔
      2 ≤ length.toNat := by
  have hb := data.bounded
  have htotal := h.total
  by_cases h0 : length.toNat = 0
  · have hs : sizeT (length.toNat - 1) = 2 ^ 64 - 1 := by
      rw [h0]
      rfl
    omega
  · have hcast : (length.toNat : Int) - 1 = ((length.toNat - 1 : Nat) : Int) := by omega
    rw [hcast, sizeT_natCast _ (by omega)]
    omega

/-- The verdict of `unwrap` stays within the bytes it is given, but for a TCP
header with a length field of 0 or 1. -/
theorem unwrap_within_iff (ctx : PaModbus σ) (data : Buffer UInt8) :
    StaysWithin ctx data ↔ ¬ Hollow ctx data.cells := by
  rw [staysWithin_iff]
  cases hf : ctx.framerType with
  | rtu =>
    refine iff_of_true (fun pdu pduLen h => ?_) fun h => ?_
    · rw [unwrap_rtu ctx _ hf] at h
      exact rtu_within ctx _ pdu pduLen h
    · rw [Hollow, hf] at h
      cases h.1
  | tcp =>
    constructor
    · rintro h ⟨-, length, hacc, hlt⟩
      have hu : unwrap ctx data.cells = some (.ok 7 (sizeT (length.toNat - 1))) := by
        rw [unwrap_tcp ctx _ hf]
        exact (FramerTcp.unwrap_ok_iff _ _ _ _).mpr ⟨length, hacc, rfl, rfl⟩
      have hle := (tcp_within_iff ctx data length hacc).mp (h _ _ hu)
      omega
    · intro h pdu pduLen hu
      rw [unwrap_tcp ctx _ hf] at hu
      obtain ⟨length, hacc, rfl, rfl⟩ := (FramerTcp.unwrap_ok_iff _ _ _ _).mp hu
      refine (tcp_within_iff ctx data length hacc).mpr ?_
      by_contra hlt
      exact h ⟨hf, length, hacc, by omega⟩

/-- A header with a length field of zero is taken, with a PDU of all the memory there could be. -/
theorem zero_length_taken :
    unwrap (station .tcp 1 16 16 : PaModbus Unit) [0, 1, 0, 0, 0, 0, 1, 3] =
        some (.ok 7 (2 ^ 64 - 1)) ∧
      ¬ StaysWithin (station .tcp 1 16 16 : PaModbus Unit)
        ⟨[0, 1, 0, 0, 0, 0, 1, 3], by decide⟩ := by
  refine ⟨rfl, ?_⟩
  rintro ⟨u, hu, h⟩
  have hok : unwrap (station .tcp 1 16 16 : PaModbus Unit) [0, 1, 0, 0, 0, 0, 1, 3] =
      some (.ok 7 (2 ^ 64 - 1)) := rfl
  rw [hok, Option.some.injEq] at hu
  exact absurd (h 7 (2 ^ 64 - 1) hu.symm).2 (by decide)

end Pamodbus.UnwrapBounds
