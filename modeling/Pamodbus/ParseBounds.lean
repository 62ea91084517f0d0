import Pamodbus.ParseTotal

namespace Pamodbus.ParseBounds

open Pamodbus.Context Pamodbus.SlaveParse Pamodbus.MasterParse Pamodbus.ParseTotal

variable {σ : Type}

/-- Where the memory ends with the PDU, both parsers get by with it and with their arrays. -/
def StaysInside (ctx : PaModbus σ) (pdu : Bytes) : Prop :=
  ((parseSlaveRequest pdu pdu.length).run ctx).isSome ∧
    ((parseMasterResponse pdu pdu.length).run ctx).isSome

theorem slaveRequest_inside (ctx : PaModbus σ) (pdu : Bytes) :
    ((parseSlaveRequest pdu pdu.length).run ctx).isSome := by
  obtain ⟨r, ctx', hrun, -⟩ := sure_parseSlaveRequest (le_refl pdu.length) ctx trivial
  rw [hrun]
  rfl

theorem masterResponse_inside (ctx : PaModbus σ) (pdu : Bytes)
    (h : ¬ (pdu.length = 2 ∧ pdu[0]? = some 0x18)) :
    ((parseMasterResponse pdu pdu.length).run ctx).isSome := by
  obtain ⟨r, ctx', hrun, -⟩ := sure_parseMasterResponse (le_refl pdu.length)
    (fun h0 h2 => absurd ⟨h2, h0⟩ h) ctx trivial
  rw [hrun]
  rfl

/-- The length field of a Read FIFO Queue response is read from two bytes, of
which only the first has been checked to be there. -/
theorem shortFifo_outside (ctx : PaModbus σ) (b : UInt8) :
    (parseMasterResponse [0x18, b] 2).run ctx = none := rfl

/-- Only a Read FIFO Queue response of two bytes makes a parser read behind the PDU. -/
theorem parsers_stay_inside_iff (ctx : PaModbus σ) (pdu : Bytes) :
    StaysInside ctx pdu ↔ ¬ (pdu.length = 2 ∧ pdu[0]? = some 0x18) := by
  constructor
  · rintro ⟨-, hmaster⟩ ⟨hl, h0⟩
    obtain ⟨a, b, rfl⟩ := List.length_eq_two.mp hl
    obtain rfl : a = 0x18 := Option.some.inj h0
    rw [List.length_cons, List.length_singleton, shortFifo_outside] at hmaster
    cases hmaster
  · intro h
    exact ⟨slaveRequest_inside ctx pdu, masterResponse_inside ctx pdu h⟩

theorem two_byte_fifo_outside : ¬ StaysInside (paModbusInit : PaModbus Unit) [0x18, 0x00] := by
  rintro ⟨-, hmaster⟩
  cases hmaster

end Pamodbus.ParseBounds
