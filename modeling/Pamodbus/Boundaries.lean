import Pamodbus.TestBanks
import Pamodbus.Transactions

namespace Pamodbus.Boundaries

open Pamodbus.Lib.Banks
open Pamodbus.Context Pamodbus.DataModel Pamodbus.ReadRequests Pamodbus.Transactions

variable {σ β : Type}

def checkRead (size addr count : Nat) (refused : β) (f : σ → Int × β × σ) (s : σ) : Int × β × σ :=
  if size < addr + count then (-1, refused, s) else f s

def checkWrite (size addr count : Nat) (f : σ → Int × σ) (s : σ) : Int × σ :=
  if size < addr + count then (-1, s) else f s

def readOutputs (f : σ → Int × β × σ) (s : σ × σ) : Int × β × σ × σ :=
  ((f s.1).1, (f s.1).2.1, (f s.1).2.2, s.2)

def readInputs (f : σ → Int × β × σ) (s : σ × σ) : Int × β × σ × σ :=
  ((f s.2).1, (f s.2).2.1, s.1, (f s.2).2.2)

def writeOutputs (f : σ → Int × σ) (s : σ × σ) : Int × σ × σ := ((f s.1).1, (f s.1).2, s.2)

/-- The callbacks of the documentation check the boundary of a table before they touch it. Behind
such checks two stores are the four tables of a slave: the first those that can be written, the
second those that cannot. -/
def checkedCallbacks (cbs : Callbacks σ) (coils registers : Nat) : Callbacks (σ × σ) where
  readCoilsCb := cbs.readCoilsCb.map fun f addr count =>
    checkRead coils addr.toNat count.toNat (List.Vector.replicate _ 0) (readOutputs (f addr count))
  readDiscreteInputsCb := cbs.readCoilsCb.map fun f addr count =>
    checkRead coils addr.toNat count.toNat (List.Vector.replicate _ 0) (readInputs (f addr count))
  readHoldingRegistersCb := cbs.readHoldingRegistersCb.map fun f addr count =>
    checkRead registers addr.toNat count.toNat (List.Vector.replicate _ 0)
      (readOutputs (f addr count))
  readInputRegistersCb := cbs.readHoldingRegistersCb.map fun f addr count =>
    checkRead registers addr.toNat count.toNat (List.Vector.replicate _ 0)
      (readInputs (f addr count))
  writeSingleCoilCb := cbs.writeSingleCoilCb.map fun f addr value =>
    checkWrite coils addr.toNat 1 (writeOutputs (f addr value))
  writeSingleRegisterCb := cbs.writeSingleRegisterCb.map fun f addr value =>
    checkWrite registers addr.toNat 1 (writeOutputs (f addr value))
  writeMultipleCoilsCb := cbs.writeMultipleCoilsCb.map fun f addr count values =>
    checkWrite coils addr.toNat count.toNat (writeOutputs (f addr count values))
  writeMultipleRegistersCb := cbs.writeMultipleRegistersCb.map fun f addr count values =>
    checkWrite registers addr.toNat count.toNat (writeOutputs (f addr count values))

def tables (view : σ → Data) (s : σ × σ) : Tables := ⟨view s.1, view s.2⟩

def sizes (coils registers : Nat) : ReadKind → Nat
  | .coils | .discreteInputs => coils
  | .holdingRegisters | .inputRegisters => registers

section

variable {S : Type} {view : S → Tables} {kind : ReadKind} {size : Nat}

theorem checked_bits {f : ReadCoilsFn S}
    (h : ∀ addr count s, addr.toNat + count.toNat ≤ size → (f addr count s).1 = 0 ∧
      (f addr count s).2.1.toList =
        packBits (readRange ((view s).bank kind).coils addr.toNat count.toNat) ∧
      view (f addr count s).2.2 = view s) :
    ReadsBits (some fun addr count => checkRead size addr.toNat count.toNat
      (List.Vector.replicate _ 0) (f addr count)) view kind size := by
  refine ⟨_, rfl, fun addr count s => ?_⟩
  rw [checkRead]
  by_cases hin : addr.toNat + count.toNat ≤ size
  · obtain ⟨hret, hvalues, hview⟩ := h addr count s hin
    rw [if_pos hin, if_neg (by omega)]
    refine ⟨hview, hret, fun i hi => ?_⟩
    rw [hvalues, bitAt_packBits, readRange_getElem? _ _ _ _ hi]
    rfl
  · rw [if_neg hin, if_pos (by omega)]
    exact ⟨rfl, by simp⟩

theorem checked_words {f : ReadRegistersFn S}
    (h : ∀ addr count s, addr.toNat + count.toNat ≤ size → (f addr count s).1 = 0 ∧
      (f addr count s).2.1.toList =
        readRange ((view s).bank kind).registers addr.toNat count.toNat ∧
      view (f addr count s).2.2 = view s) :
    ReadsWords (some fun addr count => checkRead size addr.toNat count.toNat
      (List.Vector.replicate _ 0) (f addr count)) view kind size := by
  refine ⟨_, rfl, fun addr count s => ?_⟩
  rw [checkRead]
  by_cases hin : addr.toNat + count.toNat ≤ size
  · obtain ⟨hret, hvalues, hview⟩ := h addr count s hin
    rw [if_pos hin, if_neg (by omega)]
    exact ⟨hview, hret, hvalues⟩
  · rw [if_neg hin, if_pos (by omega)]
    exact ⟨rfl, by simp⟩

end

theorem checkWrite_stores {view : σ → Data} {size : Nat} {addr : UInt16} {count : Nat}
    {f : σ → Int × σ} {stored : Data → Data} (s : σ × σ)
    (h : addr.toNat + count ≤ size → (f s.1).1 = 0 ∧ view (f s.1).2 = stored (view s.1)) :
    Stores (tables view) size addr count s stored
      (checkWrite size addr.toNat count (writeOutputs f) s) := by
  rw [Stores, checkWrite]
  by_cases hin : addr.toNat + count ≤ size
  · obtain ⟨hret, hview⟩ := h hin
    rw [if_pos hin, if_neg (by omega)]
    exact ⟨hret, congrArg (fun m => (⟨m, view s.2⟩ : Tables)) hview⟩
  · rw [if_neg hin, if_pos (by omega)]
    exact ⟨by simp, rfl⟩

variable {cbs : Callbacks σ} {view : σ → Data} {coils registers : Nat}

theorem checked_overTables (h : Backed cbs view coils registers) :
    OverTables (checkedCallbacks cbs coils registers) (tables view) (sizes coils registers) where
  readCoils := by
    obtain ⟨f, hf, hread⟩ := h.readCoils
    rw [checkedCallbacks, hf]
    refine checked_bits fun addr count s hin => ?_
    obtain ⟨hret, hvalues, hview⟩ := hread addr count s.1 hin
    exact ⟨hret, hvalues, congrArg (fun m => (⟨m, view s.2⟩ : Tables)) hview⟩
  readDiscreteInputs := by
    obtain ⟨f, hf, hread⟩ := h.readCoils
    rw [checkedCallbacks, hf]
    refine checked_bits fun addr count s hin => ?_
    obtain ⟨hret, hvalues, hview⟩ := hread addr count s.2 hin
    exact ⟨hret, hvalues, congrArg (fun m => (⟨view s.1, m⟩ : Tables)) hview⟩
  readHoldingRegisters := by
    obtain ⟨f, hf, hread⟩ := h.readHoldingRegisters
    rw [checkedCallbacks, hf]
    refine checked_words fun addr count s hin => ?_
    obtain ⟨hret, hvalues, hview⟩ := hread addr count s.1 hin
    exact ⟨hret, hvalues, congrArg (fun m => (⟨m, view s.2⟩ : Tables)) hview⟩
  readInputRegisters := by
    obtain ⟨f, hf, hread⟩ := h.readHoldingRegisters
    rw [checkedCallbacks, hf]
    refine checked_words fun addr count s hin => ?_
    obtain ⟨hret, hvalues, hview⟩ := hread addr count s.2 hin
    exact ⟨hret, hvalues, congrArg (fun m => (⟨view s.1, m⟩ : Tables)) hview⟩
  writeSingleCoil := by
    obtain ⟨f, hf, hwrite⟩ := h.writeSingleCoil
    exact ⟨_, by rw [checkedCallbacks, hf]; rfl, fun addr value s =>
      checkWrite_stores s fun hin => hwrite addr value s.1 hin⟩
  writeSingleRegister := by
    obtain ⟨f, hf, hwrite⟩ := h.writeSingleRegister
    exact ⟨_, by rw [checkedCallbacks, hf]; rfl, fun addr value s =>
      checkWrite_stores s fun hin => hwrite addr value s.1 hin⟩
  writeMultipleCoils := by
    obtain ⟨f, hf, hwrite⟩ := h.writeMultipleCoils
    exact ⟨_, by rw [checkedCallbacks, hf]; rfl, fun addr count values s hl =>
      checkWrite_stores s fun hin => hwrite addr count values s.1 hin hl⟩
  writeMultipleRegisters := by
    obtain ⟨f, hf, hwrite⟩ := h.writeMultipleRegisters
    exact ⟨_, by rw [checkedCallbacks, hf]; rfl, fun addr count values s hl =>
      checkWrite_stores s fun hin => hwrite addr count values s.1 hin hl⟩

end Pamodbus.Boundaries
