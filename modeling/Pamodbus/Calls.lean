import Pamodbus.Recv
import Pamodbus.Send
import Pamodbus.TransactionIds

namespace Pamodbus.Calls

open Pamodbus.Lib.Cells Pamodbus.Lib.Procedure Pamodbus.Lib.Hoare
open Pamodbus.Context Pamodbus.Framer Pamodbus.Builders Pamodbus.Respond Pamodbus.Send
open Pamodbus.ParseTotal Pamodbus.SlaveParse Pamodbus.MasterParse Pamodbus.Feed Pamodbus.Recv
open Pamodbus.History (slaveFeed_parsed)
open Pamodbus.TransactionIds (Build)

variable {σ : Type}

inductive Transmission
  | readCoils (addr count : UInt16)
  | readDiscreteInputs (addr count : UInt16)
  | readHoldingRegisters (addr count : UInt16)
  | readInputRegisters (addr count : UInt16)
  | writeSingleCoil (addr : UInt16) (value : UInt8)
  | writeSingleRegister (addr value : UInt16)
  | writeMultipleCoils (addr : UInt16) (values : List UInt8) (count : UInt16)
  | writeMultipleRegisters (addr : UInt16) (values : List UInt16) (count : UInt16)
  | reportSlaveId
  | maskWriteRegister (addr andMask orMask : UInt16)
  | readWriteRegisters (readAddr readCount writeAddr : UInt16) (values : Option (List UInt16))
      (writeCount : UInt16)
  | respond (residue : Residue)
  | respondError (exceptionCode : UInt8)
  | sendRaw (pdu : Bytes)

def Transmission.run : Transmission → Proc (World σ) Int
  | .readCoils addr count => paModbusBuildReadCoils addr count
  | .readDiscreteInputs addr count => paModbusBuildReadDiscreteInputs addr count
  | .readHoldingRegisters addr count => paModbusBuildReadHoldingRegisters addr count
  | .readInputRegisters addr count => paModbusBuildReadInputRegisters addr count
  | .writeSingleCoil addr value => paModbusBuildWriteSingleCoil addr value
  | .writeSingleRegister addr value => paModbusBuildWriteSingleRegister addr value
  | .writeMultipleCoils addr values count => paModbusBuildWriteMultipleCoils addr values count
  | .writeMultipleRegisters addr values count => paModbusBuildWriteMultipleRegisters addr values count
  | .reportSlaveId => paModbusBuildReportSlaveId
  | .maskWriteRegister addr andMask orMask => paModbusBuildMaskWriteRegister addr andMask orMask
  | .readWriteRegisters readAddr readCount writeAddr values writeCount =>
    paModbusBuildReadWriteRegisters readAddr readCount writeAddr values writeCount
  | .respond residue => paModbusSlaveRespond residue
  | .respondError exceptionCode => paModbusSlaveRespondError exceptionCode
  | .sendRaw pdu => paModbusSendRaw pdu

theorem Transmission.builds (t : Transmission) :
    (∃ pdu, t = .sendRaw pdu) ∨ Build (t.run : Proc (World σ) Int) := by
  cases t with
  | readCoils addr count => exact .inr (.readCoils addr count)
  | readDiscreteInputs addr count => exact .inr (.readDiscreteInputs addr count)
  | readHoldingRegisters addr count => exact .inr (.readHoldingRegisters addr count)
  | readInputRegisters addr count => exact .inr (.readInputRegisters addr count)
  | writeSingleCoil addr value => exact .inr (.writeSingleCoil addr value)
  | writeSingleRegister addr value => exact .inr (.writeSingleRegister addr value)
  | writeMultipleCoils addr values count => exact .inr (.writeMultipleCoils addr values count)
  | writeMultipleRegisters addr values count =>
    exact .inr (.writeMultipleRegisters addr values count)
  | reportSlaveId => exact .inr .reportSlaveId
  | maskWriteRegister addr andMask orMask => exact .inr (.maskWriteRegister addr andMask orMask)
  | readWriteRegisters readAddr readCount writeAddr values writeCount =>
    exact .inr (.readWriteRegisters readAddr readCount writeAddr values writeCount)
  | respond residue => exact .inr (.respond residue)
  | respondError exceptionCode => exact .inr (.respondError exceptionCode)
  | sendRaw pdu => exact .inl ⟨pdu, rfl⟩

/-- A call that takes in what comes from the line. It works on the context alone. -/
inductive Intake
  | slaveFeed (data : Bytes)
  | masterFeed (data : Bytes)
  | recv (poll : Poll)

def Intake.run : Intake → Proc (PaModbus σ) Int
  | .slaveFeed data => paModbusSlaveFeed data
  | .masterFeed data => paModbusMasterFeed data
  | .recv poll => fun ctx => (paModbusRecv ctx poll).map fun out => (out.ret, out.ctx)

inductive Act
  | transmit (t : Transmission)
  | take (i : Intake)

def Act.run : Act → Proc (World σ) Int
  | .transmit t => t.run
  | .take i => focus World.ctx (fun ctx w => { w with ctx := ctx }) i.run

def Received (ctx ctx' : PaModbus σ) : Prop :=
  ∃ fc result request rxbuf rxLen tick,
    ctx' = { ctx with
      lastFunction := fc, result := result, request := request, rxbuf := rxbuf, rxLen := rxLen,
      lastRxTick := tick }

theorem Received.trans {c d e : PaModbus σ} (h : Received c d) (h' : Received d e) :
    Received c e := by
  obtain ⟨_, _, _, _, _, _, rfl⟩ := h
  obtain ⟨_, _, _, _, _, _, rfl⟩ := h'
  exact ⟨_, _, _, _, _, _, rfl⟩

theorem parsed_received {c d : PaModbus σ} (h : Parsed c d) : Received c d := by
  obtain ⟨_, _, _, rfl⟩ := h
  exact ⟨_, _, _, _, _, _, rfl⟩

theorem masterFeed_parsed (data : Bytes) :
    Within Parsed (paModbusMasterFeed data : Proc (PaModbus σ) Int) := by
  refine within_get_bind fun ctx => within_access_bind fun u => ?_
  cases u with
  | ret r =>
    refine within_ite ?_ (within_pure _ parsed_refl)
    exact within_bind parsed_trans (within_modify fun ctx => ⟨_, _, _, rfl⟩)
      fun _ => within_pure _ parsed_refl
  | ok p len => exact parseMasterResponse_parsed _ _

theorem roleFeed_parsed (ctx : PaModbus σ) (data : Bytes) : Within Parsed (roleFeed ctx data) := by
  rw [roleFeed]
  exact within_ite (slaveFeed_parsed data) (masterFeed_parsed data)

theorem appended_received (ctx ctx' : PaModbus σ) (bytes : Bytes) (now : UInt32)
    (h : received ctx bytes now = some ctx') : Received ctx ctx' := by
  obtain ⟨rxbuf, -, h⟩ := Option.bind_eq_some_iff.mp h
  split at h
  · rw [← Option.some.inj h]
    exact ⟨_, _, _, _, _, _, rfl⟩
  · rw [← Option.some.inj h]
    exact ⟨_, _, _, _, _, _, rfl⟩

theorem dispatched_received (ctx : PaModbus σ) (now : UInt32) (start frameLen : Nat)
    (out : Outcome σ) (h : dispatchFrame ctx now start frameLen = some out) :
    Received ctx out.ctx := by
  obtain ⟨data, -, h⟩ := Option.bind_eq_some_iff.mp h
  obtain ⟨⟨ret, ctx'⟩, hfeed, h⟩ := Option.bind_eq_some_iff.mp h
  refine (parsed_received (roleFeed_parsed ctx data ctx ret ctx' hfeed)).trans ?_
  dsimp only at h
  split at h
  · obtain ⟨tail, -, h⟩ := Option.bind_eq_some_iff.mp h
    obtain ⟨rxbuf, -, h⟩ := Option.bind_eq_some_iff.mp h
    rw [← Option.some.inj h]
    exact ⟨_, _, _, _, _, _, rfl⟩
  · rw [← Option.some.inj h]
    exact ⟨_, _, _, _, _, _, rfl⟩

theorem waiting_received (ctx : PaModbus σ) (now : UInt32) :
    Received ctx (keepWaiting ctx now).ctx := by
  rw [keepWaiting]
  split
  · exact ⟨_, _, _, _, _, _, rfl⟩
  · split
    · exact ⟨_, _, _, _, _, _, rfl⟩
    · exact ⟨_, _, _, _, _, _, rfl⟩

theorem recv_received (ctx : PaModbus σ) (poll : Poll) (out : Outcome σ)
    (h : paModbusRecv ctx poll = some out) : Received ctx out.ctx := by
  rw [paModbusRecv] at h
  split at h
  · rw [← Option.some.inj h]
    exact ⟨_, _, _, _, _, _, rfl⟩
  dsimp only at h
  cases hbytes : poll.recv with
  | none =>
    rw [hbytes] at h
    rw [← Option.some.inj h]
    exact ⟨_, _, _, _, _, _, rfl⟩
  | some bytes =>
    rw [hbytes] at h
    obtain ⟨ctx₁, happended, h⟩ := Option.bind_eq_some_iff.mp h
    refine (appended_received ctx ctx₁ bytes _ happended).trans ?_
    split at h
    · obtain ⟨found, -, h⟩ := Option.bind_eq_some_iff.mp h
      cases found with
      | none =>
        rw [← Option.some.inj h]
        exact waiting_received ctx₁ _
      | some found => exact dispatched_received ctx₁ _ _ _ out h
    · rw [← Option.some.inj h]
      exact waiting_received ctx₁ _

theorem intake_received (i : Intake) : Within Received (i.run : Proc (PaModbus σ) Int) := by
  intro ctx ret ctx' h
  cases i with
  | slaveFeed data => exact parsed_received (slaveFeed_parsed data ctx ret ctx' h)
  | masterFeed data => exact parsed_received (masterFeed_parsed data ctx ret ctx' h)
  | recv poll =>
    obtain ⟨out, hrun, he⟩ := Option.map_eq_some_iff.mp h
    rw [← (Prod.mk.inj he).2]
    exact recv_received ctx poll out hrun

end Pamodbus.Calls
