import Pamodbus.Feed

namespace Pamodbus.ReadWriteRequest

open Pamodbus.Lib.Cells Pamodbus.Lib.Procedure Pamodbus.Lib.Words
open Pamodbus.Context Pamodbus.Crc16 Pamodbus.FramerRtu Pamodbus.Framer
open Pamodbus.Builders Pamodbus.SlaveParse Pamodbus.SlaveAccept Pamodbus.Feed

variable {σ τ : Type}

/-- A request to write `values` and to read registers. -/
structure Request where
  readAddr : UInt16
  readCount : UInt16
  writeAddr : UInt16
  writeCount : UInt16
  values : List UInt16
  readCount_range : 1 ≤ readCount.toNat ∧ readCount.toNat ≤ 125
  writeCount_range : 1 ≤ writeCount.toNat ∧ writeCount.toNat ≤ 121
  values_length : values.length = writeCount.toNat

namespace Request

def build (req : Request) : Proc (World σ) Int :=
  paModbusBuildReadWriteRegisters req.readAddr req.readCount req.writeAddr (some req.values)
    req.writeCount

def pdu (req : Request) : Bytes :=
  readWriteHeader req.readAddr req.readCount req.writeAddr req.writeCount ++
    registerBytes req.values

theorem pdu_length (req : Request) : req.pdu.length = 10 + req.writeCount.toNat * 2 := by
  rw [pdu, List.length_append, readWriteHeader_length, registerBytes_length, req.values_length]
  omega

/-- The parsed request, with the write address and count in the first coil bytes. -/
def Received (req : Request) (peer : PaModbus τ) : Prop :=
  peer.lastFunction = 0x17 ∧ peer.request.slaveAddr = req.readAddr ∧
    peer.request.slaveCount = req.readCount ∧ req.values <+: peer.request.slaveRegData.toList ∧
    put16 req.writeAddr ++ put16 req.writeCount <+: peer.request.slaveCoilData.toList

def RoundTrips (req : Request) (w : World σ) (peer : PaModbus τ) : Prop :=
  ∃ ret w', req.build.run w = some (ret, w') ∧ 0 < ret ∧
    ∃ peer', (paModbusSlaveFeed (sent w')).run peer = some (paOk, peer') ∧ req.Received peer'

theorem build_sent (req : Request) (w : World σ) (hf : w.ctx.framerType = .rtu)
    (hbuf : 13 + req.writeCount.toNat * 2 ≤ w.ctx.txbuf.cells.length) :
    ∃ ret w', req.build.run w = some (ret, w') ∧ 0 < ret ∧
      sent w' = rtuFrame w.ctx.slave req.pdu := by
  have hw := req.writeCount_range
  have hl := req.pdu_length
  have hb := readWriteRegisters_run req.readAddr req.readCount req.writeAddr req.writeCount
    req.values w req.readCount_range hw req.values_length (by omega)
  obtain ⟨w', hrun, hs⟩ := emit_finish_rtu req.pdu w hf (by omega) (by omega)
  rw [hl] at hrun
  rw [← pdu, hrun] at hb
  exact ⟨_, w', hb, by omega, hs⟩

end Request

/-- The framer takes the low byte of the write count for the byte count after
it, and so looks for a frame that ends too early by `write_count + 1` bytes. -/
theorem pdu_expectedLen (req : Request) (slave : UInt8) (rest : Bytes) :
    expectedLen 0x17 (rtuFrame slave req.pdu ++ rest) =
      some (.ok (12 + req.writeCount.toNat)) := by
  have hw := req.writeCount_range
  have h9 : (rtuFrame slave req.pdu ++ rest)[9]? = some (loByte req.writeCount) := rfl
  have hl : ¬ (rtuFrame slave req.pdu ++ rest).length < 11 := by
    rw [List.length_append, rtuFrame_length, req.pdu_length]
    omega
  simp only [expectedLen, if_neg hl, h9, loByte_toNat, Option.bind_eq_bind, Option.bind_some,
    Option.pure_def, Option.some.injEq, Except.ok.injEq]
  omega

theorem feed_refused (req : Request) (slave : UInt8) (peer peer' : PaModbus τ)
    (hf : peer.framerType = .rtu) :
    (paModbusSlaveFeed (rtuFrame slave req.pdu)).run peer ≠ some (paOk, peer') := by
  intro hrun
  have hw := req.writeCount_range
  obtain ⟨p, n, hu, hparse⟩ := slaveFeed_accepted _ _ _ hrun
  rw [unwrap_rtu _ _ hf] at hu
  obtain ⟨a, fc, body, rest, hd, he, -, rfl, rfl⟩ := (FramerRtu.unwrap_ok_iff _ _ _ _).mp hu
  obtain rfl : 0x17 = fc := by
    have h1 := congrArg (fun l : Bytes => l[1]?) hd
    simpa [rtuFrame, Request.pdu, readWriteHeader] using h1
  have hlen := pdu_expectedLen req slave []
  rw [List.append_nil, he, Option.some.injEq, Except.ok.injEq] at hlen
  obtain ⟨-, fc, h0, -, r, hr, -⟩ := (parseSlaveRequest_accepts _ _ _ _).mp hparse
  obtain rfl : 0x17 = fc := by simpa [rtuFrame, Request.pdu, readWriteHeader] using h0
  obtain ⟨-, -, -, -, -, -, -, -, -, -, -, bc, hbc, hn, -⟩ :=
    (parseReadWriteRegisters_accepts _ _ _ _).mp hr
  have h9 : ((rtuFrame slave req.pdu).drop 1)[9]? =
      some (UInt8.ofNat (req.writeCount.toNat * 2)) := rfl
  rw [h9, Option.some.injEq] at hbc
  rw [← hbc, UInt8.toNat_ofNat'] at hn
  omega

/-- Every request is built, and none round-trips. -/
theorem read_write_never_round_trips (req : Request) (w : World σ) (peer : PaModbus τ)
    (hf : w.ctx.framerType = .rtu) (hp : peer.framerType = .rtu)
    (hbuf : 13 + req.writeCount.toNat * 2 ≤ w.ctx.txbuf.cells.length) :
    (∃ ret w', req.build.run w = some (ret, w') ∧ 0 < ret) ∧ ¬ req.RoundTrips w peer := by
  obtain ⟨ret, w', hw, hret, hs⟩ := req.build_sent w hf hbuf
  constructor
  · exact ⟨ret, w', hw, hret⟩
  · rintro ⟨ret', w'', hw', -, peer', hfeed, -⟩
    obtain rfl : w' = w'' := by
      rw [hw, Option.some.injEq, Prod.mk.injEq] at hw'
      exact hw'.2
    rw [hs] at hfeed
    exact feed_refused req w.ctx.slave peer peer' hp hfeed

def client : World Unit := ⟨station .rtu 1 32 32, (), 1, []⟩

def oneRegister : Request :=
  ⟨0x0000, 1, 0x0010, 1, [0x1234], by decide, by decide, rfl⟩

theorem one_register_never_round_trips :
    (∃ ret w', oneRegister.build.run client = some (ret, w') ∧ 0 < ret) ∧
      ¬ oneRegister.RoundTrips client client.ctx :=
  read_write_never_round_trips oneRegister client client.ctx rfl rfl (by decide)

theorem one_register_refused : ¬ oneRegister.RoundTrips client client.ctx := by
  rintro ⟨ret, w', hw, -, peer', hfeed, -⟩
  have hrun : (oneRegister.build.run client).bind
      (fun r => ((paModbusSlaveFeed (sent r.2)).run client.ctx).map Prod.fst) =
        some paErrCrc := rfl
  rw [hw, Option.bind_some, hfeed] at hrun
  cases hrun

end Pamodbus.ReadWriteRequest
