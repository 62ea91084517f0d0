import Pamodbus.Feed

namespace Pamodbus.ReadRequests

open Pamodbus.Lib.Cells Pamodbus.Lib.CInt Pamodbus.Lib.Procedure Pamodbus.Lib.Words
open Pamodbus.Context Pamodbus.Crc16 Pamodbus.FramerRtu Pamodbus.Framer
open Pamodbus.Builders Pamodbus.SlaveParse Pamodbus.SlaveAccept Pamodbus.Feed

variable {σ τ : Type}

inductive ReadKind
  | coils
  | discreteInputs
  | holdingRegisters
  | inputRegisters
  deriving DecidableEq

def ReadKind.code : ReadKind → UInt8
  | .coils => 0x01
  | .discreteInputs => 0x02
  | .holdingRegisters => 0x03
  | .inputRegisters => 0x04

def ReadKind.maxCount : ReadKind → Nat
  | .coils | .discreteInputs => 2000
  | .holdingRegisters | .inputRegisters => 125

def ReadKind.build : ReadKind → UInt16 → UInt16 → Proc (World σ) Int
  | .coils => paModbusBuildReadCoils
  | .discreteInputs => paModbusBuildReadDiscreteInputs
  | .holdingRegisters => paModbusBuildReadHoldingRegisters
  | .inputRegisters => paModbusBuildReadInputRegisters

theorem ReadKind.build_eq (k : ReadKind) (addr count : UInt16) :
    (k.build addr count : Proc (World σ) Int) = buildRead k.code k.maxCount addr count := by
  cases k <;> rfl

theorem ReadKind.parse_eq (k : ReadKind) (pdu : Bytes) (n : Nat) :
    parseRequest k.code pdu n = parseRead k.maxCount pdu n := by
  cases k <;> rfl

theorem ReadKind.code_plain (k : ReadKind) : k.code &&& 0x80 = 0 := by
  cases k <;> rfl

/-- The request is built, and the slave that is fed it reads the same request. -/
def RoundTrips (k : ReadKind) (addr count : UInt16) (w : World σ) (peer : PaModbus τ) : Prop :=
  ∃ ret w', (k.build addr count).run w = some (ret, w') ∧ 0 < ret ∧
    ∃ peer', (paModbusSlaveFeed (sent w')).run peer = some (paOk, peer') ∧
      peer'.lastFunction = k.code ∧ peer'.request.slaveAddr = addr ∧
      peer'.request.slaveCount = count

/-- The addresses whose high byte the length rule does not take for a byte count. -/
def ReadableAddr (addr : UInt16) : Prop :=
  addr.toNat < 0x100 ∨ 0x300 ≤ addr.toNat ∧ addr.toNat < 0x400 ∨ 0xFB00 ≤ addr.toNat

instance (addr : UInt16) : Decidable (ReadableAddr addr) := inferInstanceAs (Decidable (_ ∨ _))

def requestPdu (fc : UInt8) (addr count : UInt16) : Bytes := [fc] ++ put16 addr ++ put16 count

theorem build_sent (k : ReadKind) (addr count : UInt16) (w : World σ)
    (hf : w.ctx.framerType = .rtu) (hbuf : 8 ≤ w.ctx.txbuf.cells.length)
    (hc : 1 ≤ count.toNat ∧ count.toNat ≤ k.maxCount) :
    ∃ w', (k.build addr count).run w = some (8, w') ∧
      sent w' = rtuFrame w.ctx.slave (requestPdu k.code addr count) := by
  rw [k.build_eq, buildRead_eq _ _ _ _ hc]
  exact emit_finish_rtu (requestPdu k.code addr count) w hf (by simp [requestPdu]) hbuf

/-- The length rule reads the high half of the address as a byte count. -/
theorem request_expectedLen (k : ReadKind) (data : Bytes) (hi : UInt8) (hl : 4 ≤ data.length)
    (h2 : data[2]? = some hi) :
    expectedLen k.code data =
      some (.ok (if hi.toNat ≤ 250 ∧ 0 < hi.toNat then 3 + hi.toNat + 2 else 8)) := by
  cases k <;>
  · simp only [ReadKind.code, expectedLen, if_pos hl, h2, Option.bind_eq_bind, Option.bind_some,
      Option.pure_def]
    split <;> rfl

theorem feed_readable (k : ReadKind) (addr count : UInt16) (peer : PaModbus τ)
    (hf : peer.framerType = .rtu) (ha : ReadableAddr addr)
    (hc : 1 ≤ count.toNat ∧ count.toNat ≤ k.maxCount) :
    (paModbusSlaveFeed (rtuFrame peer.slave (requestPdu k.code addr count))).run peer =
      some (paOk, { peer with
        lastFunction := k.code
        request := { peer.request with
          slaveAddr := addr, slaveCount := count, slaveDataValid := false } }) := by
  have hlt := addr.toNat_lt
  have hlen : expectedLen k.code (rtuFrame peer.slave (requestPdu k.code addr count)) =
      some (.ok 8) := by
    rw [request_expectedLen k _ (hiByte addr) (by simp [requestPdu]) rfl, hiByte_toNat]
    rcases ha with h | h | h
    · rw [if_neg (by omega)]
    · rw [if_pos (by omega)]
      congr 2
      omega
    · rw [if_neg (by omega)]
  apply (slaveFeed_framed peer _ k.code (requestPdu k.code addr count) hf rfl hlen).mpr
  refine ⟨k.code_plain, _, ?_, rfl⟩
  rw [k.parse_eq]
  apply (parseRead_accepts _ _ _ _ _).mpr
  refine ⟨le_rfl, addr, ?_, count, ?_, hc, rfl⟩
  · exact get16_put16 [k.code] (put16 count ++ crcBytes _) addr 1 rfl
  · exact get16_put16 ([k.code] ++ put16 addr) (crcBytes _) count 3 rfl

/-- At any other address the frame looks longer than it is, or ends before the count. -/
theorem feed_unreadable (k : ReadKind) (addr count : UInt16) (peer peer' : PaModbus τ) (a : UInt8)
    (hf : peer.framerType = .rtu) (ha : ¬ ReadableAddr addr) :
    (paModbusSlaveFeed (rtuFrame a (requestPdu k.code addr count))).run peer ≠
      some (paOk, peer') := by
  intro hrun
  obtain ⟨p, n, hu, hparse⟩ := slaveFeed_accepted _ _ _ hrun
  rw [unwrap_rtu _ _ hf] at hu
  obtain ⟨a', fc, body, rest, hd, he, -, rfl, rfl⟩ := (FramerRtu.unwrap_ok_iff _ _ _ _).mp hu
  have hfc : k.code = fc := by
    have h1 := congrArg (fun l : Bytes => l[1]?) hd
    simpa [rtuFrame, requestPdu] using h1
  have hlen : body.length + 4 + rest.length = 8 := by
    have hl := congrArg List.length hd
    simpa [requestPdu] using hl.symm
  -- the high byte counts as a byte count, so the frame must end within eight bytes
  rw [← hfc, request_expectedLen k _ (hiByte addr) (by simp [requestPdu]) rfl, hiByte_toNat] at he
  have hbad : 0x100 ≤ addr.toNat ∧ ¬ (0x300 ≤ addr.toNat ∧ addr.toNat < 0x400) ∧
      addr.toNat < 0xFB00 := by
    simp only [ReadableAddr] at ha
    omega
  rw [if_pos (by omega), Option.some.injEq, Except.ok.injEq] at he
  obtain ⟨-, fc', h0, -, r, hr, -⟩ := (parseSlaveRequest_accepts _ _ _ _).mp hparse
  obtain rfl : k.code = fc' := by simpa [rtuFrame, requestPdu] using h0
  rw [k.parse_eq] at hr
  have h5 := ((parseRead_accepts _ _ _ _ _).mp hr).1
  omega

/-- Read requests round-trip exactly at the addresses whose high byte is 0, 3 or above 250. -/
theorem read_round_trip_iff (k : ReadKind) (addr count : UInt16) (w : World σ) (peer : PaModbus τ)
    (hf : w.ctx.framerType = .rtu) (hp : peer.framerType = .rtu) (hs : peer.slave = w.ctx.slave)
    (hbuf : 8 ≤ w.ctx.txbuf.cells.length) (hc : 1 ≤ count.toNat ∧ count.toNat ≤ k.maxCount) :
    RoundTrips k addr count w peer ↔ ReadableAddr addr := by
  obtain ⟨w', hw, hsent⟩ := build_sent k addr count w hf hbuf hc
  rw [← hs] at hsent
  constructor
  · rintro ⟨ret, w'', hw', -, peer', hfeed, -⟩
    obtain rfl : w' = w'' := by
      rw [hw, Option.some.injEq, Prod.mk.injEq] at hw'
      exact hw'.2
    by_contra ha
    rw [hsent] at hfeed
    exact feed_unreadable k addr count peer peer' _ hp ha hfeed
  · intro ha
    have hfeed := feed_readable k addr count peer hp ha hc
    rw [← hsent] at hfeed
    exact ⟨8, w', hw, by decide, _, hfeed, rfl, rfl, rfl⟩

def master : World Unit := ⟨station .rtu 1 16 16, (), 1, []⟩

theorem low_read_round_trips :
    RoundTrips .holdingRegisters 0x0010 10 master master.ctx :=
  (read_round_trip_iff .holdingRegisters 0x0010 10 master master.ctx rfl rfl rfl (by decide)
    (by decide)).mpr (by decide)

/-- Ten registers from 0x0100 on: the slave takes the 0x01 for a byte count,
and two bytes of the request for a check value. -/
theorem high_read_refused : ¬ RoundTrips .holdingRegisters 0x0100 10 master master.ctx := by
  rintro ⟨ret, w', hw, -, peer', hfeed, -⟩
  have hrun : ((ReadKind.holdingRegisters.build 0x0100 10).run master).bind
      (fun r => ((paModbusSlaveFeed (sent r.2)).run master.ctx).map Prod.fst) =
        some paErrCrc := rfl
  rw [hw, Option.bind_some, hfeed] at hrun
  cases hrun

end Pamodbus.ReadRequests
