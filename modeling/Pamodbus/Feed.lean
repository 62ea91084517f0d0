import Pamodbus.MasterParse
import Pamodbus.SlaveAccept

namespace Pamodbus.Feed

open Pamodbus.Lib.Procedure
open Pamodbus.Context Pamodbus.Crc16 Pamodbus.FramerRtu Pamodbus.Framer
open Pamodbus.SlaveParse Pamodbus.SlaveAccept Pamodbus.MasterParse

variable {σ : Type}

def paModbusMasterFeed (data : Bytes) : Proc (PaModbus σ) Int := do
  match ← access (unwrap (← get) data) with
  | .ret ret =>
    if ret < 0 then
      modify fun ctx => { ctx with result := { ctx.result with lastError := ret } }
    return ret
  | .ok pdu pduLen => parseMasterResponse (data.drop pdu) pduLen

def paModbusSlaveFeed (data : Bytes) : Proc (PaModbus σ) Int := do
  match ← access (unwrap (← get) data) with
  | .ret ret => return ret
  | .ok pdu pduLen => parseSlaveRequest (data.drop pdu) pduLen

theorem slaveFeed_ret (ctx : PaModbus σ) (data : Bytes) (r : Int)
    (h : unwrap ctx data = some (.ret r)) : (paModbusSlaveFeed data).run ctx = some (r, ctx) := by
  simp only [paModbusSlaveFeed, StateT.run_bind, StateT.run_get, Option.pure_def,
    Option.bind_eq_bind, Option.bind_some, h, access_some, StateT.run_pure]

theorem slaveFeed_ok (ctx : PaModbus σ) (data : Bytes) (p n : Nat)
    (h : unwrap ctx data = some (.ok p n)) :
    (paModbusSlaveFeed data).run ctx = (parseSlaveRequest (data.drop p) n).run ctx := by
  simp only [paModbusSlaveFeed, StateT.run_bind, StateT.run_get, Option.pure_def,
    Option.bind_eq_bind, Option.bind_some, h, access_some, StateT.run_pure]

theorem masterFeed_ok (ctx : PaModbus σ) (data : Bytes) (p n : Nat)
    (h : unwrap ctx data = some (.ok p n)) :
    (paModbusMasterFeed data).run ctx = (parseMasterResponse (data.drop p) n).run ctx := by
  simp only [paModbusMasterFeed, StateT.run_bind, StateT.run_get, Option.pure_def,
    Option.bind_eq_bind, Option.bind_some, h, access_some, StateT.run_pure]

theorem masterFeed_ret (ctx : PaModbus σ) (data : Bytes) (r : Int)
    (h : unwrap ctx data = some (.ret r)) :
    (paModbusMasterFeed data).run ctx = some (r,
      if r < 0 then { ctx with result := { ctx.result with lastError := r } } else ctx) := by
  simp only [paModbusMasterFeed, StateT.run_bind, StateT.run_get, Option.pure_def,
    Option.bind_eq_bind, Option.bind_some, h, access_some, StateT.run_pure]
  split
  · simp only [StateT.run_bind, StateT.run_modify, Option.pure_def, Option.bind_eq_bind,
      Option.bind_some, StateT.run_pure]
  · rfl

theorem slaveFeed_accepted (ctx ctx' : PaModbus σ) (data : Bytes)
    (h : (paModbusSlaveFeed data).run ctx = some (paOk, ctx')) :
    ∃ p n, unwrap ctx data = some (.ok p n) ∧
      (parseSlaveRequest (data.drop p) n).run ctx = some (paOk, ctx') := by
  obtain ⟨u, hu⟩ := Framer.unwrap_defined ctx data
  cases u with
  | ok p n =>
    rw [slaveFeed_ok ctx data p n hu] at h
    exact ⟨p, n, hu, h⟩
  | ret r =>
    rw [slaveFeed_ret ctx data r hu, Option.some.injEq, Prod.mk.injEq] at h
    exact absurd h.1 (Framer.unwrap_ret_ne ctx data r hu)

theorem slaveFeed_framed (ctx ctx' : PaModbus σ) (fc : UInt8) (pdu : Bytes)
    (hf : ctx.framerType = .rtu) (h0 : pdu[0]? = some fc)
    (he : expectedLen fc (rtuFrame ctx.slave pdu) = some (.ok (pdu.length + 3))) :
    (paModbusSlaveFeed (rtuFrame ctx.slave pdu)).run ctx = some (paOk, ctx') ↔
      fc &&& 0x80 = 0 ∧ ∃ r, (parseRequest fc (pdu ++ crcBytes (ctx.slave :: pdu)) pdu.length).run
            { ctx.request with slaveDataValid := false } = some (paOk, r) ∧
        ctx' = { ctx with lastFunction := fc, request := r } := by
  obtain ⟨body, rfl⟩ : ∃ body, pdu = fc :: body := by
    cases pdu with
    | nil => simp at h0
    | cons b body => exact ⟨body, by simpa using h0⟩
  have hu : unwrap ctx (rtuFrame ctx.slave (fc :: body)) = some (.ok 1 (body.length + 1)) := by
    rw [unwrap, hf]
    exact unwrap_frame ctx ctx.slave fc body he (accepts_self ctx)
  rw [slaveFeed_ok _ _ _ _ hu, parseSlaveRequest_accepts]
  constructor
  · rintro ⟨-, fc', h0, hfc, hr⟩
    obtain rfl : fc = fc' := by simpa [rtuFrame] using h0
    exact ⟨hfc, hr⟩
  · rintro ⟨hfc, hr⟩
    exact ⟨by omega, fc, rfl, hfc, hr⟩

end Pamodbus.Feed
