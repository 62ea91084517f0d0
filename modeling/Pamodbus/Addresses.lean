import Pamodbus.Feed
import Pamodbus.Lib.Commuting

namespace Pamodbus.Addresses

open Pamodbus.Lib.Commuting Pamodbus.Lib.Procedure
open Pamodbus.Context Pamodbus.FramerRtu Pamodbus.Framer Pamodbus.MasterParse
open Pamodbus.SlaveParse Pamodbus.Feed

variable {σ : Type} {ctx : PaModbus σ} {id : UInt8} {pdu : Bytes}

theorem parseMasterResponse_readdressed (pdu : Bytes) (n : Nat) :
    Commutes (paModbusSetSlave id) (parseMasterResponse pdu n : Proc (PaModbus σ) Int) := by
  have hmodify (g : PaModbus σ → PaModbus σ)
      (h : ∀ ctx, g (paModbusSetSlave id ctx) = paModbusSetSlave id (g ctx)) :
      Commutes (paModbusSetSlave id) (modify g : Proc (PaModbus σ) Unit) := commutes_modify h
  refine commutes_ite (commutes_pure _) (commutes_bind (commutes_access _) fun _ =>
    commutes_bind (hmodify _ fun _ => rfl) fun _ => commutes_ite ?_ ?_)
  · exact commutes_ite (commutes_pure _) (commutes_bind (commutes_access _) fun _ =>
      commutes_bind (hmodify _ fun _ => rfl) fun _ => commutes_pure _)
  · exact commutes_bind (hmodify _ fun _ => rfl) fun _ =>
      commutes_focus _ (fun _ => rfl) fun _ _ => rfl

theorem parseSlaveRequest_readdressed (pdu : Bytes) (n : Nat) :
    Commutes (paModbusSetSlave id) (parseSlaveRequest pdu n : Proc (PaModbus σ) Int) :=
  commutes_ite (commutes_pure _) (commutes_bind (commutes_access _) fun _ =>
    commutes_bind (commutes_modify fun _ => rfl) fun _ =>
      commutes_ite (commutes_pure _) (commutes_focus _ (fun _ => rfl) fun _ _ => rfl))

theorem unwrap_readdressed (hf : ctx.framerType = .rtu) (ha : accepts ctx id = true) (pdu : Bytes) :
    unwrap (paModbusSetSlave id ctx) (rtuFrame id pdu) = unwrap ctx (rtuFrame id pdu) := by
  have hown : accepts (paModbusSetSlave id ctx) id = true := accepts_self (paModbusSetSlave id ctx)
  have h0 : (rtuFrame id pdu)[0]? = some id := rfl
  rw [unwrap_rtu _ _ hf, unwrap_rtu (paModbusSetSlave id ctx) _ hf]
  simp only [paFramerRtuUnwrap, h0, Option.bind_eq_bind, Option.bind_some, ha, hown]

theorem slaveFeed_readdressed (hf : ctx.framerType = .rtu) (ha : accepts ctx id = true)
    {ret : Int} {ctx' : PaModbus σ}
    (h : (paModbusSlaveFeed (rtuFrame id pdu)).run (paModbusSetSlave id ctx) = some (ret, ctx')) :
    ∃ ctx'', (paModbusSlaveFeed (rtuFrame id pdu)).run ctx = some (ret, ctx'') ∧
      ctx' = paModbusSetSlave id ctx'' := by
  obtain ⟨u, hu⟩ := Framer.unwrap_defined ctx (rtuFrame id pdu)
  have hu' := (unwrap_readdressed hf ha pdu).trans hu
  cases u with
  | ret r =>
    rw [slaveFeed_ret _ _ _ hu'] at h
    obtain ⟨rfl, rfl⟩ := Prod.mk.inj (Option.some.inj h)
    exact ⟨ctx, slaveFeed_ret _ _ _ hu, rfl⟩
  | ok p n =>
    rw [slaveFeed_ok _ _ _ _ hu'] at h
    rw [slaveFeed_ok _ _ _ _ hu]
    exact (parseSlaveRequest_readdressed _ n).run_inv h

theorem masterFeed_readdressed (hf : ctx.framerType = .rtu) (ha : accepts ctx id = true)
    {ret : Int} {ctx' : PaModbus σ}
    (h : (paModbusMasterFeed (rtuFrame id pdu)).run (paModbusSetSlave id ctx) = some (ret, ctx')) :
    ∃ ctx'', (paModbusMasterFeed (rtuFrame id pdu)).run ctx = some (ret, ctx'') ∧
      ctx' = paModbusSetSlave id ctx'' := by
  obtain ⟨u, hu⟩ := Framer.unwrap_defined ctx (rtuFrame id pdu)
  have hu' := (unwrap_readdressed hf ha pdu).trans hu
  cases u with
  | ret r =>
    rw [masterFeed_ret _ _ _ hu'] at h
    rw [masterFeed_ret _ _ _ hu]
    obtain ⟨rfl, rfl⟩ := Prod.mk.inj (Option.some.inj h)
    refine ⟨_, rfl, ?_⟩
    split
    · rfl
    · rfl
  | ok p n =>
    rw [masterFeed_ok _ _ _ _ hu'] at h
    rw [masterFeed_ok _ _ _ _ hu]
    exact (parseMasterResponse_readdressed _ n).run_inv h

end Pamodbus.Addresses
