import Pamodbus.ParseTotal
import Pamodbus.Lib.Hoare
import Pamodbus.Traversal
import Mathlib.Logic.Relation

namespace Pamodbus.History

open Pamodbus.Lib.Cells Pamodbus.Lib.Procedure Pamodbus.Lib.Hoare
open Pamodbus.Context Pamodbus.FramerRtu Pamodbus.FramerTcp Pamodbus.Framer Pamodbus.Builders
open Pamodbus.SlaveParse Pamodbus.ParseTotal Pamodbus.Feed Pamodbus.Respond Pamodbus.Traversal

variable {σ α : Type}

structure SameConfig (c d : PaModbus σ) : Prop where
  framerType : d.framerType = c.framerType
  slave : d.slave = c.slave
  discoveryAddr : d.discoveryAddr = c.discoveryAddr
  callbacks : d.callbacks = c.callbacks
  txSize : d.txbuf.cells.length = c.txbuf.cells.length

theorem sameConfig_refl (c : PaModbus σ) : SameConfig c c := ⟨rfl, rfl, rfl, rfl, rfl⟩

theorem SameConfig.trans {c d e : PaModbus σ} (h : SameConfig c d) (k : SameConfig d e) :
    SameConfig c e :=
  ⟨k.framerType.trans h.framerType, k.slave.trans h.slave,
    k.discoveryAddr.trans h.discoveryAddr, k.callbacks.trans h.callbacks, k.txSize.trans h.txSize⟩

def Keeps (p : Proc (World σ) α) : Prop := Within (fun w w' => SameConfig w.ctx w'.ctx) p

variable {F : World σ → World σ → Prop}

/-- A relation that stores to the transmit buffer and callback invocations maintain. -/
structure Stable (F : World σ → World σ → Prop) : Prop where
  refl : ∀ w, F w w
  trans : ∀ u v w, F u v → F v w → F u w
  stored : ∀ w b, b.cells.length = w.ctx.txbuf.cells.length → F w (w.withTx b)
  called : ∀ w call ret app, F w (w.called call ret app)

theorem stable_sameConfig : Stable fun w w' : World σ => SameConfig w.ctx w'.ctx where
  refl w := sameConfig_refl w.ctx
  trans _ _ _ h k := h.trans k
  stored _ _ h := ⟨rfl, rfl, rfl, rfl, h⟩
  called w _ _ _ := sameConfig_refl w.ctx

theorem stable_calls : Stable fun w w' : World σ => w.calls <+: w'.calls where
  refl _ := List.prefix_refl _
  trans _ _ _ h k := h.trans k
  stored _ _ _ := List.prefix_refl _
  called _ _ _ _ := List.prefix_append _ _

namespace Stable

variable (hF : Stable F)

include hF

theorem keeps_bind {β : Type} {p : Proc (World σ) α} {f : α → Proc (World σ) β}
    (hp : Within F p) (hf : ∀ a, Within F (f a)) : Within F (p >>= f) :=
  within_bind hF.trans hp hf

theorem keeps_pure (a : α) : Within F (pure a : Proc (World σ) α) := within_pure a hF.refl

theorem keeps_access (o : Option α) : Within F (access o : Proc (World σ) α) :=
  within_access o hF.refl

theorem keeps_txStore (off : Nat) (xs : Bytes) :
    Within F (txStore off xs : Proc (World σ) Unit) := by
  refine within_update fun w w' h => ?_
  obtain ⟨b, hb, rfl⟩ := Option.map_eq_some_iff.mp h
  exact hF.stored w b (Buffer.store_cells_length hb)

theorem keeps_get : Within F (get : Proc (World σ) (World σ)) := by
  rw [← bind_pure (get : Proc (World σ) (World σ))]
  exact within_get_bind fun w => hF.keeps_pure w

theorem closed : Closed fun _ p V => Yields F p V where
  ends a ha := yields_pure a hF.refl ha
  undefined := yields_undefined
  bind hp hf := yields_bind hF.trans hp hf
  get_bind _ hf := fun w => hf w w
  txStore off xs := (hF.keeps_txStore off xs).yields
  called call ret app := (within_modify fun w => hF.called w call ret app).yields

theorem keeps_respondPdu (residue : Residue) (cbs : Callbacks σ) (fc : UInt8) :
    Yields F (respondPdu residue cbs fc) Framable := hF.closed.holds_respondPdu residue cbs fc

end Stable

theorem keeps_wrap (hF : Stable F)
    (hn : ∀ w n, F w { w with nextTransactionId := n }) (pduLen : Int) :
    Within F (wrap pduLen : Proc (World σ) (Except Int Int)) := by
  refine hF.keeps_bind hF.keeps_get fun w => ?_
  split
  · exact (hF.closed.holds_paFramerRtuWrap pduLen).within
  · refine hF.keeps_bind hF.keeps_get fun w => hF.keeps_bind (hF.keeps_access _) fun _ =>
      within_ite (hF.keeps_pure _) ?_
    refine hF.keeps_bind (hF.keeps_access _) fun _ => hF.keeps_bind (hF.keeps_txStore _ _) fun _ =>
      hF.keeps_bind hF.keeps_get fun _ => ?_
    exact hF.keeps_bind (within_modify fun w => hn w _) fun _ =>
      hF.keeps_bind (hF.keeps_txStore _ _) fun _ => hF.keeps_pure _

theorem keeps_finish (pduLen : Int) : Keeps (finish pduLen : Proc (World σ) Int) := by
  refine stable_sameConfig.keeps_bind
    (keeps_wrap stable_sameConfig (fun w _ => sameConfig_refl w.ctx) pduLen) fun r => ?_
  cases r with
  | error ret => exact stable_sameConfig.keeps_pure _
  | ok framed =>
    exact stable_sameConfig.keeps_bind (within_modify fun w => ⟨rfl, rfl, rfl, rfl, rfl⟩) fun _ =>
      stable_sameConfig.keeps_pure _

theorem keeps_respond (residue : Residue) :
    Keeps (paModbusSlaveRespond residue : Proc (World σ) Int) := by
  refine stable_sameConfig.keeps_bind stable_sameConfig.keeps_get fun w =>
    stable_sameConfig.keeps_bind (stable_sameConfig.keeps_respondPdu _ _ _).within fun r => ?_
  cases r with
  | error ret => exact stable_sameConfig.keeps_pure _
  | ok pduLen => exact keeps_finish _

theorem keeps_respondError (exceptionCode : UInt8) :
    Keeps (paModbusSlaveRespondError exceptionCode : Proc (World σ) Int) :=
  stable_sameConfig.keeps_bind stable_sameConfig.keeps_get fun _ =>
    stable_sameConfig.keeps_bind (stable_sameConfig.keeps_txStore _ _) fun _ =>
      stable_sameConfig.keeps_bind (stable_sameConfig.keeps_txStore _ _) fun _ => keeps_finish _

theorem slaveFeed_parsed (data : Bytes) :
    Within Parsed (paModbusSlaveFeed data : Proc (PaModbus σ) Int) := by
  refine within_get_bind fun ctx => within_access_bind fun u => ?_
  cases u with
  | ret r => exact within_pure _ parsed_refl
  | ok p len => exact parseSlaveRequest_parsed _ _

theorem slaveFeed_sameConfig (data : Bytes) :
    Within SameConfig (paModbusSlaveFeed data : Proc (PaModbus σ) Int) := by
  intro ctx ret ctx' h
  obtain ⟨_, _, _, rfl⟩ := slaveFeed_parsed data ctx ret ctx' h
  exact ⟨rfl, rfl, rfl, rfl, rfl⟩

/-- One earlier call. The application does with its state what it likes in between. -/
inductive Step (c d : PaModbus σ) : Prop
  | feed (data : Bytes) (ret : Int) (h : (paModbusSlaveFeed data).run c = some (ret, d))
  | respond (residue : Residue) (w w' : World σ) (ret : Int) (hc : w.ctx = c) (hd : w'.ctx = d)
      (h : (paModbusSlaveRespond residue).run w = some (ret, w'))
  | respondError (code : UInt8) (w w' : World σ) (ret : Int) (hc : w.ctx = c) (hd : w'.ctx = d)
      (h : (paModbusSlaveRespondError code).run w = some (ret, w'))

/-- A context that a slave has after any feeds and responses. -/
def Reached (start ctx : PaModbus σ) : Prop := Relation.ReflTransGen Step start ctx

theorem step_sameConfig {c d : PaModbus σ} (h : Step c d) : SameConfig c d := by
  cases h with
  | feed data ret h => exact slaveFeed_sameConfig data c ret d h
  | respond residue w w' ret hc hd h => exact hc ▸ hd ▸ keeps_respond residue w ret w' h
  | respondError code w w' ret hc hd h => exact hc ▸ hd ▸ keeps_respondError code w ret w' h

theorem reached_sameConfig {start ctx : PaModbus σ} (h : Reached start ctx) :
    SameConfig start ctx := by
  induction h with
  | refl => exact sameConfig_refl start
  | tail _ hs ih => exact ih.trans (step_sameConfig hs)

end Pamodbus.History
