import Pamodbus.Conveyed

namespace Pamodbus.Serving

open Pamodbus.Lib.Banks Pamodbus.Lib.Procedure Pamodbus.Lib.Words
open Pamodbus.Context Pamodbus.FramerRtu Pamodbus.Framer Pamodbus.Builders

open Pamodbus.ReadRequests Pamodbus.WriteRequests Pamodbus.DataModel Pamodbus.MaskWrites
open Pamodbus.Respond Pamodbus.RespondRun
open Pamodbus.Transactions Pamodbus.Transactions.Transaction Pamodbus.Conveyed

variable {σ τ : Type}

def sentBytes : Call → Bytes
  | .send data => data
  | _ => []

def transmitted (w : World σ) : Bytes := w.calls.flatMap fun c => sentBytes c.1

@[simp] theorem transmitted_called (w : World σ) (call : Call) (ret : Int) (app : σ) :
    transmitted (w.called call ret app) = transmitted w ++ sentBytes call := by
  simp [transmitted, World.called]

/-- Only callbacks for coils and registers have been invoked. -/
def Served (w w' : World σ) : Prop := w'.ctx = w.ctx ∧ transmitted w' = transmitted w

theorem served_called {w w' : World σ} (h : Served w w') (call : Call) (ret : Int) (app : σ)
    (hc : sentBytes call = []) : Served w (w'.called call ret app) := by
  refine ⟨h.1, ?_⟩
  rw [transmitted_called, hc, List.append_nil, h.2]

theorem served_self (w : World σ) : Served w w := ⟨rfl, rfl⟩

def Replies (τ : Type) (view : σ → Tables) (w : World σ) (x : Transaction) (reply : Reply)
    (after : Tables) (run : Option (Int × World σ)) : Prop :=
  ∃ pdu n w', run = (RespondRun.reply pdu n).run w' ∧ n = pdu.length ∧ n ≤ 252 ∧ Served w w' ∧
    view w'.app = after ∧ Conveys τ w.ctx.slave x pdu reply

def Refuses (view : σ → Tables) (w : World σ) (run : Option (Int × World σ)) : Prop :=
  ∃ w', run = some (paErrCallback, w') ∧ Served w w' ∧ view w'.app = view w.app

/-- The responder carries out what lies inside of the tables, and refuses the rest. -/
def Obeys (τ : Type) (view : σ → Tables) (size : ReadKind → Nat) (w : World σ) (x : Transaction)
    (run : Option (Int × World σ)) : Prop :=
  (x.Inside size → Replies τ view w x (x.confirmation (view w.app))
    (x.next (view w.app)) run) ∧ (¬ x.Inside size → Refuses view w run)

section

variable {view : σ → Tables} {size : ReadKind → Nat} {w : World σ} {x : Transaction}

theorem obeys_refused {run : Option (Int × World σ)} (call : Call) (ret : Int) (app : σ)
    (hcall : sentBytes call = []) (hout : ¬ x.Inside size) (happ : view app = view w.app)
    (hrun : run = some (paErrCallback, w.called call ret app)) : Obeys τ view size w x run :=
  ⟨fun hin => absurd hin hout, fun _ => ⟨_, hrun, served_called (served_self w) call ret app hcall,
    happ⟩⟩

theorem obeys_replied {run : Option (Int × World σ)} (call : Call) (ret : Int) (app : σ)
    (pdu : Bytes) (n : Nat) (hcall : sentBytes call = []) (hin : x.Inside size)
    (happ : view app = x.next (view w.app))
    (hrun : run = (reply pdu n).run (w.called call ret app)) (hn : n = pdu.length) (hmax : n ≤ 252)
    (hconveys : Conveys τ w.ctx.slave x pdu (x.confirmation (view w.app))) :
    Obeys τ view size w x run :=
  ⟨fun _ => ⟨pdu, n, _, hrun, hn, hmax, served_called (served_self w) call ret app hcall, happ,
    hconveys⟩, fun hout => absurd hin hout⟩

theorem readBits_obeys (kind : ReadKind) (addr count : UInt16) (cb : Option (ReadCoilsFn σ))
    (call : UInt16 → UInt16 → Call) (hk : kind = .coils ∨ kind = .discreteInputs)
    (hcall : ∀ a c, sentBytes (call a c) = []) (hcb : ReadsBits cb view kind (size kind))
    (ha : w.ctx.request.slaveAddr = addr) (hc : w.ctx.request.slaveCount = count)
    (hcount : 1 ≤ count.toNat ∧ count.toNat ≤ 264) :
    Obeys τ view size w (.read kind addr count)
      ((respondReadBits kind.code cb call >>= conclude).run w) := by
  obtain ⟨f, rfl, hserve⟩ := hcb
  obtain ⟨hview, hret⟩ := hserve addr count w.app
  have hbytes : coilBytes count ≤ 33 := by
    rw [coilBytes]
    omega
  rw [respondReadBits_run _ _ _ _ _ _ ha hc]
  dsimp only [withCallback]
  rw [if_neg (by omega)]
  split at hret
  next hin =>
    obtain ⟨h0, hbits⟩ := hret
    have hl : (f addr count w.app).2.1.toList.length = coilBytes count := by simp
    rw [if_neg (not_not.mpr h0)]
    refine obeys_replied (call addr count) _ _ _ _ (hcall _ _) hin hview rfl ?_ (by omega)
      (bits_conveyed kind addr count _ _ _ hk hcount hl hbits)
    rw [List.length_append, hl]
    rfl
  next hout =>
    rw [if_pos hret]
    exact obeys_refused (call addr count) _ _ (hcall _ _) hout hview rfl

theorem readWords_obeys (residue : Residue) (kind : ReadKind) (addr count : UInt16)
    (cb : Option (ReadRegistersFn σ)) (call : UInt16 → UInt16 → Call)
    (hk : kind = .holdingRegisters ∨ kind = .inputRegisters)
    (hcall : ∀ a c, sentBytes (call a c) = []) (hcb : ReadsWords cb view kind (size kind))
    (ha : w.ctx.request.slaveAddr = addr) (hc : w.ctx.request.slaveCount = count)
    (hcount : 1 ≤ count.toNat ∧ count.toNat ≤ 125) :
    Obeys τ view size w (.read kind addr count)
      ((respondReadRegisters residue kind.code cb call >>= conclude).run w) := by
  obtain ⟨f, rfl, hserve⟩ := hcb
  obtain ⟨hview, hret⟩ := hserve addr count w.app
  rw [respondReadRegisters_run _ _ _ _ _ _ _ ha hc]
  dsimp only [withCallback]
  rw [if_neg (by omega)]
  split at hret
  next hin =>
    obtain ⟨h0, hvalues⟩ := hret
    rw [if_neg (not_not.mpr h0), hvalues]
    refine obeys_replied (call addr count) _ _ _ _ (hcall _ _) hin hview rfl ?_ (by omega)
      (words_conveyed kind addr count _ _ hk hcount)
    rw [List.length_append, registerBytes_length, readRange_length, Nat.mul_comm]
    rfl
  next hout =>
    rw [if_pos hret]
    exact obeys_refused (call addr count) _ _ (hcall _ _) hout hview rfl

theorem write_obeys {request : WriteRequest} (call : Call) (r : Int × σ) (pdu : Bytes) (n : Nat)
    (f : Data → Data) (hcall : sentBytes call = [])
    (hstores : Stores view (size (table (.write request))) request.addr request.count w.app f r)
    (hstored : f (view w.app).outputs = stored (view w.app).outputs request)
    (hn : n = pdu.length) (hmax : n ≤ 252)
    (hconveys : Conveys τ w.ctx.slave (.write request) pdu
      (Transaction.confirmation (view w.app) (.write request))) :
    Obeys τ view size w (.write request)
      (if r.1 ≠ 0 then some (paErrCallback, w.called call r.1 r.2)
        else (reply pdu n).run (w.called call r.1 r.2)) := by
  rw [Stores] at hstores
  split at hstores
  next hin =>
    obtain ⟨h0, hview⟩ := hstores
    rw [if_neg (not_not.mpr h0)]
    refine obeys_replied call _ _ pdu n hcall hin ?_ rfl hn hmax hconveys
    rw [hview, hstored, Transaction.next]
  next hout =>
    obtain ⟨h0, hview⟩ := hstores
    rw [if_pos h0]
    exact obeys_refused call _ _ hcall hout hview rfl

end

theorem coils_stored {values : List UInt8} {r : SlaveRequest} {n : Nat}
    (h : WriteRequest.CoilsStored values r) (hn : n = (values.length + 7) / 8) :
    readRange (bitAt (r.slaveCoilData.toList.take n)) 0 values.length =
      values.map fun v => decide (v ≠ 0) := by
  symm
  refine eq_readRange (by simp) fun i b hb => ?_
  rw [List.getElem?_map, Option.map_eq_some_iff] at hb
  obtain ⟨v, hv, rfl⟩ := hb
  obtain ⟨hi, -⟩ := List.getElem?_eq_some_iff.mp hv
  rw [Nat.zero_add, ← h i v hv]
  exact (bitAt_congr (List.getElem?_take_of_lt (by omega))).symm

section

variable {view : σ → Tables} {size : ReadKind → Nat} {w : World σ} (residue : Residue)
  (ho : OverTables w.ctx.callbacks view size)

include ho

theorem read_obeyed (kind : ReadKind) (addr count : UInt16)
    (hv : (Transaction.read kind addr count).Valid) (hh : Held w.ctx (.read kind addr count)) :
    Obeys τ view size w (.read kind addr count) ((paModbusSlaveRespond residue).run w) := by
  obtain ⟨hfc, ha, hc⟩ := hh
  obtain ⟨-, h1, hmax⟩ := hv
  rw [respond_run, hfc]
  cases kind with
  | coils =>
    exact readBits_obeys .coils addr count _ Call.readCoils (.inl rfl) (fun _ _ => rfl)
      ho.readCoils ha hc ⟨h1, hmax⟩
  | discreteInputs =>
    exact readBits_obeys .discreteInputs addr count _ Call.readDiscreteInputs (.inr rfl)
      (fun _ _ => rfl) ho.readDiscreteInputs ha hc ⟨h1, hmax⟩
  | holdingRegisters =>
    exact readWords_obeys residue .holdingRegisters addr count _ Call.readHoldingRegisters
      (.inl rfl) (fun _ _ => rfl) ho.readHoldingRegisters ha hc ⟨h1, hmax⟩
  | inputRegisters =>
    exact readWords_obeys residue .inputRegisters addr count _ Call.readInputRegisters (.inr rfl)
      (fun _ _ => rfl) ho.readInputRegisters ha hc ⟨h1, hmax⟩

theorem write_obeyed (request : WriteRequest) (hv : (Transaction.write request).Valid)
    (hh : Held w.ctx (.write request)) (hmask : ∀ addr a o, request ≠ .maskRegister addr a o) :
    Obeys τ view size w (.write request) ((paModbusSlaveRespond residue).run w) := by
  obtain ⟨⟨hfc, ha, hc, hs⟩, hbyte⟩ := hh
  obtain ⟨hcount, hfit⟩ := hv
  rw [respond_run, hfc]
  cases request with
  | singleCoil addr value =>
    obtain ⟨f, hcb, hstores⟩ := ho.writeSingleCoil
    have hon : decide ((if value ≠ 0 then (1 : UInt8) else 0) ≠ 0) = decide (value ≠ 0) := by
      by_cases hz : value = 0
      · simp [hz]
      · simp [hz]
    change Obeys _ _ _ _ _ ((respondWriteSingleCoil 0x05 >>= conclude).run w)
    rw [respondWriteSingleCoil_run _ _ _ _ ha (hbyte addr value rfl), hcb]
    exact write_obeys (.writeSingleCoil addr _) _ _ 5 _ rfl (hstores addr _ w.app)
      (by rw [hon]; rfl) rfl (by decide) (echo_conveyed _ _ _ _ _ (.inl rfl))
  | singleRegister addr value =>
    obtain ⟨f, hcb, hstores⟩ := ho.writeSingleRegister
    have hvalue : w.ctx.request.slaveRegData.toList[0]? = some value := by
      obtain ⟨rest, hrest⟩ := hs
      rw [← hrest]
      rfl
    change Obeys _ _ _ _ _ ((respondWriteSingleRegister 0x06 >>= conclude).run w)
    rw [respondWriteSingleRegister_run _ _ _ _ ha hvalue, hcb]
    exact write_obeys (.writeSingleRegister addr value) _ _ 5 _ rfl (hstores addr value w.app) rfl
      rfl (by decide) (echo_conveyed _ _ _ _ _ (.inr rfl))
  | multipleCoils addr values =>
    obtain ⟨f, hcb, hstores⟩ := ho.writeMultipleCoils
    have hfit : values.length ≤ 264 := hfit
    have hc : w.ctx.request.slaveCount.toNat = values.length := hc
    have hbytes : coilBytes w.ctx.request.slaveCount = (values.length + 7) / 8 := by
      rw [coilBytes, hc]
    have hstored := coils_stored hs hbytes
    rw [← hc] at hstored
    have hdone := hstores addr w.ctx.request.slaveCount
      (w.ctx.request.slaveCoilData.toList.take (coilBytes w.ctx.request.slaveCount)) w.app
      (by rw [List.length_take, List.Vector.toList_length]; omega)
    rw [hc] at hdone
    change Obeys _ _ _ _ _ ((respondWriteMultipleCoils 0x0F >>= conclude).run w)
    rw [respondWriteMultipleCoils_run _ _ _ _ ha rfl, hcb]
    dsimp only [withCallback]
    exact write_obeys (.writeMultipleCoils addr _ _) _ _ 5 _ rfl hdone
      (by rw [← hc, hstored]; rfl) rfl (by decide) (echo_unanswered _ _ _ _ _ (.inl rfl))
  | multipleRegisters addr values =>
    obtain ⟨f, hcb, hstores⟩ := ho.writeMultipleRegisters
    have hcount : 1 ≤ values.length ∧ values.length ≤ 123 := hcount
    have hc : w.ctx.request.slaveCount.toNat = values.length := hc
    have htake : w.ctx.request.slaveRegData.toList.take w.ctx.request.slaveCount.toNat = values := by
      rw [hc]
      exact (List.prefix_iff_eq_take.mp hs).symm
    have hdone := hstores addr w.ctx.request.slaveCount values w.app hc.symm
    rw [hc] at hdone
    change Obeys _ _ _ _ _ ((respondWriteMultipleRegisters 0x10 >>= conclude).run w)
    rw [respondWriteMultipleRegisters_run _ _ _ _ ha rfl, hcb]
    dsimp only [withCallback]
    rw [htake]
    exact write_obeys (.writeMultipleRegisters addr _ _) _ _ 5 _ rfl hdone rfl rfl (by decide)
      (echo_unanswered _ _ _ _ _ (.inr rfl))
  | maskRegister addr andMask orMask => exact absurd rfl (hmask addr andMask orMask)

/-- A masked write is confirmed, whether or not the register is there. -/
theorem mask_replied (addr andMask orMask : UInt16)
    (hh : Held w.ctx (.write (.maskRegister addr andMask orMask))) (code : UInt8) :
    Replies τ view w (.write (.maskRegister addr andMask orMask)) .written
      (Transaction.fulfil size code (view w.app) (.write (.maskRegister addr andMask orMask))).2
      ((paModbusSlaveRespond residue).run w) := by
  obtain ⟨⟨hfc, ha, -, hs⟩, -⟩ := hh
  have hs : [andMask, orMask] <+: w.ctx.request.slaveRegData.toList := hs
  have ha : w.ctx.request.slaveAddr = addr := ha
  have hconveys := mask_conveyed (τ := τ) (.maskRegister addr andMask orMask) addr andMask orMask
    w.ctx.slave
  obtain ⟨f, hcb, hserve⟩ := ho.readHoldingRegisters
  obtain ⟨hview, hret⟩ := hserve addr 1 w.app
  obtain ⟨g, hwcb, hstores⟩ := ho.writeSingleRegister
  rw [respond_run, hfc]
  change Replies _ _ _ _ _ _ ((respondMaskWriteRegister residue 0x16 >>= conclude).run w)
  rw [respondMaskWriteRegister_run _ _ _ _ _ _ ha (List.prefix_iff_eq_take.mp hs).symm, hwcb, hcb]
  dsimp only [withCallback]
  have hread := served_called (served_self w) (.readHoldingRegisters addr 1) (f addr 1 w.app).1
    (f addr 1 w.app).2.2 rfl
  rw [fulfil]
  by_cases hin : (Transaction.write (.maskRegister addr andMask orMask)).Inside size
  · have hle : addr.toNat + 1 ≤ size .holdingRegisters := hin
    rw [if_pos (show addr.toNat + (1 : UInt16).toNat ≤ size .holdingRegisters from hle)] at hret
    obtain ⟨h0, hvalue⟩ := hret
    have hcur : (f addr 1 w.app).2.1.toList.headD 0 = (view w.app).outputs.registers addr.toNat := by
      rw [hvalue]
      rfl
    have hstored := hstores addr (Mask.written ⟨addr, andMask, orMask⟩
      ((view w.app).outputs.registers addr.toNat)) (f addr 1 w.app).2.2
    rw [Stores, if_pos hle, hview] at hstored
    have hdone : (g addr (((view w.app).outputs.registers addr.toNat &&& andMask) ||| orMask)
        (f addr 1 w.app).2.2).1 = 0 := hstored.1
    rw [if_neg (not_not.mpr h0), hcur, World.called_app, if_neg (not_not.mpr hdone), if_pos hin]
    exact ⟨_, 7, _, rfl, rfl, by decide, served_called hread _ _ _ rfl, hstored.2, hconveys⟩
  · rw [if_neg (show ¬ addr.toNat + (1 : UInt16).toNat ≤ size .holdingRegisters from hin)] at hret
    rw [if_pos hret, if_neg hin]
    exact ⟨_, 7, _, rfl, rfl, by decide, hread, hview, hconveys⟩

end

/-- The responder of a slave, and an exception response where it fails. -/
def serve (code : UInt8) (residue : Residue) : Proc (World σ) Int := do
  let len ← paModbusSlaveRespond residue
  if len < 0 then paModbusSlaveRespondError code else return len

theorem held_code {ctx : PaModbus σ} {x : Transaction} (h : Held ctx x) :
    ctx.lastFunction = x.code := by
  cases x with
  | read kind addr count => exact h.1
  | write request => exact h.1.1

theorem code_range (x : Transaction) : 1 ≤ x.code ∧ x.code ≤ 0x18 := by
  have h (c : UInt8) (hc : 1 ≤ c ∧ c ≤ 0x18) (he : x.code = c) : 1 ≤ x.code ∧ x.code ≤ 0x18 := by
    rwa [he]
  cases x with
  | read kind addr count =>
    cases kind with
    | coils => exact h 0x01 (by decide) rfl
    | discreteInputs => exact h 0x02 (by decide) rfl
    | holdingRegisters => exact h 0x03 (by decide) rfl
    | inputRegisters => exact h 0x04 (by decide) rfl
  | write request =>
    cases request with
    | singleCoil addr value => exact h 0x05 (by decide) rfl
    | singleRegister addr value => exact h 0x06 (by decide) rfl
    | multipleCoils addr values => exact h 0x0F (by decide) rfl
    | multipleRegisters addr values => exact h 0x10 (by decide) rfl
    | maskRegister addr andMask orMask => exact h 0x16 (by decide) rfl

theorem reply_framed (pdu : Bytes) (w : World σ) (hf : w.ctx.framerType = .rtu)
    (hmax : pdu.length ≤ 252) (htx : 255 ≤ w.ctx.txbuf.cells.length) :
    (reply pdu pdu.length).run w = some (((pdu.length + 3 : Nat) : Int),
      framed (w.withTx (w.ctx.txbuf.patch pdu)) (rtuFrame w.ctx.slave pdu)) := by
  have ho : overhead w.ctx.framerType = 3 := by rw [hf, overhead]
  have he := emit_finish pdu pdu.length w (by omega) le_rfl (by omega) (by omega)
  rw [ho, List.take_length, frame, hf] at he
  exact he

/-- What the slave has done when it has carried out and answered a request. -/
def Answers (τ : Type) (view : σ → Tables) (w : World σ) (x : Transaction) (done : Reply × Tables)
    (run : Option (Int × World σ)) : Prop :=
  ∃ pdu w', run = some (((pdu.length + 3 : Nat) : Int),
      framed (w'.withTx (w'.ctx.txbuf.patch pdu)) (rtuFrame w.ctx.slave pdu)) ∧
    pdu.length ≤ 252 ∧ Served w w' ∧ view w'.app = done.2 ∧ Conveys τ w.ctx.slave x pdu done.1

theorem replied_answers {view : σ → Tables} {w : World σ} {x : Transaction} {reply : Reply}
    {after : Tables} (residue : Residue) (code : UInt8) (hf : w.ctx.framerType = .rtu)
    (htx : 255 ≤ w.ctx.txbuf.cells.length)
    (h : Replies τ view w x reply after ((paModbusSlaveRespond residue).run w)) :
    Answers τ view w x (reply, after) ((serve code residue).run w) := by
  obtain ⟨pdu, n, w', hrun, rfl, hmax, hserved, hview, hconveys⟩ := h
  have hfin := reply_framed pdu w' (by rw [hserved.1]; exact hf) hmax (by rw [hserved.1]; exact htx)
  refine ⟨pdu, w', ?_, hmax, hserved, hview, hconveys⟩
  rw [serve, bind_defined _ _ _ _ _ (hrun.trans hfin), if_neg (by omega), hserved.1]
  rfl

theorem refused_answers {view : σ → Tables} {w : World σ} {x : Transaction} (residue : Residue)
    (code : UInt8) (hf : w.ctx.framerType = .rtu) (htx : 255 ≤ w.ctx.txbuf.cells.length)
    (hfc : w.ctx.lastFunction = x.code) (h : Refuses view w ((paModbusSlaveRespond residue).run w)) :
    Answers τ view w x (.refused code, view w.app) ((serve code residue).run w) := by
  obtain ⟨w', hrun, hserved, hview⟩ := h
  have hfin := reply_framed [w'.ctx.lastFunction ||| 0x80, code] w' (by rw [hserved.1]; exact hf)
    (by simp) (by rw [hserved.1]; exact htx)
  refine ⟨[x.code ||| 0x80, code], w', ?_, by simp, hserved, hview,
    exception_conveyed x x.code code w.ctx.slave (code_range x)⟩
  rw [serve, bind_defined _ _ _ _ _ hrun, if_pos (by decide), respondError_run]
  rw [hserved.1, hfc] at hfin
  rw [hserved.1, hfc]
  exact hfin

/-- A request that is held is carried out as one step over the tables, and answered. -/
theorem held_served {view : σ → Tables} {size : ReadKind → Nat} {w : World σ} (residue : Residue)
    (ho : OverTables w.ctx.callbacks view size) {x : Transaction} (hv : x.Valid)
    (hh : Held w.ctx x) (hf : w.ctx.framerType = .rtu) (htx : 255 ≤ w.ctx.txbuf.cells.length)
    (code : UInt8) :
    Answers τ view w x (x.fulfil size code (view w.app)) ((serve code residue).run w) := by
  have hobeys (hne : x.refusal code = .refused code)
      (h : Obeys τ view size w x ((paModbusSlaveRespond residue).run w)) :
      Answers τ view w x (x.fulfil size code (view w.app)) ((serve code residue).run w) := by
    rw [fulfil]
    split
    next hin => exact replied_answers residue code hf htx (h.1 hin)
    next hout =>
      rw [hne]
      exact refused_answers residue code hf htx (held_code hh) (h.2 hout)
  cases x with
  | read kind addr count => exact hobeys rfl (read_obeyed residue ho kind addr count hv hh)
  | write request =>
    cases request with
    | singleCoil addr value | singleRegister addr value | multipleCoils addr values
    | multipleRegisters addr values =>
      exact hobeys rfl (write_obeyed residue ho _ hv hh fun _ _ _ => WriteRequest.noConfusion)
    | maskRegister addr andMask orMask =>
      have h := mask_replied residue ho addr andMask orMask hh code (τ := τ)
      have hw : (Transaction.fulfil size code (view w.app)
          (.write (.maskRegister addr andMask orMask))).1 = .written := by
        rw [fulfil]
        split
        · rfl
        · rfl
      have ha := replied_answers residue code hf htx h
      rw [← hw] at ha
      exact ha

end Pamodbus.Serving
