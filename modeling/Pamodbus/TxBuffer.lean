import Pamodbus.Calls
import Pamodbus.FileRecords
import Pamodbus.Lib.Runs

namespace Pamodbus.TxBuffer

open Pamodbus.Lib.Cells Pamodbus.Lib.CInt Pamodbus.Lib.Procedure Pamodbus.Lib.Hoare
open Pamodbus.Lib.Runs Pamodbus.Lib.Words
open Pamodbus.Context Pamodbus.Framer Pamodbus.Builders Pamodbus.Respond Pamodbus.RespondRun
open Pamodbus.FileRecords Pamodbus.Send Pamodbus.History Pamodbus.Answering Pamodbus.Traversal
open Pamodbus.TransactionIds Pamodbus.Calls
open Pamodbus.FramerRtu (rtuFrame)

variable {σ α β : Type}

def step (w : World σ) (a : Act) : Option (World σ) := (a.run.run w).map Prod.snd

structure Untouched (w w' : World σ) : Prop where
  txLen : w'.ctx.txLen = w.ctx.txLen
  bytes : sent w' = sent w

/-- A call that builds a frame builds a whole one, or fails and leaves the last
one alone. Any other call leaves it alone too. -/
def Whole (w : World σ) : Act → Prop
  | .transmit t => ∀ ret w', t.run.run w = some (ret, w') →
      ret < 0 ∧ Untouched w w' ∨ ∃ pdu, sent w' = frame w pdu ∧ ret = (frame w pdu).length
  | .take i => ∀ ret w', (Act.take i).run.run w = some (ret, w') → Untouched w w'

/-- What is in the transmit buffer after a call that has returned `ret`, when
`last` was there before it: the frame that it has built, if it has built one. -/
def Act.leaves (last : Bytes) (ret : Int) (w' : World σ) : Act → Bytes
  | .transmit _ => if 0 ≤ ret then sent w' else last
  | .take _ => last

/-- The last frame that was built successfully, from `last` on. -/
def lastFrame (last : Bytes) (w : World σ) : List Act → Bytes
  | [] => last
  | a :: as =>
    match a.run.run w with
    | none => last
    | some (ret, w') => lastFrame (Act.leaves last ret w' a) w' as

theorem whole_leaves {w w' : World σ} {a : Act} {ret : Int} (h : Whole w a)
    (hrun : a.run.run w = some (ret, w')) : Act.leaves (sent w) ret w' a = sent w' := by
  cases a with
  | transmit t =>
    rw [Act.leaves]
    rcases h ret w' hrun with ⟨hneg, hsame⟩ | ⟨pdu, -, hret⟩
    · rw [if_neg (by omega), hsame.bytes]
    · rw [if_pos (by omega)]
  | take i => exact (h ret w' hrun).bytes.symm

/-- The run lemma: as long as every call does what it should, the last frame is retained. -/
theorem whole_run {w w' : World σ} {as : List Act} (h : Along step Whole w as)
    (hrun : after step w as = some w') : sent w' = lastFrame (sent w) w as := by
  induction as generalizing w with
  | nil =>
    obtain rfl : w = w' := Option.some.inj hrun
    rfl
  | cons a as ih =>
    obtain ⟨ha, u, hstep, hrest⟩ := h
    rw [after, hstep, Option.bind_some] at hrun
    obtain ⟨⟨ret, u'⟩, hcall, rfl⟩ := Option.map_eq_some_iff.mp hstep
    rw [ih hrest hrun, lastFrame, hcall]
    dsimp only
    rw [whole_leaves ha hcall]

theorem send_hands_over {w w' : World σ} {ret : Int} (h : paModbusSend.run w = some (ret, w')) :
    w'.calls = w.calls ∨ ∃ r, w'.calls = w.calls ++ [(.send (sent w), r)] := by
  rw [paModbusSend, get_bind_run] at h
  cases hcb : w.ctx.sendCb with
  | none =>
    rw [hcb] at h
    obtain ⟨-, rfl⟩ := (pure_run_iff _ _ _ _).mp h
    exact .inl rfl
  | some cb =>
    rw [hcb] at h
    obtain ⟨r, w₁, hsend, h⟩ := bind_inv _ _ _ _ _ h
    obtain ⟨-, rfl⟩ := (pure_run_iff _ _ _ _).mp h
    rw [sendTxbuf, get_bind_run] at hsend
    obtain ⟨data, hdata, hsend⟩ := (access_bind_iff _ _ _ _).mp hsend
    obtain rfl : sent w = data := by
      by_cases hl : w.ctx.txLen ≤ w.ctx.txbuf.cells.length
      · rw [block_front _ _ hl] at hdata
        exact Option.some.inj hdata
      · rw [block_none _ _ _ (by omega)] at hdata
        cases hdata
    rw [modify_bind_run] at hsend
    obtain ⟨-, rfl⟩ := (pure_run_iff _ _ _ _).mp hsend
    exact .inr ⟨_, rfl⟩

inductive Plan
  /-- It ends before it writes to the transmit buffer. -/
  | refuse
  /-- It writes a PDU of this length and has it framed. -/
  | build (pduLen : Nat)
  /-- It ends while it writes. -/
  | breakOff
  /-- It has built a frame that does not get out. -/
  | unsent

def asks (cb : Option β) (f : β → Plan) : Plan :=
  match cb with
  | none => .refuse
  | some b => f b

/-- A callback has returned `ret`. -/
def answers (ret : Int) (pduLen : Nat) : Plan := if ret ≠ 0 then .refuse else .build pduLen

def respondPlan (residue : Residue) (w : World σ) : Plan :=
  let cbs := w.ctx.callbacks
  let addr := w.ctx.request.slaveAddr
  let count := w.ctx.request.slaveCount
  let coils := w.ctx.request.slaveCoilData.toList
  let regs := w.ctx.request.slaveRegData.toList
  let regCount := w.ctx.request.slaveRegCount.toNat
  match w.ctx.lastFunction with
  | 0x01 => asks cbs.readCoilsCb fun f => answers (f addr count w.app).1 (2 + coilBytes count)
  | 0x02 =>
    asks cbs.readDiscreteInputsCb fun f => answers (f addr count w.app).1 (2 + coilBytes count)
  | 0x03 =>
    asks cbs.readHoldingRegistersCb fun f => answers (f addr count w.app).1 (2 + count.toNat * 2)
  | 0x04 =>
    asks cbs.readInputRegistersCb fun f => answers (f addr count w.app).1 (2 + count.toNat * 2)
  | 0x05 => asks cbs.writeSingleCoilCb fun f => answers (f addr (coils[0]?.getD 0) w.app).1 5
  | 0x06 => asks cbs.writeSingleRegisterCb fun f => answers (f addr (regs[0]?.getD 0) w.app).1 5
  | 0x07 => asks cbs.readCoilsCb fun f => answers (f 0 8 w.app).1 2
  | 0x08 => .build 5
  | 0x0B => asks cbs.readHoldingRegistersCb fun f => answers (f 0xFFFE 2 w.app).1 5
  | 0x0C => asks cbs.readHoldingRegistersCb fun f => answers (f 0xFFFC 5 w.app).1 12
  | 0x0F => asks cbs.writeMultipleCoilsCb fun f =>
    answers (f addr count (coils.take (coilBytes count)) w.app).1 5
  | 0x10 => asks cbs.writeMultipleRegistersCb fun f =>
    answers (f addr count (regs.take count.toNat) w.app).1 5
  | 0x11 => asks cbs.readHoldingRegistersCb fun f =>
    let r := f 0xFFF0 64 w.app
    answers r.1 (2 + min (loByte (r.2.1.toList.headD 0)).toNat 126)
  | 0x14 => asks cbs.readHoldingRegistersCb fun f =>
    let size := w.ctx.txbuf.cells.length
    let rounds := regCount * 2 + 1
    if 128 < regCount ∨ (readRecords f regs (regCount * 2) size rounds 0 2 w).refused then .breakOff
    else .build (2 + servedBytes regs (regCount * 2) size rounds 0 2 % 256)
  | 0x15 => asks cbs.writeMultipleRegistersCb fun f =>
    if 128 < regCount then .breakOff
    else if (writeRecords residue f regs regCount (regCount * 2 + 1) 0 w).1 then .refuse
    else .build (2 + regCount * 2 % 256)
  | 0x16 => asks cbs.writeSingleRegisterCb fun g =>
    match cbs.readHoldingRegistersCb with
    | none => .build 7
    | some f =>
      let r := f addr 1 w.app
      if r.1 ≠ 0 then .build 7
      else
        let value := (r.2.1.toList.headD 0 &&& regs[0]?.getD 0) ||| regs[1]?.getD 0
        answers (g addr value r.2.2).1 7
  | 0x17 => asks cbs.readHoldingRegistersCb fun f => asks cbs.writeMultipleRegistersCb fun g =>
    let writeAddr := word (coils[0]?.getD 0) (coils[1]?.getD 0)
    let writeCount := word (coils[2]?.getD 0) (coils[3]?.getD 0)
    let r := g writeAddr writeCount (regs.take writeCount.toNat) w.app
    if r.1 ≠ 0 then .refuse else answers (f addr count r.2).1 (2 + count.toNat * 2)
  | 0x18 => asks cbs.readHoldingRegistersCb fun f =>
    let r := f addr 128 w.app
    answers r.1 (2 + (min (r.2.1.toList.headD 0).toNat 127 * 2 + 2))
  | _ => .refuse

def given (c : Prop) [Decidable c] (plan : Plan) : Plan := if c then plan else .refuse

/-- The builders of long PDUs look whether the PDU is in the transmit buffer. -/
def checked (w : World σ) (pduLen : Nat) : Plan :=
  given (pduLen ≤ w.ctx.txbuf.cells.length) (.build pduLen)

/-- Framing gets the length of a raw PDU as an `int`. -/
def sendRawPlan (pdu : Bytes) (w : World σ) : Plan :=
  let pduLen := int32 pdu.length
  asks w.ctx.sendCb fun cb =>
    given w.ctx.txbufSet <|
      given (pdu.length ≤ sizeT ((w.ctx.txbuf.cells.length : Int) - 7)) <|
        if w.ctx.txbuf.cells.length < sizeT (pduLen + overhead w.ctx.framerType) then .breakOff
        else if pduLen < 0 ∨ (cb (frame w (pdu.take pduLen.toNat)) w.app).1 ≠ 0 then .unsent
        else .build pduLen.toNat

def plan (w : World σ) : Transmission → Plan
  | .readCoils _ count | .readDiscreteInputs _ count =>
    given (1 ≤ count.toNat ∧ count.toNat ≤ 2000) (.build 5)
  | .readHoldingRegisters _ count | .readInputRegisters _ count =>
    given (1 ≤ count.toNat ∧ count.toNat ≤ 125) (.build 5)
  | .writeSingleCoil _ _ | .writeSingleRegister _ _ => .build 5
  | .writeMultipleCoils _ _ count =>
    given (1 ≤ count.toNat ∧ count.toNat ≤ 1968) (checked w (6 + coilBytes count))
  | .writeMultipleRegisters _ _ count =>
    given (1 ≤ count.toNat ∧ count.toNat ≤ 123) (checked w (6 + count.toNat * 2))
  | .reportSlaveId => .build 1
  | .maskWriteRegister _ _ _ => .build 7
  | .readWriteRegisters _ readCount _ values writeCount =>
    given (1 ≤ readCount.toNat ∧ readCount.toNat ≤ 125) <|
      given (1 ≤ writeCount.toNat ∧ writeCount.toNat ≤ 121) <|
        given values.isSome (checked w (10 + writeCount.toNat * 2))
  | .respond residue => respondPlan residue w
  | .respondError _ => .build 2
  | .sendRaw pdu => sendRawPlan pdu w

/-- The call does not end between writing and framing, unless no frame is retained. -/
def Spares (w : World σ) : Act → Prop
  | .transmit t =>
    match plan w t with
    | .refuse => True
    | .build pduLen =>
      pduLen + overhead w.ctx.framerType ≤ w.ctx.txbuf.cells.length ∨ w.ctx.txLen = 0
    | .breakOff => w.ctx.txLen = 0
    | .unsent => False
  | .take _ => True

def Follows (w : World σ) : Plan → Option (Int × World σ) → Prop
  | .refuse, run => ∀ ret w', run = some (ret, w') → w'.ctx.txbuf = w.ctx.txbuf
  | .build pduLen, run => ∀ ret w', run = some (ret, w') → ret < 0 →
    w.ctx.txbuf.cells.length < pduLen + overhead w.ctx.framerType
  | .breakOff, _ => True
  | .unsent, _ => True

/-- A procedure that fails only for want of room for the frame of a PDU of `n` bytes. -/
def Fits (n : Nat) (p : Proc (World σ) Int) : Prop :=
  ∀ w ret w', p.run w = some (ret, w') → ret < 0 →
    w.ctx.txbuf.cells.length < n + overhead w.ctx.framerType

theorem fits_finish (n : Nat) (hn : n + 7 < 2 ^ 31) : Fits n (finish n : Proc (World σ) Int) := by
  intro w ret w' h hret
  by_contra hl
  rw [finish_fits n w hn (by omega), Option.some.injEq, Prod.mk.injEq] at h
  omega

theorem fits_after {n : Nat} {p : Proc (World σ) α} {f : α → Proc (World σ) Int}
    (hp : Keeps p) (hf : ∀ a, Fits n (f a)) : Fits n (p >>= f) := by
  intro w ret w' h hret
  obtain ⟨a, u, hu, h⟩ := bind_inv _ _ _ _ _ h
  have hsame := hp w a u hu
  rw [← hsame.txSize, ← hsame.framerType]
  exact hf a u ret w' h hret

theorem fits_store {n off : Nat} {xs : Bytes} {f : Unit → Proc (World σ) Int}
    (hf : Fits n (f ())) : Fits n (txStore off xs >>= f) :=
  fits_after (stable_sameConfig.keeps_txStore off xs) fun _ => hf

theorem fits_reply (bytes : Bytes) (n : Nat) (hn : n + 7 < 2 ^ 31) :
    Fits n (reply bytes n : Proc (World σ) Int) := by
  rw [reply, ← txStore_front]
  exact fits_store (fits_finish n hn)

theorem follows_build {w u : World σ} {n : Nat} {p : Proc (World σ) Int} (hp : Fits n p)
    (hu : u.ctx = w.ctx) : Follows w (.build n) (p.run u) := by
  intro ret w' h hret
  rw [← hu]
  exact hp u ret w' h hret

theorem follows_pure {w u : World σ} {ret : Int} (hu : u.ctx = w.ctx) :
    Follows w .refuse (some (ret, u)) := by
  intro ret' w' h
  rw [← (Prod.mk.inj (Option.some.inj h)).2, hu]

theorem follows_none {w : World σ} (plan : Plan) : Follows w plan none := by
  cases plan with
  | refuse => exact fun _ _ h => by cases h
  | build n => exact fun _ _ h => by cases h
  | breakOff | unsent => trivial

theorem follows_given {w : World σ} {c d : Prop} [Decidable c] [Decidable d] (hcd : c ↔ ¬ d)
    {plan : Plan} {ret : Int} {p : Proc (World σ) Int} (hp : c → Follows w plan (p.run w)) :
    Follows w (given c plan) ((if d then pure ret else p).run w) := by
  rw [given]
  by_cases h : c
  · rw [if_pos h, if_neg (hcd.mp h)]
    exact hp h
  · rw [if_neg h, if_pos (not_not.mp fun hd => h (hcd.mpr hd))]
    exact follows_pure rfl

theorem follows_checked {w : World σ} {n : Nat} {p : Proc (World σ) Int} (hp : Fits n p) :
    Follows w (checked w n)
      ((if w.ctx.txbuf.cells.length < n then pure paErrBufferFull else p).run w) :=
  follows_given (by omega) fun _ => follows_build hp rfl

variable (w : World σ)

theorem buildRead_follows (fc : UInt8) (maxCount : Nat) (addr count : UInt16) :
    Follows w (given (1 ≤ count.toNat ∧ count.toNat ≤ maxCount) (.build 5))
      ((buildRead fc maxCount addr count).run w) :=
  follows_given (by omega) fun _ => follows_build (fits_store (fits_store (fits_store
    (fits_finish 5 (by decide))))) rfl

theorem buildWriteSingle_follows (fc : UInt8) (addr value : UInt16) :
    Follows w (.build 5) ((buildWriteSingle fc addr value).run w) :=
  follows_build (fits_store (fits_store (fits_store (fits_finish 5 (by decide))))) rfl

theorem keeps_putRegisters (off : Nat) (values : List UInt16) (n : Nat) :
    Keeps (putRegisters off values n : Proc (World σ) Unit) :=
  (stable_sameConfig.closed.holds_putRegisters off values n).within

theorem keeps_packCoils (off : Nat) (values : List UInt8) (n : Nat) :
    Keeps (packCoils off values n : Proc (World σ) Unit) :=
  (stable_sameConfig.closed.holds_packCoils off values n).within

theorem writeMultipleCoils_follows (addr : UInt16) (values : List UInt8) (count : UInt16) :
    Follows w (given (1 ≤ count.toNat ∧ count.toNat ≤ 1968) (checked w (6 + coilBytes count)))
      ((paModbusBuildWriteMultipleCoils addr values count).run w) := by
  rw [coilBytes]
  refine follows_given (by omega) fun h => ?_
  rw [get_bind_run]
  refine follows_checked (fits_store (fits_store (fits_store (fits_store (fits_store ?_)))))
  exact fits_after (keeps_packCoils _ _ _) fun _ => fits_finish _ (by omega)

theorem writeMultipleRegisters_follows (addr : UInt16) (values : List UInt16) (count : UInt16) :
    Follows w (given (1 ≤ count.toNat ∧ count.toNat ≤ 123) (checked w (6 + count.toNat * 2)))
      ((paModbusBuildWriteMultipleRegisters addr values count).run w) := by
  refine follows_given (by omega) fun h => ?_
  rw [get_bind_run]
  refine follows_checked (fits_store (fits_store (fits_store (fits_store ?_))))
  exact fits_after (keeps_putRegisters _ _ _) fun _ => fits_finish _ (by omega)

theorem readWriteRegisters_follows (readAddr readCount writeAddr : UInt16)
    (values : Option (List UInt16)) (writeCount : UInt16) :
    Follows w (plan w (.readWriteRegisters readAddr readCount writeAddr values writeCount))
      ((paModbusBuildReadWriteRegisters readAddr readCount writeAddr values writeCount).run w) := by
  refine follows_given (by omega) fun _ => follows_given (by omega) fun h => ?_
  cases values with
  | none => exact follows_pure rfl
  | some values =>
    rw [get_bind_run]
    refine follows_checked (fits_store (fits_store (fits_store (fits_store (fits_store
      (fits_store ?_))))))
    exact fits_after (keeps_putRegisters _ _ _) fun _ => fits_finish _ (by omega)

variable {w}

theorem follows_callback {cb : Option β} {f : β → Plan} {run : β → Option (Int × World σ)}
    (h : ∀ b, cb = some b → Follows w (f b) (run b)) :
    Follows w (asks cb f) (withCallback cb w run) := by
  cases cb with
  | none => exact follows_pure rfl
  | some b => exact h b rfl

theorem follows_overrun {c : Prop} [Decidable c] {plan : Plan} {run : Option (Int × World σ)}
    (h : ¬ c → Follows w plan run) : Follows w plan (if c then none else run) := by
  by_cases hc : c
  · rw [if_pos hc]
    exact follows_none plan
  · rw [if_neg hc]
    exact h hc

theorem follows_refused {c : Prop} [Decidable c] {u : World σ} {plan : Plan}
    {run : Option (Int × World σ)} (hu : u.ctx = w.ctx) (h : Follows w plan run) :
    Follows w (if c then .refuse else plan) (if c then some (paErrCallback, u) else run) := by
  by_cases hc : c
  · rw [if_pos hc, if_pos hc]
    exact follows_pure hu
  · rw [if_neg hc, if_neg hc]
    exact h

theorem follows_reply {u : World σ} {bytes : Bytes} {n : Nat} (hu : u.ctx = w.ctx)
    (hn : n + 7 < 2 ^ 31) : Follows w (.build n) ((reply bytes n).run u) :=
  follows_build (fits_reply bytes n hn) hu

theorem follows_answers {u : World σ} {ret : Int} {bytes : Bytes} {n : Nat} (hu : u.ctx = w.ctx)
    (hn : n + 7 < 2 ^ 31) :
    Follows w (answers ret n)
      (if ret ≠ 0 then some (paErrCallback, u) else (reply bytes n).run u) :=
  follows_refused hu (follows_reply hu hn)

variable (w)

theorem readBits_follows (fc : UInt8) (cb : Option (ReadCoilsFn σ))
    (call : UInt16 → UInt16 → Call) :
    let count := w.ctx.request.slaveCount
    Follows w (asks cb fun f =>
        answers (f w.ctx.request.slaveAddr count w.app).1 (2 + coilBytes count))
      ((respondReadBits fc cb call >>= conclude).run w) := by
  rw [respondReadBits_run fc cb call w _ _ rfl rfl]
  exact follows_callback fun f _ => follows_overrun fun h => follows_answers rfl (by omega)

theorem readRegisters_follows (residue : Residue) (fc : UInt8) (cb : Option (ReadRegistersFn σ))
    (call : UInt16 → UInt16 → Call) :
    let count := w.ctx.request.slaveCount
    Follows w (asks cb fun f =>
        answers (f w.ctx.request.slaveAddr count w.app).1 (2 + count.toNat * 2))
      ((respondReadRegisters residue fc cb call >>= conclude).run w) := by
  rw [respondReadRegisters_run residue fc cb call w _ _ rfl rfl]
  exact follows_callback fun f _ => follows_overrun fun h => follows_answers rfl (by omega)

theorem readFileRecord_follows (residue : Residue) (hf : w.ctx.lastFunction = 0x14) :
    Follows w (respondPlan residue w) ((respondReadFileRecord residue 0x14 >>= conclude).run w) := by
  rw [respondPlan, hf]
  dsimp only
  by_cases hc : 128 < w.ctx.request.slaveRegCount.toNat
  · simp only [if_pos (Or.inl hc)]
    cases hcb : w.ctx.callbacks.readHoldingRegistersCb with
    | none =>
      rw [respondReadFileRecord, bind_assoc, get_bind_run]
      dsimp only
      rw [hcb]
      exact follows_pure rfl
    | some f => trivial
  · obtain ⟨left, hrun⟩ := respondReadFileRecord_run residue 0x14 w (by omega)
    rw [hrun]
    refine follows_callback fun f _ => follows_overrun fun _ => ?_
    have hlen := readRecords_length f w.ctx.request.slaveRegData.toList
      (w.ctx.request.slaveRegCount.toNat * 2) w.ctx.txbuf.cells.length
      (w.ctx.request.slaveRegCount.toNat * 2 + 1) 0 2 w
    have hctx := readRecords_ctx f w.ctx.request.slaveRegData.toList
      (w.ctx.request.slaveRegCount.toNat * 2) w.ctx.txbuf.cells.length
      (w.ctx.request.slaveRegCount.toNat * 2 + 1) 0 2 w
    generalize readRecords f _ _ _ _ _ _ w = served at hlen hctx ⊢
    by_cases hr : served.refused = true
    · rw [if_pos (Or.inr hr)]
      trivial
    · rw [if_neg (by tauto), if_neg hr, UInt8.toNat_ofNat', hlen (by simpa using hr)]
      exact follows_reply hctx (by omega)

theorem writeFileRecord_follows (residue : Residue) (hf : w.ctx.lastFunction = 0x15) :
    Follows w (respondPlan residue w)
      ((respondWriteFileRecord residue 0x15 >>= conclude).run w) := by
  rw [respondPlan, hf]
  dsimp only
  by_cases hc : 128 < w.ctx.request.slaveRegCount.toNat
  · simp only [if_pos hc]
    cases hcb : w.ctx.callbacks.writeMultipleRegistersCb with
    | none =>
      rw [respondWriteFileRecord, bind_assoc, get_bind_run]
      dsimp only
      rw [hcb]
      exact follows_pure rfl
    | some f => trivial
  · rw [respondWriteFileRecord_run residue 0x15 w (by omega)]
    refine follows_callback fun f _ => ?_
    dsimp only
    have hctx := writeRecords_ctx residue f w.ctx.request.slaveRegData.toList
      w.ctx.request.slaveRegCount.toNat (w.ctx.request.slaveRegCount.toNat * 2 + 1) 0 w
    rw [if_neg hc, UInt8.toNat_ofNat']
    exact follows_refused hctx (follows_reply hctx (by omega))

theorem maskWriteRegister_follows (residue : Residue) (hf : w.ctx.lastFunction = 0x16) :
    Follows w (respondPlan residue w)
      ((respondMaskWriteRegister residue 0x16 >>= conclude).run w) := by
  obtain ⟨andMask, orMask, hm⟩ : ∃ a o, w.ctx.request.slaveRegData.toList.take 2 = [a, o] :=
    List.length_eq_two.mp (by simp)
  rw [respondPlan, hf, respondMaskWriteRegister_run residue 0x16 w _ _ _ rfl hm]
  dsimp only
  rw [getElem?_of_take hm (by decide : 0 < 2), getElem?_of_take hm (by decide : 1 < 2)]
  refine follows_callback fun g _ => ?_
  cases w.ctx.callbacks.readHoldingRegistersCb with
  | none => exact follows_reply rfl (by decide)
  | some f =>
    dsimp only
    split
    · exact follows_reply rfl (by decide)
    · exact follows_answers rfl (by decide)

theorem readWriteRegisters_follows_respond (residue : Residue) (hf : w.ctx.lastFunction = 0x17) :
    Follows w (respondPlan residue w)
      ((respondReadWriteRegisters residue 0x17 >>= conclude).run w) := by
  obtain ⟨b₀, b₁, b₂, b₃, hb⟩ : ∃ b₀ b₁ b₂ b₃,
      w.ctx.request.slaveCoilData.toList.take 4 = [b₀, b₁, b₂, b₃] := by
    exact List.length_eq_four.mp (by simp)
  have hd : w.ctx.request.slaveCoilData.toList.take 4 = [hiByte (word b₀ b₁), loByte (word b₀ b₁),
      hiByte (word b₂ b₃), loByte (word b₂ b₃)] := by
    rw [hiByte_word, loByte_word, hiByte_word, loByte_word, hb]
  rw [respondPlan, hf, respondReadWriteRegisters_run residue 0x17 w _ _ _ _ rfl rfl hd]
  dsimp only
  rw [getElem?_of_take hb (by decide : 0 < 4), getElem?_of_take hb (by decide : 1 < 4),
    getElem?_of_take hb (by decide : 2 < 4), getElem?_of_take hb (by decide : 3 < 4)]
  refine follows_callback fun f _ => follows_callback fun g _ => ?_
  refine follows_refused rfl (follows_overrun fun _ => follows_answers rfl (by omega))

theorem respond_follows (residue : Residue) :
    Follows w (respondPlan residue w) ((paModbusSlaveRespond residue).run w) := by
  rw [respond_run]
  generalize hfc : w.ctx.lastFunction = fc
  unfold respondPdu
  split
  case h_14 => exact readFileRecord_follows w residue hfc
  case h_15 => exact writeFileRecord_follows w residue hfc
  case h_16 => exact maskWriteRegister_follows w residue hfc
  case h_17 => exact readWriteRegisters_follows_respond w residue hfc
  all_goals
    rw [respondPlan, hfc]
    try dsimp only
  case h_1 | h_2 => exact readBits_follows w _ _ _
  case h_3 | h_4 => exact readRegisters_follows w residue _ _ _
  case h_5 =>
    obtain ⟨v, hv⟩ := getElem?_some w.ctx.request.slaveCoilData.toList 0 (by simp)
    rw [respondWriteSingleCoil_run _ w _ v rfl hv, hv]
    exact follows_callback fun f _ => follows_answers rfl (by decide)
  case h_6 =>
    obtain ⟨v, hv⟩ := getElem?_some w.ctx.request.slaveRegData.toList 0 (by simp)
    rw [respondWriteSingleRegister_run _ w _ v rfl hv, hv]
    exact follows_callback fun f _ => follows_answers rfl (by decide)
  case h_7 =>
    rw [respondExceptionStatus_run]
    exact follows_callback fun f _ => follows_answers rfl (by decide)
  case h_8 =>
    obtain ⟨v, hv⟩ := getElem?_some w.ctx.request.slaveRegData.toList 0 (by simp)
    rw [respondDiagnostic_run _ w _ v rfl hv]
    exact follows_reply rfl (by decide)
  case h_9 =>
    rw [respondComEventCounter_run]
    exact follows_callback fun f _ => follows_answers rfl (by decide)
  case h_10 =>
    rw [respondComEventLog_run]
    exact follows_callback fun f _ => follows_answers rfl (by decide)
  case h_11 =>
    rw [respondWriteMultipleCoils_run _ w _ _ rfl rfl]
    exact follows_callback fun f _ => follows_answers rfl (by decide)
  case h_12 =>
    rw [respondWriteMultipleRegisters_run _ w _ _ rfl rfl]
    exact follows_callback fun f _ => follows_answers rfl (by decide)
  case h_13 =>
    rw [respondReportServerId_run]
    exact follows_callback fun f _ => follows_answers rfl (by omega)
  case h_18 =>
    rw [respondReadFifoQueue_run residue _ w _ rfl]
    exact follows_callback fun f _ => follows_answers rfl (by omega)
  case h_19 =>
    split
    case h_19 => exact follows_pure rfl
    all_goals contradiction

theorem build_frames {p : Proc (World σ) Int} (h : Build p) : Frames p :=
  build_ends stable_sameFrame.closed frames_ending h

variable {w}

theorem untouched_empty {w' : World σ} (hlen : w'.ctx.txLen = w.ctx.txLen)
    (hempty : w.ctx.txLen = 0) : Untouched w w' :=
  ⟨hlen, by rw [sent, sent, hlen, hempty, List.take_zero, List.take_zero]⟩

theorem untouched_buffer {w' : World σ} (hlen : w'.ctx.txLen = w.ctx.txLen)
    (htx : w'.ctx.txbuf = w.ctx.txbuf) : Untouched w w' :=
  ⟨hlen, by rw [sent, sent, hlen, htx]⟩

theorem build_whole {t : Transmission} (hbuild : Build (t.run : Proc (World σ) Int))
    (hfollows : Follows w (plan w t) (t.run.run w)) (h : Spares w (.transmit t)) :
    Whole w (.transmit t) := by
  intro ret w' hrun
  rcases build_frames hbuild w ret w' hrun with ⟨hneg, hlen⟩ | hframe
  · refine .inl ⟨hneg, ?_⟩
    rw [Spares] at h
    cases hplan : plan w t with
    | refuse =>
      rw [hplan] at hfollows
      exact untouched_buffer hlen (hfollows ret w' hrun)
    | build n =>
      rw [hplan] at hfollows h
      rcases h with hroom | hempty
      · exact absurd (hfollows ret w' hrun hneg) (by omega)
      · exact untouched_empty hlen hempty
    | breakOff =>
      rw [hplan] at h
      exact untouched_empty hlen h
    | unsent =>
      rw [hplan] at h
      exact absurd h not_false
  · exact .inr hframe

theorem sendRawPlan_ready {pdu : Bytes} {cb : SendFn σ} (h : Ready pdu w cb) :
    sendRawPlan pdu w =
      if w.ctx.txbuf.cells.length < sizeT (int32 pdu.length + overhead w.ctx.framerType) then
        .breakOff
      else if int32 pdu.length < 0 ∨
          (cb (frame w (pdu.take (int32 pdu.length).toNat)) w.app).1 ≠ 0 then .unsent
      else .build (int32 pdu.length).toNat := by
  rw [sendRawPlan, h.callback]
  dsimp only [asks, given]
  rw [if_pos h.buffer, if_pos h.room]

theorem sendRaw_short {pdu : Bytes} {w' : World σ} {cb : SendFn σ} {ret : Int}
    (hready : Ready pdu w cb) (hrun : (paModbusSendRaw pdu).run w = some (ret, w'))
    (hshort : w.ctx.txbuf.cells.length < sizeT (int32 pdu.length + overhead w.ctx.framerType)) :
    ret = paErrBufferFull ∧ w' = w.withTx (w.ctx.txbuf.patch pdu) := by
  obtain ⟨-, r, w₁, hwrap, hdeliver⟩ := sendRaw_inv hready hrun
  obtain ⟨rfl, rfl⟩ := wrap_short _ _ _ _ (by
    rw [World.withTx_txbuf, World.withTx_framerType, Buffer.patch_cells, overlay_length]
    exact hshort) hwrap
  exact (pure_run_iff _ _ _ _).mp hdeliver

theorem sendRaw_framed {pdu : Bytes} {w' : World σ} {cb : SendFn σ} {ret : Int} {m : Nat}
    (hready : Ready pdu w cb) (hrun : (paModbusSendRaw pdu).run w = some (ret, w'))
    (hm : int32 pdu.length = m) (hfits : m + overhead w.ctx.framerType ≤ w.ctx.txbuf.cells.length)
    (hsent : (cb (frame w (pdu.take m)) w.app).1 = 0) :
    sent w' = frame w (pdu.take m) ∧ ret = (frame w (pdu.take m)).length := by
  obtain ⟨hp, r, w₁, hwrap, -⟩ := sendRaw_inv hready hrun
  have hmn : m ≤ pdu.length := by
    simp only [int32] at hm
    omega
  have hlen := frame_length w (pdu.take m)
  rw [List.length_take_of_le hmn] at hlen
  by_cases hi : m + overhead w.ctx.framerType < 2 ^ 31
  · have hall := sendRaw_run pdu m w cb hready hm hmn hi hp hfits
    dsimp only at hall
    rw [if_pos hsent, hrun, Option.some.injEq, Prod.mk.injEq] at hall
    obtain ⟨rfl, rfl⟩ := hall
    refine ⟨sent_framed _ _ ?_, rfl⟩
    rw [World.withTx_txbuf, Buffer.patch_cells, overlay_length, hlen]
    exact hfits
  · rw [hm, wrap_overflow m _ (by
      rw [World.withTx_framerType]
      omega)] at hwrap
    cases hwrap

theorem sendRaw_whole (pdu : Bytes) (h : Spares w (.transmit (.sendRaw pdu))) :
    Whole w (.transmit (.sendRaw pdu)) := by
  intro ret w' hrun
  rw [Transmission.run] at hrun
  by_cases hready : ∃ cb, Ready pdu w cb
  · obtain ⟨cb, hready⟩ := hready
    rw [Spares, plan, sendRawPlan_ready hready] at h
    by_cases hshort : w.ctx.txbuf.cells.length <
        sizeT (int32 pdu.length + overhead w.ctx.framerType)
    · rw [if_pos hshort] at h
      obtain ⟨rfl, rfl⟩ := sendRaw_short hready hrun hshort
      exact .inl ⟨by decide, untouched_empty rfl h⟩
    · rw [if_neg hshort] at h
      by_cases hfail : int32 pdu.length < 0 ∨
          (cb (frame w (pdu.take (int32 pdu.length).toNat)) w.app).1 ≠ 0
      · rw [if_pos hfail] at h
        exact absurd h not_false
      · obtain ⟨hnonneg, hsent⟩ := not_or.mp hfail
        obtain ⟨m, hm⟩ := Int.eq_ofNat_of_zero_le (Int.not_lt.mp hnonneg)
        have hbounds := int32_bounds pdu.length
        have ho := overhead_le w.ctx.framerType
        rw [hm, ← Nat.cast_add, sizeT_natCast _ (by omega)] at hshort
        rw [hm, Int.toNat_natCast] at hsent
        exact .inr ⟨_, sendRaw_framed hready hrun hm (by omega) (not_not.mp hsent)⟩
  · rw [sendRaw_refused pdu w fun cb hcb => hready ⟨cb, hcb⟩, Option.some.injEq,
      Prod.mk.injEq] at hrun
    obtain ⟨rfl, rfl⟩ := hrun
    refine .inl ⟨?_, rfl, rfl⟩
    split
    · decide
    · decide

theorem intake_whole (i : Intake) : Whole w (.take i) := by
  intro ret w' hrun
  rw [Act.run, focus_run, Option.map_eq_some_iff] at hrun
  obtain ⟨⟨r, ctx'⟩, hin, he⟩ := hrun
  obtain ⟨rfl, rfl⟩ := Prod.mk.inj he
  obtain ⟨_, _, _, _, _, _, rfl⟩ := intake_received i w.ctx r ctx' hin
  exact ⟨rfl, rfl⟩

variable (w)

theorem transmit_whole (t : Transmission) (h : Spares w (.transmit t)) :
    Whole w (.transmit t) := by
  cases t with
  | readCoils addr count =>
    exact build_whole (.readCoils addr count) (buildRead_follows w _ _ _ _) h
  | readDiscreteInputs addr count =>
    exact build_whole (.readDiscreteInputs addr count) (buildRead_follows w _ _ _ _) h
  | readHoldingRegisters addr count =>
    exact build_whole (.readHoldingRegisters addr count) (buildRead_follows w _ _ _ _) h
  | readInputRegisters addr count =>
    exact build_whole (.readInputRegisters addr count) (buildRead_follows w _ _ _ _) h
  | writeSingleCoil addr value =>
    exact build_whole (.writeSingleCoil addr value) (buildWriteSingle_follows w _ _ _) h
  | writeSingleRegister addr value =>
    exact build_whole (.writeSingleRegister addr value) (buildWriteSingle_follows w _ _ _) h
  | writeMultipleCoils addr values count =>
    exact build_whole (.writeMultipleCoils addr values count)
      (writeMultipleCoils_follows w _ _ _) h
  | writeMultipleRegisters addr values count =>
    exact build_whole (.writeMultipleRegisters addr values count)
      (writeMultipleRegisters_follows w _ _ _) h
  | reportSlaveId =>
    exact build_whole .reportSlaveId (follows_build (fits_store (fits_finish 1 (by decide))) rfl) h
  | maskWriteRegister addr andMask orMask =>
    exact build_whole (.maskWriteRegister addr andMask orMask) (follows_build (fits_store (fits_store
      (fits_store (fits_store (fits_finish 7 (by decide)))))) rfl) h
  | readWriteRegisters readAddr readCount writeAddr values writeCount =>
    exact build_whole (.readWriteRegisters readAddr readCount writeAddr values writeCount)
      (readWriteRegisters_follows w _ _ _ _ _) h
  | respond residue => exact build_whole (.respond residue) (respond_follows w residue) h
  | respondError code =>
    refine build_whole (.respondError code) ?_ h
    rw [Transmission.run, respondError_run]
    exact follows_reply rfl (by decide)
  | sendRaw pdu => exact sendRaw_whole pdu h

/-- In a run in which no call ends between writing and framing while a frame is
retained, the transmit buffer holds the last frame that was built, and
`pa_modbus_send` hands over that frame. -/
theorem last_frame_retained (as : List Act) (h : Along step Spares w as) :
    Along step Whole w as ∧ ∀ w', after step w as = some w' →
      sent w' = lastFrame (sent w) w as ∧
      ∀ ret w'', paModbusSend.run w' = some (ret, w'') →
        w''.calls = w'.calls ∨ ∃ r, w''.calls = w'.calls ++ [(.send (lastFrame (sent w) w as), r)] := by
  have hwhole : Along step Whole w as := by
    refine h.imp fun u a ha => ?_
    cases a with
    | transmit t => exact transmit_whole u t ha
    | take i => exact intake_whole i
  refine ⟨hwhole, fun w' hrun => ?_⟩
  have hsent := whole_run hwhole hrun
  refine ⟨hsent, fun ret w'' hsend => ?_⟩
  rw [← hsent]
  exact send_hands_over hsend

def started (txSize : UInt16) : World Unit := ⟨station .rtu 1 txSize 16, (), 0, []⟩

def readOne : Act := .transmit (.readHoldingRegisters 0 1)

def maskOne : Act := .transmit (.maskWriteRegister 0 0 0)

/-- In ten bytes there is room for both frames. The third request is refused. -/
theorem ten_bytes_retain :
    Along step Spares (started 10) [readOne, maskOne, .transmit (.readCoils 0 0)] ∧
      ∃ w', after step (started 10) [readOne, maskOne, .transmit (.readCoils 0 0)] = some w' ∧
        sent w' = rtuFrame 1 [0x16, 0, 0, 0, 0, 0, 0] := by
  have h : Along step Spares (started 10) [readOne, maskOne, .transmit (.readCoils 0 0)] :=
    ⟨.inl (by decide), _, rfl, .inl (by decide), _, rfl, trivial, _, rfl, trivial⟩
  obtain ⟨w', hw⟩ : ∃ w', after step (started 10)
      [readOne, maskOne, .transmit (.readCoils 0 0)] = some w' := ⟨_, rfl⟩
  refine ⟨h, w', hw, ?_⟩
  rw [((last_frame_retained (started 10) _ h).2 w' hw).1]
  decide +kernel

/-- Eight bytes hold the first frame. The second PDU is written over it before
the framer finds that there is no room. -/
theorem eight_bytes_damaged :
    ∃ w₁ w₂, readOne.run.run (started 8) = some (8, w₁) ∧
      maskOne.run.run w₁ = some (paErrBufferFull, w₂) ∧
      after step (started 8) [readOne, maskOne] = some w₂ ∧ w₂.ctx.txLen = 8 ∧
      sent w₁ = rtuFrame 1 [0x03, 0, 0, 0, 1] ∧
      sent w₂ = [0x16, 0, 0, 0, 0, 0, 0, 0x0A] ∧
      sent w₂ ≠ lastFrame (sent (started 8)) (started 8) [readOne, maskOne] := by
  refine ⟨_, _, rfl, rfl, rfl, ?_⟩
  decide +kernel

end Pamodbus.TxBuffer
