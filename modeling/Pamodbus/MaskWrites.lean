import Pamodbus.History
import Pamodbus.Lib.Runs
import Pamodbus.RespondRun
import Pamodbus.SlaveAccept
import Pamodbus.TestBanks

namespace Pamodbus.MaskWrites

open Pamodbus.Lib.Cells Pamodbus.Lib.Procedure Pamodbus.Lib.Runs Pamodbus.Lib.Words
open Pamodbus.Context Pamodbus.Framer Pamodbus.Builders
open Pamodbus.SlaveParse (get16 get16_eq parseSlaveRequest)
open Pamodbus.SlaveAccept Pamodbus.Respond Pamodbus.RespondRun Pamodbus.History
open Pamodbus.TestBanks

variable {σ : Type}

structure Mask where
  addr : UInt16
  andMask : UInt16
  orMask : UInt16

def Mask.pdu (r : Mask) : Bytes := [0x16] ++ put16 r.addr ++ put16 r.andMask ++ put16 r.orMask

/-- What the function does to a register: bits of the AND mask stay, the others
are taken from the OR mask. -/
def Mask.apply (r : Mask) (old : UInt16) : UInt16 :=
  (old &&& r.andMask) ||| (r.orMask &&& ~~~r.andMask)

def Mask.written (r : Mask) (old : UInt16) : UInt16 := (old &&& r.andMask) ||| r.orMask

def masked (reqs : List Mask) (addr old : UInt16) : UInt16 :=
  (reqs.filter fun r => r.addr = addr).foldl (fun value r => r.apply value) old

def Harmless (r : Mask) (old : UInt16) : Prop := r.andMask &&& r.orMask &&& ~~~old = 0

instance (r : Mask) (old : UInt16) : Decidable (Harmless r old) := inferInstanceAs (Decidable (_ = _))

theorem written_eq_iff (r : Mask) (old : UInt16) : r.written old = r.apply old ↔ Harmless r old := by
  rw [Mask.written, Mask.apply, Harmless, ← UInt16.toBitVec_inj, ← UInt16.toBitVec_inj,
    BitVec.eq_of_getElem_eq_iff, BitVec.eq_of_getElem_eq_iff]
  apply forall_congr'
  intro i
  apply forall_congr'
  intro hi
  simp only [UInt16.toBitVec_or, UInt16.toBitVec_and, UInt16.toBitVec_not, UInt16.toBitVec_zero,
    BitVec.getElem_or, BitVec.getElem_and, BitVec.getElem_not, BitVec.getElem_zero]
  cases old.toBitVec[i] <;> cases r.andMask.toBitVec[i] <;> cases r.orMask.toBitVec[i] <;> decide

theorem apply_testBit (r : Mask) (old : UInt16) (k : Nat)
    (h : r.andMask.toNat.testBit k = true) :
    (r.apply old).toNat.testBit k = old.toNat.testBit k := by
  simp only [← UInt16.toNat_toBitVec, BitVec.testBit_toNat] at h ⊢
  simp [Mask.apply, h]

theorem masked_cons (r : Mask) (reqs : List Mask) (addr old : UInt16) :
    masked (r :: reqs) addr old =
      masked reqs addr (if r.addr = addr then r.apply old else old) := by
  rw [masked, List.filter_cons]
  by_cases h : r.addr = addr
  · simp [h, masked]
  · simp [h, masked]

/-- A bit that every AND mask has keeps its value. -/
theorem masked_testBit (reqs : List Mask) (addr old : UInt16) (k : Nat)
    (h : ∀ r ∈ reqs, r.addr = addr → r.andMask.toNat.testBit k = true) :
    (masked reqs addr old).toNat.testBit k = old.toNat.testBit k := by
  induction reqs generalizing old with
  | nil => rfl
  | cons r reqs ih =>
    obtain ⟨hr, hreqs⟩ := List.forall_mem_cons.mp h
    rw [masked_cons, ih _ hreqs]
    split
    · next haddr => exact apply_testBit r old k (hr haddr)
    · rfl

/-- Callbacks over a register store. `view` shows the registers that the
application state holds, `none` where there is no register. -/
structure Stored (cbs : Callbacks σ) (view : σ → UInt16 → Option UInt16) : Prop where
  read : ∃ cb, cbs.readHoldingRegistersCb = some cb ∧ ∀ addr app,
    view (cb addr 1 app).2.2 = view app ∧
      (∀ value, view app addr = some value →
        (cb addr 1 app).1 = 0 ∧ (cb addr 1 app).2.1.toList = [value]) ∧
      (view app addr = none → (cb addr 1 app).1 ≠ 0)
  write : ∃ cb, cbs.writeSingleRegisterCb = some cb ∧ ∀ addr value app,
    (view app addr).isSome → (cb addr value app).1 = 0 ∧
      view (cb addr value app).2 = Function.update (view app) addr (some value)

/-- A request with what lies behind it in memory and in the responder's variables. -/
structure Turn where
  mask : Mask
  rest : Bytes
  residue : Residue

def step (w : World σ) (t : Turn) : Option (World σ) := do
  let (_, ctx) ← (parseSlaveRequest (t.mask.pdu ++ t.rest) t.mask.pdu.length).run w.ctx
  let (_, w') ← (paModbusSlaveRespond t.residue).run { w with ctx := ctx }
  return w'

theorem pdu_length (r : Mask) : r.pdu.length = 7 := rfl

theorem mask_parsed (r : Mask) (rest : Bytes) (ctx : PaModbus σ) :
    ∃ req, (parseSlaveRequest (r.pdu ++ rest) r.pdu.length).run ctx =
        some (paOk, { ctx with lastFunction := 0x16, request := req }) ∧
      req.slaveAddr = r.addr ∧ req.slaveRegData.toList.take 2 = [r.andMask, r.orMask] := by
  have hfield (i : Nat) (v : UInt16) (hhi : (r.pdu ++ rest)[i]? = some (hiByte v))
      (hlo : (r.pdu ++ rest)[i + 1]? = some (loByte v)) : get16 (r.pdu ++ rest) i = some v := by
    rw [get16_eq _ _ _ _ hhi hlo, word_bytes]
  refine ⟨_, (parseSlaveRequest_accepts _ _ _ _).mpr ⟨by rw [pdu_length]; omega, 0x16, rfl, rfl, _,
    (parseMaskWriteRegister_accepts _ _ _ _).mpr ⟨le_rfl, r.addr, hfield 1 r.addr rfl rfl,
      r.andMask, hfield 3 r.andMask rfl rfl, r.orMask, hfield 5 r.orMask rfl rfl, rfl⟩, rfl⟩,
    rfl, ?_⟩
  exact patch_take _ [r.andMask, r.orMask] 2 rfl (by decide)

theorem reply_keeps (bytes : Bytes) (n : Nat) (w : World σ) (hn : n + 7 < 2 ^ 31)
    (h : bytes.length ≤ w.ctx.txbuf.cells.length) :
    ∃ ret w', (reply bytes n).run w = some (ret, w') ∧ w'.app = w.app ∧ SameConfig w.ctx w'.ctx := by
  have hpatch : (w.ctx.txbuf.patch bytes).cells.length = w.ctx.txbuf.cells.length := by simp
  rw [reply, bind_defined _ _ _ _ _ (emit_run bytes w h)]
  by_cases hfit : n + overhead w.ctx.framerType ≤ w.ctx.txbuf.cells.length
  · refine ⟨_, _, finish_fits n _ hn (by rw [World.withTx_txbuf, hpatch]; exact hfit), rfl,
      rfl, rfl, rfl, rfl, ?_⟩
    simp [framed]
  · exact ⟨_, _, finish_full n _ hn (by
      rw [World.withTx_txbuf, hpatch, World.withTx_framerType]
      omega), rfl, rfl, rfl, rfl, rfl, hpatch⟩

theorem maskReply_run (r : Mask) (w : World σ) :
    (w.ctx.txbuf.cells.length < 7 →
      (maskReply 0x16 r.addr r.andMask r.orMask).run w = none) ∧
    (7 ≤ w.ctx.txbuf.cells.length → ∃ ret w',
      (maskReply 0x16 r.addr r.andMask r.orMask).run w = some (ret, w') ∧ w'.app = w.app ∧
        SameConfig w.ctx w'.ctx) := by
  refine ⟨fun hshort => ?_, fun hroom => reply_keeps _ 7 w (by decide) hroom⟩
  rw [maskReply, reply]
  exact bind_undefined _ _ _ (emit_overrun _ _ hshort)

/-- The store after a request: a register that is not there is left alone. -/
def stored (m : UInt16 → Option UInt16) (r : Mask) : UInt16 → Option UInt16 :=
  Function.update m r.addr ((m r.addr).map r.written)

section

variable {view : σ → UInt16 → Option UInt16} {w : World σ}

theorem step_run (hb : Stored w.ctx.callbacks view) (t : Turn) :
    (w.ctx.txbuf.cells.length < 7 → step w t = none) ∧
      (7 ≤ w.ctx.txbuf.cells.length → ∃ w', step w t = some w' ∧
        view w'.app = stored (view w.app) t.mask ∧ SameConfig w.ctx w'.ctx) := by
  obtain ⟨r, rest, residue⟩ := t
  obtain ⟨req, hparse, haddr, hmasks⟩ := mask_parsed r rest w.ctx
  let w₀ : World σ := { w with ctx := { w.ctx with lastFunction := 0x16, request := req } }
  have hconf : SameConfig w.ctx w₀.ctx := ⟨rfl, rfl, rfl, rfl, rfl⟩
  have hstep : step w ⟨r, rest, residue⟩ =
      ((respondMaskWriteRegister residue 0x16 >>= conclude).run w₀).map Prod.snd := by
    rw [step]
    simp only [hparse, Option.bind_eq_bind, Option.bind_some, respond_run]
    rw [Option.map_eq_bind]
    rfl
  -- the reply comes after the callbacks, which leave a store `m`
  have hends (u : World σ) (m : UInt16 → Option UInt16) (hu : u.ctx = w₀.ctx)
      (hm : view u.app = m) (run : Option (Int × World σ))
      (hrun : run = (maskReply 0x16 r.addr r.andMask r.orMask).run u) :
      (w.ctx.txbuf.cells.length < 7 → run.map Prod.snd = none) ∧
        (7 ≤ w.ctx.txbuf.cells.length → ∃ w', run.map Prod.snd = some w' ∧ view w'.app = m ∧
          SameConfig w.ctx w'.ctx) := by
    subst hrun
    obtain ⟨hnone, hsome⟩ := maskReply_run r u
    rw [hu] at hnone hsome
    constructor
    · intro hshort
      rw [hnone hshort, Option.map_none]
    · intro hroom
      obtain ⟨ret, w', hrun, happ, hkept⟩ := hsome hroom
      exact ⟨w', by rw [hrun, Option.map_some], by rw [happ, hm], hconf.trans hkept⟩
  obtain ⟨rcb, hrcb, hread⟩ := hb.read
  obtain ⟨wcb, hwcb, hwrite⟩ := hb.write
  obtain ⟨hsame, hpresent, habsent⟩ := hread r.addr w.app
  have hcallbacks : w₀.ctx.callbacks = w.ctx.callbacks := rfl
  have happ : w₀.app = w.app := rfl
  rw [hstep, respondMaskWriteRegister_run residue 0x16 w₀ r.addr r.andMask r.orMask haddr hmasks,
    hcallbacks, hwcb, hrcb]
  dsimp only [withCallback]
  rw [happ]
  cases hvalue : view w.app r.addr with
  | none =>
    rw [if_pos (habsent hvalue)]
    apply hends (w₀.called (.readHoldingRegisters r.addr 1) (rcb r.addr 1 w.app).1
      (rcb r.addr 1 w.app).2.2) _ rfl _ _ rfl
    rw [World.called_app, hsame, stored, hvalue, Option.map_none, ← hvalue,
      Function.update_eq_self]
  | some value =>
    obtain ⟨hok, hlist⟩ := hpresent value hvalue
    rw [if_neg (not_not.mpr hok), hlist, List.headD_cons, ← Mask.written, World.called_app]
    obtain ⟨hwok, hwview⟩ := hwrite r.addr (r.written value) (rcb r.addr 1 w.app).2.2
      (by rw [hsame, hvalue, Option.isSome_some])
    rw [if_neg (not_not.mpr hwok)]
    apply hends ((w₀.called (.readHoldingRegisters r.addr 1) (rcb r.addr 1 w.app).1
      (rcb r.addr 1 w.app).2.2).called (.writeSingleRegister r.addr (r.written value))
      (wcb r.addr (r.written value) (rcb r.addr 1 w.app).2.2).1
      (wcb r.addr (r.written value) (rcb r.addr 1 w.app).2.2).2) _ rfl _ _ rfl
    rw [World.called_app, hwview, hsame, stored, hvalue, Option.map_some]

/-- The masks say what becomes of the register: the request is harmless there, and
its answer fits the transmit buffer. -/
def Obeyed (view : σ → UInt16 → Option UInt16) (w : World σ) (t : Turn) : Prop :=
  7 ≤ w.ctx.txbuf.cells.length ∧ ∀ old ∈ view w.app t.mask.addr, Harmless t.mask old

theorem stored_eq_iff (m : UInt16 → Option UInt16) (r : Mask) :
    (∀ addr, stored m r addr = (m addr).map (masked [r] addr)) ↔
      ∀ old ∈ m r.addr, Harmless r old := by
  have hother (addr : UInt16) (h : addr ≠ r.addr) :
      stored m r addr = (m addr).map (masked [r] addr) := by
    have hid : masked [r] addr = id := by
      funext old
      rw [masked_cons, if_neg h.symm]
      rfl
    rw [stored, Function.update_of_ne h, hid, Option.map_id, id]
  have hself (old : UInt16) : masked [r] r.addr old = r.apply old := by
    rw [masked_cons, if_pos rfl]
    rfl
  constructor
  · intro h old hold
    have haddr := h r.addr
    rw [stored, Function.update_self, hold, Option.map_some, Option.map_some, hself,
      Option.some.injEq] at haddr
    exact (written_eq_iff r old).mp haddr
  · intro h addr
    by_cases ha : addr = r.addr
    · subst ha
      rw [stored, Function.update_self]
      cases hold : m r.addr with
      | none => rfl
      | some old =>
        rw [Option.map_some, Option.map_some, hself, (written_eq_iff r old).mpr (h old hold)]
    · exact hother addr ha

/-- A run over these requests is there, and each register has become what its requests
make of it, in their order. A bit that every AND mask for it has is as it was. -/
def Follows (view : σ → UInt16 → Option UInt16) (w : World σ) (turns : List Turn) : Prop :=
  ∃ w', after step w turns = some w' ∧ ∀ addr,
    view w'.app addr = (view w.app addr).map (masked (turns.map Turn.mask) addr) ∧
    ∀ old new k, view w.app addr = some old → view w'.app addr = some new →
      (∀ t ∈ turns, t.mask.addr = addr → t.mask.andMask.toNat.testBit k = true) →
        new.toNat.testBit k = old.toNat.testBit k

theorem follows_iff (turns : List Turn) :
    Follows view w turns ↔ ∃ w', after step w turns = some w' ∧ ∀ addr,
      view w'.app addr = (view w.app addr).map (masked (turns.map Turn.mask) addr) := by
  constructor
  · rintro ⟨w', hrun, h⟩
    exact ⟨w', hrun, fun addr => (h addr).1⟩
  · rintro ⟨w', hrun, h⟩
    refine ⟨w', hrun, fun addr => ⟨h addr, fun old new k hold hnew hkept => ?_⟩⟩
    rw [h addr, hold, Option.map_some, Option.some.injEq] at hnew
    rw [← hnew]
    apply masked_testBit
    intro r hr ha
    obtain ⟨t, ht, rfl⟩ := List.mem_map.mp hr
    exact hkept t ht ha

theorem masked_comp (r : Mask) (reqs : List Mask) (addr : UInt16) :
    masked reqs addr ∘ masked [r] addr = masked (r :: reqs) addr := by
  funext old
  rw [Function.comp_apply, masked_cons, masked_cons]
  rfl

theorem follows_nil : ∃ w', after step w [] = some w' ∧ ∀ addr,
    view w'.app addr = (view w.app addr).map (masked ([].map Turn.mask) addr) := by
  refine ⟨w, rfl, fun addr => ?_⟩
  have hid : masked ([].map Turn.mask) addr = id := rfl
  rw [hid, Option.map_id, id]

/-- Over a register store the masks are followed in every state of a run exactly when
no request turns on a bit that its AND mask protects. -/
theorem masks_followed_iff (view : σ → UInt16 → Option UInt16) (w : World σ)
    (hb : Stored w.ctx.callbacks view) (turns : List Turn) :
    (∀ front, front <+: turns → Follows view w front) ↔ Along step (Obeyed view) w turns := by
  simp only [follows_iff]
  induction turns generalizing w with
  | nil =>
    refine iff_of_true ?_ trivial
    intro front hfront
    obtain rfl := List.prefix_nil.mp hfront
    exact follows_nil
  | cons t turns ih =>
    obtain ⟨hnone, hsome⟩ := step_run hb t
    constructor
    · intro h
      obtain ⟨w₁, hrun, hview⟩ := h [t] (by simp)
      have hroom : 7 ≤ w.ctx.txbuf.cells.length := by
        by_contra hshort
        rw [after, hnone (by omega)] at hrun
        cases hrun
      obtain ⟨w₂, hstep, hstored, hconf⟩ := hsome hroom
      rw [after, hstep, Option.bind_some, after, Option.some.injEq] at hrun
      subst hrun
      rw [hstored] at hview
      refine ⟨⟨hroom, (stored_eq_iff _ _).mp hview⟩, w₂, hstep, ?_⟩
      rw [← ih w₂ (hconf.callbacks ▸ hb)]
      intro front hfront
      obtain ⟨w', hrun, hlast⟩ := h (t :: front) (List.cons_prefix_cons.mpr ⟨rfl, hfront⟩)
      rw [after, hstep, Option.bind_some] at hrun
      refine ⟨w', hrun, fun addr => ?_⟩
      rw [hlast, hstored, hview, Option.map_map, List.map_singleton, masked_comp,
        List.map_cons]
    · rintro ⟨⟨hroom, hharmless⟩, w₂, hstep, hrest⟩ front hfront
      cases front with
      | nil => exact follows_nil
      | cons t' front =>
        obtain ⟨rfl, hfront'⟩ := List.cons_prefix_cons.mp hfront
        obtain ⟨w₁, hstep', hstored, hconf⟩ := hsome hroom
        obtain rfl : w₂ = w₁ := Option.some.inj (hstep.symm.trans hstep')
        obtain ⟨w', hrun, hlast⟩ := (ih w₂ (hconf.callbacks ▸ hb)).mpr hrest front hfront'
        refine ⟨w', by rw [after, hstep, Option.bind_some, hrun], fun addr => ?_⟩
        rw [hlast, hstored, (stored_eq_iff _ _).mpr hharmless, Option.map_map, masked_comp]
        rfl

end

/-- The registers of the tests' banks, as their callbacks give access to them. -/
def bankRegisters {n m : Nat} (b : Banks n m) (addr : UInt16) : Option UInt16 :=
  b.testHoldingRegs.toList[addr.toNat]?

theorem bankCallbacks_stored {n m : Nat} :
    Stored (bankCallbacks : Callbacks (Banks n m)) bankRegisters where
  read := by
    refine ⟨testReadHoldingCb, rfl, fun addr b => ?_⟩
    have hlen : b.testHoldingRegs.toList.length = m := List.Vector.toList_length _
    by_cases hin : m < addr.toNat + 1
    · have hnone : bankRegisters b addr = none := List.getElem?_eq_none (by omega)
      have hcb : testReadHoldingCb addr 1 b = (-1, List.Vector.replicate _ 0, b) := if_pos hin
      rw [hcb, hnone]
      exact ⟨rfl, nofun, fun _ => Int.neg_ne_zero.mpr Int.one_ne_zero⟩
    · have hcb : testReadHoldingCb addr 1 b =
          (0, List.Vector.ofFn fun i => b.testHoldingRegs.toList[addr.toNat + i]?.getD 0, b) :=
        if_neg hin
      rw [hcb]
      refine ⟨rfl, fun value hvalue => ⟨rfl, ?_⟩, fun hnone => ?_⟩
      · have hone : (1 : UInt16).toNat = 1 := rfl
        change [b.testHoldingRegs.toList[addr.toNat + 0]?.getD 0] = [value]
        rw [Nat.add_zero, show b.testHoldingRegs.toList[addr.toNat]? = some value from hvalue,
          Option.getD_some]
      · have hout := List.getElem?_eq_none_iff.mp hnone
        omega
  write := by
    refine ⟨writeSingleRegisterCb, rfl, fun addr value b hin => ?_⟩
    have hlen : b.testHoldingRegs.toList.length = m := List.Vector.toList_length _
    obtain ⟨old, hold⟩ := Option.isSome_iff_exists.mp hin
    have hlt := (List.getElem?_eq_some_iff.mp hold).1
    have hcb : writeSingleRegisterCb addr value b =
        (0, ⟨b.testCoils, setRegister b.testHoldingRegs addr.toNat value⟩) := if_neg (by omega)
    rw [hcb]
    refine ⟨rfl, ?_⟩
    funext k
    change (b.testHoldingRegs.toList.set addr.toNat value)[k.toNat]? = _
    rw [List.getElem?_set, Function.update_apply]
    by_cases hk : k = addr
    · rw [if_pos (congrArg UInt16.toNat hk.symm), if_pos hlt, if_pos hk]
    · rw [if_neg fun h => hk (UInt16.toNat_inj.mp h.symm), if_neg hk]
      rfl

def maskSlave : World (Banks 0 2) :=
  ⟨{ station .rtu 1 16 16 with callbacks := bankCallbacks },
    ⟨List.Vector.nil, ⟨[0x1234, 0x00F0], rfl⟩⟩, 0, []⟩

def turn (addr andMask orMask : UInt16) : Turn := ⟨⟨addr, andMask, orMask⟩, [], fun _ _ => 0⟩

theorem obeyed_at {w : World (Banks 0 2)} {t : Turn} (old : Option UInt16)
    (h : (w.ctx.txbuf.cells.length, bankRegisters w.app t.mask.addr) = (16, old))
    (hold : old.all fun value => Harmless t.mask value) : Obeyed bankRegisters w t := by
  obtain ⟨hsize, rfl⟩ := Prod.mk.inj h
  refine ⟨by omega, fun value hvalue => ?_⟩
  rw [hvalue] at hold
  exact of_decide_eq_true hold

/-- Masks that share no bit, and one that shares bits which are on. -/
theorem disjoint_masks_followed : Follows bankRegisters maskSlave
    [turn 0 0xFF00 0x0012, turn 1 0x00FF 0x0110, turn 7 0xFFFF 0xFFFF] := by
  apply (masks_followed_iff bankRegisters maskSlave bankCallbacks_stored _).mpr _ _
    (List.prefix_refl _)
  exact ⟨obeyed_at (some 0x1234) rfl (by decide), _, rfl, obeyed_at (some 0x00F0) rfl (by decide), _,
    rfl, obeyed_at none rfl rfl, _, rfl, trivial⟩

/-- A bit in both masks goes on, though the AND mask is to protect it. -/
theorem protected_bit_set :
    (after step maskSlave [turn 0 0xFFFF 0x0001]).map (fun w => bankRegisters w.app 0) =
        some (some 0x1235) ∧
      masked [⟨0, 0xFFFF, 0x0001⟩] 0 0x1234 = 0x1234 ∧
      ¬ Follows bankRegisters maskSlave [turn 0 0xFFFF 0x0001] := by
  have hrun : (after step maskSlave [turn 0 0xFFFF 0x0001]).map (fun w => bankRegisters w.app 0) =
      some (some 0x1235) := by decide
  refine ⟨hrun, by decide, ?_⟩
  rintro ⟨w', hafter, h⟩
  rw [hafter, Option.map_some, (h 0).1] at hrun
  exact absurd hrun (by decide)

end Pamodbus.MaskWrites
