import Pamodbus.Respond

namespace Pamodbus.Traversal

open Pamodbus.Lib.Cells Pamodbus.Lib.Procedure
open Pamodbus.Context Pamodbus.FramerRtu Pamodbus.Framer Pamodbus.Builders Pamodbus.Respond

/-- A judgement on procedures and on the values that they end with. -/
abbrev Judgement (σ : Type) := (α : Type) → Proc (World σ) α → (α → Prop) → Prop

/-- A judgement that holds of the single steps, and of what follows one another.
Nothing but framing looks at the counter of the process. -/
structure Closed {σ : Type} (J : Judgement σ) : Prop where
  ends : ∀ {α : Type} {V : α → Prop} (a : α), V a → J α (pure a) V
  undefined : ∀ {α : Type} {V : α → Prop}, J α (access none) V
  bind : ∀ {α β : Type} {p : Proc (World σ) α} {f : α → Proc (World σ) β} {V : α → Prop}
    {W : β → Prop}, J α p V → (∀ a, V a → J β (f a) W) → J β (p >>= f) W
  get_bind : ∀ {β : Type} {f : World σ → Proc (World σ) β} {W : β → Prop},
    (∀ w t, f { w with nextTransactionId := t } = f w) → (∀ w, J β (f w) W) → J β (get >>= f) W
  txStore : ∀ (off : Nat) (xs : Bytes), J Unit (txStore off xs) fun _ => True
  called : ∀ (call : Call) (ret : Int) (app : σ),
    J Unit (modify fun w => w.called call ret app) fun _ => True

def Negative {β : Type} : Except Int β → Prop
  | .error ret => ret < 0
  | .ok _ => True

/-- A case ends with an error, or with the length of a PDU that can be framed. -/
def Framable : Except Int Nat → Prop
  | .error ret => ret < 0
  | .ok pduLen => 1 ≤ pduLen ∧ pduLen + 7 < 2 ^ 31

variable {σ α β : Type} {n : Nat} {J : Judgement σ} {V : α → Prop}

theorem judged_ite {c : Prop} [Decidable c] {p q : Proc (World σ) α} (hp : J α p V)
    (hq : J α q V) : J α (if c then p else q) V := by
  by_cases h : c
  · rw [if_pos h]
    exact hp
  · rw [if_neg h]
    exact hq

namespace Closed

variable (hJ : Closed J)

include hJ

theorem after {p : Proc (World σ) β} {f : β → Proc (World σ) α} (hp : J β p fun _ => True)
    (hf : ∀ b, J α (f b) V) : J α (p >>= f) V := hJ.bind hp fun b _ => hf b

theorem holds_access (o : Option α) : J α (access o) fun _ => True := by
  cases o with
  | none => exact hJ.undefined
  | some a => exact hJ.ends a trivial

theorem after_access (o : Option β) {f : β → Proc (World σ) α} (hf : ∀ b, J α (f b) V) :
    J α (access o >>= f) V := hJ.after (hJ.holds_access o) hf

theorem after_txStore {off : Nat} {xs : Bytes} {f : Unit → Proc (World σ) α}
    (hf : J α (f ()) V) : J α (Context.txStore off xs >>= f) V :=
  hJ.after (hJ.txStore off xs) fun _ => hf

theorem holds_loop (body : Nat → Proc (World σ) Unit) (k : Nat)
    (h : ∀ i, J Unit (body i) fun _ => True) : J Unit (loop body k) fun _ => True := by
  induction k with
  | zero => exact hJ.ends () trivial
  | succ k ih => exact hJ.after ih fun _ => h k

theorem holds_putRegisters (off : Nat) (values : List UInt16) (k : Nat) :
    J Unit (putRegisters off values k) fun _ => True :=
  hJ.holds_loop _ k fun _ => hJ.after_access _ fun _ => hJ.txStore _ _

theorem after_putRegisters {off k : Nat} {values : List UInt16} {f : Unit → Proc (World σ) α}
    (hf : J α (f ()) V) : J α (putRegisters off values k >>= f) V :=
  hJ.after (hJ.holds_putRegisters off values k) fun _ => hf

theorem holds_packCoils (off : Nat) (values : List UInt8) (k : Nat) :
    J Unit (packCoils off values k) fun _ => True :=
  hJ.holds_loop _ k fun _ => hJ.after_access _ fun _ => judged_ite
    (hJ.get_bind (fun _ _ => rfl) fun _ => hJ.after_access _ fun _ => hJ.txStore _ _)
    (hJ.ends () trivial)

theorem holds_readBits (call : Call) (cb : ReadCoilsFn σ) (addr count : UInt16)
    (arr : List.Vector UInt8 n) : J _ (readBits call cb addr count arr) (fun _ => True) :=
  hJ.get_bind (fun _ _ => rfl) fun _ => hJ.after (hJ.called _ _ _) fun _ =>
    hJ.after_access _ fun _ => hJ.ends _ trivial

theorem holds_readRegisters (call : Call) (cb : ReadRegistersFn σ) (addr count : UInt16)
    (arr : List.Vector UInt16 n) : J _ (readRegisters call cb addr count arr) (fun _ => True) :=
  hJ.get_bind (fun _ _ => rfl) fun _ => hJ.after (hJ.called _ _ _) fun _ =>
    hJ.after_access _ fun _ => hJ.ends _ trivial

theorem holds_writeCoil (cb : WriteSingleCoilFn σ) (addr : UInt16) (value : UInt8) :
    J _ (writeCoil cb addr value) (fun _ => True) :=
  hJ.get_bind (fun _ _ => rfl) fun _ => hJ.after (hJ.called _ _ _) fun _ => hJ.ends _ trivial

theorem holds_writeRegister (cb : WriteSingleRegisterFn σ) (addr value : UInt16) :
    J _ (writeRegister cb addr value) (fun _ => True) :=
  hJ.get_bind (fun _ _ => rfl) fun _ => hJ.after (hJ.called _ _ _) fun _ => hJ.ends _ trivial

theorem holds_writeCoils (cb : WriteMultipleCoilsFn σ) (addr count : UInt16) (data : Bytes) :
    J _ (writeCoils cb addr count data) (fun _ => True) :=
  hJ.get_bind (fun _ _ => rfl) fun _ => hJ.after (hJ.called _ _ _) fun _ => hJ.ends _ trivial

theorem holds_writeRegisters (cb : WriteMultipleRegistersFn σ) (addr count : UInt16)
    (data : List UInt16) : J _ (writeRegisters cb addr count data) (fun _ => True) :=
  hJ.get_bind (fun _ _ => rfl) fun _ => hJ.after (hJ.called _ _ _) fun _ => hJ.ends _ trivial

theorem holds_paFramerRtuWrap (pduLen : Int) :
    J _ (paFramerRtuWrap pduLen) (fun _ => True) := by
  refine hJ.get_bind (fun _ _ => rfl) fun w => hJ.after_access _ fun _ =>
    judged_ite (hJ.ends _ trivial) ?_
  refine hJ.after_access _ fun _ => hJ.after_txStore (hJ.after_txStore ?_)
  exact hJ.get_bind (fun _ _ => rfl) fun w => hJ.after_access _ fun _ =>
    hJ.after_txStore (hJ.after_txStore (hJ.ends _ trivial))

theorem refuse (ret : Int) (h : ret < 0) : J _ (pure (.error ret)) Framable := hJ.ends _ h

theorem refuse_if (ret : Int) (h : ret < 0) {c : Prop} [Decidable c]
    {p : Proc (World σ) (Except Int Nat)} (hp : J _ p Framable) :
    J _ (if c then pure (.error ret) else p) Framable := judged_ite (hJ.refuse ret h) hp

theorem answer (pduLen : Nat) (h : 1 ≤ pduLen ∧ pduLen + 7 < 2 ^ 31) :
    J _ (pure (.ok pduLen)) Framable := hJ.ends _ h

theorem holds_respondReadBits (fc : UInt8) (cb : Option (ReadCoilsFn σ))
    (call : UInt16 → UInt16 → Call) : J _ (respondReadBits fc cb call) Framable := by
  refine hJ.get_bind (fun _ _ => rfl) fun w => ?_
  cases cb with
  | none => exact hJ.refuse _ (by decide)
  | some cb =>
    have hc := w.ctx.request.slaveCount.toNat_lt
    refine hJ.after (hJ.holds_readBits _ _ _ _ _) fun r => hJ.refuse_if _ (by decide) ?_
    exact hJ.after_txStore (hJ.after_txStore (hJ.after_access _ fun _ =>
      hJ.after_txStore (hJ.answer _ (by omega))))

theorem holds_respondReadRegisters (residue : Residue) (fc : UInt8)
    (cb : Option (ReadRegistersFn σ)) (call : UInt16 → UInt16 → Call) :
    J _ (respondReadRegisters residue fc cb call) Framable := by
  refine hJ.get_bind (fun _ _ => rfl) fun w => ?_
  cases cb with
  | none => exact hJ.refuse _ (by decide)
  | some cb =>
    have hc := w.ctx.request.slaveCount.toNat_lt
    refine hJ.after (hJ.holds_readRegisters _ _ _ _ _) fun r => hJ.refuse_if _ (by decide) ?_
    exact hJ.after_txStore (hJ.after_txStore (hJ.after_putRegisters (hJ.answer _ (by omega))))

theorem holds_respondWriteSingleCoil (fc : UInt8) :
    J _ (respondWriteSingleCoil fc : Proc (World σ) (Except Int Nat)) Framable := by
  refine hJ.get_bind (fun _ _ => rfl) fun w => ?_
  dsimp only
  split
  · exact hJ.refuse _ (by decide)
  · refine hJ.after_access _ fun v => hJ.after (hJ.holds_writeCoil _ _ _) fun r =>
      hJ.refuse_if _ (by decide) ?_
    exact hJ.after_txStore (hJ.after_txStore (hJ.after_txStore (hJ.answer _ (by decide))))

theorem holds_respondWriteSingleRegister (fc : UInt8) :
    J _ (respondWriteSingleRegister fc : Proc (World σ) (Except Int Nat)) Framable := by
  refine hJ.get_bind (fun _ _ => rfl) fun w => ?_
  dsimp only
  split
  · exact hJ.refuse _ (by decide)
  · refine hJ.after_access _ fun v => hJ.after (hJ.holds_writeRegister _ _ _) fun r =>
      hJ.refuse_if _ (by decide) ?_
    exact hJ.after_txStore (hJ.after_txStore (hJ.after_txStore (hJ.answer _ (by decide))))

theorem holds_respondExceptionStatus (residue : Residue) (fc : UInt8) :
    J _ (respondExceptionStatus residue fc : Proc (World σ) (Except Int Nat)) Framable := by
  refine hJ.get_bind (fun _ _ => rfl) fun w => ?_
  split
  · exact hJ.refuse _ (by decide)
  · refine hJ.after (hJ.holds_readBits (n := 1) _ _ _ _ _) fun r => hJ.refuse_if _ (by decide) ?_
    exact hJ.after_txStore (hJ.after_access _ fun _ => hJ.after_txStore (hJ.answer _ (by decide)))

theorem holds_respondDiagnostic (fc : UInt8) :
    J _ (respondDiagnostic fc : Proc (World σ) (Except Int Nat)) Framable := by
  refine hJ.get_bind (fun _ _ => rfl) fun w => ?_
  exact hJ.after_txStore (hJ.after_txStore (hJ.after_access _ fun _ =>
    hJ.after_txStore (hJ.answer _ (by decide))))

theorem holds_respondComEventCounter (residue : Residue) (fc : UInt8) :
    J _ (respondComEventCounter residue fc : Proc (World σ) (Except Int Nat)) Framable := by
  refine hJ.get_bind (fun _ _ => rfl) fun w => ?_
  split
  · exact hJ.refuse _ (by decide)
  · refine hJ.after (hJ.holds_readRegisters _ _ _ _ _) fun r => hJ.refuse_if _ (by decide) ?_
    exact hJ.after_txStore (hJ.after_putRegisters (hJ.answer _ (by decide)))

theorem holds_respondComEventLog (residue : Residue) (fc : UInt8) :
    J _ (respondComEventLog residue fc : Proc (World σ) (Except Int Nat)) Framable := by
  refine hJ.get_bind (fun _ _ => rfl) fun w => ?_
  split
  · exact hJ.refuse _ (by decide)
  · refine hJ.after (hJ.holds_readRegisters _ _ _ _ _) fun r => hJ.refuse_if _ (by decide) ?_
    exact hJ.after_txStore (hJ.after_txStore (hJ.after_putRegisters (hJ.answer _ (by decide))))

theorem holds_respondWriteMultipleCoils (fc : UInt8) :
    J _ (respondWriteMultipleCoils fc : Proc (World σ) (Except Int Nat)) Framable := by
  refine hJ.get_bind (fun _ _ => rfl) fun w => ?_
  dsimp only
  split
  · exact hJ.refuse _ (by decide)
  · refine hJ.after (hJ.holds_writeCoils _ _ _ _) fun r => hJ.refuse_if _ (by decide) ?_
    exact hJ.after_txStore (hJ.after_txStore (hJ.after_txStore (hJ.answer _ (by decide))))

theorem holds_respondWriteMultipleRegisters (fc : UInt8) :
    J _ (respondWriteMultipleRegisters fc : Proc (World σ) (Except Int Nat)) Framable := by
  refine hJ.get_bind (fun _ _ => rfl) fun w => ?_
  dsimp only
  split
  · exact hJ.refuse _ (by decide)
  · refine hJ.after (hJ.holds_writeRegisters _ _ _ _) fun r => hJ.refuse_if _ (by decide) ?_
    exact hJ.after_txStore (hJ.after_txStore (hJ.after_txStore (hJ.answer _ (by decide))))

theorem holds_respondReportServerId (residue : Residue) (fc : UInt8) :
    J _ (respondReportServerId residue fc : Proc (World σ) (Except Int Nat)) Framable := by
  refine hJ.get_bind (fun _ _ => rfl) fun w => ?_
  split
  · exact hJ.refuse _ (by decide)
  · refine hJ.after (hJ.holds_readRegisters _ _ _ _ _) fun r => hJ.refuse_if _ (by decide) ?_
    exact hJ.after_access _ fun _ => hJ.after_txStore (hJ.after_txStore
      (hJ.after_putRegisters (hJ.answer _ (by omega))))

theorem holds_readFileRecords (residue : Residue) (cb : ReadRegistersFn σ)
    (rounds reqOffset offset : Nat) (resp : UInt8) :
    J _ (readFileRecords residue cb rounds reqOffset offset resp) Negative := by
  have hfail : Negative (.error paErrCallback : Except Int UInt8) := Int.negSucc_lt_zero _
  induction rounds generalizing reqOffset offset resp with
  | zero => exact hJ.undefined
  | succ rounds ih =>
    refine hJ.get_bind (fun _ _ => rfl) fun w =>
      judged_ite (hJ.ends _ trivial) (judged_ite (hJ.ends _ trivial) ?_)
    refine hJ.after_access _ fun _ => hJ.after_access _ fun _ => hJ.after_access _ fun _ =>
      hJ.after_access _ fun _ => ?_
    refine hJ.after (hJ.holds_readRegisters _ _ _ _ _) fun r => judged_ite (hJ.ends _ hfail)
      (judged_ite (hJ.ends _ trivial) ?_)
    exact hJ.after_txStore (hJ.after_txStore (hJ.after_putRegisters (ih _ _ _)))

theorem holds_respondReadFileRecord (residue : Residue) (fc : UInt8) :
    J _ (respondReadFileRecord residue fc : Proc (World σ) (Except Int Nat)) Framable := by
  refine hJ.get_bind (fun _ _ => rfl) fun w => ?_
  dsimp only
  split
  · exact hJ.refuse _ (by decide)
  · refine hJ.after_txStore (hJ.bind (hJ.holds_readFileRecords _ _ _ _ _ _)
      fun r hr => ?_)
    cases r with
    | error ret => exact hJ.refuse _ hr
    | ok resp =>
      have hb := resp.toNat_lt
      exact hJ.after_txStore (hJ.answer _ (by omega))

theorem holds_writeFileRecords (residue : Residue) (cb : WriteMultipleRegistersFn σ)
    (rounds offset : Nat) : J _ (writeFileRecords residue cb rounds offset) Negative := by
  have hfail : Negative (.error paErrCallback : Except Int Unit) := Int.negSucc_lt_zero _
  induction rounds generalizing offset with
  | zero => exact hJ.undefined
  | succ rounds ih =>
    refine hJ.get_bind (fun _ _ => rfl) fun w =>
      judged_ite (hJ.ends _ trivial) (judged_ite (hJ.ends _ trivial) ?_)
    refine hJ.after_access _ fun _ => hJ.after_access _ fun _ => hJ.after_access _ fun _ =>
      hJ.after_access _ fun _ => hJ.after_access _ fun _ => hJ.after_access _ fun _ => ?_
    exact hJ.after (hJ.holds_writeRegisters _ _ _ _) fun r => judged_ite (hJ.ends _ hfail) (ih _)

theorem holds_respondWriteFileRecord (residue : Residue) (fc : UInt8) :
    J _ (respondWriteFileRecord residue fc : Proc (World σ) (Except Int Nat)) Framable := by
  refine hJ.get_bind (fun _ _ => rfl) fun w => ?_
  dsimp only
  split
  · exact hJ.refuse _ (by decide)
  · refine hJ.bind (hJ.holds_writeFileRecords _ _ _ _) fun r hr => ?_
    cases r with
    | error ret => exact hJ.refuse _ hr
    | ok _ =>
      have hb := (UInt8.ofNat (w.ctx.request.slaveRegCount.toNat * 2)).toNat_lt
      exact hJ.after_txStore (hJ.after_txStore (hJ.after_putRegisters (hJ.answer _ (by omega))))

theorem holds_maskWrite (residue : Residue) (cb : WriteSingleRegisterFn σ)
    (andMask orMask : UInt16) : J _ (maskWrite residue cb andMask orMask) Negative := by
  have hfail : Negative (.error paErrCallback : Except Int Unit) := Int.negSucc_lt_zero _
  refine hJ.get_bind (fun _ _ => rfl) fun w => ?_
  dsimp only
  split
  · exact hJ.ends _ trivial
  · refine hJ.after (hJ.holds_readRegisters _ _ _ _ _) fun r => judged_ite (hJ.ends _ trivial) ?_
    exact hJ.after_access _ fun v => hJ.after (hJ.holds_writeRegister _ _ _) fun ret =>
      judged_ite (hJ.ends _ hfail) (hJ.ends _ trivial)

theorem holds_respondMaskWriteRegister (residue : Residue) (fc : UInt8) :
    J _ (respondMaskWriteRegister residue fc : Proc (World σ) (Except Int Nat)) Framable := by
  refine hJ.get_bind (fun _ _ => rfl) fun w => ?_
  dsimp only
  split
  · exact hJ.refuse _ (by decide)
  · refine hJ.after_access _ fun andMask => hJ.after_access _ fun orMask =>
      hJ.bind (hJ.holds_maskWrite _ _ _ _) fun r hr => ?_
    cases r with
    | error ret => exact hJ.refuse _ hr
    | ok _ =>
      exact hJ.after_txStore (hJ.after_txStore (hJ.after_txStore (hJ.after_txStore
        (hJ.answer _ (by decide)))))

theorem holds_respondReadWriteRegisters (residue : Residue) (fc : UInt8) :
    J _ (respondReadWriteRegisters residue fc : Proc (World σ) (Except Int Nat)) Framable := by
  refine hJ.get_bind (fun _ _ => rfl) fun w => ?_
  dsimp only
  split
  · refine hJ.after_access _ fun _ => hJ.after_access _ fun _ => hJ.after_access _ fun _ =>
      hJ.after_access _ fun _ => ?_
    have hc := w.ctx.request.slaveCount.toNat_lt
    refine hJ.after (hJ.holds_writeRegisters _ _ _ _) fun r => hJ.refuse_if _ (by decide) ?_
    refine hJ.after (hJ.holds_readRegisters _ _ _ _ _) fun r => hJ.refuse_if _ (by decide) ?_
    exact hJ.after_txStore (hJ.after_txStore (hJ.after_putRegisters (hJ.answer _ (by omega))))
  · exact hJ.refuse _ (by decide)

theorem holds_respondReadFifoQueue (residue : Residue) (fc : UInt8) :
    J _ (respondReadFifoQueue residue fc : Proc (World σ) (Except Int Nat)) Framable := by
  refine hJ.get_bind (fun _ _ => rfl) fun w => ?_
  dsimp only
  split
  · exact hJ.refuse _ (by decide)
  · refine hJ.after (hJ.holds_readRegisters _ _ _ _ _) fun r => hJ.refuse_if _ (by decide) ?_
    exact hJ.after_access _ fun _ => hJ.after_txStore (hJ.after_txStore (hJ.after_txStore
      (hJ.after_putRegisters (hJ.answer _ (by omega)))))

theorem holds_respondPdu (residue : Residue) (cbs : Callbacks σ) (fc : UInt8) :
    J _ (respondPdu residue cbs fc) Framable := by
  unfold respondPdu
  split
  case h_1 | h_2 => exact hJ.holds_respondReadBits _ _ _
  case h_3 | h_4 => exact hJ.holds_respondReadRegisters _ _ _ _
  case h_5 => exact hJ.holds_respondWriteSingleCoil _
  case h_6 => exact hJ.holds_respondWriteSingleRegister _
  case h_7 => exact hJ.holds_respondExceptionStatus _ _
  case h_8 => exact hJ.holds_respondDiagnostic _
  case h_9 => exact hJ.holds_respondComEventCounter _ _
  case h_10 => exact hJ.holds_respondComEventLog _ _
  case h_11 => exact hJ.holds_respondWriteMultipleCoils _
  case h_12 => exact hJ.holds_respondWriteMultipleRegisters _
  case h_13 => exact hJ.holds_respondReportServerId _ _
  case h_14 => exact hJ.holds_respondReadFileRecord _ _
  case h_15 => exact hJ.holds_respondWriteFileRecord _ _
  case h_16 => exact hJ.holds_respondMaskWriteRegister _ _
  case h_17 => exact hJ.holds_respondReadWriteRegisters _ _
  case h_18 => exact hJ.holds_respondReadFifoQueue _ _
  case h_19 => exact hJ.refuse _ (by decide)

end Closed

/-- A property of whole calls that refusing and framing have, and that what comes
before them does not take away. -/
structure Ending (J : Judgement σ) (K : Proc (World σ) Int → Prop) : Prop where
  refuse : ∀ ret < 0, K (pure ret)
  after : ∀ {α : Type} {p : Proc (World σ) α} {f : α → Proc (World σ) Int} {V : α → Prop},
    J α p V → (∀ a, V a → K (f a)) → K (p >>= f)
  get_bind : ∀ {f : World σ → Proc (World σ) Int},
    (∀ w t, f { w with nextTransactionId := t } = f w) → (∀ w, K (f w)) → K (get >>= f)
  finish : ∀ n : Nat, 1 ≤ n → n + 7 < 2 ^ 31 → K (finish n)

variable {K : Proc (World σ) Int → Prop}

theorem ends_ite {c : Prop} [Decidable c] {p q : Proc (World σ) Int} (hp : K p) (hq : K q) :
    K (if c then p else q) := by
  by_cases h : c
  · rw [if_pos h]
    exact hp
  · rw [if_neg h]
    exact hq

namespace Ending

variable (hJ : Closed J) (hK : Ending J K)

include hJ hK

theorem store {off : Nat} {xs : Bytes} {f : Unit → Proc (World σ) Int} (hf : K (f ())) :
    K (txStore off xs >>= f) := hK.after (hJ.txStore off xs) fun _ _ => hf

theorem ends_buildRead (fc : UInt8) (maxCount : Nat) (addr count : UInt16) :
    K (buildRead fc maxCount addr count) :=
  ends_ite (hK.refuse _ (by decide)) (hK.store hJ (hK.store hJ (hK.store hJ
    (hK.finish 5 (by decide) (by decide)))))

theorem ends_buildWriteSingle (fc : UInt8) (addr value : UInt16) :
    K (buildWriteSingle fc addr value) :=
  hK.store hJ (hK.store hJ (hK.store hJ (hK.finish 5 (by decide) (by decide))))

theorem ends_writeMultipleCoils (addr : UInt16) (values : List UInt8) (count : UInt16) :
    K (paModbusBuildWriteMultipleCoils addr values count) := by
  have hc := count.toNat_lt
  refine ends_ite (hK.refuse _ (by decide)) (hK.get_bind (fun _ _ => rfl) fun w => ?_)
  refine ends_ite (hK.refuse _ (by decide)) ?_
  refine hK.store hJ (hK.store hJ (hK.store hJ (hK.store hJ (hK.store hJ ?_))))
  exact hK.after (hJ.holds_packCoils _ _ _) fun _ _ => hK.finish _ (by omega) (by omega)

theorem ends_writeMultipleRegisters (addr : UInt16) (values : List UInt16) (count : UInt16) :
    K (paModbusBuildWriteMultipleRegisters addr values count) := by
  have hc := count.toNat_lt
  refine ends_ite (hK.refuse _ (by decide)) (hK.get_bind (fun _ _ => rfl) fun w => ?_)
  refine ends_ite (hK.refuse _ (by decide)) ?_
  refine hK.store hJ (hK.store hJ (hK.store hJ (hK.store hJ ?_)))
  exact hK.after (hJ.holds_putRegisters _ _ _) fun _ _ => hK.finish _ (by omega) (by omega)

theorem ends_readWriteRegisters (readAddr readCount writeAddr : UInt16)
    (values : Option (List UInt16)) (writeCount : UInt16) :
    K (paModbusBuildReadWriteRegisters readAddr readCount writeAddr values writeCount) := by
  have hc := writeCount.toNat_lt
  refine ends_ite (hK.refuse _ (by decide)) (ends_ite (hK.refuse _ (by decide)) ?_)
  cases values with
  | none => exact hK.refuse _ (by decide)
  | some values =>
    refine hK.get_bind (fun _ _ => rfl) fun w => ends_ite (hK.refuse _ (by decide)) ?_
    refine hK.store hJ (hK.store hJ (hK.store hJ (hK.store hJ (hK.store hJ (hK.store hJ ?_)))))
    exact hK.after (hJ.holds_putRegisters _ _ _) fun _ _ => hK.finish _ (by omega) (by omega)

theorem ends_respond (residue : Residue) : K (paModbusSlaveRespond residue) := by
  refine hK.get_bind (fun _ _ => rfl) fun w =>
    hK.after (hJ.holds_respondPdu _ _ _) fun r hr => ?_
  cases r with
  | error ret => exact hK.refuse ret hr
  | ok pduLen => exact hK.finish pduLen hr.1 hr.2

theorem ends_respondError (code : UInt8) : K (paModbusSlaveRespondError code) :=
  hK.get_bind (fun _ _ => rfl) fun _ =>
    hK.store hJ (hK.store hJ (hK.finish 2 (by decide) (by decide)))

end Ending

end Pamodbus.Traversal
