import Pamodbus.TxBuffer

namespace Pamodbus.BuilderBounds

open Pamodbus.Lib.Procedure Pamodbus.Lib.Hoare
open Pamodbus.Context Pamodbus.Framer Pamodbus.Builders Pamodbus.RespondRun Pamodbus.History
open Pamodbus.Calls Pamodbus.TxBuffer

variable {σ : Type}

/-- A call of a build function or of `pa_modbus_slave_respond_error`. -/
def BuildsPdu : Transmission → Prop
  | .respond _ | .sendRaw _ => False
  | _ => True

def inRange (c : Prop) [Decidable c] (len : Option Nat) : Option Nat := if c then len else none

def pduLen : Transmission → Option Nat
  | .readCoils _ count | .readDiscreteInputs _ count =>
    inRange (1 ≤ count.toNat ∧ count.toNat ≤ 2000) (some 5)
  | .readHoldingRegisters _ count | .readInputRegisters _ count =>
    inRange (1 ≤ count.toNat ∧ count.toNat ≤ 125) (some 5)
  | .writeSingleCoil _ _ | .writeSingleRegister _ _ => some 5
  | .writeMultipleCoils _ _ count =>
    inRange (1 ≤ count.toNat ∧ count.toNat ≤ 1968) (some (6 + (count.toNat + 7) / 8))
  | .writeMultipleRegisters _ _ count =>
    inRange (1 ≤ count.toNat ∧ count.toNat ≤ 123) (some (6 + count.toNat * 2))
  | .reportSlaveId => some 1
  | .maskWriteRegister _ _ _ => some 7
  | .readWriteRegisters _ readCount _ values writeCount =>
    inRange (1 ≤ readCount.toNat ∧ readCount.toNat ≤ 125) <|
      inRange (1 ≤ writeCount.toNat ∧ writeCount.toNat ≤ 121) <|
        inRange values.isSome (some (10 + writeCount.toNat * 2))
  | .respondError _ => some 2
  | .respond _ | .sendRaw _ => none

/-- An array that is handed over has as many elements as its count says. -/
def Backed : Transmission → Prop
  | .writeMultipleCoils _ values count => count.toNat ≤ values.length
  | .writeMultipleRegisters _ values count => count.toNat ≤ values.length
  | .readWriteRegisters _ _ _ values count => ∀ vs ∈ values, count.toNat ≤ vs.length
  | _ => True

/-- The function compares the length of the PDU with the size before it writes. -/
def ChecksFirst : Transmission → Prop
  | .writeMultipleCoils _ _ _ | .writeMultipleRegisters _ _ _
  | .readWriteRegisters _ _ _ _ _ => True
  | _ => False

/-- A run that stores inside of the transmit buffer only, and returns that it is full
exactly when the frame of a PDU of this length does not fit. -/
def Respectful (w : World σ) (len : Option Nat) (run : Option (Int × World σ)) : Prop :=
  ∃ ret w', run = some (ret, w') ∧ w'.ctx.txbuf.cells.length = w.ctx.txbuf.cells.length ∧
    ∀ n ∈ len, ret = paErrBufferFull ↔
      w.ctx.txbuf.cells.length < n + overhead w.ctx.framerType

theorem length_ne_full (n : Nat) : (n : Int) ≠ paErrBufferFull := by
  intro h
  have hneg : paErrBufferFull < 0 := by decide
  omega

section

variable {w : World σ} {n : Nat}

theorem respectful_inRange {c d : Prop} [Decidable c] [Decidable d] (hcd : c ↔ ¬ d)
    {len : Option Nat} {ret : Int} {p : Proc (World σ) Int} :
    Respectful w (inRange c len) ((if d then pure ret else p).run w) ↔
      (c → Respectful w len (p.run w)) := by
  rw [inRange]
  by_cases h : c
  · rw [if_pos h, if_neg (hcd.mp h)]
    exact (imp_iff_right h).symm
  · rw [if_neg h, if_pos (not_not.mp fun hd => h (hcd.mpr hd))]
    exact iff_of_true ⟨_, _, rfl, rfl, nofun⟩ fun hc => absurd hc h

theorem inRange_le {c : Prop} [Decidable c] {len : Option Nat} {k : Nat} :
    (∀ n ∈ inRange c len, n ≤ k) ↔ (c → ∀ n ∈ len, n ≤ k) := by
  rw [inRange]
  by_cases h : c
  · rw [if_pos h, imp_iff_right h]
  · rw [if_neg h]
    exact iff_of_true nofun fun hc => absurd hc h

theorem some_le {k : Nat} : (∀ m ∈ some n, m ≤ k) ↔ n ≤ k := by simp

theorem reply_respectful_iff (bytes : Bytes) (hn : n + 7 < 2 ^ 31) (hl : bytes.length = n) :
    Respectful w (some n) ((reply bytes n).run w) ↔ n ≤ w.ctx.txbuf.cells.length := by
  constructor
  · rintro ⟨ret, w', hrun, -⟩
    have hdefined := (reply_isSome bytes n w hn).mp (by rw [hrun, Option.isSome_some])
    rwa [hl] at hdefined
  · intro hroom
    have hpatch : (w.ctx.txbuf.patch bytes).cells.length = w.ctx.txbuf.cells.length := by simp
    rw [reply, bind_defined _ _ _ _ _ (emit_run bytes w (by omega))]
    by_cases hfit : n + overhead w.ctx.framerType ≤ w.ctx.txbuf.cells.length
    · refine ⟨_, _, finish_fits n _ hn (by rw [World.withTx_txbuf, hpatch]; exact hfit), ?_, ?_⟩
      · simp [framed]
      · rintro _ ⟨⟩
        exact iff_of_false (length_ne_full _) (by omega)
    · refine ⟨_, _, finish_full n _ hn (by
        rw [World.withTx_txbuf, hpatch, World.withTx_framerType]
        omega), hpatch, ?_⟩
      rintro _ ⟨⟩
      exact iff_of_true rfl (by omega)

end

section

variable {c : PaModbus σ} {n : Nat}

/-- A context with the configuration of `c`. -/
def At (c : PaModbus σ) (w : World σ) : Prop := SameConfig c w.ctx

/-- The end of a function that builds a PDU of `n` bytes. -/
def Ended (c : PaModbus σ) (n : Nat) (ret : Int) (w : World σ) : Prop :=
  At c w ∧ (ret = paErrBufferFull ↔ c.txbuf.cells.length < n + overhead c.framerType)

theorem store_inside {off : Nat} {xs : Bytes} (h : off + xs.length ≤ c.txbuf.cells.length) :
    Triple (At c) (txStore off xs) fun _ => At c := by
  intro w hw
  have hsize : off + xs.length ≤ w.ctx.txbuf.cells.length := hw.txSize ▸ h
  have hstore := txStore_run off xs w _ (dif_pos hsize)
  exact ⟨_, _, hstore, hw.trans (stable_sameConfig.keeps_txStore off xs w () _ hstore)⟩

theorem finish_ended (hn : n + 7 < 2 ^ 31) : Triple (At c) (finish n) (Ended c n) := by
  intro w hw
  by_cases hfit : n + overhead w.ctx.framerType ≤ w.ctx.txbuf.cells.length
  · have hrun := finish_fits n w hn hfit
    refine ⟨_, _, hrun, hw.trans (keeps_finish n w _ _ hrun), ?_⟩
    rw [← hw.txSize, ← hw.framerType]
    exact iff_of_false (length_ne_full _) (by omega)
  · have hrun := finish_full n w hn (by omega)
    refine ⟨_, _, hrun, hw, ?_⟩
    rw [← hw.txSize, ← hw.framerType]
    exact iff_of_true rfl (by omega)

theorem store_ended {off : Nat} {xs : Bytes} {f : Unit → Proc (World σ) Int}
    (h : off + xs.length ≤ c.txbuf.cells.length) (hf : Triple (At c) (f ()) (Ended c n)) :
    Triple (At c) (txStore off xs >>= f) (Ended c n) :=
  triple_bind (store_inside h) fun _ => hf

theorem putRegisters_inside {off k : Nat} {values : List UInt16} (hv : k ≤ values.length)
    (h : off + k * 2 ≤ c.txbuf.cells.length) :
    Triple (At c) (putRegisters off values k) fun _ => At c := by
  apply triple_loop _ (fun _ => At c)
  intro i hi
  obtain ⟨v, hvalue⟩ := Lib.Cells.getElem?_some values i (by omega)
  exact triple_access_bind v hvalue (store_inside (by rw [put16_length]; omega))

theorem packCoils_inside {off k : Nat} {values : List UInt8} (hv : k ≤ values.length)
    (h : off + (k + 7) / 8 ≤ c.txbuf.cells.length) :
    Triple (At c) (packCoils off values k) fun _ => At c := by
  apply triple_loop _ (fun _ => At c)
  intro i hi
  obtain ⟨v, hvalue⟩ := Lib.Cells.getElem?_some values i (by omega)
  refine triple_access_bind v hvalue (triple_ite (fun _ => ?_) fun _ => triple_pure _ fun _ hw => hw)
  intro w hw
  have hcell : off + i / 8 < w.ctx.txbuf.cells.length := by
    rw [hw.txSize]
    omega
  obtain ⟨b, hb⟩ := Lib.Cells.getElem?_some w.ctx.txbuf.cells _ hcell
  rw [get_bind_run, hb, access_some, pure_bind]
  exact store_inside (by rw [List.length_singleton, ← hw.txSize]; omega) w hw

theorem checked_respectful {w : World σ} {p : Proc (World σ) Int}
    (hp : n ≤ w.ctx.txbuf.cells.length → Triple (At w.ctx) p (Ended w.ctx n)) :
    Respectful w (some n)
      ((if w.ctx.txbuf.cells.length < n then pure paErrBufferFull else p).run w) := by
  by_cases h : w.ctx.txbuf.cells.length < n
  · rw [if_pos h]
    refine ⟨_, _, rfl, rfl, ?_⟩
    rintro _ ⟨⟩
    exact iff_of_true rfl (by omega)
  · rw [if_neg h]
    obtain ⟨ret, w', hrun, hat, hfull⟩ := hp (by omega) w (sameConfig_refl w.ctx)
    refine ⟨ret, w', hrun, hat.txSize, ?_⟩
    rintro _ ⟨⟩
    exact hfull

end

variable (w : World σ)

theorem buildRead_respectful_iff (fc : UInt8) (maxCount : Nat) (addr count : UInt16) :
    Respectful w (inRange (1 ≤ count.toNat ∧ count.toNat ≤ maxCount) (some 5))
        ((buildRead fc maxCount addr count).run w) ↔
      ∀ n ∈ inRange (1 ≤ count.toNat ∧ count.toNat ≤ maxCount) (some 5),
        n ≤ w.ctx.txbuf.cells.length := by
  rw [inRange_le]
  refine (respectful_inRange (by omega)).trans (forall_congr' fun h => ?_)
  rw [some_le, txStore_front, emit_txStore_bind _ _ _ (by simp), emit_txStore_bind _ _ _ (by simp)]
  exact reply_respectful_iff ([fc] ++ put16 addr ++ put16 count) (by decide) rfl

theorem buildWriteSingle_respectful_iff (fc : UInt8) (addr value : UInt16) :
    Respectful w (some 5) ((buildWriteSingle fc addr value).run w) ↔
      ∀ n ∈ some 5, n ≤ w.ctx.txbuf.cells.length := by
  rw [some_le, buildWriteSingle_eq]
  exact reply_respectful_iff ([fc] ++ put16 addr ++ put16 value) (by decide) rfl

theorem writeMultipleCoils_respectful (addr : UInt16) (values : List UInt8) (count : UInt16)
    (hv : 1 ≤ count.toNat ∧ count.toNat ≤ 1968 → count.toNat ≤ values.length) :
    Respectful w (pduLen (.writeMultipleCoils addr values count))
      ((paModbusBuildWriteMultipleCoils addr values count).run w) := by
  refine (respectful_inRange (by omega)).mpr fun hc => ?_
  rw [get_bind_run]
  refine checked_respectful fun hroom => ?_
  refine store_ended (by simp; omega) (store_ended (by simp; omega) (store_ended (by simp; omega)
    (store_ended (by simp; omega) (store_ended (by simp; omega) ?_))))
  exact triple_bind (packCoils_inside (hv hc) hroom) fun _ => finish_ended (by omega)

theorem writeMultipleRegisters_respectful (addr : UInt16) (values : List UInt16) (count : UInt16)
    (hv : 1 ≤ count.toNat ∧ count.toNat ≤ 123 → count.toNat ≤ values.length) :
    Respectful w (pduLen (.writeMultipleRegisters addr values count))
      ((paModbusBuildWriteMultipleRegisters addr values count).run w) := by
  refine (respectful_inRange (by omega)).mpr fun hc => ?_
  rw [get_bind_run]
  refine checked_respectful fun hroom => ?_
  refine store_ended (by simp; omega) (store_ended (by simp; omega) (store_ended (by simp; omega)
    (store_ended (by simp; omega) ?_)))
  exact triple_bind (putRegisters_inside (hv hc) hroom) fun _ => finish_ended (by omega)

theorem readWriteRegisters_respectful (readAddr readCount writeAddr : UInt16)
    (values : Option (List UInt16)) (writeCount : UInt16)
    (hv : 1 ≤ readCount.toNat ∧ readCount.toNat ≤ 125 →
      1 ≤ writeCount.toNat ∧ writeCount.toNat ≤ 121 → ∀ vs ∈ values, writeCount.toNat ≤ vs.length) :
    Respectful w (pduLen (.readWriteRegisters readAddr readCount writeAddr values writeCount))
      ((paModbusBuildReadWriteRegisters readAddr readCount writeAddr values writeCount).run w) := by
  refine (respectful_inRange (by omega)).mpr fun hr =>
    (respectful_inRange (by omega)).mpr fun hc => ?_
  cases values with
  | none => exact ⟨_, _, rfl, rfl, nofun⟩
  | some vs =>
    rw [get_bind_run]
    refine checked_respectful fun hroom => ?_
    refine store_ended (by simp; omega) (store_ended (by simp; omega) (store_ended (by simp; omega)
      (store_ended (by simp; omega) (store_ended (by simp; omega) (store_ended (by simp; omega)
        ?_)))))
    exact triple_bind (putRegisters_inside (hv hr hc vs rfl) hroom) fun _ => finish_ended (by omega)

/-- Exactly the calls that check first, and those whose PDU is in the buffer without
a check, stay inside of the buffer and report one that is too small for the frame. -/
theorem build_respectful_iff (t : Transmission) (ht : BuildsPdu t)
    (hv : ∀ n ∈ pduLen t, Backed t) :
    Respectful w (pduLen t) (t.run.run w) ↔
      ChecksFirst t ∨ ∀ n ∈ pduLen t, n ≤ w.ctx.txbuf.cells.length := by
  cases t with
  | readCoils addr count | readDiscreteInputs addr count | readHoldingRegisters addr count
  | readInputRegisters addr count =>
    exact (buildRead_respectful_iff w _ _ addr count).trans (or_iff_right not_false).symm
  | writeSingleCoil addr value | writeSingleRegister addr value =>
    exact (buildWriteSingle_respectful_iff w _ addr _).trans (or_iff_right not_false).symm
  | writeMultipleCoils addr values count =>
    exact iff_of_true (writeMultipleCoils_respectful w addr values count fun hc =>
      hv _ (if_pos hc)) (.inl trivial)
  | writeMultipleRegisters addr values count =>
    exact iff_of_true (writeMultipleRegisters_respectful w addr values count fun hc =>
      hv _ (if_pos hc)) (.inl trivial)
  | reportSlaveId =>
    apply Iff.trans _ (or_iff_right not_false).symm
    rw [pduLen, some_le, Transmission.run, paModbusBuildReportSlaveId, txStore_front]
    exact reply_respectful_iff [0x11] (by decide) rfl
  | maskWriteRegister addr andMask orMask =>
    apply Iff.trans _ (or_iff_right not_false).symm
    rw [pduLen, some_le, Transmission.run, maskWriteRegister_eq]
    exact reply_respectful_iff _ (by decide) rfl
  | readWriteRegisters readAddr readCount writeAddr values writeCount =>
    refine iff_of_true (readWriteRegisters_respectful w readAddr readCount writeAddr values
      writeCount fun hr hc vs hvs => hv (10 + writeCount.toNat * 2) ?_ vs hvs) (.inl trivial)
    rw [pduLen, inRange, if_pos hr, inRange, if_pos hc, inRange, hvs, if_pos Option.isSome_some]
    rfl
  | respond residue => exact absurd ht not_false
  | respondError code =>
    apply Iff.trans _ (or_iff_right not_false).symm
    rw [pduLen, some_le, Transmission.run, respondError_run]
    exact reply_respectful_iff _ (by decide) rfl
  | sendRaw pdu => exact absurd ht not_false

/-- Three registers need twelve bytes, and fifteen with the frame for the serial line. -/
theorem fourteen_bytes_respected :
    Respectful (started 14) (some 12) ((Transmission.writeMultipleRegisters 0 [1, 2, 3] 3).run.run
      (started 14)) :=
  (build_respectful_iff (started 14) (.writeMultipleRegisters 0 [1, 2, 3] 3) trivial
    fun _ _ => le_rfl).mpr
    (.inl trivial)

/-- A read request has five bytes, which are stored in four. -/
theorem four_bytes_overrun :
    pduLen (.readCoils 0 1) = some 5 ∧
      (Transmission.readCoils 0 1).run.run (started 4) = none ∧
      ¬ Respectful (started 4) (pduLen (.readCoils 0 1))
        ((Transmission.readCoils 0 1).run.run (started 4)) := by
  have hrun : (Transmission.readCoils 0 1).run.run (started 4) = none := by decide
  refine ⟨rfl, hrun, ?_⟩
  rintro ⟨ret, w', hdefined, -⟩
  rw [hrun] at hdefined
  cases hdefined

end Pamodbus.BuilderBounds
