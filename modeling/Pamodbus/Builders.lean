import Pamodbus.Framer

namespace Pamodbus.Builders

open Pamodbus.Lib.Cells Pamodbus.Lib.Procedure Pamodbus.Lib.Words
open Pamodbus.Context Pamodbus.Framer

variable {σ α : Type}

def put16 (val : UInt16) : Bytes := [hiByte val, loByte val]

/-- The loop `put16(ctx->txbuf + off + i * 2, values[i])`. -/
def putRegisters (off : Nat) (values : List UInt16) (n : Nat) : Proc (World σ) Unit :=
  loop (fun i => do
    let v ← access values[i]?
    txStore (off + i * 2) (put16 v)) n

/-- The loop that sets `1 << (i % 8)` in `ctx->txbuf[off + i / 8]` for every coil that is on. -/
def packCoils (off : Nat) (values : List UInt8) (n : Nat) : Proc (World σ) Unit :=
  loop (fun i => do
    let v ← access values[i]?
    if v ≠ 0 then
      let b ← access (← get).ctx.txbuf.cells[off + i / 8]?
      txStore (off + i / 8) [b ||| bitMask (i % 8)]) n

def buildRead (fc : UInt8) (maxCount : Nat) (addr count : UInt16) : Proc (World σ) Int := do
  if count.toNat < 1 ∨ maxCount < count.toNat then return paErrBadParam
  txStore 0 [fc]
  txStore 1 (put16 addr)
  txStore 3 (put16 count)
  finish 5

def paModbusBuildReadCoils (addr count : UInt16) : Proc (World σ) Int :=
  buildRead 0x01 2000 addr count

def paModbusBuildReadDiscreteInputs (addr count : UInt16) : Proc (World σ) Int :=
  buildRead 0x02 2000 addr count

def paModbusBuildReadHoldingRegisters (addr count : UInt16) : Proc (World σ) Int :=
  buildRead 0x03 125 addr count

def paModbusBuildReadInputRegisters (addr count : UInt16) : Proc (World σ) Int :=
  buildRead 0x04 125 addr count

def buildWriteSingle (fc : UInt8) (addr value : UInt16) : Proc (World σ) Int := do
  txStore 0 [fc]
  txStore 1 (put16 addr)
  txStore 3 (put16 value)
  finish 5

def paModbusBuildWriteSingleCoil (addr : UInt16) (value : UInt8) : Proc (World σ) Int :=
  buildWriteSingle 0x05 addr (if value ≠ 0 then 0xFF00 else 0x0000)

def paModbusBuildWriteSingleRegister (addr value : UInt16) : Proc (World σ) Int :=
  buildWriteSingle 0x06 addr value

def paModbusBuildWriteMultipleCoils (addr : UInt16) (values : List UInt8) (count : UInt16) :
    Proc (World σ) Int := do
  if count.toNat < 1 ∨ 1968 < count.toNat then return paErrBadParam
  let byteCount := (count.toNat + 7) / 8
  let pduLen := 6 + byteCount
  if (← get).ctx.txbuf.cells.length < pduLen then return paErrBufferFull
  txStore 0 [0x0F]
  txStore 1 (put16 addr)
  txStore 3 (put16 count)
  txStore 5 [UInt8.ofNat byteCount]
  txStore 6 (List.replicate byteCount 0)
  packCoils 6 values count.toNat
  finish pduLen

def paModbusBuildReportSlaveId : Proc (World σ) Int := do
  txStore 0 [0x11]
  finish 1

def paModbusBuildMaskWriteRegister (addr andMask orMask : UInt16) : Proc (World σ) Int := do
  txStore 0 [0x16]
  txStore 1 (put16 addr)
  txStore 3 (put16 andMask)
  txStore 5 (put16 orMask)
  finish 7

/-- `write_values` is `none` when it is NULL. -/
def paModbusBuildReadWriteRegisters (readAddr readCount writeAddr : UInt16)
    (writeValues : Option (List UInt16)) (writeCount : UInt16) : Proc (World σ) Int := do
  if readCount.toNat < 1 ∨ 125 < readCount.toNat then return paErrBadParam
  if writeCount.toNat < 1 ∨ 121 < writeCount.toNat then return paErrBadParam
  match writeValues with
  | none => return paErrBadParam
  | some values =>
    let byteCount := writeCount.toNat * 2
    let pduLen := 10 + byteCount
    if (← get).ctx.txbuf.cells.length < pduLen then return paErrBufferFull
    txStore 0 [0x17]
    txStore 1 (put16 readAddr)
    txStore 3 (put16 readCount)
    txStore 5 (put16 writeAddr)
    txStore 7 (put16 writeCount)
    txStore 9 [UInt8.ofNat byteCount]
    putRegisters 10 values writeCount.toNat
    finish pduLen

def paModbusBuildWriteMultipleRegisters (addr : UInt16) (values : List UInt16) (count : UInt16) :
    Proc (World σ) Int := do
  if count.toNat < 1 ∨ 123 < count.toNat then return paErrBadParam
  let byteCount := count.toNat * 2
  let pduLen := 6 + byteCount
  if (← get).ctx.txbuf.cells.length < pduLen then return paErrBufferFull
  txStore 0 [0x10]
  txStore 1 (put16 addr)
  txStore 3 (put16 count)
  txStore 5 [UInt8.ofNat byteCount]
  putRegisters 6 values count.toNat
  finish pduLen

@[simp] theorem put16_length (v : UInt16) : (put16 v).length = 2 := rfl

def registerBytes (values : List UInt16) : Bytes := values.flatMap put16

@[simp] theorem registerBytes_length (values : List UInt16) :
    (registerBytes values).length = 2 * values.length := by
  induction values with
  | nil => rfl
  | cons v values ih =>
    simp only [registerBytes, List.flatMap_cons, List.length_append, put16_length,
      List.length_cons] at ih ⊢
    omega

theorem registerBytes_append (xs ys : List UInt16) :
    registerBytes (xs ++ ys) = registerBytes xs ++ registerBytes ys := List.flatMap_append

theorem registerBytes_split {values : List UInt16} {i : Nat} {v : UInt16} (h : values[i]? = some v) :
    registerBytes values =
      registerBytes (values.take i) ++ put16 v ++ registerBytes (values.drop (i + 1)) := by
  obtain ⟨hi, rfl⟩ := List.getElem?_eq_some_iff.mp h
  have hs : values = values.take i ++ [values[i]] ++ values.drop (i + 1) := by simp
  conv_lhs => rw [hs]
  rw [registerBytes_append, registerBytes_append]
  simp [registerBytes]

theorem emit_putRegisters (xs : Bytes) (off : Nat) (values : List UInt16) (n : Nat)
    (ho : off = xs.length) (hn : n ≤ values.length) :
    (emit xs >>= fun _ => putRegisters off values n : Proc (World σ) Unit) =
      emit (xs ++ registerBytes (values.take n)) := by
  induction n with
  | zero => simp [putRegisters, loop, registerBytes]
  | succ n ih =>
    have hv : values[n]? = some values[n] := List.getElem?_eq_getElem hn
    have hs : values.take (n + 1) = values.take n ++ [values[n]] := by simp
    have hp : put16 values[n] = registerBytes [values[n]] := by simp [registerBytes]
    rw [putRegisters] at ih ⊢
    rw [loop, ← bind_assoc, ih (by omega), hv, access_some, pure_bind, emit_txStore, hs, hp,
      registerBytes_append, List.append_assoc]
    simp only [List.length_append, registerBytes_length, List.length_take]
    omega

theorem emit_putRegisters_bind (xs : Bytes) (off : Nat) (values : List UInt16) (n : Nat)
    (ho : off = xs.length) (hn : n ≤ values.length) (k : Unit → Proc (World σ) α) :
    (emit xs >>= fun _ => putRegisters off values n >>= k) =
      (emit (xs ++ registerBytes (values.take n)) >>= k) := by
  rw [← bind_assoc, emit_putRegisters xs off values n ho hn]

theorem buildRead_eq (fc : UInt8) (maxCount : Nat) (addr count : UInt16)
    (h : 1 ≤ count.toNat ∧ count.toNat ≤ maxCount) :
    (buildRead fc maxCount addr count : Proc (World σ) Int) =
      emit ([fc] ++ put16 addr ++ put16 count) >>= fun _ => finish 5 := by
  rw [buildRead, if_neg (by omega), txStore_front, emit_txStore_bind _ _ _ (by simp),
    emit_txStore_bind _ _ _ (by simp)]

theorem buildWriteSingle_eq (fc : UInt8) (addr value : UInt16) :
    (buildWriteSingle fc addr value : Proc (World σ) Int) =
      emit ([fc] ++ put16 addr ++ put16 value) >>= fun _ => finish 5 := by
  rw [buildWriteSingle, txStore_front, emit_txStore_bind _ _ _ (by simp),
    emit_txStore_bind _ _ _ (by simp)]

theorem maskWriteRegister_eq (addr andMask orMask : UInt16) :
    (paModbusBuildMaskWriteRegister addr andMask orMask : Proc (World σ) Int) =
      emit ([0x16] ++ put16 addr ++ put16 andMask ++ put16 orMask) >>= fun _ => finish 7 := by
  rw [paModbusBuildMaskWriteRegister, txStore_front, emit_txStore_bind _ _ _ (by simp),
    emit_txStore_bind _ _ _ (by simp), emit_txStore_bind _ _ _ (by simp)]

/-- The fields in front of the values of a write to several items. -/
def writeHeader (fc : UInt8) (addr count : UInt16) (byteCount : Nat) : Bytes :=
  [fc] ++ put16 addr ++ put16 count ++ [UInt8.ofNat byteCount]

@[simp] theorem writeHeader_length (fc : UInt8) (addr count : UInt16) (byteCount : Nat) :
    (writeHeader fc addr count byteCount).length = 6 := rfl

theorem writeMultipleRegisters_run (addr : UInt16) (values : List UInt16) (count : UInt16)
    (w : World σ) (hc : 1 ≤ count.toNat ∧ count.toNat ≤ 123) (hv : values.length = count.toNat)
    (hb : 6 + count.toNat * 2 ≤ w.ctx.txbuf.cells.length) :
    (paModbusBuildWriteMultipleRegisters addr values count).run w =
      (emit (writeHeader 0x10 addr count (count.toNat * 2) ++ registerBytes values) >>= fun _ =>
        finish ((6 + count.toNat * 2 : Nat) : Int)).run w := by
  have ht : values.take count.toNat = values := List.take_of_length_le (by omega)
  rw [paModbusBuildWriteMultipleRegisters, if_neg (by omega)]
  dsimp only
  rw [get_bind_run, if_neg (by omega), txStore_front, emit_txStore_bind _ _ _ (by simp),
    emit_txStore_bind _ _ _ (by simp), emit_txStore_bind _ _ _ (by simp),
    emit_putRegisters_bind _ _ _ _ (by simp) (by omega), ht]
  rfl

/-- The header of a request that both reads and writes registers. -/
def readWriteHeader (readAddr readCount writeAddr writeCount : UInt16) : Bytes :=
  [0x17] ++ put16 readAddr ++ put16 readCount ++ put16 writeAddr ++ put16 writeCount ++
    [UInt8.ofNat (writeCount.toNat * 2)]

@[simp] theorem readWriteHeader_length (readAddr readCount writeAddr writeCount : UInt16) :
    (readWriteHeader readAddr readCount writeAddr writeCount).length = 10 := rfl

theorem readWriteRegisters_run (readAddr readCount writeAddr writeCount : UInt16)
    (values : List UInt16) (w : World σ) (hr : 1 ≤ readCount.toNat ∧ readCount.toNat ≤ 125)
    (hw : 1 ≤ writeCount.toNat ∧ writeCount.toNat ≤ 121) (hv : values.length = writeCount.toNat)
    (hb : 10 + writeCount.toNat * 2 ≤ w.ctx.txbuf.cells.length) :
    (paModbusBuildReadWriteRegisters readAddr readCount writeAddr (some values) writeCount).run w =
      (emit (readWriteHeader readAddr readCount writeAddr writeCount ++ registerBytes values) >>=
        fun _ => finish ((10 + writeCount.toNat * 2 : Nat) : Int)).run w := by
  have ht : values.take writeCount.toNat = values := List.take_of_length_le (by omega)
  rw [paModbusBuildReadWriteRegisters, if_neg (by omega), if_neg (by omega)]
  dsimp only
  rw [get_bind_run, if_neg (by omega), txStore_front, emit_txStore_bind _ _ _ (by simp),
    emit_txStore_bind _ _ _ (by simp), emit_txStore_bind _ _ _ (by simp),
    emit_txStore_bind _ _ _ (by simp), emit_txStore_bind _ _ _ (by simp),
    emit_putRegisters_bind _ _ _ _ (by simp) (by omega), ht]
  rfl

def PacksTo (values : List UInt8) (n : Nat) (bits : Bytes) : Prop :=
  ∀ j, bitAt bits j = decide (j < n ∧ ∃ v, values[j]? = some v ∧ v ≠ 0)

theorem packsTo_succ (values : List UInt8) (n : Nat) (bits : Bytes) (v b : UInt8)
    (h : PacksTo values n bits) (hv : values[n]? = some v) (hb : bits[n / 8]? = some b) :
    PacksTo values (n + 1)
      (if v ≠ 0 then bits.set (n / 8) (b ||| bitMask (n % 8)) else bits) := by
  intro j
  split
  next hne =>
    rw [bitAt_set _ _ _ _ hb, h j, ← Bool.decide_or]
    apply decide_eq_decide.mpr
    constructor
    · rintro (⟨hj, hx⟩ | rfl)
      · exact ⟨by omega, hx⟩
      · exact ⟨by omega, v, hv, hne⟩
    · rintro ⟨hj, hx⟩
      by_cases he : j = n
      · exact .inr he
      · exact .inl ⟨by omega, hx⟩
  next he =>
    rw [h j]
    apply decide_eq_decide.mpr
    constructor
    · rintro ⟨hj, hx⟩
      exact ⟨by omega, hx⟩
    · rintro ⟨hj, u, hu, hne⟩
      refine ⟨?_, u, hu, hne⟩
      by_contra hn
      obtain rfl : j = n := by omega
      rw [hv, Option.some.injEq] at hu
      exact he (hu ▸ hne)

theorem packCoils_run (header : Bytes) (values : List UInt8) (n byteCount : Nat) (w : World σ)
    (hn : n ≤ values.length) (hc : n ≤ byteCount * 8)
    (hb : header.length + byteCount ≤ w.ctx.txbuf.cells.length) :
    ∃ bits, bits.length = byteCount ∧ PacksTo values n bits ∧
      (packCoils header.length values n).run
          (w.withTx (w.ctx.txbuf.patch (header ++ List.replicate byteCount 0))) =
        some ((), w.withTx (w.ctx.txbuf.patch (header ++ bits))) := by
  induction n with
  | zero => exact ⟨List.replicate byteCount 0, by simp, fun j => by simp, rfl⟩
  | succ n ih =>
    obtain ⟨bits, hl, hp, hrun⟩ := ih (by omega) (by omega)
    obtain ⟨v, hv⟩ := getElem?_some values n (by omega)
    obtain ⟨b, hb'⟩ := getElem?_some bits (n / 8) (by omega)
    refine ⟨_, ?_, packsTo_succ values n bits v b hp hv hb', ?_⟩
    · split <;> simpa using hl
    · rw [packCoils] at hrun ⊢
      rw [loop, bind_defined _ _ _ _ _ hrun]
      simp only [hv, access_some, pure_bind]
      split
      next hz =>
        have hcell : (w.withTx (w.ctx.txbuf.patch (header ++ bits))).ctx.txbuf.cells[
            header.length + n / 8]? = some b := by
          rw [World.withTx_txbuf, Buffer.patch_cells,
            overlay_getElem? _ _ _ (by simp; omega) (by simp; omega),
            List.getElem?_append_right (by omega), Nat.add_sub_cancel_left, hb']
        rw [get_bind_run, hcell, access_some, pure_bind]
        apply txStore_run
        rw [World.withTx_txbuf, Buffer.store_patch_inside _ _ _ _ (by simp; omega) (by simp; omega)]
        have hset := List.set_append_right (header.length + n / 8) (b ||| bitMask (n % 8))
          (Nat.le_add_right header.length (n / 8)) (t := bits)
        rw [Nat.add_sub_cancel_left, List.set_eq_take_append_cons_drop,
          if_pos (by simp; omega)] at hset
        rw [← hset, List.length_singleton, List.append_assoc, List.singleton_append]
      next hz => rfl

theorem writeMultipleCoils_run (addr : UInt16) (values : List UInt8) (count : UInt16)
    (w : World σ) (hc : 1 ≤ count.toNat ∧ count.toNat ≤ 1968) (hv : values.length = count.toNat)
    (hb : 6 + (count.toNat + 7) / 8 ≤ w.ctx.txbuf.cells.length) :
    ∃ bits, bits.length = (count.toNat + 7) / 8 ∧ PacksTo values count.toNat bits ∧
      (paModbusBuildWriteMultipleCoils addr values count).run w =
        (emit (writeHeader 0x0F addr count ((count.toNat + 7) / 8) ++ bits) >>= fun _ =>
          finish ((6 + (count.toNat + 7) / 8 : Nat) : Int)).run w := by
  obtain ⟨bits, hl, hp, hrun⟩ := packCoils_run (writeHeader 0x0F addr count ((count.toNat + 7) / 8))
    values count.toNat ((count.toNat + 7) / 8) w (by omega) (by omega) (by simpa using hb)
  refine ⟨bits, hl, hp, ?_⟩
  rw [writeHeader_length] at hrun
  rw [writeHeader] at hrun ⊢
  rw [paModbusBuildWriteMultipleCoils, if_neg (by omega)]
  dsimp only
  rw [get_bind_run, if_neg (by omega), txStore_front, emit_txStore_bind _ _ _ (by simp),
    emit_txStore_bind _ _ _ (by simp), emit_txStore_bind _ _ _ (by simp),
    emit_txStore_bind _ _ _ (by simp), bind_defined _ _ _ _ _ (emit_run _ _ (by simp; omega)),
    bind_defined _ _ _ _ _ hrun, bind_defined _ _ _ _ _ (emit_run _ _ (by simp; omega))]

end Pamodbus.Builders
