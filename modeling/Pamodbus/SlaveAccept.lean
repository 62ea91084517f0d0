import Pamodbus.SlaveParse

namespace Pamodbus.SlaveAccept

open Pamodbus.Lib.Cells Pamodbus.Lib.Procedure Pamodbus.Lib.Words
open Pamodbus.Context Pamodbus.Builders Pamodbus.SlaveParse

variable {σ α : Type}

/-- The registers that the PDU carries from `off` on. -/
def RegistersAt (pdu : Bytes) (off : Nat) (values : List UInt16) : Prop :=
  ∀ i v, values[i]? = some v → get16 pdu (off + i * 2) = some v

theorem registersAt_concat (pdu : Bytes) (off : Nat) (values : List UInt16) (v : UInt16) :
    RegistersAt pdu off (values ++ [v]) ↔
      RegistersAt pdu off values ∧ get16 pdu (off + values.length * 2) = some v := by
  constructor
  · intro h
    constructor
    · intro i u hu
      apply h i u
      rw [List.getElem?_append_left (List.getElem?_eq_some_iff.mp hu).1, hu]
    · apply h
      simp
  · rintro ⟨h, hv⟩ i u hu
    rcases Nat.lt_trichotomy i values.length with hi | rfl | hi
    · rw [List.getElem?_append_left hi] at hu
      exact h i u hu
    · rw [List.getElem?_concat_length, Option.some.injEq] at hu
      rw [hv, hu]
    · rw [List.getElem?_eq_none (by simp; omega)] at hu
      cases hu

theorem registersAt_registerBytes (pre post : Bytes) (values : List UInt16) :
    RegistersAt (pre ++ registerBytes values ++ post) pre.length values := by
  intro i v hv
  have hi := (List.getElem?_eq_some_iff.mp hv).1
  have hp : pre ++ registerBytes values ++ post = (pre ++ registerBytes (values.take i)) ++
      put16 v ++ (registerBytes (values.drop (i + 1)) ++ post) := by
    rw [registerBytes_split hv]
    simp only [List.append_assoc]
  rw [hp]
  apply get16_put16
  simp only [List.length_append, registerBytes_length, List.length_take]
  omega

theorem registers_exist (pdu : Bytes) (off n : Nat) (h : off + n * 2 ≤ pdu.length) :
    ∃ values, values.length = n ∧ RegistersAt pdu off values := by
  induction n with
  | zero =>
    refine ⟨[], rfl, fun i v hv => ?_⟩
    cases hv
  | succ n ih =>
    obtain ⟨values, rfl, hr⟩ := ih (by omega)
    obtain ⟨v, hv⟩ := get16_some pdu (off + values.length * 2) (by omega)
    exact ⟨values ++ [v], by simp, (registersAt_concat _ _ _ _).mpr ⟨hr, hv⟩⟩

theorem coilStore_iff {P : Prop} {r : SlaveRequest} {off : Nat} {xs : Bytes}
    {d : List.Vector UInt8 33} (h : ∀ w, put r.slaveCoilData off xs = some w ↔ P ∧ w = d)
    (f : Unit → Proc SlaveRequest α) (x : α × SlaveRequest) :
    (coilStore off xs >>= f).run r = some x ↔
      P ∧ (f ()).run { r with slaveCoilData := d } = some x :=
  update_bind_iff (s := r) (map_eq_some_of_iff _ h) f x

theorem regStore_iff {P : Prop} {r : SlaveRequest} {off : Nat} {xs : List UInt16}
    {d : List.Vector UInt16 128} (h : ∀ w, put r.slaveRegData off xs = some w ↔ P ∧ w = d)
    (f : Unit → Proc SlaveRequest α) (x : α × SlaveRequest) :
    (regStore off xs >>= f).run r = some x ↔
      P ∧ (f ()).run { r with slaveRegData := d } = some x :=
  update_bind_iff (s := r) (map_eq_some_of_iff _ h) f x

theorem coilStore_bind_iff (xs : Bytes) (f : Unit → Proc SlaveRequest α) (r : SlaveRequest)
    (x : α × SlaveRequest) :
    (coilStore 0 xs >>= f).run r = some x ↔
      xs.length ≤ 33 ∧ (f ()).run { r with slaveCoilData := patch r.slaveCoilData xs } = some x :=
  coilStore_iff (fun w => put_front_iff _ w xs) f x

theorem coilStore_append (xs ys : Bytes) (off : Nat) (ho : off = xs.length)
    (f : Unit → Proc SlaveRequest α) :
    (coilStore 0 xs >>= fun _ => coilStore off ys >>= f) = (coilStore 0 (xs ++ ys) >>= f) := by
  funext r
  apply Option.ext
  intro x
  change (coilStore 0 xs >>= fun _ => coilStore off ys >>= f).run r = some x ↔
    (coilStore 0 (xs ++ ys) >>= f).run r = some x
  have hnext := coilStore_iff (r := { r with slaveCoilData := patch r.slaveCoilData xs })
    (fun w => put_patch_iff r.slaveCoilData w xs ys off ho) f x
  rw [coilStore_bind_iff, coilStore_bind_iff, List.length_append]
  constructor
  · rintro ⟨-, h⟩
    exact hnext.mp h
  · rintro ⟨hx, h⟩
    exact ⟨by omega, hnext.mpr ⟨hx, h⟩⟩

theorem regStore_bind_iff (xs : List UInt16) (f : Unit → Proc SlaveRequest α) (r : SlaveRequest)
    (x : α × SlaveRequest) :
    (regStore 0 xs >>= f).run r = some x ↔
      xs.length ≤ 128 ∧ (f ()).run { r with slaveRegData := patch r.slaveRegData xs } = some x :=
  regStore_iff (fun w => put_front_iff _ w xs) f x

theorem regStore_next_bind_iff (addr count coils regs a : UInt16) (d : List.Vector UInt8 33)
    (e : List.Vector UInt16 128) (valid : Bool) (xs : List UInt16)
    (f : Unit → Proc SlaveRequest α) (x : α × SlaveRequest) :
    (regStore 1 xs >>= f).run ⟨addr, count, d, patch e [a], coils, regs, valid⟩ = some x ↔
      1 + xs.length ≤ 128 ∧
        (f ()).run ⟨addr, count, d, patch e (a :: xs), coils, regs, valid⟩ = some x :=
  regStore_iff (fun w => put_patch_iff e w [a] xs 1 rfl) f x

theorem getRegisters_run_iff (pdu : Bytes) (off n : Nat) (r t : SlaveRequest) :
    (getRegisters pdu off n).run r = some ((), t) ↔
      ∃ values, values.length = n ∧ RegistersAt pdu off values ∧ n ≤ 128 ∧
        t = { r with slaveRegData := patch r.slaveRegData values } := by
  induction n generalizing t with
  | zero =>
    rw [getRegisters, loop, pure_run_iff, and_iff_right rfl]
    constructor
    · rintro rfl
      exact ⟨[], rfl, fun i v h => by simp at h, by omega, by rw [patch_nil]⟩
    · rintro ⟨values, hl, -, -, rfl⟩
      rw [List.length_eq_zero_iff.mp hl, patch_nil]
  | succ n ih =>
    rw [getRegisters] at ih ⊢
    rw [loop]
    constructor
    · intro h
      obtain ⟨⟨⟩, u, hu, h⟩ := bind_inv _ _ _ _ _ h
      obtain ⟨values, hl, hr, hn, rfl⟩ := (ih u).mp hu
      simp only [access_bind_iff, regStore, update_run, Option.map_eq_some_iff,
        put_patch_iff _ _ values _ n hl.symm, Prod.mk.injEq, true_and] at h
      obtain ⟨v, hv, _, ⟨_, ⟨hlen, rfl⟩, rfl⟩, rfl⟩ := h
      refine ⟨values ++ [v], by simp [hl], ?_, ?_, rfl⟩
      · rw [registersAt_concat, hl]
        exact ⟨hr, hv⟩
      · rw [hl] at hlen
        exact hlen
    · rintro ⟨values, hl, hr, hn, rfl⟩
      have hne : values ≠ [] := by
        rintro rfl
        simp at hl
      obtain ⟨front, v, rfl⟩ : ∃ front v, values = front ++ [v] :=
        ⟨_, _, (List.dropLast_append_getLast hne).symm⟩
      obtain ⟨hr, hv⟩ := (registersAt_concat _ _ _ _).mp hr
      have hf : front.length = n := by simpa using hl
      rw [bind_defined _ _ _ _ _ ((ih _).mpr ⟨front, hf, hr, by omega, rfl⟩)]
      simp only [access_bind_iff, regStore, update_run, Option.map_eq_some_iff,
        put_patch_iff _ _ front _ n hf.symm, Prod.mk.injEq, true_and]
      rw [hf] at hv
      exact ⟨v, hv, _, ⟨_, ⟨by simp; omega, rfl⟩, rfl⟩, rfl⟩

theorem getRegisters_bind_iff (pdu : Bytes) (off n : Nat) (f : Unit → Proc SlaveRequest α)
    (r : SlaveRequest) (x : α × SlaveRequest) :
    (getRegisters pdu off n >>= f).run r = some x ↔
      ∃ values, values.length = n ∧ RegistersAt pdu off values ∧ n ≤ 128 ∧
        (f ()).run { r with slaveRegData := patch r.slaveRegData values } = some x := by
  constructor
  · intro h
    obtain ⟨⟨⟩, t, ht, h⟩ := bind_inv _ _ _ _ _ h
    obtain ⟨values, hl, hr, hn, rfl⟩ := (getRegisters_run_iff _ _ _ _ _).mp ht
    exact ⟨values, hl, hr, hn, h⟩
  · rintro ⟨values, hl, hr, hn, h⟩
    rw [bind_defined _ _ _ _ _ ((getRegisters_run_iff _ _ _ _ _).mpr ⟨values, hl, hr, hn, rfl⟩)]
    exact h

theorem parseRead_accepts (maxCount : Nat) (pdu : Bytes) (pduLen : Nat) (r r' : SlaveRequest) :
    (parseRead maxCount pdu pduLen).run r = some (paOk, r') ↔
      5 ≤ pduLen ∧ ∃ addr, get16 pdu 1 = some addr ∧ ∃ count, get16 pdu 3 = some count ∧
        (1 ≤ count.toNat ∧ count.toNat ≤ maxCount) ∧
        r' = { r with slaveAddr := addr, slaveCount := count } := by
  simp (disch := decide) only [parseRead, setAddr, setCount, ↓guard_run_iff, ↓access_bind_iff,
    ↓modify_bind_run, pure_run_iff, Nat.not_lt, not_or, true_and]

theorem parseWriteSingleCoil_accepts (pdu : Bytes) (pduLen : Nat) (r r' : SlaveRequest) :
    (parseWriteSingleCoil pdu pduLen).run r = some (paOk, r') ↔
      5 ≤ pduLen ∧ ∃ addr, get16 pdu 1 = some addr ∧ ∃ value, get16 pdu 3 = some value ∧
        r' = { r with
          slaveAddr := addr, slaveCount := 1, slaveCoilCount := 1, slaveDataValid := true
          slaveCoilData := patch r.slaveCoilData [if value = 0xFF00 then 1 else 0] } := by
  simp (disch := decide) only [parseWriteSingleCoil, setAddr, setCount, setValid, ↓guard_run_iff,
    ↓access_bind_iff, ↓modify_bind_run, ↓coilStore_bind_iff, pure_run_iff,
    Nat.not_lt, List.length_singleton, Nat.reduceLeDiff, true_and]

theorem parseWriteSingleRegister_accepts (pdu : Bytes) (pduLen : Nat) (r r' : SlaveRequest) :
    (parseWriteSingleRegister pdu pduLen).run r = some (paOk, r') ↔
      5 ≤ pduLen ∧ ∃ addr, get16 pdu 1 = some addr ∧ ∃ value, get16 pdu 3 = some value ∧
        r' = { r with
          slaveAddr := addr, slaveCount := 1, slaveRegCount := 1, slaveDataValid := true
          slaveRegData := patch r.slaveRegData [value] } := by
  simp (disch := decide) only [parseWriteSingleRegister, setAddr, setCount, setRegCount, setValid,
    ↓guard_run_iff, ↓access_bind_iff, ↓modify_bind_run, ↓regStore_bind_iff,
    pure_run_iff, Nat.not_lt, List.length_singleton, Nat.reduceLeDiff, true_and]

theorem parseDiagnostic_accepts (pdu : Bytes) (pduLen : Nat) (r r' : SlaveRequest) :
    (parseDiagnostic pdu pduLen).run r = some (paOk, r') ↔
      5 ≤ pduLen ∧ ∃ addr, get16 pdu 1 = some addr ∧ ∃ value, get16 pdu 3 = some value ∧
        r' = { r with
          slaveAddr := addr, slaveCount := 0, slaveRegCount := 1, slaveDataValid := true
          slaveRegData := patch r.slaveRegData [value] } := by
  simp (disch := decide) only [parseDiagnostic, setAddr, setCount, setRegCount, setValid,
    ↓guard_run_iff, ↓access_bind_iff, ↓modify_bind_run, ↓regStore_bind_iff,
    pure_run_iff, Nat.not_lt, List.length_singleton, Nat.reduceLeDiff, true_and]

theorem parseWriteMultipleCoils_accepts (pdu : Bytes) (pduLen : Nat) (r r' : SlaveRequest) :
    (parseWriteMultipleCoils pdu pduLen).run r = some (paOk, r') ↔
      6 ≤ pduLen ∧ ∃ addr, get16 pdu 1 = some addr ∧ ∃ count, get16 pdu 3 = some count ∧
        (1 ≤ count.toNat ∧ count.toNat ≤ 1968) ∧ ∃ byteCount, pdu[5]? = some byteCount ∧
        6 + byteCount.toNat ≤ pduLen ∧ byteCount.toNat ≤ 33 ∧
        ∃ bits, block pdu 6 byteCount.toNat = some bits ∧ bits.length ≤ 33 ∧
        r' = { r with
          slaveAddr := addr, slaveCount := count, slaveCoilCount := count, slaveDataValid := true
          slaveCoilData := patch r.slaveCoilData bits } := by
  simp (disch := decide) only [parseWriteMultipleCoils, setAddr, setCount, setValid, ↓guard_run_iff,
    ↓access_bind_iff, ↓modify_bind_run, ↓coilStore_bind_iff, pure_run_iff,
    Nat.not_lt, not_or, true_and]

theorem parseWriteMultipleRegisters_accepts (pdu : Bytes) (pduLen : Nat) (r r' : SlaveRequest) :
    (parseWriteMultipleRegisters pdu pduLen).run r = some (paOk, r') ↔
      6 ≤ pduLen ∧ ∃ addr, get16 pdu 1 = some addr ∧ ∃ count, get16 pdu 3 = some count ∧
        (1 ≤ count.toNat ∧ count.toNat ≤ 123) ∧ ∃ byteCount, pdu[5]? = some byteCount ∧
        6 + byteCount.toNat ≤ pduLen ∧ byteCount.toNat / 2 ≤ 128 ∧
        ∃ values, values.length = byteCount.toNat / 2 ∧ RegistersAt pdu 6 values ∧
        byteCount.toNat / 2 ≤ 128 ∧
        r' = { r with
          slaveAddr := addr, slaveCount := count, slaveDataValid := true
          slaveRegCount := UInt16.ofNat (byteCount.toNat / 2)
          slaveRegData := patch r.slaveRegData values } := by
  simp (disch := decide) only [parseWriteMultipleRegisters, setAddr, setCount, setRegCount, setValid,
    ↓guard_run_iff, ↓access_bind_iff, ↓modify_bind_run, ↓getRegisters_bind_iff,
    pure_run_iff, Nat.not_lt, not_or, true_and]

theorem parseFileRecord_accepts (pdu : Bytes) (pduLen : Nat) (r r' : SlaveRequest) :
    (parseFileRecord pdu pduLen).run r = some (paOk, r') ↔
      2 ≤ pduLen ∧ ∃ byteCount, pdu[1]? = some byteCount ∧
        2 + byteCount.toNat ≤ pduLen ∧ byteCount.toNat / 2 ≤ 128 ∧
        ∃ values, values.length = byteCount.toNat / 2 ∧ RegistersAt pdu 2 values ∧
        byteCount.toNat / 2 ≤ 128 ∧
        r' = { r with
          slaveAddr := 0, slaveCount := 0, slaveDataValid := true
          slaveRegCount := UInt16.ofNat (byteCount.toNat / 2)
          slaveRegData := patch r.slaveRegData values } := by
  simp (disch := decide) only [parseFileRecord, setAddr, setCount, setRegCount, setValid,
    ↓guard_run_iff, ↓access_bind_iff, ↓modify_bind_run, ↓getRegisters_bind_iff,
    pure_run_iff, Nat.not_lt, true_and]

theorem parseMaskWriteRegister_accepts (pdu : Bytes) (pduLen : Nat) (r r' : SlaveRequest) :
    (parseMaskWriteRegister pdu pduLen).run r = some (paOk, r') ↔
      7 ≤ pduLen ∧ ∃ addr, get16 pdu 1 = some addr ∧ ∃ andMask, get16 pdu 3 = some andMask ∧
        ∃ orMask, get16 pdu 5 = some orMask ∧
        r' = { r with
          slaveAddr := addr, slaveCount := 1, slaveRegCount := 2, slaveDataValid := true
          slaveRegData := patch r.slaveRegData [andMask, orMask] } := by
  simp (disch := decide) only [parseMaskWriteRegister, setAddr, setCount, setRegCount, setValid,
    ↓guard_run_iff, ↓access_bind_iff, ↓modify_bind_run, ↓regStore_bind_iff, ↓regStore_next_bind_iff,
    pure_run_iff, Nat.not_lt, List.length_singleton, Nat.reduceLeDiff,
    Nat.reduceAdd, true_and]

theorem parseReadWriteRegisters_accepts (pdu : Bytes) (pduLen : Nat) (r r' : SlaveRequest) :
    (parseReadWriteRegisters pdu pduLen).run r = some (paOk, r') ↔
      11 ≤ pduLen ∧ ∃ readAddr, get16 pdu 1 = some readAddr ∧
        ∃ readCount, get16 pdu 3 = some readCount ∧
        ∃ writeAddr, get16 pdu 5 = some writeAddr ∧ ∃ writeCount, get16 pdu 7 = some writeCount ∧
        (1 ≤ readCount.toNat ∧ readCount.toNat ≤ 125) ∧
        (1 ≤ writeCount.toNat ∧ writeCount.toNat ≤ 121) ∧ ∃ byteCount, pdu[9]? = some byteCount ∧
        10 + byteCount.toNat ≤ pduLen ∧ byteCount.toNat / 2 ≤ 128 ∧
        ∃ values, values.length = byteCount.toNat / 2 ∧ RegistersAt pdu 10 values ∧
        byteCount.toNat / 2 ≤ 128 ∧
        r' = { r with
          slaveAddr := readAddr, slaveCount := readCount, slaveDataValid := true
          slaveRegCount := UInt16.ofNat (byteCount.toNat / 2)
          slaveRegData := patch r.slaveRegData values
          slaveCoilData := patch r.slaveCoilData
            [hiByte writeAddr, loByte writeAddr, hiByte writeCount, loByte writeCount] } := by
  have hheader (a b c d : UInt8) (f : Unit → Proc SlaveRequest Int) :
      (coilStore 0 [a] >>= fun _ => coilStore 1 [b] >>= fun _ => coilStore 2 [c] >>= fun _ =>
        coilStore 3 [d] >>= f) = (coilStore 0 [a, b, c, d] >>= f) := by
    rw [coilStore_append [a] [b] 1 rfl, coilStore_append _ [c] 2 rfl, coilStore_append _ [d] 3 rfl]
    rfl
  simp (disch := decide) only [parseReadWriteRegisters, setAddr, setCount, setRegCount, setValid,
    ↓guard_run_iff, ↓access_bind_iff, ↓modify_bind_run, ↓hheader, ↓coilStore_bind_iff,
    ↓getRegisters_bind_iff, pure_run_iff, Nat.not_lt, not_or,
    List.length_cons, List.length_nil, Nat.reduceLeDiff, Nat.reduceAdd, true_and]

theorem parseReadFifoQueue_accepts (pdu : Bytes) (pduLen : Nat) (r r' : SlaveRequest) :
    (parseReadFifoQueue pdu pduLen).run r = some (paOk, r') ↔
      3 ≤ pduLen ∧ ∃ addr, get16 pdu 1 = some addr ∧
        r' = { r with slaveAddr := addr, slaveCount := 0 } := by
  simp (disch := decide) only [parseReadFifoQueue, setAddr, setCount, ↓guard_run_iff,
    ↓access_bind_iff, ↓modify_bind_run, pure_run_iff, Nat.not_lt, true_and]

theorem parseSlaveRequest_accepts (ctx ctx' : PaModbus σ) (pdu : Bytes) (pduLen : Nat) :
    (parseSlaveRequest pdu pduLen).run ctx = some (paOk, ctx') ↔
      1 ≤ pduLen ∧ ∃ fc, pdu[0]? = some fc ∧ fc &&& 0x80 = 0 ∧
        ∃ r, (parseRequest fc pdu pduLen).run { ctx.request with slaveDataValid := false } =
          some (paOk, r) ∧ ctx' = { ctx with lastFunction := fc, request := r } := by
  simp (disch := decide) only [parseSlaveRequest, ↓guard_run_iff, ↓access_bind_iff,
    ↓modify_bind_run, onRequest, focus_run, Option.map_eq_some_iff, Prod.mk.injEq, Prod.exists,
    Nat.not_lt, ne_eq, not_not]
  constructor
  · rintro ⟨hn, fc, h0, hfc, ret, r, hr, rfl, rfl⟩
    exact ⟨hn, fc, h0, hfc, r, hr, rfl⟩
  · rintro ⟨hn, fc, h0, hfc, r, hr, rfl⟩
    exact ⟨hn, fc, h0, hfc, _, r, hr, rfl, rfl⟩

/-- What the parser has checked of a request that it accepts, as far as the
responder depends on it. -/
def WellFormed (fc : UInt8) (r : SlaveRequest) : Prop :=
  match fc with
  | 0x01 | 0x02 => 1 ≤ r.slaveCount.toNat ∧ r.slaveCount.toNat ≤ 2000
  | 0x03 | 0x04 => 1 ≤ r.slaveCount.toNat ∧ r.slaveCount.toNat ≤ 125
  | 0x05 | 0x06 | 0x07 | 0x08 | 0x0B | 0x0C | 0x11 | 0x16 | 0x18 => True
  | 0x0F => 1 ≤ r.slaveCount.toNat ∧ r.slaveCount.toNat ≤ 1968
  | 0x10 => 1 ≤ r.slaveCount.toNat ∧ r.slaveCount.toNat ≤ 123
  | 0x14 | 0x15 => r.slaveRegCount.toNat ≤ 127
  | 0x17 => (1 ≤ r.slaveCount.toNat ∧ r.slaveCount.toNat ≤ 125) ∧
      ∃ writeAddr writeCount : UInt16, writeCount.toNat ≤ 121 ∧
        r.slaveCoilData.toList.take 4 =
          [hiByte writeAddr, loByte writeAddr, hiByte writeCount, loByte writeCount]
  | _ => False

theorem accepted_wellFormed (fc : UInt8) (pdu : Bytes) (pduLen : Nat) (r r' : SlaveRequest)
    (h : (parseRequest fc pdu pduLen).run r = some (paOk, r')) : WellFormed fc r' := by
  have hcount (b : UInt8) : (UInt16.ofNat (b.toNat / 2)).toNat ≤ 127 := by
    have hb := b.toNat_lt
    rw [UInt16.toNat_ofNat']
    omega
  unfold parseRequest at h
  split at h
  case h_1 | h_2 | h_3 | h_4 =>
    obtain ⟨-, _, -, _, -, hc, rfl⟩ := (parseRead_accepts _ _ _ _ _).mp h
    exact hc
  case h_5 | h_6 | h_7 | h_8 | h_9 | h_10 | h_13 | h_16 | h_18 => trivial
  case h_11 =>
    obtain ⟨-, _, -, _, -, hc, -, -, -, -, -, -, -, rfl⟩ :=
      (parseWriteMultipleCoils_accepts _ _ _ _).mp h
    exact hc
  case h_12 =>
    obtain ⟨-, _, -, _, -, hc, -, -, -, -, -, -, -, -, rfl⟩ :=
      (parseWriteMultipleRegisters_accepts _ _ _ _).mp h
    exact hc
  case h_14 | h_15 =>
    obtain ⟨-, b, -, -, -, -, -, -, -, rfl⟩ := (parseFileRecord_accepts _ _ _ _).mp h
    exact hcount b
  case h_17 =>
    obtain ⟨-, _, -, _, -, wa, -, wc, -, hr, hw, -, -, -, -, -, -, -, -, rfl⟩ :=
      (parseReadWriteRegisters_accepts _ _ _ _).mp h
    exact ⟨hr, wa, wc, hw.2, patch_take _ _ _ rfl (by decide)⟩
  case h_19 => cases h

end Pamodbus.SlaveAccept
