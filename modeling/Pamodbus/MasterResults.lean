import Pamodbus.EndToEnd
import Pamodbus.Receiver

namespace Pamodbus.MasterResults

open Pamodbus.Lib.Banks Pamodbus.Lib.Cells Pamodbus.Lib.Procedure Pamodbus.Lib.Words
open Pamodbus.Context Pamodbus.FramerRtu Pamodbus.Framer Pamodbus.MasterParse
open Pamodbus.SlaveParse (get16 get16_some)
open Pamodbus.Feed Pamodbus.ParseTotal Pamodbus.Receiver Pamodbus.EndToEnd

variable {σ : Type}

/-- The result with the data of a response in it, over whatever the arrays held before. -/
def filled (r : MasterResult) (bits : Bytes) (values : List UInt16) : MasterResult :=
  { r with
    lastCoilData := patch r.lastCoilData bits
    lastRegData := patch r.lastRegData values
    lastCoilCount := UInt16.ofNat (bits.length * 8)
    lastRegCount := UInt16.ofNat values.length }

/-- A case of the parser that fills in what the PDU carries, and nothing else. -/
def Fills (p : Proc MasterResult Int) : Prop :=
  ∃ ret bits values, bits.length ≤ 33 ∧ values.length ≤ 128 ∧
    ∀ r : MasterResult, r.lastCoilCount = 0 → r.lastRegCount = 0 →
      p.run r = some (ret, filled r bits values)

theorem filled_nothing (r : MasterResult) (hc : r.lastCoilCount = 0) (hr : r.lastRegCount = 0) :
    filled r [] [] = r := by
  obtain ⟨err, exc, coils, regs, coilCount, regCount⟩ := r
  subst hc hr
  rw [filled, patch_nil, patch_nil]
  rfl

theorem fills_pure (ret : Int) : Fills (pure ret) := by
  refine ⟨ret, [], [], Nat.zero_le _, Nat.zero_le _, fun r hc hr => ?_⟩
  rw [filled_nothing r hc hr]
  rfl

theorem fills_guard {c : Prop} [Decidable c] {ret : Int} {p : Proc MasterResult Int}
    (hp : ¬ c → Fills p) : Fills (if c then pure ret else p) := by
  by_cases hc : c
  · rw [if_pos hc]
    exact fills_pure ret
  · rw [if_neg hc]
    exact hp hc

theorem fills_access {α : Type} {o : Option α} {f : α → Proc MasterResult Int} (a : α)
    (ho : o = some a) (hf : Fills (f a)) : Fills (access o >>= f) := by
  rw [ho, access_some, pure_bind]
  exact hf

theorem fills_registers {body : Nat → Proc MasterResult Unit} (k : Nat) (hk : k ≤ 128)
    (hb : ∀ i < k, ∃ v, body i = regStore i [v]) :
    Fills (do setRegCount k; loop body k; return paOk) := by
  choose value hvalue using hb
  obtain ⟨values, rfl, hrun⟩ : ∃ values : List UInt16, values.length = k ∧
      ∀ r : MasterResult, (loop body values.length).run r =
        some ((), { r with lastRegData := patch r.lastRegData values }) := by
    refine ⟨List.ofFn fun i : Fin k => value i i.isLt, List.length_ofFn, fun r => ?_⟩
    apply storeLoop_run _ _ _ (by rw [List.length_ofFn]; exact hk)
    intro i v hv
    rw [List.getElem?_ofFn] at hv
    split at hv
    · rw [hvalue i ‹_›, Option.some.inj hv]
    · cases hv
  refine ⟨paOk, [], values, Nat.zero_le _, hk, fun r hc hr => ?_⟩
  rw [setRegCount, modify_bind_run, bind_defined _ _ _ _ _ (hrun _), filled, patch_nil]
  obtain ⟨err, exc, coils, regs, coilCount, regCount⟩ := r
  subst hc
  rfl

variable {pdu : Bytes} {n : Nat}

theorem fills_getRegisters (k : Nat) (hk : k ≤ 128) (h : 2 + k * 2 ≤ pdu.length) :
    Fills (do setRegCount k; getRegisters pdu k; return paOk) := by
  refine fills_registers k hk fun i hi => ?_
  obtain ⟨v, hv⟩ := get16_some pdu (2 + i * 2) (by omega)
  exact ⟨v, by rw [hv, access_some, pure_bind]⟩

theorem fills_bits (bits : Bytes) (k : Nat) (hk : bits.length = k) (h33 : k ≤ 33) :
    Fills (do coilStore 0 bits; setCoilCount (k * 8); return paOk) := by
  refine ⟨paOk, bits, [], by omega, Nat.zero_le _, fun r hc hr => ?_⟩
  rw [resultCoilStore_run _ _ _ (by omega), filled, patch_nil, hk]
  obtain ⟨err, exc, coils, regs, coilCount, regCount⟩ := r
  subst hr
  rfl

theorem regStore_bind (xs ys : List UInt16) (off : Nat) (ho : off = xs.length)
    (h : xs.length + ys.length ≤ 128) (f : Unit → Proc MasterResult Int) :
    (regStore 0 xs >>= fun _ => regStore off ys >>= f) = (regStore 0 (xs ++ ys) >>= f) := by
  subst ho
  funext r
  change (regStore 0 xs >>= fun _ => regStore xs.length ys >>= f).run r =
    (regStore 0 (xs ++ ys) >>= f).run r
  rw [regStore, regStore, regStore, update_bind_run, update_bind_run, put_front _ _ (by omega),
    put_front _ _ (by rw [List.length_append]; exact h), Option.map_some, Option.bind_some,
    update_bind_run, put_patch _ _ _ h, Option.map_some, Option.bind_some]

theorem fills_fixed (values : List UInt16) (k : Nat) (hk : values.length = k) (h : k ≤ 128) :
    Fills (do regStore 0 values; setRegCount k; return paOk) := by
  subst hk
  refine ⟨paOk, [], values, Nat.zero_le _, h, fun r hc hr => ?_⟩
  rw [regStore, update_bind_run, put_front _ _ h, filled, patch_nil]
  obtain ⟨err, exc, coils, regs, coilCount, regCount⟩ := r
  subst hc
  rfl

theorem fills_parseReadBits (h : n ≤ pdu.length) : Fills (parseReadBits pdu n) := by
  refine fills_guard fun hn => ?_
  obtain ⟨bc, hb⟩ := getElem?_some pdu 1 (by omega)
  refine fills_access bc hb (fills_guard fun hl => fills_guard fun hm => ?_)
  have hd := block_eq pdu 2 bc.toNat (by omega)
  exact fills_access _ hd (fills_bits _ _ (block_length hd) (by omega))

theorem fills_parseReadRegisters (h : n ≤ pdu.length) : Fills (parseReadRegisters pdu n) := by
  refine fills_guard fun hn => ?_
  obtain ⟨bc, hb⟩ := getElem?_some pdu 1 (by omega)
  refine fills_access bc hb (fills_guard fun hl => fills_guard fun hm => ?_)
  exact fills_getRegisters _ (by omega) (by omega)

theorem fills_parseEcho : Fills (parseEcho n) := fills_guard fun _ => fills_pure _

theorem fills_parseExceptionStatus (h : n ≤ pdu.length) :
    Fills (parseExceptionStatus pdu n) := by
  refine fills_guard fun hn => ?_
  obtain ⟨b, hb⟩ := getElem?_some pdu 1 (by omega)
  exact fills_access b hb (fills_bits [b] 1 rfl (by decide))

theorem fills_parseDiagnostic (h : n ≤ pdu.length) : Fills (parseDiagnostic pdu n) := by
  refine fills_guard fun hn => ?_
  obtain ⟨v, hv⟩ := get16_some pdu 3 (by omega)
  exact fills_access v hv (fills_fixed [v] 1 rfl (by decide))

theorem fills_parseComEventCounter (h : n ≤ pdu.length) :
    Fills (parseComEventCounter pdu n) := by
  refine fills_guard fun hn => ?_
  obtain ⟨u, hu⟩ := get16_some pdu 1 (by omega)
  obtain ⟨v, hv⟩ := get16_some pdu 3 (by omega)
  refine fills_access u hu ?_
  rw [hv, access_some, pure_bind, regStore_bind [u] [v] 1 rfl (by simp)]
  exact fills_fixed [u, v] 2 rfl (by decide)

theorem fills_parseComEventLog (h : n ≤ pdu.length) : Fills (parseComEventLog pdu n) := by
  refine fills_guard fun hn => ?_
  obtain ⟨bc, hb⟩ := getElem?_some pdu 1 (by omega)
  refine fills_access bc hb (fills_guard fun hl => ?_)
  by_cases h4 : 4 ≤ bc.toNat
  · obtain ⟨u, hu⟩ := get16_some pdu 2 (by omega)
    obtain ⟨v, hv⟩ := get16_some pdu 4 (by omega)
    have hd := block_eq pdu 6 (min (bc.toNat - 4) 33) (by omega)
    have hk := block_length hd
    dsimp only
    rw [if_pos h4, hu, access_some, pure_bind, hv, access_some, pure_bind,
      regStore_bind [u] [v] 1 rfl (by simp), hd]
    refine ⟨paOk, (pdu.drop 6).take (min (bc.toNat - 4) 33), [u, v], by omega, by simp, fun r hc hr => ?_⟩
    rw [regStore, update_bind_run, put_front _ _ (by simp), Option.map_some, Option.bind_some,
      setRegCount, modify_bind_run, access_some, pure_bind, resultCoilStore_run _ _ _ (by omega),
      filled, hk]
    rfl
  · dsimp only
    rw [if_neg h4]
    exact fills_pure _

theorem fills_parseReportServerId (h : n ≤ pdu.length) : Fills (parseReportServerId pdu n) := by
  refine fills_guard fun hn => ?_
  obtain ⟨bc, hb⟩ := getElem?_some pdu 1 (by omega)
  refine fills_access bc hb (fills_guard fun hl => fills_registers _ (by omega) fun i hi => ?_)
  obtain ⟨b, hx⟩ := getElem?_some pdu (2 + i * 2) (by omega)
  rw [hx, access_some, pure_bind]
  by_cases hc : i * 2 + 1 < bc.toNat
  · obtain ⟨c, hy⟩ := getElem?_some pdu (2 + i * 2 + 1) (by omega)
    rw [if_pos hc, hy, access_some, pure_bind]
    exact ⟨_, rfl⟩
  · rw [if_neg hc]
    exact ⟨_, rfl⟩

theorem fills_parseClampedRegisters (h : n ≤ pdu.length) :
    Fills (parseClampedRegisters pdu n) := by
  refine fills_guard fun hn => ?_
  obtain ⟨bc, hb⟩ := getElem?_some pdu 1 (by omega)
  exact fills_access bc hb (fills_guard fun hl => fills_getRegisters _ (by omega) (by omega))

theorem fills_parseWriteFileRecord (h : n ≤ pdu.length) :
    Fills (parseWriteFileRecord pdu n) := by
  refine fills_guard fun hn => ?_
  obtain ⟨bc, hb⟩ := getElem?_some pdu 1 (by omega)
  exact fills_access bc hb (fills_guard fun hl => fills_pure _)

theorem fills_parseMaskWriteRegister (h : n ≤ pdu.length) :
    Fills (parseMaskWriteRegister pdu n) := by
  refine fills_guard fun hn => ?_
  obtain ⟨u, hu⟩ := get16_some pdu 1 (by omega)
  obtain ⟨v, hv⟩ := get16_some pdu 3 (by omega)
  obtain ⟨x, hx⟩ := get16_some pdu 5 (by omega)
  refine fills_access u hu ?_
  rw [hv, access_some, pure_bind, regStore_bind [u] [v] 1 rfl (by simp), hx, access_some,
    pure_bind, regStore_bind ([u] ++ [v]) [x] 2 rfl (by simp)]
  exact fills_fixed [u, v, x] 3 rfl (by decide)

theorem fills_parseReadFifoQueue (h : n ≤ pdu.length) (h3 : n = 2 → 3 ≤ pdu.length) :
    Fills (parseReadFifoQueue pdu n) := by
  refine fills_guard fun hn => ?_
  obtain ⟨bc, hb⟩ := get16_some pdu 1 (by omega)
  exact fills_access bc hb (fills_guard fun hl => fills_getRegisters _ (by omega) (by omega))

theorem fills_parseResponse (fc : UInt8) (h : n ≤ pdu.length)
    (h3 : fc = 0x18 → n = 2 → 3 ≤ pdu.length) : Fills (parseResponse fc pdu n) := by
  unfold parseResponse
  split
  case h_1 | h_2 => exact fills_parseReadBits h
  case h_3 | h_4 => exact fills_parseReadRegisters h
  case h_5 | h_6 | h_11 | h_12 => exact fills_parseEcho
  case h_7 => exact fills_parseExceptionStatus h
  case h_8 => exact fills_parseDiagnostic h
  case h_9 => exact fills_parseComEventCounter h
  case h_10 => exact fills_parseComEventLog h
  case h_13 => exact fills_parseReportServerId h
  case h_14 | h_17 => exact fills_parseClampedRegisters h
  case h_15 => exact fills_parseWriteFileRecord h
  case h_16 => exact fills_parseMaskWriteRegister h
  case h_18 => exact fills_parseReadFifoQueue h (h3 rfl)
  case h_19 => exact fills_pure _

structure Bounded (r : MasterResult) : Prop where
  coils : r.lastCoilCount.toNat ≤ 264
  registers : r.lastRegCount.toNat ≤ 128

theorem getCoil_isSome (ctx : PaModbus σ) (h : Bounded ctx.result) (idx : UInt16) :
    (paModbusGetCoil ctx idx).isSome := by
  have hc := h.coils
  by_cases hi : ctx.result.lastCoilCount ≤ idx
  · rw [paModbusGetCoil, if_pos hi]
    rfl
  · have hlt := UInt16.not_le.mp hi
    have hn := UInt16.lt_iff_toNat_lt.mp hlt
    rw [getCoil_eq ctx idx hlt (by omega)]
    rfl

theorem getRegister_isSome (ctx : PaModbus σ) (h : Bounded ctx.result) (idx : UInt16) :
    (paModbusGetRegister ctx idx).isSome := by
  have hr := h.registers
  rw [paModbusGetRegister]
  by_cases hi : ctx.result.lastRegCount ≤ idx
  · rw [if_pos hi]
    rfl
  · have hn := UInt16.lt_iff_toNat_lt.mp (UInt16.not_le.mp hi)
    obtain ⟨v, hv⟩ := getElem?_some ctx.result.lastRegData.toList idx.toNat (by simp; omega)
    rw [if_neg hi, hv]
    rfl

theorem filled_bounded (r : MasterResult) (bits : Bytes) (values : List UInt16)
    (hb : bits.length ≤ 33) (hv : values.length ≤ 128) : Bounded (filled r bits values) := by
  constructor
  · change (UInt16.ofNat (bits.length * 8)).toNat ≤ 264
    rw [UInt16.toNat_ofNat']
    omega
  · change (UInt16.ofNat values.length).toNat ≤ 128
    rw [UInt16.toNat_ofNat']
    omega

theorem getCoil_filled (ctx : PaModbus σ) (r : MasterResult) (bits : Bytes)
    (values : List UInt16) (hb : bits.length ≤ 33) (hr : ctx.result = filled r bits values)
    (idx : UInt16) : paModbusGetCoil ctx idx =
      if UInt16.ofNat (bits.length * 8) ≤ idx then some 0
      else some (if bitAt bits idx.toNat then 1 else 0) := by
  have hcount : ctx.result.lastCoilCount = UInt16.ofNat (bits.length * 8) := by rw [hr, filled]
  have hdata : ctx.result.lastCoilData = patch r.lastCoilData bits := by rw [hr, filled]
  by_cases hi : UInt16.ofNat (bits.length * 8) ≤ idx
  · rw [paModbusGetCoil, hcount, if_pos hi, if_pos hi]
    rfl
  · have hlt := UInt16.not_le.mp hi
    have hn := UInt16.lt_iff_toNat_lt.mp hlt
    rw [UInt16.toNat_ofNat'] at hn
    rw [if_neg hi, getCoil_eq ctx idx (by rw [hcount]; exact hlt) (by omega), hdata,
      bitAt_patch _ _ _ (by omega) hb]

theorem getRegister_filled (ctx : PaModbus σ) (r : MasterResult) (bits : Bytes)
    (values : List UInt16) (hv : values.length ≤ 128) (hr : ctx.result = filled r bits values)
    (idx : UInt16) : paModbusGetRegister ctx idx =
      if UInt16.ofNat values.length ≤ idx then some 0 else values[idx.toNat]? := by
  have hcount : ctx.result.lastRegCount = UInt16.ofNat values.length := by rw [hr, filled]
  have hdata : ctx.result.lastRegData = patch r.lastRegData values := by rw [hr, filled]
  rw [paModbusGetRegister, hcount, hdata]
  by_cases hi : UInt16.ofNat values.length ≤ idx
  · rw [if_pos hi, if_pos hi]
  · have hn := UInt16.lt_iff_toNat_lt.mp (UInt16.not_le.mp hi)
    rw [UInt16.toNat_ofNat'] at hn
    rw [if_neg hi, if_neg hi, patch_getElem? _ _ _ (by omega) hv]

structure ShowSame (c d : PaModbus σ) : Prop where
  function : c.lastFunction = d.lastFunction
  error : c.result.lastError = d.result.lastError
  exception : c.result.lastException = d.result.lastException
  coil : ∀ idx, paModbusGetCoil c idx = paModbusGetCoil d idx
  register : ∀ idx, paModbusGetRegister c idx = paModbusGetRegister d idx

def Ignored (start : PaModbus σ) (data : Bytes) : Prop :=
  ∃ ret, ret ≠ paOk ∧ ∀ ctx, Parsed start ctx → ∃ fc error exception,
    (paModbusMasterFeed data).run ctx = some (ret, { ctx with
      lastFunction := fc
      result := { ctx.result with lastError := error, lastException := exception } })

/-- Its data is shown in place of all that was shown before. -/
def Shown (start : PaModbus σ) (data : Bytes) : Prop :=
  ∃ fc ret bits values, bits.length ≤ 33 ∧ values.length ≤ 128 ∧ ∀ ctx, Parsed start ctx →
    (paModbusMasterFeed data).run ctx = some (ret, { ctx with
      lastFunction := fc
      result := filled { ctx.result with lastError := paOk, lastException := 0 } bits values })

theorem response_effect (start : PaModbus σ) (pdu data : Bytes) (n : Nat) (h1 : 1 ≤ n)
    (h : n + 2 ≤ pdu.length)
    (hrun : ∀ ctx, Parsed start ctx →
      (paModbusMasterFeed data).run ctx = (parseMasterResponse pdu n).run ctx) :
    Ignored start data ∨ Shown start data := by
  obtain ⟨fc, h0⟩ := getElem?_some pdu 0 (by omega)
  obtain ⟨e, he⟩ := getElem?_some pdu 1 (by omega)
  have hparse (ctx : PaModbus σ) (hp : Parsed start ctx) := hrun ctx hp
  simp only [parseMasterResponse, if_neg (Nat.not_lt.mpr h1), h0, access_some, pure_bind,
    modify_bind_run] at hparse
  by_cases hfc : fc &&& 0x80 ≠ 0
  · left
    simp only [if_pos hfc] at hparse
    by_cases h2 : n < 2
    · simp only [if_pos h2] at hparse
      exact ⟨paErrProtocol, by decide, fun ctx hp => ⟨fc, _, _, hparse ctx hp⟩⟩
    · simp only [if_neg h2, he, access_some, pure_bind, modify_bind_run] at hparse
      exact ⟨paErrException, by decide, fun ctx hp => ⟨fc, _, _, hparse ctx hp⟩⟩
  · right
    simp only [if_neg hfc, modify_bind_run] at hparse
    have hfills : Fills (parseResponse fc pdu n) := fills_parseResponse fc (by omega) (by omega)
    obtain ⟨ret, bits, values, hb, hv, hfill⟩ := hfills
    refine ⟨fc, ret, bits, values, hb, hv, fun ctx hp => ?_⟩
    rw [hparse ctx hp, onResult, focus_run, hfill _ rfl rfl]
    rfl

theorem frame_effect (start : PaModbus σ) (data : Bytes) (hf : start.framerType = .rtu) :
    Ignored start data ∨ Shown start data := by
  have hsame {ctx : PaModbus σ} (hp : Parsed start ctx) : unwrap ctx data = unwrap start data := by
    obtain ⟨_, _, _, rfl⟩ := hp
    rfl
  obtain ⟨u, hu⟩ := Framer.unwrap_defined start data
  cases u with
  | ret r =>
    refine .inl ⟨r, unwrap_ret_ne start data r hu, fun ctx hp => ?_⟩
    rw [masterFeed_ret ctx data r ((hsame hp).trans hu)]
    split
    · exact ⟨_, _, _, rfl⟩
    · exact ⟨_, _, _, rfl⟩
  | ok p n =>
    obtain ⟨rfl, h1, hl, -⟩ := rtu_frame_alone start data p n hf hu
    exact response_effect start (data.drop 1) data n h1 (by rw [List.length_drop]; omega)
      fun ctx hp => masterFeed_ok ctx data 1 n ((hsame hp).trans hu)

/-- Frames that are fed one after the other, whatever each call returns. -/
def feeds (ctx : PaModbus σ) : List Bytes → Option (PaModbus σ)
  | [] => some ctx
  | data :: frames => do
    let (_, ctx) ← (paModbusMasterFeed data).run ctx
    feeds ctx frames

theorem feeds_bounded (start ctx : PaModbus σ) (frames : List Bytes)
    (hf : start.framerType = .rtu) (hp : Parsed start ctx) (hb : Bounded ctx.result) :
    ∃ ctx', feeds ctx frames = some ctx' ∧ Parsed start ctx' ∧ Bounded ctx'.result := by
  induction frames generalizing ctx with
  | nil => exact ⟨ctx, rfl, hp, hb⟩
  | cons data frames ih =>
    rw [feeds]
    rcases frame_effect start data hf with ⟨ret, -, hrun⟩ | ⟨fc, ret, bits, values, hl, hv, hrun⟩
    · obtain ⟨fc, error, exception, hrun⟩ := hrun ctx hp
      rw [hrun]
      exact ih _ (parsed_trans _ _ _ hp ⟨_, _, _, rfl⟩) ⟨hb.coils, hb.registers⟩
    · rw [hrun ctx hp]
      exact ih _ (parsed_trans _ _ _ hp ⟨_, _, _, rfl⟩) (filled_bounded _ _ _ hl hv)

/-- However a master got there, its counts lie inside of the arrays, and what it
shows after a response comes from that response. -/
theorem results_from_last_response (start : PaModbus σ) (hf : start.framerType = .rtu)
    (hfresh : start.result = (paModbusInit : PaModbus σ).result) :
    (∀ frames, ∃ ctx, feeds start frames = some ctx ∧ Bounded ctx.result ∧
      ∀ idx, (paModbusGetCoil ctx idx).isSome ∧ (paModbusGetRegister ctx idx).isSome) ∧
    ∀ frames frames' response ctx ctx' d, feeds start frames = some ctx →
      feeds start frames' = some ctx' → (paModbusMasterFeed response).run ctx = some (paOk, d) →
      ∃ d', (paModbusMasterFeed response).run ctx' = some (paOk, d') ∧ ShowSame d d' := by
  have hb : Bounded start.result := by
    rw [hfresh]
    exact ⟨Nat.zero_le 264, Nat.zero_le 128⟩
  constructor
  · intro frames
    obtain ⟨ctx, hrun, -, hc⟩ := feeds_bounded start start frames hf (parsed_refl start) hb
    exact ⟨ctx, hrun, hc, fun idx => ⟨getCoil_isSome ctx hc idx, getRegister_isSome ctx hc idx⟩⟩
  · intro frames frames' response ctx ctx' d hctx hctx' hd
    obtain ⟨c, hc, hp, -⟩ := feeds_bounded start start frames hf (parsed_refl start) hb
    obtain ⟨c', hc', hp', -⟩ := feeds_bounded start start frames' hf (parsed_refl start) hb
    obtain rfl : c = ctx := Option.some.inj (hc.symm.trans hctx)
    obtain rfl : c' = ctx' := Option.some.inj (hc'.symm.trans hctx')
    rcases frame_effect start response hf with ⟨ret, hne, hrun⟩ | ⟨fc, ret, bits, values, hl, hv, hrun⟩
    · obtain ⟨fc, error, exception, hrun⟩ := hrun c hp
      rw [hrun, Option.some.injEq, Prod.mk.injEq] at hd
      exact absurd hd.1 hne
    · rw [hrun c hp, Option.some.injEq, Prod.mk.injEq] at hd
      obtain ⟨rfl, rfl⟩ := hd
      refine ⟨_, hrun c' hp', rfl, rfl, rfl, fun idx => ?_, fun idx => ?_⟩
      · rw [getCoil_filled _ _ bits values hl rfl, getCoil_filled _ _ bits values hl rfl]
      · rw [getRegister_filled _ _ bits values hv rfl, getRegister_filled _ _ bits values hv rfl]

/-- A register and an exception have come to the one master, nothing to the other. -/
theorem coils_after_registers_and_exception :
    ∃ c d d', (feeds (station .rtu 1 0 0 : PaModbus Unit)
        [[0x01, 0x03, 0x02, 0x00, 0x2A, 0x39, 0x9B], [0x01, 0x83, 0x02, 0xC0, 0xF1]]) = some c ∧
      (paModbusMasterFeed [0x01, 0x01, 0x01, 0x05, 0x91, 0x8B]).run (station .rtu 1 0 0) =
        some (paOk, d) ∧
      (paModbusMasterFeed [0x01, 0x01, 0x01, 0x05, 0x91, 0x8B]).run c = some (paOk, d') ∧
      ShowSame d d' := by
  obtain ⟨hbounded, hsame⟩ := results_from_last_response (station .rtu 1 0 0 : PaModbus Unit) rfl rfl
  obtain ⟨c, hc, -⟩ := hbounded
    [[0x01, 0x03, 0x02, 0x00, 0x2A, 0x39, 0x9B], [0x01, 0x83, 0x02, 0xC0, 0xF1]]
  have hok : ((paModbusMasterFeed [0x01, 0x01, 0x01, 0x05, 0x91, 0x8B]).run
      (station .rtu 1 0 0 : PaModbus Unit)).map Prod.fst = some paOk := by decide
  obtain ⟨⟨ret, d⟩, hd, hret⟩ := Option.map_eq_some_iff.mp hok
  obtain rfl : ret = paOk := hret
  obtain ⟨d', hd', hshow⟩ := hsame [] _ _ _ c d rfl hc hd
  exact ⟨c, d, d', hc, hd, hd', hshow⟩

end Pamodbus.MasterResults
