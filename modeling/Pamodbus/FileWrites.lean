import Pamodbus.FileReads

namespace Pamodbus.FileWrites

open Pamodbus.Lib.Cells Pamodbus.Lib.Procedure Pamodbus.Lib.Words
open Pamodbus.Context Pamodbus.Framer Pamodbus.Builders
open Pamodbus.SlaveParse (parseSlaveRequest)
open Pamodbus.Respond Pamodbus.RespondRun Pamodbus.FileRecords
open Pamodbus.FileReads (Holds holds_drop records_parsed)

variable {σ : Type}

structure Record where
  refType : UInt8
  fileNum : UInt16
  recNum : UInt16
  values : List UInt16
  fits : values.length ≤ 64

def Record.recLen (s : Record) : UInt16 := UInt16.ofNat s.values.length

def Record.bytes (s : Record) : Bytes :=
  [s.refType] ++ put16 s.fileNum ++ put16 s.recNum ++ put16 s.recLen ++ registerBytes s.values

def data (recs : List Record) : Bytes := recs.flatMap Record.bytes

def requestPdu (recs : List Record) : Bytes :=
  [0x15] ++ [UInt8.ofNat (data recs).length] ++ data recs

def Record.call (s : Record) : Call := .writeMultipleRegisters s.recNum s.recLen s.values

/-- The invocations that write the records, all of them successful. -/
def calls (recs : List Record) : List (Call × Int) := recs.map fun s => (s.call, 0)

theorem Record.recLen_toNat (s : Record) : s.recLen.toNat = s.values.length := by
  have hfits := s.fits
  rw [Record.recLen, UInt16.toNat_ofNat']
  omega

theorem Record.bytes_length (s : Record) : s.bytes.length = 7 + 2 * s.values.length := by
  simp only [Record.bytes, List.length_append, registerBytes_length, List.length_singleton,
    put16_length]

theorem data_cons (s : Record) (recs : List Record) : data (s :: recs) = s.bytes ++ data recs :=
  List.flatMap_cons

theorem data_length_mod (recs : List Record) : (data recs).length % 2 = recs.length % 2 := by
  induction recs with
  | nil => rfl
  | cons s recs ih =>
    rw [data_cons, List.length_append, s.bytes_length, List.length_cons]
    omega

theorem length_le_data (recs : List Record) : recs.length ≤ (data recs).length := by
  induction recs with
  | nil => exact Nat.zero_le _
  | cons s recs ih =>
    rw [data_cons, List.length_append, s.bytes_length, List.length_cons]
    omega

/-- Registers that are read one byte late, with `r` as the byte behind them. -/
def shifted (r : UInt8) : List UInt16 → List UInt16
  | [] => []
  | [v] => [word (loByte v) r]
  | v :: u :: values => word (loByte v) (hiByte u) :: shifted r (u :: values)

theorem shifted_length (r : UInt8) (values : List UInt16) :
    (shifted r values).length = values.length := by
  induction values using shifted.induct with
  | case1 => rfl
  | case2 v => rfl
  | case3 v u values ih =>
    rw [shifted, List.length_cons, ih]
    rfl

theorem shifted_bytes (r : UInt8) (values : List UInt16) :
    registerBytes (shifted r values) = (registerBytes values ++ [r]).tail := by
  induction values using shifted.induct with
  | case1 => rfl
  | case2 v => simp [shifted, registerBytes, put16]
  | case3 v u values ih =>
    simp only [registerBytes, List.flatMap_cons, put16] at ih ⊢
    rw [shifted, List.flatMap_cons, ih]
    simp [put16]

theorem word_shifted_iff (v : UInt16) (r : UInt8) : word (loByte v) r = v ↔ v = word r r := by
  constructor
  · intro h
    have hlo := congrArg loByte h
    rw [loByte_word] at hlo
    rw [← hlo] at h
    rw [← h, hlo]
  · rintro rfl
    rw [loByte_word]

/-- One byte late the registers are the same only where all bytes are. -/
theorem shifted_eq_iff (r : UInt8) (values : List UInt16) :
    shifted r values = values ↔ ∀ v ∈ values, v = word r r := by
  induction values using shifted.induct with
  | case1 => simp [shifted]
  | case2 v => simpa [shifted] using word_shifted_iff v r
  | case3 v u values ih =>
    rw [shifted, List.cons.injEq, ih, List.forall_mem_cons (a := v)]
    apply and_congr_left
    intro hrest
    rw [hrest u List.mem_cons_self, hiByte_word]
    exact word_shifted_iff v r

theorem holds_values {regs values : List UInt16} {i : Nat} {rest : Bytes}
    (h : Holds regs i (registerBytes values ++ rest)) (hl : i + values.length ≤ regs.length) :
    (regs.drop i).take values.length = values := by
  apply List.ext_getElem?
  intro m
  by_cases hm : m < values.length
  · obtain ⟨v, hv⟩ := getElem?_some values m hm
    have htake : (registerBytes (values.take m)).length = m * 2 := by
      rw [registerBytes_length, List.length_take_of_le (by omega), Nat.mul_comm]
    have hword := h m (hiByte v) (loByte v)
      (by rw [registerBytes_split hv]; simp [htake, put16])
      (by rw [registerBytes_split hv]; simp [htake, put16])
    rw [List.getElem?_take_of_lt hm, List.getElem?_drop, getElem?_getD regs (i + m) (by omega),
      hword, word_bytes, hv]
  · rw [List.getElem?_eq_none (by simp; omega), List.getElem?_eq_none (by omega)]

/-- The bytes that the responder takes for others are equal to those. -/
def Aligned (s t : Record) : Prop :=
  s.recNum = 0 ∧ (s.values = [] ∧ t.refType = 0 ∨
    s.values.length = 64 ∧ ∀ v ∈ s.values, v = word t.refType t.refType)

def InStep : List Record → Prop
  | [] => True
  | [_] => False
  | s :: t :: rest => Aligned s t ∧ InStep rest

section

variable {residue : Residue} {cb : WriteMultipleRegistersFn σ} {regs : List UInt16}
  {regCount : Nat}

theorem recordValues_eq {values : List UInt16} {offset : Nat} {rest : Bytes}
    (hlen : (recordLen regs (offset / 2)).toNat = values.length)
    (hl : offset / 2 + 4 + values.length ≤ regCount) (hc : regCount ≤ regs.length)
    (h : Holds regs (offset / 2 + 4) (registerBytes values ++ rest)) :
    recordValues residue regs regCount offset = values := by
  have hle := recordLen_le regs (offset / 2)
  have hmin : min values.length (regCount - (offset / 2 + 4)) = values.length := by omega
  rw [recordValues, hlen, hmin, holds_values h (by omega), overlay_take_self]
  rw [List.Vector.toList_length]
  omega

/-- The first of two records, of which the responder sees the number and the length
one byte late. -/
theorem first_found {i : Nat} {s t : Record} {rest : Bytes}
    (h : Holds regs i (s.bytes ++ (t.bytes ++ rest))) :
    regs[i + 2]?.getD 0 = word (loByte s.recNum) 0 ∧
      (recordLen regs i = s.recLen ↔
        s.values = [] ∧ t.refType = 0 ∨ s.values.length = 64) ∧
      (s.values ≠ [] → ∃ rest',
        Holds regs (i + 4) (registerBytes (shifted t.refType s.values) ++ rest')) := by
  have hhi : hiByte s.recLen = 0 := by
    have hfits := s.fits
    rw [← UInt8.toNat_inj, hiByte_toNat, s.recLen_toNat]
    exact Nat.div_eq_of_lt (by omega)
  have hnum : regs[i + 2]?.getD 0 = word (loByte s.recNum) (hiByte s.recLen) := h 2 _ _ rfl rfl
  refine ⟨hhi ▸ hnum, ?_⟩
  have hlo : (loByte s.recLen).toNat = s.values.length := by
    have hfits := s.fits
    rw [loByte_toNat, s.recLen_toNat]
    omega
  have hword (b : UInt8) (hb : regs[i + 3]?.getD 0 = word (loByte s.recLen) b) :
      (recordLen regs i).toNat =
        if 64 < 256 * s.values.length + b.toNat then 64 else 256 * s.values.length + b.toNat := by
    rw [recordLen, hb, word_toNat, hlo]
    split
    · rfl
    · rw [word_toNat, hlo]
  rw [← UInt16.toNat_inj, s.recLen_toNat]
  obtain ⟨refType, fileNum, recNum, values, fits⟩ := s
  cases values with
  | nil =>
    rw [hword t.refType (h 3 _ _ rfl rfl), ← UInt8.toNat_inj]
    refine ⟨?_, fun hne => absurd rfl hne⟩
    simp only [List.length_nil, true_and]
    split
    · simp
      omega
    · simp
  | cons v values =>
    rw [hword (hiByte v) (h 3 _ _ rfl rfl), if_pos (by rw [List.length_cons]; omega)]
    refine ⟨?_, fun _ => ⟨t.bytes.tail ++ rest, ?_⟩⟩
    · simp only [reduceCtorEq, false_and, false_or]
      exact eq_comm
    · rw [shifted_bytes]
      refine holds_drop regs i 4 ([refType] ++ put16 fileNum ++ put16 recNum ++
        put16 (UInt16.ofNat (v :: values).length) ++ [hiByte v]) _ rfl ?_
      simpa [Record.bytes, Record.recLen, registerBytes, put16] using h

theorem second_found {j : Nat} {t : Record} {x : UInt8} {rest : Bytes}
    (h : Holds regs j ([x] ++ (t.bytes ++ rest))) :
    regs[j + 2]?.getD 0 = t.recNum ∧ recordLen regs j = t.recLen ∧
      Holds regs (j + 4) (registerBytes t.values ++ rest) := by
  have hfits := t.fits
  have hlen : regs[j + 3]?.getD 0 = t.recLen := by
    rw [← word_bytes t.recLen]
    exact h 3 _ _ rfl rfl
  refine ⟨?_, ?_, ?_⟩
  · rw [← word_bytes t.recNum]
    exact h 2 _ _ rfl rfl
  · rw [recordLen, hlen, if_neg (by rw [t.recLen_toNat]; omega)]
  · refine holds_drop regs j 4 ([x] ++ [t.refType] ++ put16 t.fileNum ++ put16 t.recNum ++
      put16 t.recLen) _ rfl ?_
    simpa [Record.bytes, List.append_assoc] using h

variable (residue cb regs regCount)

theorem writeRecords_succeeds (hcb : ∀ addr count values app, (cb addr count values app).1 = 0)
    (rounds offset : Nat) (w : World σ) :
    (writeRecords residue cb regs regCount rounds offset w).1 = false := by
  induction rounds generalizing offset w with
  | zero => rfl
  | succ rounds ih =>
    rw [writeRecords]
    dsimp only
    split
    · rfl
    · rw [if_neg (not_not.mpr (hcb _ _ _ _))]
      exact ih _ _

theorem writeRecords_round (hcb : ∀ addr count values app, (cb addr count values app).1 = 0)
    (rounds offset : Nat) (w : World σ) (hl : offset + 7 ≤ regCount * 2) :
    ∃ app, writeRecords residue cb regs regCount (rounds + 1) offset w =
      writeRecords residue cb regs regCount rounds
        (offset + 7 + (recordLen regs (offset / 2)).toNat * 2)
        (w.called (.writeMultipleRegisters (regs[offset / 2 + 2]?.getD 0)
          (recordLen regs (offset / 2)) (recordValues residue regs regCount offset)) 0 app) := by
  rw [writeRecords, if_neg (by omega)]
  dsimp only
  rw [if_neg (not_not.mpr (hcb _ _ _ _)), hcb]
  exact ⟨_, rfl⟩

theorem writeRecords_more (rounds offset : Nat) (w : World σ) :
    ∃ more, (writeRecords residue cb regs regCount rounds offset w).2.calls = w.calls ++ more := by
  induction rounds generalizing offset w with
  | zero => exact ⟨[], (List.append_nil _).symm⟩
  | succ rounds ih =>
    rw [writeRecords]
    dsimp only
    split
    · exact ⟨[], (List.append_nil _).symm⟩
    · split
      · exact ⟨_, rfl⟩
      · obtain ⟨more, hmore⟩ := ih _ (w.called _ _ _)
        exact ⟨_, hmore.trans (List.append_assoc _ _ _)⟩

variable {cb regs regCount}

theorem call_eq_iff {recNum len : UInt16} {values : List UInt16} {s : Record} :
    Call.writeMultipleRegisters recNum len values = s.call ↔
      recNum = s.recNum ∧ len = s.recLen ∧ values = s.values := by
  rw [Record.call, Call.writeMultipleRegisters.injEq]

theorem first_call_iff {i : Nat} {s t : Record} {rest : Bytes}
    (h : Holds regs i (s.bytes ++ (t.bytes ++ rest))) (hc : regCount ≤ regs.length)
    (hl : i + (s.bytes.length + t.bytes.length) / 2 ≤ regCount) :
    Call.writeMultipleRegisters (regs[i + 2]?.getD 0) (recordLen regs i)
        (recordValues residue regs regCount (i * 2)) = s.call ↔ Aligned s t := by
  obtain ⟨hnum, hlen, hshifted⟩ := first_found h
  have hzero : word (loByte s.recNum) 0 = s.recNum ↔ s.recNum = 0 := by
    have hlt := s.recNum.toNat_lt
    rw [← UInt16.toNat_inj, ← UInt16.toNat_inj, word_toNat, loByte_toNat]
    simp only [UInt8.toNat_zero, UInt16.toNat_zero]
    omega
  have hhalf : i * 2 / 2 = i := by omega
  rw [s.bytes_length, t.bytes_length] at hl
  rw [call_eq_iff, Aligned, hnum, hzero, hlen]
  apply and_congr_right
  intro _
  by_cases hempty : s.values = []
  · simp only [hempty, true_and, false_and, or_false, List.length_nil, Nat.reduceEqDiff]
    refine ⟨And.left, fun href => ⟨href, ?_⟩⟩
    apply List.eq_nil_of_length_eq_zero
    rw [recordValues, hhalf, hlen.mpr (.inl ⟨hempty, href⟩)]
    simp [s.recLen_toNat, hempty]
  · simp only [hempty, false_and, false_or]
    apply and_congr_right
    intro hfull
    obtain ⟨rest', hrest⟩ := hshifted hempty
    have hvalues : recordValues residue regs regCount (i * 2) = shifted t.refType s.values := by
      have hlength := shifted_length t.refType s.values
      apply recordValues_eq
      · rw [hhalf, hlen.mpr (.inr hfull), s.recLen_toNat, hlength]
      · rw [hhalf, hlength]
        omega
      · exact hc
      · rw [hhalf]
        exact hrest
    rw [hvalues, shifted_eq_iff]

theorem second_call {i : Nat} {s t : Record} {rest : Bytes}
    (h : Holds regs i (s.bytes ++ (t.bytes ++ rest))) (hc : regCount ≤ regs.length)
    (hl : i + (s.bytes.length + t.bytes.length) / 2 ≤ regCount) {offset : Nat}
    (ho : offset = i * 2 + 7 + s.values.length * 2) :
    recordLen regs (offset / 2) = t.recLen ∧
      Call.writeMultipleRegisters (regs[offset / 2 + 2]?.getD 0) (recordLen regs (offset / 2))
        (recordValues residue regs regCount offset) = t.call := by
  have hne : s.bytes ≠ [] := by simp [Record.bytes]
  have hdrop := holds_drop regs i (3 + s.values.length) s.bytes.dropLast
    ([s.bytes.getLast hne] ++ (t.bytes ++ rest)) (by
      rw [List.length_dropLast, s.bytes_length]
      omega) (by
      rw [← List.append_assoc, List.dropLast_append_getLast]
      exact h)
  have hhalf : offset / 2 = i + (3 + s.values.length) := by omega
  rw [s.bytes_length, t.bytes_length] at hl
  rw [← hhalf] at hdrop
  obtain ⟨hnum, hlen, hvalues⟩ := second_found hdrop
  refine ⟨hlen, call_eq_iff.mpr ⟨hnum, hlen, ?_⟩⟩
  apply recordValues_eq
  · rw [hlen, t.recLen_toNat]
  · omega
  · exact hc
  · exact hvalues

/-- All the records are handed over as they are only where each pair of them agrees. -/
theorem writeRecords_calls_iff (hcb : ∀ addr count values app, (cb addr count values app).1 = 0)
    (recs : List Record) (i rounds : Nat) (w : World σ) (hh : Holds regs i (data recs))
    (heven : recs.length % 2 = 0) (hlimit : regCount = i + (data recs).length / 2)
    (hc : regCount ≤ regs.length) (hr : recs.length < rounds) :
    (writeRecords residue cb regs regCount rounds (i * 2) w).2.calls = w.calls ++ calls recs ↔
      InStep recs := by
  induction recs using InStep.induct generalizing i rounds w with
  | case1 =>
    obtain ⟨rounds, rfl⟩ := Nat.exists_eq_add_of_le' (Nat.zero_lt_of_lt hr)
    change regCount = i + 0 at hlimit
    rw [writeRecords, if_pos (by omega)]
    simp [calls, InStep]
  | case2 s => simp at heven
  | case3 s t rest ih =>
    have hmod := data_length_mod rest
    rw [List.length_cons, List.length_cons] at heven hr
    rw [data_cons, data_cons] at hh hlimit
    rw [List.length_append, List.length_append] at hlimit
    obtain ⟨rounds, rfl⟩ : ∃ k, rounds = k + 1 + 1 := ⟨rounds - 2, by omega⟩
    have hs := s.bytes_length
    have ht := t.bytes_length
    have hhalf : i * 2 / 2 = i := by omega
    have hpair : i + (s.bytes.length + t.bytes.length) / 2 ≤ regCount := by omega
    have hfirst := first_call_iff residue hh hc hpair
    obtain ⟨app, hrun⟩ := writeRecords_round residue cb regs regCount hcb
      (rounds + 1) (i * 2) w (by omega)
    rw [hrun, hhalf, InStep, ← hfirst]
    by_cases hcall : Call.writeMultipleRegisters (regs[i + 2]?.getD 0) (recordLen regs i)
        (recordValues residue regs regCount (i * 2)) = s.call
    · have hlen := (call_eq_iff.mp hcall).2.1
      rw [hcall, hlen, s.recLen_toNat]
      obtain ⟨hlen', hcall'⟩ := second_call residue hh hc hpair rfl
      obtain ⟨app', hrun'⟩ := writeRecords_round residue cb regs regCount hcb rounds
        (i * 2 + 7 + s.values.length * 2) (w.called s.call 0 app) (by omega)
      have hnext : i * 2 + 7 + s.values.length * 2 + 7 + t.values.length * 2 =
          (i + (7 + s.values.length + t.values.length)) * 2 := by omega
      have hrest := holds_drop regs i (7 + s.values.length + t.values.length) (s.bytes ++ t.bytes)
        (data rest) (by rw [List.length_append]; omega) (by rw [List.append_assoc]; exact hh)
      rw [hrun', hcall', hlen', t.recLen_toNat, hnext, and_iff_right rfl,
        ← ih (i + (7 + s.values.length + t.values.length)) rounds
          ((w.called s.call 0 app).called t.call 0 app') hrest (by omega) (by omega) (by omega)]
      simp [World.called, calls]
    · refine ⟨fun hcalls => absurd ?_ hcall, fun hboth => absurd hboth.1 hcall⟩
      obtain ⟨more, hmore⟩ := writeRecords_more residue cb regs regCount (rounds + 1)
        (i * 2 + 7 + (recordLen regs i).toNat * 2) (w.called
          (.writeMultipleRegisters (regs[i + 2]?.getD 0) (recordLen regs i)
            (recordValues residue regs regCount (i * 2))) 0 app)
      rw [hmore, World.called, List.append_assoc, List.append_cancel_left_eq] at hcalls
      exact congrArg Prod.fst (List.cons_eq_cons.mp hcalls).1

end

theorem writeRecords_frame (residue : Residue) (cb : WriteMultipleRegistersFn σ)
    (regs : List UInt16) (regCount rounds offset : Nat) (w : World σ) (pdu : Bytes) :
    frame (writeRecords residue cb regs regCount rounds offset w).2 pdu = frame w pdu := by
  induction rounds generalizing offset w with
  | zero => rfl
  | succ rounds ih =>
    rw [writeRecords]
    dsimp only
    split
    · rfl
    · split
      · rfl
      · exact ih _ _

theorem registerBytes_onto (bytes : Bytes) (n : Nat) (h : bytes.length = n * 2) :
    ∃ values, values.length = n ∧ registerBytes values = bytes := by
  induction n generalizing bytes with
  | zero => exact ⟨[], rfl, (List.eq_nil_of_length_eq_zero h).symm⟩
  | succ n ih =>
    obtain ⟨b, c, rest, rfl⟩ : ∃ b c rest, bytes = b :: c :: rest := by
      match bytes, h with
      | b :: c :: rest, _ => exact ⟨b, c, rest, rfl⟩
      | [_], h => rw [List.length_singleton] at h; omega
      | [], h => rw [List.length_nil] at h; omega
    obtain ⟨values, hlen, hvalues⟩ := ih rest (by simp at h; omega)
    refine ⟨word b c :: values, by rw [List.length_cons, hlen], ?_⟩
    rw [registerBytes, List.flatMap_cons, ← registerBytes, hvalues]
    simp [put16]

def echo (regs : List UInt16) (n : Nat) : Bytes :=
  [0x15] ++ [UInt8.ofNat (n * 2)] ++ registerBytes (regs.take n)

/-- The request comes back as it was unless it had an odd number of bytes. -/
theorem echo_eq_iff (recs : List Record) (regs : List UInt16) (hh : Holds regs 0 (data recs))
    (hl : (data recs).length / 2 ≤ regs.length) :
    echo regs ((data recs).length / 2) = requestPdu recs ↔ recs.length % 2 = 0 := by
  have hmod := data_length_mod recs
  constructor
  · intro h
    have hlen := congrArg List.length h
    simp only [echo, requestPdu, List.length_append, List.length_singleton, registerBytes_length,
      List.length_take_of_le hl] at hlen
    omega
  · intro heven
    have htwice : (data recs).length / 2 * 2 = (data recs).length := by omega
    obtain ⟨values, hvalues, hbytes⟩ := registerBytes_onto (data recs) _ htwice.symm
    rw [← hbytes, ← List.append_nil (registerBytes values)] at hh
    have htake := holds_values hh (by omega)
    rw [hvalues, List.drop_zero] at htake
    rw [echo, requestPdu, htwice, htake, hbytes]

theorem respond_wrote (residue : Residue) (cb : WriteMultipleRegistersFn σ)
    (recs : List Record) (rest : Bytes) (w : World σ)
    (hf : w.ctx.callbacks.writeMultipleRegistersCb = some cb)
    (hcb : ∀ addr count values app, (cb addr count values app).1 = 0)
    (hn : (data recs).length ≤ 255)
    (htx : 2 + (data recs).length + overhead w.ctx.framerType ≤ w.ctx.txbuf.cells.length) :
    ∃ (r : SlaveRequest) (ret : Int) (w' : World σ),
      let ctx' := { w.ctx with lastFunction := 0x15, request := r }
      let regs := r.slaveRegData.toList
      let n := (data recs).length / 2
      (parseSlaveRequest (requestPdu recs ++ rest) (requestPdu recs).length).run w.ctx =
        some (paOk, ctx') ∧ Holds regs 0 (data recs) ∧
      (paModbusSlaveRespond residue).run { w with ctx := ctx' } = some (ret, w') ∧ 0 < ret ∧
      w'.calls = (writeRecords residue cb regs n (n * 2 + 1) 0 { w with ctx := ctx' }).2.calls ∧
      sent w' = frame { w with ctx := ctx' } (echo regs n) := by
  obtain ⟨r, hparse, hcount, hholds⟩ := records_parsed 0x15 (data recs) rest w.ctx (.inr rfl) hn
  have hlen : (requestPdu recs).length = 2 + (data recs).length := by
    simp only [requestPdu, List.length_append, List.length_singleton]
  let ctx' : PaModbus σ := { w.ctx with lastFunction := 0x15, request := r }
  have hrespond := (respond_run residue { w with ctx := ctx' }).trans
    (respondWriteFileRecord_run residue 0x15 { w with ctx := ctx' } (by
      dsimp only [ctx']
      omega))
  dsimp only [ctx'] at hrespond
  rw [hf, hcount] at hrespond
  dsimp only [withCallback] at hrespond
  rw [if_neg (by rw [writeRecords_succeeds _ _ _ _ hcb]; decide)] at hrespond
  have hframe := writeRecords_frame residue cb r.slaveRegData.toList ((data recs).length / 2)
    ((data recs).length / 2 * 2 + 1) 0 { w with ctx := ctx' }
  have hctx := writeRecords_ctx residue cb r.slaveRegData.toList ((data recs).length / 2)
    ((data recs).length / 2 * 2 + 1) 0 { w with ctx := ctx' }
  have hregs : r.slaveRegData.toList.length = 128 := List.Vector.toList_length _
  have hecho : (echo r.slaveRegData.toList ((data recs).length / 2)).length =
      2 + (data recs).length / 2 * 2 := by
    simp only [echo, List.length_append, List.length_singleton, registerBytes_length,
      List.length_take, hregs]
    omega
  have hb : (UInt8.ofNat ((data recs).length / 2 * 2)).toNat = (data recs).length / 2 * 2 := by
    rw [UInt8.toNat_ofNat']
    omega
  rw [hb, ← hecho, ← echo] at hrespond
  refine ⟨r, _, _, by rw [hlen]; exact hparse, hholds, hrespond.trans (emit_finish _ _ _ ?_ le_rfl
    ?_ ?_), ?_, rfl, ?_⟩
  · omega
  · rw [hctx]
    dsimp only [ctx']
    omega
  · rw [hctx]
    dsimp only [ctx']
    omega
  · omega
  · rw [List.take_length, hframe, sent_framed]
    rw [World.withTx_txbuf, Buffer.patch_cells, overlay_length, frame_length, hctx]
    dsimp only [ctx']
    omega

/-- The request is answered with itself, each of its records written by one callback. -/
def AppliesAll (residue : Residue) (recs : List Record) (rest : Bytes) (w : World σ) : Prop :=
  ∃ ctx' ret w',
    (parseSlaveRequest (requestPdu recs ++ rest) (requestPdu recs).length).run w.ctx =
      some (paOk, ctx') ∧
    (paModbusSlaveRespond residue).run { w with ctx := ctx' } = some (ret, w') ∧ 0 < ret ∧
    w'.calls = w.calls ++ calls recs ∧ sent w' = frame { w with ctx := ctx' } (requestPdu recs)

theorem even_of_inStep (recs : List Record) (h : InStep recs) : recs.length % 2 = 0 := by
  induction recs using InStep.induct with
  | case1 => rfl
  | case2 s => exact h.elim
  | case3 s t rest ih =>
    have hrest := ih h.2
    rw [List.length_cons, List.length_cons]
    omega

/-- What comes back shows that the number of records is even, and what was written
that each pair of them agrees. -/
theorem applied_inStep (residue : Residue) (cb : WriteMultipleRegistersFn σ)
    (recs : List Record) (rest : Bytes) (w : World σ)
    (hf : w.ctx.callbacks.writeMultipleRegistersCb = some cb)
    (hcb : ∀ addr count values app, (cb addr count values app).1 = 0)
    (hn : (data recs).length ≤ 255)
    (htx : 2 + (data recs).length + overhead w.ctx.framerType ≤ w.ctx.txbuf.cells.length)
    (h : AppliesAll residue recs rest w) : InStep recs := by
  obtain ⟨r, ret, w', hparse, hholds, hrespond, -, hcalls, hsent⟩ :=
    respond_wrote residue cb recs rest w hf hcb hn htx
  obtain ⟨ctx', ret', w'', hparse', hrespond', -, hcalls', hsent'⟩ := h
  rw [hparse, Option.some.injEq, Prod.mk.injEq] at hparse'
  obtain rfl := hparse'.2
  rw [hrespond, Option.some.injEq, Prod.mk.injEq] at hrespond'
  obtain ⟨rfl, rfl⟩ := hrespond'
  have hregs : r.slaveRegData.toList.length = 128 := List.Vector.toList_length _
  have hle := length_le_data recs
  rw [hsent] at hsent'
  have heven := (echo_eq_iff recs r.slaveRegData.toList hholds (by omega)).mp
    (frame_injective _ _ _ hsent')
  rw [hcalls, ← Nat.zero_mul 2] at hcalls'
  exact (writeRecords_calls_iff residue hcb recs 0 _ _ hholds heven (Nat.zero_add _).symm
    (by omega) (by omega)).mp hcalls'

/-- Those requests are applied whose odd bytes agree by chance. -/
theorem file_write_applied_iff (residue : Residue) (cb : WriteMultipleRegistersFn σ)
    (recs : List Record) (rest : Bytes) (w : World σ)
    (hf : w.ctx.callbacks.writeMultipleRegistersCb = some cb)
    (hcb : ∀ addr count values app, (cb addr count values app).1 = 0)
    (hn : (data recs).length ≤ 255)
    (htx : 2 + (data recs).length + overhead w.ctx.framerType ≤ w.ctx.txbuf.cells.length) :
    AppliesAll residue recs rest w ↔ InStep recs := by
  refine ⟨applied_inStep residue cb recs rest w hf hcb hn htx, fun h => ?_⟩
  obtain ⟨r, ret, w', hparse, hholds, hrespond, hret, hcalls, hsent⟩ :=
    respond_wrote residue cb recs rest w hf hcb hn htx
  have hregs : r.slaveRegData.toList.length = 128 := List.Vector.toList_length _
  have hle := length_le_data recs
  have heven := even_of_inStep recs h
  refine ⟨_, ret, w', hparse, hrespond, hret, ?_, ?_⟩
  · rw [hcalls, ← Nat.zero_mul 2]
    exact (writeRecords_calls_iff residue hcb recs 0 _ _ hholds heven (Nat.zero_add _).symm
      (by omega) (by omega)).mpr h
  · rw [hsent, (echo_eq_iff recs r.slaveRegData.toList hholds (by omega)).mpr heven]

def acceptRegisters : WriteMultipleRegistersFn Unit := fun _ _ _ app => (0, app)

def fileSlave : World Unit :=
  ⟨paModbusSetWriteMultipleRegistersCb (some acceptRegisters) (station .rtu 1 64 64), (), 0, []⟩

def inStepRequest : List Record := [⟨6, 4, 0, [], by decide⟩, ⟨0, 4, 9, [0x0A0B, 0x0C0D], by decide⟩]

theorem request_in_step_applied : AppliesAll (fun _ _ => 0) inStepRequest [] fileSlave :=
  (file_write_applied_iff (fun _ _ => 0) acceptRegisters inStepRequest [] fileSlave rfl
    (fun _ _ _ _ => rfl) (by decide) (by decide)).mpr ⟨⟨rfl, .inl ⟨rfl, rfl⟩⟩, trivial⟩

/-- Of two records of one register each the first is not written as it is, and a
single record does not come back whole either. -/
theorem file_write_not_applied :
    ¬ AppliesAll (fun _ _ => 0) [⟨6, 4, 7, [0x1234], by decide⟩] [] fileSlave ∧
      ¬ AppliesAll (fun _ _ => 0) [⟨6, 4, 7, [0x1234], by decide⟩, ⟨6, 4, 9, [0x5678], by decide⟩]
        [] fileSlave := by
  constructor
  · intro h
    exact applied_inStep _ _ _ _ _ rfl (fun _ _ _ _ => rfl) (by decide) (by decide) h
  · intro h
    exact absurd (applied_inStep _ _ _ _ _ rfl (fun _ _ _ _ => rfl) (by decide) (by decide) h).1.1
      (by decide)

end Pamodbus.FileWrites
