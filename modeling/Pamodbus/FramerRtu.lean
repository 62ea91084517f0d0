import Pamodbus.Crc16
import Pamodbus.Lib.CInt

namespace Pamodbus.FramerRtu

open Pamodbus.Lib.Cells Pamodbus.Lib.CInt Pamodbus.Lib.Procedure Pamodbus.Lib.Words
open Pamodbus.Context Pamodbus.Crc16

variable {σ : Type}

/-- What `unwrap` gives: `PA_OK` with the place and length of the PDU in the
data, or the return value when that is not zero. -/
inductive Unwrapped
  | ok (pdu pduLen : Nat)
  | ret (r : Int)
  deriving DecidableEq, Repr

/-- The address check of both framers. -/
def accepts (ctx : PaModbus σ) (addr : UInt8) : Bool :=
  !(ctx.slave != 0xFF && addr != ctx.slave && (ctx.discoveryAddr == 0 || addr != ctx.discoveryAddr))

def paFramerRtuWrap (pduLen : Int) : Proc (World σ) (Except Int Int) := do
  let ctx := (← get).ctx
  let need ← access (intExpr (1 + pduLen + 2))
  if ctx.txbuf.cells.length < sizeT need then return .error paErrBufferFull
  let pdu ← access (block ctx.txbuf.cells 0 (sizeT pduLen))
  txStore 1 pdu
  txStore 0 [ctx.slave]
  let frameLen := sizeT (1 + pduLen)
  let crc ← access (paCrc16 (← get).ctx.txbuf.cells frameLen)
  txStore frameLen [loByte crc]
  txStore (frameLen + 1) [hiByte crc]
  return .ok (frameLen + 2)

/-- The switch of `pa_framer_rtu_unwrap`: the expected length of the frame,
or the value with which the function returns there. -/
def expectedLen (fc : UInt8) (data : Bytes) : Option (Except Int Nat) :=
  let len := data.length
  match fc with
  | 0x01 | 0x02 | 0x03 | 0x04 =>
    if 4 ≤ len then do
      let bc := (← data[2]?).toNat
      if bc ≤ 250 ∧ 0 < bc then return .ok (3 + bc + 2)
      return .ok 8
    else some (.ok 8)
  | 0x05 | 0x06 => some (.ok 8)
  | 0x0F | 0x10 => do
    if len < 8 then return .error (8 - len)
    return .ok (7 + (← data[6]?).toNat + 2)
  | 0x07 | 0x0B | 0x0C | 0x08 => some (.ok 8)
  | 0x11 => do
    if len = 4 then return .ok 4
    if len = 5 then return .ok 5
    if 5 < len then
      let bc := (← data[2]?).toNat
      if 0 < bc ∧ bc ≤ 250 ∧ 3 + bc + 2 ≤ len then return .ok (3 + bc + 2)
      return .ok len
    return .error (4 - len)
  | 0x14 | 0x15 => if len < 8 then some (.error (8 - len)) else some (.ok len)
  | 0x16 => some (.ok 10)
  | 0x17 => do
    if len < 11 then return .error (11 - len)
    return .ok (10 + (← data[9]?).toNat + 2)
  | 0x18 => some (.ok 6)
  | _ =>
    if fc &&& 0x80 ≠ 0 ∧ 0x01 ≤ fc &&& 0x7F ∧ fc &&& 0x7F ≤ 0x18 then some (.ok 5)
    else some (.error paErrProtocol)

def paFramerRtuUnwrap (ctx : PaModbus σ) (data : Bytes) : Option Unwrapped := do
  let len := data.length
  if len < 4 then return .ret (4 - len)
  let fc ← data[1]?
  match ← expectedLen fc data with
  | .error r => return .ret r
  | .ok expected =>
    if len < expected then return .ret (expected - len)
    let crcReceived := word (← data[expected - 1]?) (← data[expected - 2]?)
    let crcCalc ← paCrc16 data (expected - 2)
    if crcCalc ≠ crcReceived then return .ret paErrCrc
    if ¬ accepts ctx (← data[0]?) then return .ret paErrInvalidSlave
    return .ok 1 (expected - 1 - 2)

def rtuFrame (addr : UInt8) (pdu : Bytes) : Bytes := addr :: pdu ++ crcBytes (addr :: pdu)

@[simp] theorem rtuFrame_length (addr : UInt8) (pdu : Bytes) :
    (rtuFrame addr pdu).length = pdu.length + 3 := by
  simp [rtuFrame]

theorem rtuFrame_take (addr : UInt8) (pdu rest : Bytes) :
    (rtuFrame addr pdu ++ rest).take (pdu.length + 1) = addr :: pdu := by
  rw [rtuFrame, List.append_assoc, List.take_left' (by simp)]

theorem rtuFrame_crc (addr : UInt8) (pdu rest : Bytes) :
    (rtuFrame addr pdu ++ rest)[pdu.length + 1]? = some (loByte (crc16 (addr :: pdu))) ∧
      (rtuFrame addr pdu ++ rest)[pdu.length + 2]? = some (hiByte (crc16 (addr :: pdu))) := by
  constructor
  · rw [rtuFrame, List.append_assoc, List.getElem?_append_right (by simp)]
    simp [crcBytes]
  · rw [rtuFrame, List.append_assoc, List.getElem?_append_right (by simp)]
    simp [crcBytes]

theorem frame_of_crc (data : Bytes) (n : Nat) (addr lo hi : UInt8) (hn : n + 3 ≤ data.length)
    (ha : data[0]? = some addr) (hl : data[n + 1]? = some lo) (hh : data[n + 2]? = some hi)
    (hc : crc16 (data.take (n + 1)) = word hi lo) :
    data = rtuFrame addr ((data.drop 1).take n) ++ data.drop (n + 3) := by
  have hfront : data.take (n + 1) = addr :: (data.drop 1).take n := by
    cases data with
    | nil => simp at ha
    | cons a data => simpa using ha
  have htail : data.drop (n + 1) = lo :: hi :: data.drop (n + 3) := by
    rw [List.drop_eq_getElem_cons (by omega), List.drop_eq_getElem_cons (by omega)]
    rw [List.getElem?_eq_getElem (by omega), Option.some.injEq] at hl hh
    rw [hl, hh]
  rw [rtuFrame, crcBytes, ← hfront, hc, loByte_word, hiByte_word]
  calc data = data.take (n + 1) ++ data.drop (n + 1) := (List.take_append_drop _ _).symm
    _ = _ := by rw [htail]; simp

theorem expectedLen_defined (fc : UInt8) (data : Bytes) (h : 4 ≤ data.length) :
    ∃ r, expectedLen fc data = some r := by
  obtain ⟨b, hb⟩ := getElem?_some data 2 (by omega)
  unfold expectedLen
  split
  case h_7 | h_8 =>
    dsimp only
    split
    · exact ⟨_, rfl⟩
    · obtain ⟨c, hc⟩ := getElem?_some data 6 (by omega)
      simp only [hc]
      exact ⟨_, rfl⟩
  case h_17 =>
    dsimp only
    split
    · exact ⟨_, rfl⟩
    · obtain ⟨c, hc⟩ := getElem?_some data 9 (by omega)
      simp only [hc]
      exact ⟨_, rfl⟩
  all_goals simp only [hb, Option.bind_eq_bind, Option.pure_def, Option.bind_some]
  all_goals repeat' split
  all_goals exact ⟨_, rfl⟩

theorem expectedLen_ge (fc : UInt8) (data : Bytes) (n : Nat) (h : 4 ≤ data.length)
    (he : expectedLen fc data = some (.ok n)) : 4 ≤ n := by
  unfold expectedLen at he
  split at he
  all_goals
    simp only [Option.bind_eq_bind, Option.pure_def, Option.some.injEq, Except.ok.injEq] at he
  all_goals grind

theorem expectedLen_take (fc : UInt8) (data : Bytes) (n k : Nat) (h : 4 ≤ data.length)
    (hn : n ≤ k) (hk : k ≤ data.length) (he : expectedLen fc data = some (.ok n)) :
    expectedLen fc (data.take k) = some (.ok n) := by
  have h4 := expectedLen_ge fc data n h he
  have hl : (data.take k).length = k := List.length_take_of_le hk
  obtain ⟨b, hb⟩ := getElem?_some data 2 (by omega)
  have hb' : (data.take k)[2]? = some b := by rw [List.getElem?_take_of_lt (by omega), hb]
  unfold expectedLen at he ⊢
  split at he
  all_goals
    simp only [hb, Option.bind_eq_bind, Option.pure_def, Option.bind_some, Option.some.injEq,
      Except.ok.injEq] at he
    simp only [hl, hb', Option.bind_eq_bind, Option.pure_def, Option.bind_some]
  all_goals grind

theorem unwrap_ok_iff (ctx : PaModbus σ) (data : Bytes) (p n : Nat) :
    paFramerRtuUnwrap ctx data = some (.ok p n) ↔
      ∃ addr fc body rest, data = rtuFrame addr (fc :: body) ++ rest ∧
        expectedLen fc data = some (.ok (body.length + 4)) ∧ accepts ctx addr = true ∧
        p = 1 ∧ n = body.length + 1 := by
  constructor
  · intro h
    unfold paFramerRtuUnwrap at h
    dsimp only at h
    split at h
    · simp at h
    next h4 =>
      obtain ⟨addr, ha⟩ := getElem?_some data 0 (by omega)
      obtain ⟨fc, hf⟩ := getElem?_some data 1 (by omega)
      obtain ⟨r, hr⟩ := expectedLen_defined fc data (by omega)
      simp only [ha, hf, hr, Option.bind_eq_bind, Option.bind_some, Option.pure_def] at h
      cases r with
      | error r => simp at h
      | ok L =>
        have hL := expectedLen_ge fc data L (by omega) hr
        dsimp only at h
        split at h
        · simp at h
        next hlen =>
          obtain ⟨lo, hlo⟩ := getElem?_some data (L - 2) (by omega)
          obtain ⟨hi, hhi⟩ := getElem?_some data (L - 1) (by omega)
          simp only [hlo, hhi, paCrc16_eq data (L - 2) (by omega), Option.bind_some] at h
          split at h
          · simp at h
          next hcrc =>
            split at h
            · simp at h
            next hacc =>
              obtain ⟨k, rfl⟩ : ∃ k, L = k + 4 := ⟨L - 4, by omega⟩
              have hd := frame_of_crc data (k + 1) addr lo hi (by omega) ha hlo hhi
                (by simpa using hcrc)
              have hpdu : (data.drop 1).take (k + 1) = fc :: (data.drop 2).take k := by
                rw [List.drop_eq_getElem_cons (by omega), List.take_succ_cons]
                rw [List.getElem?_eq_getElem (by omega), Option.some.injEq] at hf
                rw [hf]
              have hlk : ((data.drop 2).take k).length = k := by simp; omega
              refine ⟨addr, fc, (data.drop 2).take k, data.drop (k + 4), ?_, ?_, ?_, ?_⟩
              · rw [← hpdu]
                exact hd
              · rw [hlk]
                exact hr
              · simpa using hacc
              · simp only [Option.some.injEq, Unwrapped.ok.injEq] at h
                omega
  · rintro ⟨addr, fc, body, rest, hd, he, hacc, rfl, rfl⟩
    have hlen : data.length = body.length + 4 + rest.length := by
      rw [hd]
      simp
    obtain ⟨hlo, hhi⟩ := rtuFrame_crc addr (fc :: body) rest
    rw [← hd] at hlo hhi
    have htake := rtuFrame_take addr (fc :: body) rest
    rw [← hd] at htake
    have h0 : data[0]? = some addr := by rw [hd]; simp [rtuFrame]
    have h1 : data[1]? = some fc := by rw [hd]; simp [rtuFrame]
    simp only [List.length_cons] at hlo hhi htake
    have h4 : ¬ data.length < 4 := by omega
    have hwhole : ¬ data.length < body.length + 4 := by omega
    have hlast : body.length + 4 - 1 = body.length + 3 := by omega
    have hcrc : body.length + 4 - 2 = body.length + 2 := by omega
    simp only [paFramerRtuUnwrap, h0, h1, he, h4, hwhole, hlast, hcrc, Option.bind_eq_bind,
      Option.bind_some, Option.pure_def, if_false]
    simp [hlo, hhi, paCrc16_eq data (body.length + 2) (by omega), htake, hacc]

theorem expectedLen_error (fc : UInt8) (data : Bytes) (r : Int)
    (he : expectedLen fc data = some (.error r)) (h : 4 ≤ data.length) :
    r = paErrProtocol ∨ 0 < r := by
  unfold expectedLen at he
  split at he
  all_goals
    simp only [Option.bind_eq_bind, Option.pure_def, Option.some.injEq, reduceCtorEq] at he
  all_goals grind

/-- The values that `unwrap` returns in place of a PDU; `addr` is the address byte. -/
inductive Refused (ctx : PaModbus σ) (addr : Option UInt8) : Int → Prop
  | incomplete (r : Int) (h : 0 < r) : Refused ctx addr r
  | protocol : Refused ctx addr paErrProtocol
  | crc : Refused ctx addr paErrCrc
  | slave (a : UInt8) (h : addr = some a) (ha : accepts ctx a = false) :
      Refused ctx addr paErrInvalidSlave

theorem Refused.ne_zero {ctx : PaModbus σ} {addr : Option UInt8} {r : Int}
    (h : Refused ctx addr r) : r ≠ 0 := by
  cases h with
  | incomplete r h => omega
  | protocol => decide
  | crc => decide
  | slave a h ha => decide

theorem Refused.ne_timeout {ctx : PaModbus σ} {addr : Option UInt8} {r : Int}
    (h : Refused ctx addr r) : r ≠ paErrTimeout := by
  cases h with
  | incomplete r h => exact fun he => absurd (he ▸ h) (by decide)
  | protocol => decide
  | crc => decide
  | slave a h ha => decide

theorem unwrap_verdict (ctx : PaModbus σ) (data : Bytes) :
    (∃ p n, paFramerRtuUnwrap ctx data = some (.ok p n)) ∨
      ∃ r, paFramerRtuUnwrap ctx data = some (.ret r) ∧ Refused ctx data[0]? r := by
  unfold paFramerRtuUnwrap
  dsimp only
  split
  · exact .inr ⟨_, rfl, .incomplete _ (by omega)⟩
  next h4 =>
    obtain ⟨fc, hf⟩ := getElem?_some data 1 (by omega)
    obtain ⟨e, he⟩ := expectedLen_defined fc data (by omega)
    simp only [hf, he, Option.bind_eq_bind, Option.bind_some, Option.pure_def]
    cases e with
    | error r =>
      rcases expectedLen_error fc data r he (by omega) with rfl | hr
      · exact .inr ⟨_, rfl, .protocol⟩
      · exact .inr ⟨r, rfl, .incomplete r hr⟩
    | ok n =>
      dsimp only
      split
      · exact .inr ⟨_, rfl, .incomplete _ (by omega)⟩
      next hn =>
        have hg := expectedLen_ge fc data n (by omega) he
        obtain ⟨lo, hlo⟩ := getElem?_some data (n - 2) (by omega)
        obtain ⟨hi, hhi⟩ := getElem?_some data (n - 1) (by omega)
        obtain ⟨a, ha⟩ := getElem?_some data 0 (by omega)
        simp only [hlo, hhi, ha, paCrc16_eq data (n - 2) (by omega), Option.bind_some]
        split
        · exact .inr ⟨_, rfl, .crc⟩
        · split
          next hacc => exact .inr ⟨_, rfl, .slave a rfl (by simpa using hacc)⟩
          · exact .inl ⟨_, _, rfl⟩

theorem accepts_self (ctx : PaModbus σ) : accepts ctx ctx.slave = true := by
  simp [accepts]

theorem unwrap_frame (ctx : PaModbus σ) (addr fc : UInt8) (body : Bytes)
    (he : expectedLen fc (rtuFrame addr (fc :: body)) = some (.ok (body.length + 4)))
    (ha : accepts ctx addr = true) :
    paFramerRtuUnwrap ctx (rtuFrame addr (fc :: body)) = some (.ok 1 (body.length + 1)) :=
  (unwrap_ok_iff ctx _ _ _).mpr ⟨addr, fc, body, [], by simp, he, ha, rfl, rfl⟩

theorem wrap_error_iff (pduLen : Int) (w w' : World σ) (e : Int) :
    (paFramerRtuWrap pduLen).run w = some (.error e, w') ↔
      (e = paErrBufferFull ∧ w' = w) ∧ (-2 ^ 31 ≤ pduLen + 3 ∧ pduLen + 3 < 2 ^ 31) ∧
        w.ctx.txbuf.cells.length < sizeT (pduLen + 3) := by
  have hlen : 1 + pduLen + 2 = pduLen + 3 := by omega
  rw [paFramerRtuWrap, get_bind_run, hlen]
  constructor
  · intro h
    obtain ⟨need, hneed, h⟩ := (access_bind_iff _ _ _ _).mp h
    obtain ⟨hrange, rfl⟩ := intExpr_some hneed
    split at h
    · next hfull =>
      obtain ⟨he, rfl⟩ := (pure_run_iff _ _ _ _).mp h
      exact ⟨⟨Except.error.inj he, rfl⟩, hrange, hfull⟩
    · obtain ⟨_, _, -, h⟩ := bind_inv _ _ _ _ _ h
      obtain ⟨_, _, -, h⟩ := bind_inv _ _ _ _ _ h
      obtain ⟨_, _, -, h⟩ := bind_inv _ _ _ _ _ h
      rw [get_bind_run] at h
      obtain ⟨_, _, -, h⟩ := bind_inv _ _ _ _ _ h
      obtain ⟨_, _, -, h⟩ := bind_inv _ _ _ _ _ h
      obtain ⟨_, _, -, h⟩ := bind_inv _ _ _ _ _ h
      obtain ⟨he, -⟩ := (pure_run_iff _ _ _ _).mp h
      cases he
  · rintro ⟨⟨rfl, rfl⟩, hrange, hfull⟩
    rw [intExpr_eq _ hrange.1 hrange.2, access_some, pure_bind, if_pos hfull]
    rfl

theorem wrap_full (n : Nat) (w : World σ) (hi : n + 3 < 2 ^ 31)
    (h : w.ctx.txbuf.cells.length < n + 3) :
    (paFramerRtuWrap n).run w = some (.error paErrBufferFull, w) := by
  have hs : sizeT ((n : Int) + 3) = n + 3 := sizeT_natCast (n + 3) (by omega)
  exact (wrap_error_iff n w w _).mpr ⟨⟨rfl, rfl⟩, by omega, by omega⟩

theorem wrap_error (pduLen : Int) (w w' : World σ) (e : Int)
    (h : (paFramerRtuWrap pduLen).run w = some (.error e, w')) : e = paErrBufferFull ∧ w' = w :=
  ((wrap_error_iff pduLen w w' e).mp h).1

theorem wrap_ok_length {pduLen framed : Int} {w w' : World σ}
    (h : (paFramerRtuWrap pduLen).run w = some (.ok framed, w')) :
    (-2 ^ 31 ≤ pduLen + 3 ∧ pduLen + 3 < 2 ^ 31) ∧
      sizeT (pduLen + 3) ≤ w.ctx.txbuf.cells.length ∧
      1 + sizeT pduLen ≤ w.ctx.txbuf.cells.length ∧
      sizeT (1 + pduLen) + 2 ≤ w.ctx.txbuf.cells.length ∧ framed = sizeT (1 + pduLen) + 2 := by
  have hsum : 1 + pduLen + 2 = pduLen + 3 := by omega
  rw [paFramerRtuWrap, get_bind_run, hsum] at h
  obtain ⟨need, w₁, hneed, h⟩ := bind_inv _ _ _ _ _ h
  obtain ⟨hint, rfl⟩ := access_run_iff.mp hneed
  obtain ⟨hrange, rfl⟩ := intExpr_some hint
  split at h
  · cases ((pure_run_iff _ _ _ _).mp h).1
  next hfull =>
    obtain ⟨pdu, w₂, hpdu, h⟩ := bind_inv _ _ _ _ _ h
    obtain ⟨hblock, rfl⟩ := access_run_iff.mp hpdu
    have hlen := block_length hblock
    obtain ⟨_, w₃, hstore, h⟩ := bind_inv _ _ _ _ _ h
    obtain ⟨hpduFits, hsize₃⟩ := txStore_inside hstore
    obtain ⟨_, w₄, hslave, h⟩ := bind_inv _ _ _ _ _ h
    obtain ⟨-, hsize₄⟩ := txStore_inside hslave
    rw [get_bind_run] at h
    obtain ⟨_, w₅, hcrc, h⟩ := bind_inv _ _ _ _ _ h
    obtain ⟨-, rfl⟩ := access_run_iff.mp hcrc
    obtain ⟨_, w₆, hlo, h⟩ := bind_inv _ _ _ _ _ h
    obtain ⟨-, hsize₆⟩ := txStore_inside hlo
    obtain ⟨_, w₇, hhi, h⟩ := bind_inv _ _ _ _ _ h
    obtain ⟨hhiFits, -⟩ := txStore_inside hhi
    obtain ⟨hframed, -⟩ := (pure_run_iff _ _ _ _).mp h
    have hframed := Except.ok.inj hframed
    rw [List.length_singleton] at hhiFits
    exact ⟨hrange, by omega, by omega, by omega, hframed⟩

theorem wrap_ok (pduLen framed : Int) (w w' : World σ) (hlow : -2 ^ 31 ≤ pduLen)
    (h : (paFramerRtuWrap pduLen).run w = some (.ok framed, w'))
    (hf : 0 ≤ int32 (sizeT framed)) :
    0 ≤ pduLen ∧ pduLen + 3 < 2 ^ 31 ∧ pduLen + 3 ≤ w.ctx.txbuf.cells.length := by
  have hbound := w.ctx.txbuf.bounded
  obtain ⟨hrange, hroom, hpdu, hall, hframed⟩ := wrap_ok_length h
  simp only [sizeT, int32] at hroom hpdu hall hframed hf
  omega

theorem wrap_places (pduLen : Int) (n : Nat) (w : World σ) (hn : sizeT pduLen = n)
    (hi : -2 ^ 31 ≤ pduLen ∧ pduLen + 3 < 2 ^ 31) (h : n + 3 ≤ w.ctx.txbuf.cells.length) :
    (paFramerRtuWrap pduLen).run w = some (.ok ((n + 3 : Nat) : Int),
      w.withTx (w.ctx.txbuf.patch (rtuFrame w.ctx.slave (w.ctx.txbuf.cells.take n)))) := by
  have hbound := w.ctx.txbuf.bounded
  have hneed : intExpr (1 + pduLen + 2) = some (pduLen + 3) := by
    rw [intExpr_eq _ (by omega) (by omega)]
    congr 1
    omega
  have hs : sizeT (1 + pduLen) = n + 1 := by
    rw [Int.add_comm]
    exact sizeT_add 1 hn (by omega)
  have hall : sizeT (pduLen + 3) = n + 3 := sizeT_add 3 hn (by omega)
  generalize hb : w.ctx.txbuf = b at h
  have hp : (b.cells.take n).length = n := List.length_take_of_le (by omega)
  obtain ⟨c, hc, hd⟩ := Option.bind_eq_some_iff.mp
    (Buffer.shift_store b n [w.ctx.slave] (by simp; omega))
  rw [List.singleton_append] at hd
  have hl : (w.ctx.slave :: b.cells.take n).length = n + 1 := by simp [hp]
  have hcrc : paCrc16 (b.patch (w.ctx.slave :: b.cells.take n)).cells (n + 1) =
      some (crc16 (w.ctx.slave :: b.cells.take n)) := by
    rw [paCrc16_eq _ _ (by simp; omega), Buffer.patch_cells, ← hl,
      overlay_take_self _ _ (by rw [hl]; omega)]
  have hlo := Buffer.store_patch b (w.ctx.slave :: b.cells.take n)
    [loByte (crc16 (w.ctx.slave :: b.cells.take n))] (by omega)
  have hhi := Buffer.store_patch b (w.ctx.slave :: b.cells.take n ++
    [loByte (crc16 (w.ctx.slave :: b.cells.take n))])
    [hiByte (crc16 (w.ctx.slave :: b.cells.take n))] (by simp; omega)
  rw [hl, if_pos (by simp; omega)] at hlo
  rw [List.length_append, hl, if_pos (by simp; omega)] at hhi
  have hfits : ¬ b.cells.length < n + 3 := by omega
  simp only [paFramerRtuWrap, StateT.run_bind, StateT.run_get, access_run, hneed, Option.map_some,
    Option.pure_def, Option.bind_eq_bind, Option.bind_some, hall, hn, hb, if_neg hfits,
    block_front b.cells n (by omega)]
  rw [txStore_run 1 _ _ c (by rw [hb]; exact hc), Option.bind_some, txStore_run 0 _ _ _ hd]
  simp only [Option.bind_some, World.withTx_txbuf, World.withTx_withTx, hs, hcrc, Option.map_some]
  rw [txStore_run (n + 1) _ _ _ hlo, Option.bind_some, txStore_run (n + 1 + 1) _ _ _ hhi]
  simp only [Option.bind_some, StateT.run_pure, Option.pure_def, World.withTx_withTx,
    Option.some.injEq, Prod.mk.injEq, Except.ok.injEq]
  constructor
  · omega
  · rw [rtuFrame, crcBytes, List.append_assoc, List.singleton_append]

theorem wrap_fits (n : Nat) (w : World σ) (hi : n + 3 < 2 ^ 31)
    (h : n + 3 ≤ w.ctx.txbuf.cells.length) :
    (paFramerRtuWrap n).run w = some (.ok ((n + 3 : Nat) : Int),
      w.withTx (w.ctx.txbuf.patch (rtuFrame w.ctx.slave (w.ctx.txbuf.cells.take n)))) :=
  wrap_places n n w (sizeT_natCast n (by omega)) (by omega) h

end Pamodbus.FramerRtu
