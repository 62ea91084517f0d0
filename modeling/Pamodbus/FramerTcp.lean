import Pamodbus.FramerRtu

namespace Pamodbus.FramerTcp

open Pamodbus.Lib.Cells Pamodbus.Lib.CInt Pamodbus.Lib.Procedure Pamodbus.Lib.Words
open Pamodbus.Context Pamodbus.FramerRtu

variable {σ : Type}

def paFramerTcpWrap (pduLen : Int) : Proc (World σ) (Except Int Int) := do
  let ctx := (← get).ctx
  let framedLen ← access (intExpr (7 + pduLen))
  if ctx.txbuf.cells.length < sizeT framedLen then return .error paErrBufferFull
  let pdu ← access (block ctx.txbuf.cells 0 (sizeT pduLen))
  txStore 7 pdu
  let transId := (← get).nextTransactionId
  modify fun w => { w with nextTransactionId := w.nextTransactionId + 1 }
  let protoId : UInt16 := 0
  let length := UInt16.ofInt (pduLen + 1)
  txStore 0 [hiByte transId, loByte transId, hiByte protoId, loByte protoId,
    hiByte length, loByte length, ctx.slave]
  return .ok framedLen

def paFramerTcpUnwrap (ctx : PaModbus σ) (data : Bytes) : Option Unwrapped := do
  let len := data.length
  if len < 8 then return .ret (8 - len)
  let length := word (← data[4]?) (← data[5]?)
  let totalFrame := 7 + length.toNat
  if len < totalFrame then return .ret (totalFrame - len)
  let protoId := word (← data[2]?) (← data[3]?)
  if protoId ≠ 0 then return .ret paErrProtocol
  if ¬ accepts ctx (← data[6]?) then return .ret paErrInvalidSlave
  return .ok 7 (sizeT (length.toNat - 1))

/-- The MBAP header in front of a PDU of `n` bytes. -/
def mbapHeader (transId : UInt16) (n : Nat) (unit : UInt8) : Bytes :=
  [hiByte transId, loByte transId, 0, 0, hiByte (UInt16.ofNat (n + 1)),
    loByte (UInt16.ofNat (n + 1)), unit]

/-- The header of a frame that the receiver takes, and where it ends. -/
structure Acceptable (ctx : PaModbus σ) (data : Bytes) (length : UInt16) : Prop where
  header : 8 ≤ data.length
  length_eq : data[4]? = some (hiByte length) ∧ data[5]? = some (loByte length)
  total : 7 + length.toNat ≤ data.length
  proto : data[2]? = some 0 ∧ data[3]? = some 0
  unit : ∃ a, data[6]? = some a ∧ accepts ctx a = true

theorem unwrap_ok_iff (ctx : PaModbus σ) (data : Bytes) (p n : Nat) :
    paFramerTcpUnwrap ctx data = some (.ok p n) ↔
      ∃ length, Acceptable ctx data length ∧ p = 7 ∧ n = sizeT (length.toNat - 1) := by
  constructor
  · intro h
    unfold paFramerTcpUnwrap at h
    dsimp only at h
    split at h
    · simp at h
    next h8 =>
      obtain ⟨b2, h2⟩ := getElem?_some data 2 (by omega)
      obtain ⟨b3, h3⟩ := getElem?_some data 3 (by omega)
      obtain ⟨b4, h4⟩ := getElem?_some data 4 (by omega)
      obtain ⟨b5, h5⟩ := getElem?_some data 5 (by omega)
      obtain ⟨b6, h6⟩ := getElem?_some data 6 (by omega)
      simp only [h2, h3, h4, h5, h6, Option.bind_eq_bind, Option.bind_some, Option.pure_def] at h
      split at h
      · simp at h
      next hlen =>
        split at h
        · simp at h
        next hproto =>
          split at h
          · simp at h
          next hacc =>
            have hz : b2 = 0 ∧ b3 = 0 := by
              apply word_injective
              rw [Decidable.not_not.mp hproto]
              rfl
            simp only [Option.some.injEq, Unwrapped.ok.injEq] at h
            refine ⟨word b4 b5, ⟨by omega, by simp [h4, h5], by omega, ?_, ?_⟩, h.1.symm, h.2.symm⟩
            · rw [h2, h3, hz.1, hz.2]
              exact ⟨rfl, rfl⟩
            · exact ⟨b6, h6, by simpa using hacc⟩
  · rintro ⟨length, ⟨h8, ⟨h4, h5⟩, hl, ⟨h2, h3⟩, a, h6, ha⟩, rfl, rfl⟩
    have hw : word 0 0 = 0 := by decide
    have hheader : ¬ data.length < 8 := by omega
    have hwhole : ¬ data.length < 7 + length.toNat := by omega
    simp only [paFramerTcpUnwrap, h2, h3, h4, h5, h6, ha, hw, word_bytes, Option.bind_eq_bind,
      Option.bind_some, Option.pure_def, if_neg hheader, if_neg hwhole, ne_eq, not_true_eq_false,
      if_false]

theorem unwrap_verdict (ctx : PaModbus σ) (data : Bytes) :
    (∃ p n, paFramerTcpUnwrap ctx data = some (.ok p n)) ∨
      ∃ r, paFramerTcpUnwrap ctx data = some (.ret r) ∧ Refused ctx data[6]? r := by
  unfold paFramerTcpUnwrap
  dsimp only
  split
  · exact .inr ⟨_, rfl, .incomplete _ (by omega)⟩
  next h8 =>
    obtain ⟨b2, h2⟩ := getElem?_some data 2 (by omega)
    obtain ⟨b3, h3⟩ := getElem?_some data 3 (by omega)
    obtain ⟨b4, h4⟩ := getElem?_some data 4 (by omega)
    obtain ⟨b5, h5⟩ := getElem?_some data 5 (by omega)
    obtain ⟨b6, h6⟩ := getElem?_some data 6 (by omega)
    simp only [h2, h3, h4, h5, h6, Option.bind_eq_bind, Option.bind_some, Option.pure_def]
    split
    · exact .inr ⟨_, rfl, .incomplete _ (by omega)⟩
    · split
      · exact .inr ⟨_, rfl, .protocol⟩
      · split
        next hacc => exact .inr ⟨_, rfl, .slave b6 rfl (by simpa using hacc)⟩
        · exact .inl ⟨_, _, rfl⟩

theorem wrap_error_iff (pduLen : Int) (w w' : World σ) (e : Int) :
    (paFramerTcpWrap pduLen).run w = some (.error e, w') ↔
      (e = paErrBufferFull ∧ w' = w) ∧ (-2 ^ 31 ≤ pduLen + 7 ∧ pduLen + 7 < 2 ^ 31) ∧
        w.ctx.txbuf.cells.length < sizeT (pduLen + 7) := by
  rw [paFramerTcpWrap, get_bind_run, Int.add_comm 7 pduLen]
  constructor
  · intro h
    obtain ⟨need, hneed, h⟩ := (access_bind_iff _ _ _ _).mp h
    obtain ⟨hrange, rfl⟩ := intExpr_some hneed
    split at h
    · next hfull =>
      obtain ⟨he, rfl⟩ := (pure_run_iff _ _ _ _).mp h
      exact ⟨⟨Except.error.inj he, rfl⟩, hrange, hfull⟩
    · obtain ⟨_, _, -, h⟩ := bind_inv _ _ _ _ _ h
      obtain ⟨_, _, -, h⟩ := bind_inv _ _ _ _ _ h
      rw [get_bind_run] at h
      obtain ⟨_, _, -, h⟩ := bind_inv _ _ _ _ _ h
      obtain ⟨_, _, -, h⟩ := bind_inv _ _ _ _ _ h
      obtain ⟨he, -⟩ := (pure_run_iff _ _ _ _).mp h
      cases he
  · rintro ⟨⟨rfl, rfl⟩, hrange, hfull⟩
    rw [intExpr_eq _ hrange.1 hrange.2, access_some, pure_bind, if_pos hfull]
    rfl

theorem wrap_error (pduLen : Int) (w w' : World σ) (e : Int)
    (h : (paFramerTcpWrap pduLen).run w = some (.error e, w')) : e = paErrBufferFull ∧ w' = w :=
  ((wrap_error_iff pduLen w w' e).mp h).1

theorem wrap_ok_length {pduLen framed : Int} {w w' : World σ}
    (h : (paFramerTcpWrap pduLen).run w = some (.ok framed, w')) :
    (-2 ^ 31 ≤ pduLen + 7 ∧ pduLen + 7 < 2 ^ 31) ∧
      sizeT (pduLen + 7) ≤ w.ctx.txbuf.cells.length ∧
      7 + sizeT pduLen ≤ w.ctx.txbuf.cells.length ∧ framed = pduLen + 7 := by
  rw [paFramerTcpWrap, get_bind_run, Int.add_comm 7 pduLen] at h
  obtain ⟨need, hint, h⟩ := (access_bind_iff _ _ _ _).mp h
  obtain ⟨hrange, rfl⟩ := intExpr_some hint
  split at h
  · cases ((pure_run_iff _ _ _ _).mp h).1
  next hfull =>
    obtain ⟨pdu, hblock, h⟩ := (access_bind_iff _ _ _ _).mp h
    have hlen := block_length hblock
    obtain ⟨_, w₁, hstore, h⟩ := bind_inv _ _ _ _ _ h
    obtain ⟨hpduFits, -⟩ := txStore_inside hstore
    rw [get_bind_run, modify_bind_run] at h
    obtain ⟨_, w₂, -, h⟩ := bind_inv _ _ _ _ _ h
    obtain ⟨hframed, -⟩ := (pure_run_iff _ _ _ _).mp h
    have hframed := Except.ok.inj hframed
    exact ⟨hrange, by omega, by omega, hframed⟩

theorem wrap_ok (pduLen framed : Int) (w w' : World σ) (hlow : -2 ^ 31 ≤ pduLen)
    (h : (paFramerTcpWrap pduLen).run w = some (.ok framed, w'))
    (hf : 0 ≤ int32 (sizeT framed)) :
    0 ≤ pduLen ∧ pduLen + 7 < 2 ^ 31 ∧ pduLen + 7 ≤ w.ctx.txbuf.cells.length := by
  have hbound := w.ctx.txbuf.bounded
  obtain ⟨hrange, hroom, hpdu, hframed⟩ := wrap_ok_length h
  simp only [sizeT, int32] at hroom hpdu hframed hf
  omega

theorem wrap_places (pduLen : Int) (n : Nat) (w : World σ) (hn : sizeT pduLen = n)
    (hi : -2 ^ 31 ≤ pduLen ∧ pduLen + 7 < 2 ^ 31) (h : n + 7 ≤ w.ctx.txbuf.cells.length) :
    (paFramerTcpWrap pduLen).run w = some (.ok (7 + pduLen),
      { w.withTx (w.ctx.txbuf.patch (mbapHeader w.nextTransactionId n w.ctx.slave ++
          w.ctx.txbuf.cells.take n)) with nextTransactionId := w.nextTransactionId + 1 }) := by
  have hbound := w.ctx.txbuf.bounded
  have hneed : intExpr (7 + pduLen) = some (7 + pduLen) := intExpr_eq _ (by omega) (by omega)
  have hlen : UInt16.ofInt (pduLen + 1) = UInt16.ofNat (n + 1) := by
    apply UInt16.toNat_inj.mp
    rw [UInt16.ofInt, UInt16.toNat_ofNat', UInt16.toNat_ofNat']
    rw [sizeT] at hn
    omega
  have hs : sizeT (7 + pduLen) = n + 7 := by
    rw [Int.add_comm]
    exact sizeT_add 7 hn (by omega)
  generalize hb : w.ctx.txbuf = b at h
  obtain ⟨c, hc, hd⟩ := Option.bind_eq_some_iff.mp
    (Buffer.shift_store b n (mbapHeader w.nextTransactionId n w.ctx.slave)
      (by simpa [mbapHeader] using h))
  have hfits : ¬ b.cells.length < n + 7 := by omega
  have hz : hiByte 0 = 0 ∧ loByte 0 = 0 := by decide
  simp only [paFramerTcpWrap, StateT.run_bind, StateT.run_get, access_run, hneed, Option.map_some,
    Option.pure_def, Option.bind_eq_bind, Option.bind_some, hs, hn, hb, if_neg hfits,
    block_front b.cells n (by omega)]
  rw [txStore_run 7 _ _ c (by rw [hb]; exact hc)]
  simp only [Option.bind_some, StateT.run_modify, Option.pure_def, hlen, hz.1, hz.2]
  rw [txStore_run 0 _ _ _ hd]
  rfl

theorem wrap_fits (n : Nat) (w : World σ) (hi : n + 7 < 2 ^ 31)
    (h : n + 7 ≤ w.ctx.txbuf.cells.length) :
    (paFramerTcpWrap n).run w = some (.ok ((n + 7 : Nat) : Int),
      { w.withTx (w.ctx.txbuf.patch (mbapHeader w.nextTransactionId n w.ctx.slave ++
          w.ctx.txbuf.cells.take n)) with nextTransactionId := w.nextTransactionId + 1 }) := by
  have hcast : ((n + 7 : Nat) : Int) = 7 + n := by omega
  rw [hcast]
  exact wrap_places n n w (sizeT_natCast n (by omega)) (by omega) h

theorem wrap_full (n : Nat) (w : World σ) (hi : n + 7 < 2 ^ 31)
    (h : w.ctx.txbuf.cells.length < n + 7) :
    (paFramerTcpWrap n).run w = some (.error paErrBufferFull, w) := by
  have hs : sizeT ((n : Int) + 7) = n + 7 := sizeT_natCast (n + 7) (by omega)
  exact (wrap_error_iff n w w _).mpr ⟨⟨rfl, rfl⟩, by omega, by omega⟩

end Pamodbus.FramerTcp
