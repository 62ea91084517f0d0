import Pamodbus.RespondRun

namespace Pamodbus.FileRecords

open Pamodbus.Lib.Cells Pamodbus.Lib.Procedure Pamodbus.Lib.Words
open Pamodbus.Context Pamodbus.Framer Pamodbus.Builders Pamodbus.Respond Pamodbus.RespondRun

variable {σ α : Type}

/-- The record length of the sub-request whose header starts at register `i`. -/
def recordLen (regs : List UInt16) (i : Nat) : UInt16 :=
  if 64 < (regs[i + 3]?.getD 0).toNat then 64 else regs[i + 3]?.getD 0

theorem recordLen_le (regs : List UInt16) (i : Nat) : (recordLen regs i).toNat ≤ 64 := by
  rw [recordLen]
  split
  · decide
  · omega

def recordBytes (refType : UInt8) (len : UInt16) (values : List UInt16) : Bytes :=
  [UInt8.ofNat (len.toNat * 2 + 1)] ++ [refType] ++ registerBytes values

/-- What the rounds of Read File Record come to: the bytes stored, whether a
callback has refused, and the world left behind. -/
structure Served (σ : Type) where
  bytes : Bytes
  refused : Bool
  world : World σ

def readRecords (cb : ReadRegistersFn σ) (regs : List UInt16) (limit size : Nat) :
    (rounds reqOffset offset : Nat) → World σ → Served σ
  | 0, _, _, w => ⟨[], false, w⟩
  | rounds + 1, reqOffset, offset, w =>
    if limit < reqOffset + 7 then ⟨[], false, w⟩
    else
      let recNum := regs[reqOffset / 2 + 2]?.getD 0
      let len := recordLen regs (reqOffset / 2)
      let r := cb recNum len w.app
      let w' := w.called (.readHoldingRegisters recNum len) r.1 r.2.2
      if r.1 ≠ 0 then ⟨[], true, w'⟩
      else if size < offset + 2 + len.toNat * 2 then ⟨[], false, w'⟩
      else
        let rest := readRecords cb regs limit size rounds (reqOffset + 7)
          (offset + 2 + len.toNat * 2) w'
        ⟨recordBytes (hiByte (regs[reqOffset / 2]?.getD 0)) len r.2.1.toList ++ rest.bytes,
          rest.refused, rest.world⟩

def servedBytes (regs : List UInt16) (limit size : Nat) : (rounds reqOffset offset : Nat) → Nat
  | 0, _, _ => 0
  | rounds + 1, reqOffset, offset =>
    if limit < reqOffset + 7 then 0
    else
      let len := (recordLen regs (reqOffset / 2)).toNat
      if size < offset + 2 + len * 2 then 0
      else 2 + len * 2 + servedBytes regs limit size rounds (reqOffset + 7) (offset + 2 + len * 2)

theorem recordBytes_length (refType : UInt8) (len : UInt16) (values : List UInt16)
    (h : values.length = len.toNat) :
    (recordBytes refType len values).length = 2 + len.toNat * 2 := by
  simp only [recordBytes, List.length_append, List.length_singleton, registerBytes_length, h]
  omega

theorem readRecords_length (cb : ReadRegistersFn σ) (regs : List UInt16) (limit size : Nat)
    (rounds reqOffset offset : Nat) (w : World σ)
    (h : (readRecords cb regs limit size rounds reqOffset offset w).refused = false) :
    (readRecords cb regs limit size rounds reqOffset offset w).bytes.length =
      servedBytes regs limit size rounds reqOffset offset := by
  induction rounds generalizing reqOffset offset w with
  | zero => rfl
  | succ rounds ih =>
    rw [readRecords] at h ⊢
    rw [servedBytes]
    by_cases hl : limit < reqOffset + 7
    · rw [if_pos hl, if_pos hl]
      rfl
    · rw [if_neg hl] at h ⊢
      rw [if_neg hl]
      dsimp only at h ⊢
      split at h
      · cases h
      next hr =>
        rw [if_neg hr]
        split at h
        next hs =>
          rw [if_pos hs, if_pos hs]
          rfl
        next hs =>
          rw [if_neg hs, if_neg hs]
          dsimp only at h ⊢
          rw [List.length_append, recordBytes_length _ _ _ (by simp), ih _ _ _ h]

theorem emit_bind_run (pre : Bytes) (p : Proc (World σ) α) (w : World σ) (b : Buffer UInt8)
    (h : pre.length ≤ b.cells.length) :
    (emit pre >>= fun _ => p).run (w.withTx b) = p.run (w.withTx (b.patch pre)) := by
  rw [bind_defined _ _ _ _ _ (emit_run pre (w.withTx b) (by rwa [World.withTx_txbuf]))]
  rfl

theorem record_run (pre : Bytes) (refType : UInt8) (len : UInt16) (values : List UInt16)
    (w : World σ) (b : Buffer UInt8) (h : len.toNat ≤ values.length)
    (hb : pre.length + 2 + len.toNat * 2 ≤ b.cells.length) (k : Unit → Proc (World σ) α) :
    (do
      txStore pre.length [UInt8.ofNat (len.toNat * 2 + 1)]
      txStore (pre.length + 1) [refType]
      putRegisters (pre.length + 2) values len.toNat
      k ()).run (w.withTx (b.patch pre)) =
      (k ()).run (w.withTx (b.patch (pre ++ recordBytes refType len (values.take len.toNat)))) := by
  have hl := recordBytes_length refType len (values.take len.toNat) (by simpa using h)
  rw [← emit_bind_run pre _ w b (by omega), emit_txStore_bind _ _ _ rfl,
    emit_txStore_bind _ _ _ (by simp), emit_putRegisters_bind _ _ _ _ (by simp) h]
  simp only [recordBytes, List.append_assoc] at hl ⊢
  exact emit_bind_run _ _ w b (by rw [List.length_append, hl]; omega)

theorem getElem?_getD (regs : List UInt16) (i : Nat) (h : i < regs.length) :
    regs[i]? = some (regs[i]?.getD 0) := by
  rw [List.getElem?_eq_getElem h, Option.getD_some]

theorem readFileRecords_end (residue : Residue) (cb : ReadRegistersFn σ)
    (rounds reqOffset offset : Nat) (resp : UInt8) (w : World σ)
    (hl : w.ctx.request.slaveRegCount.toNat * 2 < reqOffset + 7) :
    (readFileRecords residue cb (rounds + 1) reqOffset offset resp).run w = some (.ok resp, w) := by
  rw [readFileRecords, get_bind_run]
  dsimp only
  rw [if_pos hl, ite_self]
  rfl

theorem readFileRecords_step (residue : Residue) (cb : ReadRegistersFn σ)
    (rounds reqOffset offset : Nat) (resp : UInt8) (w : World σ)
    (hc : w.ctx.request.slaveRegCount.toNat ≤ 128)
    (hl : ¬ w.ctx.request.slaveRegCount.toNat * 2 < reqOffset + 7) :
    (readFileRecords residue cb (rounds + 1) reqOffset offset resp).run w =
      let regs := w.ctx.request.slaveRegData.toList
      let recNum := regs[reqOffset / 2 + 2]?.getD 0
      let len := recordLen regs (reqOffset / 2)
      let r := cb recNum len w.app
      let w' := w.called (.readHoldingRegisters recNum len) r.1 r.2.2
      if r.1 ≠ 0 then some (.error paErrCallback, w')
      else if w.ctx.txbuf.cells.length < offset + 2 + len.toNat * 2 then some (.ok resp, w')
      else (do
        txStore offset [UInt8.ofNat (len.toNat * 2 + 1)]
        txStore (offset + 1) [hiByte (regs[reqOffset / 2]?.getD 0)]
        putRegisters (offset + 2)
          (patch (uninit 64 (residue reqOffset)) r.2.1.toList).toList len.toNat
        readFileRecords residue cb rounds (reqOffset + 7) (offset + 2 + len.toNat * 2)
          (resp + UInt8.ofNat (1 + (len.toNat * 2 + 1)))).run w' := by
  have hlen : w.ctx.request.slaveRegData.toList.length = 128 := List.Vector.toList_length _
  have hcell (i : Nat) (hi : i < 128) := getElem?_getD w.ctx.request.slaveRegData.toList i
    (by omega)
  have hmore : ¬ w.ctx.request.slaveRegCount.toNat * 2 ≤ reqOffset := by omega
  rw [readFileRecords, get_bind_run]
  dsimp only
  rw [if_neg hmore, if_neg hl, hcell (reqOffset / 2) (by omega),
    hcell (reqOffset / 2 + 1) (by omega), hcell (reqOffset / 2 + 2) (by omega),
    hcell (reqOffset / 2 + 3) (by omega)]
  simp only [access_some, pure_bind, Option.getD_some]
  rw [← recordLen.eq_1 w.ctx.request.slaveRegData.toList (reqOffset / 2)]
  have hle := recordLen_le w.ctx.request.slaveRegData.toList (reqOffset / 2)
  generalize recordLen w.ctx.request.slaveRegData.toList (reqOffset / 2) = len at hle ⊢
  have hsub : (UInt8.ofNat (len.toNat * 2 + 1)).toNat = len.toNat * 2 + 1 := by
    rw [UInt8.toNat_ofNat']
    omega
  have hoff : offset + 1 + (len.toNat * 2 + 1) = offset + 2 + len.toNat * 2 := by omega
  have hroom : ¬ 64 < len.toNat := by omega
  rw [readRegisters_bind_run, if_neg hroom, hsub, hoff]
  dsimp only
  split
  · rfl
  · split
    · rfl
    · rfl

theorem readFileRecords_run (residue : Residue) (cb : ReadRegistersFn σ)
    (rounds reqOffset offset : Nat) (pre : Bytes) (resp : UInt8) (w : World σ) (b : Buffer UInt8)
    (served : Served σ) (hb : pre.length ≤ b.cells.length)
    (ho : offset = pre.length ∨ b.cells.length < offset)
    (hc : w.ctx.request.slaveRegCount.toNat ≤ 128)
    (hf : w.ctx.request.slaveRegCount.toNat * 2 < reqOffset + rounds) (hr : 0 < rounds)
    (hs : readRecords cb w.ctx.request.slaveRegData.toList
      (w.ctx.request.slaveRegCount.toNat * 2) b.cells.length rounds reqOffset offset w = served) :
    pre.length + served.bytes.length ≤ b.cells.length ∧
      (readFileRecords residue cb rounds reqOffset offset resp).run (w.withTx (b.patch pre)) =
        some (if served.refused then .error paErrCallback
            else .ok (resp + UInt8.ofNat served.bytes.length),
          served.world.withTx (b.patch (pre ++ served.bytes))) := by
  induction rounds generalizing reqOffset offset pre resp w served with
  | zero => omega
  | succ rounds ih =>
    have hnone : resp + UInt8.ofNat 0 = resp := UInt8.add_zero resp
    have hreq : (w.withTx (b.patch pre)).ctx.request = w.ctx.request := rfl
    rw [readRecords] at hs
    by_cases hl : w.ctx.request.slaveRegCount.toNat * 2 < reqOffset + 7
    · rw [if_pos hl] at hs
      subst hs
      refine ⟨by simpa using hb, ?_⟩
      rw [readFileRecords_end _ _ _ _ _ _ (w.withTx (b.patch pre)) hl, if_neg Bool.false_ne_true,
        List.length_nil, hnone, List.append_nil]
    have happ : (w.withTx (b.patch pre)).app = w.app := rfl
    have hsize : (w.withTx (b.patch pre)).ctx.txbuf.cells.length = b.cells.length := by
      rw [World.withTx_txbuf, Buffer.patch_cells, overlay_length]
    rw [if_neg hl] at hs
    rw [readFileRecords_step _ _ _ _ _ _ (w.withTx (b.patch pre)) hc hl, hreq, happ, hsize]
    dsimp only at hs ⊢
    have hle := recordLen_le w.ctx.request.slaveRegData.toList (reqOffset / 2)
    generalize recordLen w.ctx.request.slaveRegData.toList (reqOffset / 2) = len at hs hle ⊢
    generalize w.ctx.request.slaveRegData.toList[reqOffset / 2 + 2]?.getD 0 = recNum at hs ⊢
    generalize hiByte (w.ctx.request.slaveRegData.toList[reqOffset / 2]?.getD 0) = refType at hs ⊢
    generalize cb recNum len w.app = r at hs ⊢
    by_cases hret : r.1 ≠ 0
    · rw [if_pos hret] at hs ⊢
      subst hs
      refine ⟨by simpa using hb, ?_⟩
      rw [if_pos rfl, List.append_nil]
      rfl
    rw [if_neg hret] at hs ⊢
    by_cases hcap : b.cells.length < offset + 2 + len.toNat * 2
    · rw [if_pos hcap] at hs ⊢
      subst hs
      refine ⟨by simpa using hb, ?_⟩
      rw [if_neg Bool.false_ne_true, List.length_nil, hnone, List.append_nil]
      rfl
    -- the record fits, so it goes where the bytes stored so far end
    obtain rfl : offset = pre.length := by omega
    rw [if_neg hcap] at hs ⊢
    have hrec := recordBytes_length refType len r.2.1.toList (by simp)
    have hpre : (pre ++ recordBytes refType len r.2.1.toList).length =
        pre.length + 2 + len.toNat * 2 := by
      rw [List.length_append, hrec]
      omega
    obtain ⟨hfits, hrest⟩ := ih (reqOffset + 7) _ (pre ++ recordBytes refType len r.2.1.toList)
      (resp + UInt8.ofNat (1 + (len.toNat * 2 + 1)))
      (w.called (.readHoldingRegisters recNum len) r.1 r.2.2) _ (by omega)
      (.inl rfl) hc (by rw [World.called_ctx]; omega) (by omega) rfl
    rw [hpre, World.called_ctx] at hfits hrest
    generalize readRecords cb w.ctx.request.slaveRegData.toList
      (w.ctx.request.slaveRegCount.toNat * 2) b.cells.length rounds (reqOffset + 7)
      (pre.length + 2 + len.toNat * 2)
      (w.called (.readHoldingRegisters recNum len) r.1 r.2.2) = rest at hs hfits hrest
    subst hs
    have hbytes : (recordBytes refType len r.2.1.toList ++ rest.bytes).length =
        2 + len.toNat * 2 + rest.bytes.length := by
      rw [List.length_append, hrec]
    have hsum : resp + UInt8.ofNat (1 + (len.toNat * 2 + 1)) + UInt8.ofNat rest.bytes.length =
        resp + UInt8.ofNat (2 + len.toNat * 2 + rest.bytes.length) := by
      rw [UInt8.add_assoc, ← UInt8.ofNat_add]
      congr 2
      omega
    refine ⟨by rw [hbytes]; omega, ?_⟩
    refine (record_run pre refType len _ (w.called (.readHoldingRegisters recNum len) r.1 r.2.2) b
      (by simp; omega) (by omega) fun _ => readFileRecords residue cb rounds _ _ _).trans ?_
    rw [patch_take _ _ _ (by simp) (by omega), hrest, hbytes, List.append_assoc, hsum]

theorem readRecords_ctx (cb : ReadRegistersFn σ) (regs : List UInt16) (limit size : Nat)
    (rounds reqOffset offset : Nat) (w : World σ) :
    (readRecords cb regs limit size rounds reqOffset offset w).world.ctx = w.ctx := by
  induction rounds generalizing reqOffset offset w with
  | zero => rfl
  | succ rounds ih =>
    rw [readRecords]
    dsimp only
    split
    · rfl
    · split
      · rfl
      · split
        · rfl
        · exact ih _ _ _

theorem respondReadFileRecord_run (residue : Residue) (fc : UInt8) (w : World σ)
    (hc : w.ctx.request.slaveRegCount.toNat ≤ 128) :
    ∃ left, (respondReadFileRecord residue fc >>= conclude).run w =
      withCallback w.ctx.callbacks.readHoldingRegistersCb w fun cb =>
        let served := readRecords cb w.ctx.request.slaveRegData.toList
          (w.ctx.request.slaveRegCount.toNat * 2) w.ctx.txbuf.cells.length
          (w.ctx.request.slaveRegCount.toNat * 2 + 1) 0 2 w
        if w.ctx.txbuf.cells.length = 0 then none
        else if served.refused then some (paErrCallback, served.world.withTx left)
        else (reply ([fc] ++ [UInt8.ofNat served.bytes.length] ++ served.bytes)
          (2 + (UInt8.ofNat served.bytes.length).toNat)).run served.world := by
  rw [respondReadFileRecord, bind_assoc, get_bind_run]
  dsimp only
  cases w.ctx.callbacks.readHoldingRegistersCb with
  | none => exact ⟨w.ctx.txbuf, rfl⟩
  | some cb =>
    dsimp only [withCallback]
    generalize hs : readRecords cb w.ctx.request.slaveRegData.toList
      (w.ctx.request.slaveRegCount.toNat * 2) w.ctx.txbuf.cells.length
      (w.ctx.request.slaveRegCount.toNat * 2 + 1) 0 2 w = served
    have hctx : served.world.ctx = w.ctx := hs ▸ readRecords_ctx cb _ _ _ _ _ _ w
    have hrun (pre : Bytes) := readFileRecords_run residue cb
      (w.ctx.request.slaveRegCount.toNat * 2 + 1) 0 2 pre 0 w w.ctx.txbuf served
    rw [bind_assoc, txStore_front]
    by_cases h0 : w.ctx.txbuf.cells.length = 0
    · have hover : w.ctx.txbuf.cells.length < [fc].length := by simp [h0]
      rw [bind_undefined _ _ _ (emit_overrun [fc] w hover)]
      exact ⟨w.ctx.txbuf, (if_pos h0).symm⟩
    have h1 : [fc].length ≤ w.ctx.txbuf.cells.length := Nat.pos_of_ne_zero h0
    rw [bind_defined _ _ _ _ _ (emit_run [fc] w h1), bind_assoc]
    by_cases h2 : 2 ≤ w.ctx.txbuf.cells.length
    · obtain ⟨x, hx⟩ := getElem?_some w.ctx.txbuf.cells 1 h2
      obtain ⟨hfits, hrun⟩ := hrun ([fc] ++ [x]) h2 (.inl rfl) hc (by omega) (by omega) hs
      rw [Buffer.patch_next _ [fc] x hx] at hrun
      refine ⟨w.ctx.txbuf.patch ([fc] ++ [x] ++ served.bytes), ?_⟩
      rw [bind_defined _ _ _ _ _ hrun, if_neg h0]
      by_cases hr : served.refused = true
      · rw [if_pos hr, if_pos hr]
        rfl
      · have hlen (y : UInt8) : ([fc] ++ [y] ++ served.bytes).length = 2 + served.bytes.length := by
          simp
          omega
        have hstore : (w.ctx.txbuf.patch ([fc] ++ [x] ++ served.bytes)).store 1
            [UInt8.ofNat served.bytes.length] = some (w.ctx.txbuf.patch
              ([fc] ++ [UInt8.ofNat served.bytes.length] ++ served.bytes)) :=
          Buffer.store_patch_inside _ _ _ _ (by rw [hlen]; exact hfits) (by simp)
        rw [if_neg hr, if_neg hr, UInt8.zero_add, reply,
          bind_defined _ _ _ _ _ (emit_run _ _ (by
            rw [hctx, hlen]
            exact hfits)), hctx]
        dsimp only
        rw [bind_assoc, bind_defined _ _ _ _ _ (txStore_run _ _ _ _ hstore)]
        rfl
    · obtain ⟨-, hrun⟩ := hrun [fc] h1 (.inr (by omega)) hc (by omega) (by omega) hs
      refine ⟨w.ctx.txbuf.patch ([fc] ++ served.bytes), ?_⟩
      rw [bind_defined _ _ _ _ _ hrun, if_neg h0]
      by_cases hr : served.refused = true
      · rw [if_pos hr, if_pos hr]
        rfl
      · rw [if_neg hr, if_neg hr, reply, bind_undefined _ _ _ (emit_overrun _ _ (by
          rw [hctx]
          simp
          omega))]
        dsimp only
        rw [bind_assoc, txStore, update_bind_run, World.withTx_txbuf, Buffer.store_none _ _ _ (by
          rw [Buffer.patch_cells, overlay_length]
          simp
          omega)]
        rfl

theorem readRecords_fits (cb : ReadRegistersFn σ) (regs : List UInt16)
    (limit size rounds reqOffset offset : Nat) (w : World σ) (h : offset ≤ size) :
    offset + (readRecords cb regs limit size rounds reqOffset offset w).bytes.length ≤ size := by
  induction rounds generalizing reqOffset offset w with
  | zero => exact h
  | succ rounds ih =>
    rw [readRecords]
    dsimp only
    split
    · exact h
    · split
      · exact h
      · split
        · exact h
        · next hs =>
          rw [List.length_append, recordBytes_length _ _ _ (by simp)]
          rw [← Nat.add_assoc, ← Nat.add_assoc]
          exact ih _ _ _ (by omega)

/-- The registers handed over for the sub-request at `offset`: what the request
has of them, over the local array of that round. -/
def recordValues (residue : Residue) (regs : List UInt16) (regCount offset : Nat) : List UInt16 :=
  let start := offset / 2 + 4
  let len := (recordLen regs (offset / 2)).toNat
  (overlay (uninit 64 (residue offset)).toList
    ((regs.drop start).take (min len (regCount - start)))).take len

/-- The rounds of Write File Record: whether a callback has refused, and the
world left behind. -/
def writeRecords (residue : Residue) (cb : WriteMultipleRegistersFn σ) (regs : List UInt16)
    (regCount : Nat) : (rounds offset : Nat) → World σ → Bool × World σ
  | 0, _, w => (false, w)
  | rounds + 1, offset, w =>
    if regCount * 2 < offset + 7 then (false, w)
    else
      let recNum := regs[offset / 2 + 2]?.getD 0
      let len := recordLen regs (offset / 2)
      let values := recordValues residue regs regCount offset
      let r := cb recNum len values w.app
      let w' := w.called (.writeMultipleRegisters recNum len values) r.1 r.2
      if r.1 ≠ 0 then (true, w')
      else writeRecords residue cb regs regCount rounds (offset + 7 + len.toNat * 2) w'

theorem writeRecords_ctx (residue : Residue) (cb : WriteMultipleRegistersFn σ)
    (regs : List UInt16) (regCount rounds offset : Nat) (w : World σ) :
    (writeRecords residue cb regs regCount rounds offset w).2.ctx = w.ctx := by
  induction rounds generalizing offset w with
  | zero => rfl
  | succ rounds ih =>
    rw [writeRecords]
    dsimp only
    split
    · rfl
    · split
      · rfl
      · exact ih _ _

theorem writeFileRecords_run (residue : Residue) (cb : WriteMultipleRegistersFn σ)
    (rounds offset : Nat) (w : World σ) (hc : w.ctx.request.slaveRegCount.toNat ≤ 128)
    (hf : w.ctx.request.slaveRegCount.toNat * 2 < offset + rounds) (hr : 0 < rounds) :
    let r := writeRecords residue cb w.ctx.request.slaveRegData.toList
      w.ctx.request.slaveRegCount.toNat rounds offset w
    (writeFileRecords residue cb rounds offset).run w =
      some (if r.1 then .error paErrCallback else .ok (), r.2) := by
  induction rounds generalizing offset w with
  | zero => omega
  | succ rounds ih =>
    have hlen : w.ctx.request.slaveRegData.toList.length = 128 := List.Vector.toList_length _
    dsimp only
    rw [writeRecords, writeFileRecords, get_bind_run]
    dsimp only
    by_cases hl : w.ctx.request.slaveRegCount.toNat * 2 < offset + 7
    · rw [if_pos hl, if_pos hl, ite_self]
      rfl
    · have hcell (i : Nat) (hi : i < 128) := getElem?_getD w.ctx.request.slaveRegData.toList i
        (by omega)
      have hmore : ¬ w.ctx.request.slaveRegCount.toNat * 2 ≤ offset := by omega
      rw [if_neg hl, if_neg hl, if_neg hmore,
        hcell (offset / 2) (by omega), hcell (offset / 2 + 1) (by omega),
        hcell (offset / 2 + 2) (by omega), hcell (offset / 2 + 3) (by omega)]
      simp only [access_some, pure_bind, Option.getD_some]
      rw [← recordLen.eq_1 w.ctx.request.slaveRegData.toList (offset / 2), recordValues]
      have hle := recordLen_le w.ctx.request.slaveRegData.toList (offset / 2)
      generalize recordLen w.ctx.request.slaveRegData.toList (offset / 2) = len at hle ⊢
      generalize w.ctx.request.slaveRegData.toList[offset / 2 + 2]?.getD 0 = recNum
      rw [block_eq _ _ _ (by omega), access_some, pure_bind, put_front _ _ (by simp; omega),
        access_some, pure_bind, writeRegisters_bind_run, patch_toList]
      generalize (overlay (uninit 64 (residue offset)).toList _).take len.toNat = values
      dsimp only
      generalize cb recNum len values w.app = r
      by_cases hret : r.1 ≠ 0
      · rw [if_pos hret, if_pos hret]
        rfl
      · rw [if_neg hret, if_neg hret]
        exact ih _ (w.called _ _ _) hc (by rw [World.called_ctx]; omega) (by omega)

theorem respondWriteFileRecord_run (residue : Residue) (fc : UInt8) (w : World σ)
    (hc : w.ctx.request.slaveRegCount.toNat ≤ 128) :
    (respondWriteFileRecord residue fc >>= conclude).run w =
      withCallback w.ctx.callbacks.writeMultipleRegistersCb w fun cb =>
        let regCount := w.ctx.request.slaveRegCount.toNat
        let regs := w.ctx.request.slaveRegData.toList
        let r := writeRecords residue cb regs regCount (regCount * 2 + 1) 0 w
        if r.1 then some (paErrCallback, r.2)
        else (reply ([fc] ++ [UInt8.ofNat (regCount * 2)] ++ registerBytes (regs.take regCount))
          (2 + (UInt8.ofNat (regCount * 2)).toNat)).run r.2 := by
  rw [respondWriteFileRecord, bind_assoc, get_bind_run]
  dsimp only
  cases w.ctx.callbacks.writeMultipleRegistersCb with
  | none => rfl
  | some cb =>
    dsimp only [withCallback]
    rw [bind_assoc, bind_defined _ _ _ _ _ (writeFileRecords_run residue cb
      (w.ctx.request.slaveRegCount.toNat * 2 + 1) 0 w hc (by omega) (by omega))]
    generalize writeRecords residue cb w.ctx.request.slaveRegData.toList
      w.ctx.request.slaveRegCount.toNat (w.ctx.request.slaveRegCount.toNat * 2 + 1) 0 w = r
    by_cases hr : r.1 = true
    · rw [if_pos hr, if_pos hr]
      rfl
    · rw [if_neg hr, if_neg hr]
      dsimp only
      rw [txStore_front, emit_txStore_bind _ _ _ (by simp),
        emit_putRegisters_bind _ _ _ _ (by simp) (by simp; omega), emit_conclude]

end Pamodbus.FileRecords
