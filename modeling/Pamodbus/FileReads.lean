import Pamodbus.FileRecords
import Pamodbus.SlaveAccept

namespace Pamodbus.FileReads

open Pamodbus.Lib.Cells Pamodbus.Lib.Procedure Pamodbus.Lib.Words
open Pamodbus.Context Pamodbus.FramerRtu Pamodbus.FramerTcp Pamodbus.Framer Pamodbus.Builders
open Pamodbus.SlaveParse (get16 get16_eq parseFileRecord parseRequest parseSlaveRequest)
open Pamodbus.SlaveAccept Pamodbus.Respond Pamodbus.RespondRun Pamodbus.FileRecords

variable {σ : Type}

structure Reading where
  refType : UInt8
  recNum : UInt16
  recLen : UInt16
  deriving DecidableEq

structure SubRequest extends Reading where
  fileNum : UInt16

def SubRequest.bytes (s : SubRequest) : Bytes :=
  [s.refType] ++ put16 s.fileNum ++ put16 s.recNum ++ put16 s.recLen

def requestPdu (subs : List SubRequest) : Bytes :=
  [0x14] ++ [UInt8.ofNat (7 * subs.length)] ++ subs.flatMap SubRequest.bytes

def Reading.call (s : Reading) : Call := .readHoldingRegisters s.recNum s.recLen

/-- The records of the readings, and the world after the callbacks. -/
def serve (cb : ReadRegistersFn σ) : List Reading → World σ → Bytes × World σ
  | [], w => ([], w)
  | s :: rest, w =>
    let r := cb s.recNum s.recLen w.app
    let served := serve cb rest (w.called s.call r.1 r.2.2)
    (recordBytes s.refType s.recLen r.2.1.toList ++ served.1, served.2)

/-- The same with a buffer that ends the service once a record does not fit. -/
def serveWithin (cb : ReadRegistersFn σ) (size : Nat) :
    (offset : Nat) → List Reading → World σ → Bytes × World σ
  | _, [], w => ([], w)
  | offset, s :: rest, w =>
    let r := cb s.recNum s.recLen w.app
    let w' := w.called s.call r.1 r.2.2
    if size < offset + 2 + s.recLen.toNat * 2 then ([], w')
    else
      let served := serveWithin cb size (offset + 2 + s.recLen.toNat * 2) rest w'
      (recordBytes s.refType s.recLen r.2.1.toList ++ served.1, served.2)

def recordsPdu (records : Bytes) : Bytes :=
  [0x14] ++ [UInt8.ofNat records.length] ++ records

def replyRecords (served : Bytes × World σ) : Option (Int × World σ) :=
  (reply (recordsPdu served.1) (2 + (UInt8.ofNat served.1.length).toNat)).run served.2

def recordsSize (readings : List Reading) : Nat :=
  (readings.map fun s => 2 + s.recLen.toNat * 2).sum

def clampLen (len : UInt16) : UInt16 := if 64 < len.toNat then 64 else len

/-- The readings that the responder finds in the registers of a request. Seven bytes
are three and a half registers: it takes the first of a pair of sub-requests one byte
late, but for the reference type, and the second right, but for the reference type. -/
def seen : List SubRequest → List Reading
  | s :: t :: rest =>
    ⟨s.refType, word (loByte s.recNum) (hiByte s.recLen),
      clampLen (word (loByte s.recLen) t.refType)⟩ ::
    ⟨loByte s.recLen, t.recNum, t.recLen⟩ :: seen rest
  | _ => []

/-- The registers from `i` on hold these bytes. -/
def Holds (regs : List UInt16) (i : Nat) (data : Bytes) : Prop :=
  ∀ m b c, data[m * 2]? = some b → data[m * 2 + 1]? = some c →
    regs[i + m]?.getD 0 = word b c

theorem holds_drop (regs : List UInt16) (i k : Nat) (xs ys : Bytes) (hx : xs.length = k * 2)
    (h : Holds regs i (xs ++ ys)) : Holds regs (i + k) ys := by
  intro m b c hb hc
  rw [Nat.add_assoc]
  refine h (k + m) b c ?_ ?_
  · rw [List.getElem?_append_right (by omega), ← hb]
    congr 1
    omega
  · rw [List.getElem?_append_right (by omega), ← hc]
    congr 1
    omega

theorem readRecords_round (cb : ReadRegistersFn σ) (regs : List UInt16) (limit size : Nat)
    (s : Reading) (rest : List Reading) (rounds reqOffset offset : Nat) (w : World σ)
    (hcb : ∀ addr count app, (cb addr count app).1 = 0) (hl : ¬ limit < reqOffset + 7)
    (href : hiByte (regs[reqOffset / 2]?.getD 0) = s.refType)
    (hnum : regs[reqOffset / 2 + 2]?.getD 0 = s.recNum)
    (hlen : recordLen regs (reqOffset / 2) = s.recLen)
    (hrest : ∀ offset w, readRecords cb regs limit size rounds (reqOffset + 7) offset w =
      ⟨(serveWithin cb size offset rest w).1, false, (serveWithin cb size offset rest w).2⟩) :
    readRecords cb regs limit size (rounds + 1) reqOffset offset w =
      ⟨(serveWithin cb size offset (s :: rest) w).1, false,
        (serveWithin cb size offset (s :: rest) w).2⟩ := by
  rw [readRecords, if_neg hl, href, hnum, hlen, serveWithin]
  dsimp only
  rw [if_neg (not_not.mpr (hcb _ _ _)), hrest]
  by_cases hs : size < offset + 2 + s.recLen.toNat * 2
  · rw [if_pos hs, if_pos hs]
    rfl
  · rw [if_neg hs, if_neg hs]
    rfl

theorem readRecords_seen (cb : ReadRegistersFn σ) (regs : List UInt16) (limit size : Nat)
    (subs : List SubRequest) (i rounds offset : Nat) (w : World σ)
    (hcb : ∀ addr count app, (cb addr count app).1 = 0)
    (hlen : ∀ s ∈ subs, s.recLen.toNat ≤ 64) (hh : Holds regs i (subs.flatMap SubRequest.bytes))
    (hlimit : limit = i * 2 + 7 * subs.length / 2 * 2) (hr : subs.length < rounds) :
    readRecords cb regs limit size rounds (i * 2) offset w =
      ⟨(serveWithin cb size offset (seen subs) w).1, false,
        (serveWithin cb size offset (seen subs) w).2⟩ := by
  induction subs using seen.induct generalizing i rounds offset w with
  | case1 s t rest ih =>
    obtain ⟨rounds, rfl⟩ := Nat.exists_eq_add_of_le' (Nat.zero_lt_of_lt hr)
    obtain ⟨rounds, rfl⟩ : ∃ k, rounds = k + 1 := ⟨rounds - 1, by simp at hr; omega⟩
    have hrest := holds_drop regs i 7 (s.bytes ++ t.bytes) _ rfl
      (by simpa [List.append_assoc] using hh)
    have href : regs[i]?.getD 0 = word s.refType (hiByte s.fileNum) := hh 0 _ _ rfl rfl
    have hnum : regs[i + 2]?.getD 0 = word (loByte s.recNum) (hiByte s.recLen) :=
      hh 2 _ _ rfl rfl
    have hmid : regs[i + 3]?.getD 0 = word (loByte s.recLen) t.refType := hh 3 _ _ rfl rfl
    have hnum' : regs[i + 3 + 2]?.getD 0 = t.recNum := by
      rw [← word_bytes t.recNum]
      exact hh 5 _ _ rfl rfl
    have hlen' : regs[i + 3 + 3]?.getD 0 = t.recLen := by
      rw [← word_bytes t.recLen]
      exact hh 6 _ _ rfl rfl
    have ht := hlen t (by simp)
    have hfirst : i * 2 / 2 = i := by omega
    have hsecond : (i * 2 + 7) / 2 = i + 3 := by omega
    have hnext : i * 2 + 7 + 7 = (i + 7) * 2 := by omega
    rw [List.length_cons, List.length_cons] at hlimit hr
    rw [seen]
    refine readRecords_round cb regs limit size _ _ _ _ _ w hcb (by omega) ?_ ?_ ?_
      fun offset w => readRecords_round cb regs limit size _ _ _ _ _ w hcb (by omega) ?_ ?_ ?_
        fun offset w => ?_
    · rw [hfirst, href, hiByte_word]
    · rw [hfirst, hnum]
    · rw [hfirst, recordLen, hmid, clampLen]
    · rw [hsecond, hmid, hiByte_word]
    · rw [hsecond, hnum']
    · rw [hsecond, recordLen, hlen', if_neg (by omega)]
    · rw [hnext]
      exact ih _ _ _ _ (fun u hu => hlen u (by simp [hu])) hrest (by omega) (by omega)
  | case2 subs hshort =>
    obtain ⟨rounds, rfl⟩ := Nat.exists_eq_add_of_le' (Nat.zero_lt_of_lt hr)
    have hone : subs.length ≤ 1 := by
      cases subs with
      | nil => exact Nat.zero_le _
      | cons s rest =>
        cases rest with
        | nil => exact Nat.le_refl _
        | cons t rest => exact (hshort s t rest rfl).elim
    rw [readRecords, if_pos (by omega), seen]
    · rfl
    · exact hshort

def calls (readings : List Reading) : List (Call × Int) := readings.map fun s => (s.call, 0)

theorem serve_calls (cb : ReadRegistersFn σ) (hcb : ∀ addr count app, (cb addr count app).1 = 0)
    (readings : List Reading) (w : World σ) :
    (serve cb readings w).2.calls = w.calls ++ calls readings := by
  induction readings generalizing w with
  | nil => exact (List.append_nil w.calls).symm
  | cons s rest ih =>
    rw [serve]
    dsimp only
    rw [ih, World.called, hcb, List.append_assoc]
    rfl

theorem serve_length (cb : ReadRegistersFn σ) (readings : List Reading) (w : World σ) :
    (serve cb readings w).1.length = recordsSize readings := by
  induction readings generalizing w with
  | nil => rfl
  | cons s rest ih =>
    rw [serve]
    dsimp only
    rw [List.length_append, recordBytes_length _ _ _ (by simp), ih]
    rfl

/-- With the same invocations the records differ only in the reference types. -/
theorem serve_refTypes (cb : ReadRegistersFn σ) (xs ys : List Reading) (w : World σ)
    (hc : calls xs = calls ys) (hb : (serve cb xs w).1 = (serve cb ys w).1) : xs = ys := by
  induction xs generalizing ys w with
  | nil => exact (List.map_eq_nil_iff.mp hc.symm).symm
  | cons s rest ih =>
    obtain ⟨t, rest', rfl⟩ : ∃ t rest', ys = t :: rest' := by
      cases ys with
      | nil => cases hc
      | cons t rest' => exact ⟨t, rest', rfl⟩
    obtain ⟨ref, num, len⟩ := s
    obtain ⟨ref', num', len'⟩ := t
    obtain ⟨hs, hrest⟩ := List.cons_eq_cons.mp hc
    obtain ⟨rfl, rfl⟩ : num = num' ∧ len = len' := by
      simpa [Reading.call] using hs
    rw [serve, serve] at hb
    obtain ⟨href, hb⟩ := List.append_inj hb (by
      rw [recordBytes_length _ _ _ (by simp), recordBytes_length _ _ _ (by simp)])
    obtain rfl : ref = ref' := by
      simpa [recordBytes] using href
    rw [ih rest' _ hrest hb]

theorem serveWithin_ctx (cb : ReadRegistersFn σ) (size : Nat) (readings : List Reading)
    (offset : Nat) (w : World σ) : (serveWithin cb size offset readings w).2.ctx = w.ctx := by
  induction readings generalizing offset w with
  | nil => rfl
  | cons s rest ih =>
    rw [serveWithin]
    dsimp only
    split
    · rfl
    · exact ih _ _

theorem serveWithin_fits (cb : ReadRegistersFn σ) (size : Nat) (readings : List Reading)
    (offset : Nat) (w : World σ) (h : offset + recordsSize readings ≤ size) :
    serveWithin cb size offset readings w = serve cb readings w := by
  induction readings generalizing offset w with
  | nil => rfl
  | cons s rest ih =>
    change offset + (2 + s.recLen.toNat * 2 + recordsSize rest) ≤ size at h
    rw [serveWithin, serve]
    dsimp only
    rw [if_neg (by omega), ih _ _ (by omega)]

theorem serveWithin_calls (cb : ReadRegistersFn σ) (size : Nat)
    (hcb : ∀ addr count app, (cb addr count app).1 = 0) (readings : List Reading)
    (offset : Nat) (w : World σ) : ∃ k, (serveWithin cb size offset readings w).2.calls =
      w.calls ++ calls (readings.take k) := by
  induction readings generalizing offset w with
  | nil => exact ⟨0, (List.append_nil w.calls).symm⟩
  | cons s rest ih =>
    rw [serveWithin]
    dsimp only
    split
    · refine ⟨1, ?_⟩
      rw [World.called, hcb]
      rfl
    · obtain ⟨k, hk⟩ := ih (offset + 2 + s.recLen.toNat * 2)
        (w.called s.call (cb s.recNum s.recLen w.app).1 (cb s.recNum s.recLen w.app).2.2)
      refine ⟨k + 1, ?_⟩
      rw [hk, World.called, hcb, List.append_assoc]
      rfl

theorem bytes_length (subs : List SubRequest) :
    (subs.flatMap SubRequest.bytes).length = 7 * subs.length := by
  have h (s : SubRequest) : s.bytes.length = 7 := rfl
  simp [List.length_flatMap, h, Nat.mul_comm]

theorem requestPdu_length (subs : List SubRequest) :
    (requestPdu subs).length = 2 + 7 * subs.length := by
  rw [requestPdu, List.length_append, bytes_length]
  rfl

theorem records_parsed (fc : UInt8) (data rest : Bytes) (ctx : PaModbus σ)
    (hfc : fc = 0x14 ∨ fc = 0x15) (hn : data.length ≤ 255) :
    ∃ r, (parseSlaveRequest ([fc] ++ [UInt8.ofNat data.length] ++ data ++ rest)
        (2 + data.length)).run ctx = some (paOk, { ctx with lastFunction := fc, request := r }) ∧
      r.slaveRegCount.toNat = data.length / 2 ∧ Holds r.slaveRegData.toList 0 data := by
  have hlen : ([fc] ++ [UInt8.ofNat data.length] ++ data ++ rest).length =
      2 + data.length + rest.length := by
    simp only [List.length_append, List.length_singleton]
  have hdata : ([fc] ++ [UInt8.ofNat data.length] ++ data ++ rest).drop 2 = data ++ rest := rfl
  have h0 : ([fc] ++ [UInt8.ofNat data.length] ++ data ++ rest)[0]? = some fc := rfl
  have h1 : ([fc] ++ [UInt8.ofNat data.length] ++ data ++ rest)[1]? =
      some (UInt8.ofNat data.length) := rfl
  have hb : (UInt8.ofNat data.length).toNat = data.length := by
    rw [UInt8.toNat_ofNat']
    omega
  generalize [fc] ++ [UInt8.ofNat data.length] ++ data ++ rest = pdu at hlen hdata h0 h1 ⊢
  obtain ⟨values, hv, hr⟩ := registers_exist pdu 2 (data.length / 2) (by omega)
  have haccepts := (parseFileRecord_accepts pdu (2 + data.length)
    { ctx.request with slaveDataValid := false } _).mpr ⟨by omega, _, h1, by omega, by omega,
      values, by rw [hb, hv], hr, by omega, rfl⟩
  have hparse : parseRequest fc pdu (2 + data.length) = parseFileRecord pdu (2 + data.length) := by
    rcases hfc with rfl | rfl
    · rfl
    · rfl
  have hreply : fc &&& 0x80 = 0 := by
    rcases hfc with rfl | rfl
    · rfl
    · rfl
  refine ⟨_, (parseSlaveRequest_accepts _ _ _ _).mpr ⟨by omega, fc, h0, hreply, _,
    (congrFun hparse _).trans haccepts, rfl⟩, ?_, fun m b c hm hm' => ?_⟩
  · dsimp only
    rw [UInt16.toNat_ofNat', hb]
    omega
  · have hbyte (i : Nat) (x : UInt8) (hi : data[i]? = some x) : pdu[2 + i]? = some x := by
      rw [← List.getElem?_drop, hdata,
        List.getElem?_append_left (List.getElem?_eq_some_iff.mp hi).1, hi]
    have hlt := (List.getElem?_eq_some_iff.mp hm').1
    obtain ⟨v, hvm⟩ := getElem?_some values m (by omega)
    have hword := get16_eq _ _ _ _ (hbyte _ _ hm) (hbyte _ _ hm')
    rw [hr m v hvm, Option.some.injEq] at hword
    dsimp only
    rw [Nat.zero_add, patch_getElem? _ _ _ (by omega) (by omega), hvm, Option.getD_some, hword]

theorem request_parsed (subs : List SubRequest) (rest : Bytes) (ctx : PaModbus σ)
    (hn : 7 * subs.length ≤ 255) :
    ∃ r, (parseSlaveRequest (requestPdu subs ++ rest) (requestPdu subs).length).run ctx =
        some (paOk, { ctx with lastFunction := 0x14, request := r }) ∧
      r.slaveRegCount.toNat = 7 * subs.length / 2 ∧
      Holds r.slaveRegData.toList 0 (subs.flatMap SubRequest.bytes) := by
  have hparsed := records_parsed 0x14 (subs.flatMap SubRequest.bytes) rest ctx (.inl rfl)
    (by rw [bytes_length]; exact hn)
  rw [bytes_length] at hparsed
  rw [requestPdu_length]
  exact hparsed

/-- The request is answered with all the records that it asks for, one callback for each. -/
def ServesAll (residue : Residue) (cb : ReadRegistersFn σ) (subs : List SubRequest)
    (rest : Bytes) (w : World σ) : Prop :=
  ∃ ctx' ret w',
    (parseSlaveRequest (requestPdu subs ++ rest) (requestPdu subs).length).run w.ctx =
      some (paOk, ctx') ∧
    (paModbusSlaveRespond residue).run { w with ctx := ctx' } = some (ret, w') ∧ 0 < ret ∧
    w'.calls = w.calls ++ calls (subs.map SubRequest.toReading) ∧
    sent w' = frame { w with ctx := ctx' }
      (recordsPdu (serve cb (subs.map SubRequest.toReading) { w with ctx := ctx' }).1)

/-- The bytes that the responder takes for others are equal to those. -/
def InStep : List SubRequest → Prop
  | [] => True
  | [_] => False
  | s :: t :: rest => s.recNum = 0 ∧ (s.recLen = 0 ∨ s.recLen = 64) ∧
      t.refType.toUInt16 = s.recLen ∧ InStep rest

theorem seen_length (subs : List SubRequest) : (seen subs).length ≤ subs.length := by
  induction subs using seen.induct with
  | case1 s t rest ih =>
    rw [seen]
    simpa using ih
  | case2 subs hshort =>
    rw [seen]
    · exact Nat.zero_le _
    · exact hshort

theorem clampLen_toNat (len : UInt16) : (clampLen len).toNat = min len.toNat 64 := by
  rw [clampLen]
  split
  · rw [Nat.min_eq_right (by omega)]
    rfl
  · rw [Nat.min_eq_left (by omega)]

theorem pair_seen (s t : SubRequest) (hs : s.recLen.toNat ≤ 64) :
    word (loByte s.recNum) (hiByte s.recLen) = s.recNum ∧
        clampLen (word (loByte s.recLen) t.refType) = s.recLen ∧ loByte s.recLen = t.refType ↔
      s.recNum = 0 ∧ (s.recLen = 0 ∨ s.recLen = 64) ∧ t.refType.toUInt16 = s.recLen := by
  have hr := t.refType.toNat_lt
  have hnum := s.recNum.toNat_lt
  simp only [← UInt16.toNat_inj, ← UInt8.toNat_inj, word_toNat, hiByte_toNat, loByte_toNat,
    clampLen_toNat, UInt8.toNat_toUInt16, UInt16.reduceToNat]
  omega

/-- What is seen is what was asked for only where the bytes agree by chance. -/
theorem seen_eq_iff (subs : List SubRequest) (hlen : ∀ s ∈ subs, s.recLen.toNat ≤ 64) :
    seen subs = subs.map SubRequest.toReading ↔ InStep subs := by
  induction subs using seen.induct with
  | case1 s t rest ih =>
    have hpair := pair_seen s t (hlen s (by simp))
    have hrest := ih fun u hu => hlen u (by simp [hu])
    rw [seen, InStep, ← hrest]
    obtain ⟨⟨ref, num, len⟩, file⟩ := s
    obtain ⟨⟨ref', num', len'⟩, file'⟩ := t
    simp only [List.map_cons, List.cons.injEq, Reading.mk.injEq, true_and, and_true] at hpair ⊢
    constructor
    · rintro ⟨⟨hnum, hwords⟩, href, htail⟩
      obtain ⟨hzero, hcount, htype⟩ := hpair.mp ⟨hnum, hwords, href⟩
      exact ⟨hzero, hcount, htype, htail⟩
    · rintro ⟨hzero, hcount, htype, htail⟩
      obtain ⟨hnum, hwords, href⟩ := hpair.mpr ⟨hzero, hcount, htype⟩
      exact ⟨⟨hnum, hwords⟩, href, htail⟩
  | case2 subs hshort =>
    match subs, hshort with
    | [], _ => exact iff_of_true rfl trivial
    | [s], _ => exact iff_of_false (fun h => nomatch h) id
    | s :: t :: rest, hshort => exact (hshort s t rest rfl).elim

theorem serve_frame (cb : ReadRegistersFn σ) (readings : List Reading) (w : World σ)
    (pdu : Bytes) : frame (serve cb readings w).2 pdu = frame w pdu := by
  induction readings generalizing w with
  | nil => rfl
  | cons s rest ih => exact ih _

theorem recordsSize_congr (xs ys : List Reading) (h : calls xs = calls ys) :
    recordsSize xs = recordsSize ys := by
  have hsize (l : List Reading) : recordsSize l = ((calls l).map fun c =>
      match c.1 with
      | .readHoldingRegisters _ len => 2 + len.toNat * 2
      | _ => 0).sum := by
    rw [recordsSize, calls, List.map_map]
    rfl
  rw [hsize, hsize, h]

theorem replyRecords_calls (served : Bytes × World σ) (ret : Int) (w' : World σ)
    (h : replyRecords served = some (ret, w')) : w'.calls = served.2.calls := by
  have hb := (UInt8.ofNat served.1.length).toNat_lt
  exact reply_calls _ _ _ _ _ (by omega) h

theorem reply_served (cb : ReadRegistersFn σ) (readings : List Reading) (w : World σ)
    (hcb : ∀ addr count app, (cb addr count app).1 = 0) (hn : recordsSize readings ≤ 245)
    (htx : 2 + recordsSize readings + overhead w.ctx.framerType ≤ w.ctx.txbuf.cells.length) :
    ∃ ret w', replyRecords (serveWithin cb w.ctx.txbuf.cells.length 2 readings w) =
        some (ret, w') ∧ 0 < ret ∧ w'.calls = w.calls ++ calls readings ∧
      sent w' = frame w (recordsPdu (serve cb readings w).1) := by
  rw [serveWithin_fits _ _ _ _ _ (by omega), replyRecords]
  have hctx : (serve cb readings w).2.ctx = w.ctx := by
    rw [← serveWithin_fits cb _ readings 2 w (Nat.le_of_add_right_le htx), serveWithin_ctx]
  have hl := serve_length cb readings w
  have hcalls := serve_calls cb hcb readings w
  have hframe := serve_frame cb readings w
  generalize serve cb readings w = served at hctx hl hcalls hframe ⊢
  have hb : (UInt8.ofNat served.1.length).toNat = served.1.length := by
    rw [UInt8.toNat_ofNat']
    omega
  have hlen : (recordsPdu served.1).length = 2 + served.1.length := by
    simp [recordsPdu]
    omega
  rw [hb, ← hlen]
  generalize recordsPdu served.1 = pdu at hlen ⊢
  have htx' : pdu.length + overhead served.2.ctx.framerType ≤
      served.2.ctx.txbuf.cells.length := by
    rw [hctx, hlen, hl]
    exact htx
  have hrun := emit_finish pdu pdu.length served.2 (by omega) (Nat.le_refl _) (by omega) htx'
  rw [List.take_length, hframe] at hrun
  refine ⟨_, _, hrun, by omega, hcalls, sent_framed _ _ ?_⟩
  rw [World.withTx_txbuf, Buffer.patch_cells, overlay_length, frame_length, ← hctx]
  exact htx'

theorem respond_seen (residue : Residue) (cb : ReadRegistersFn σ) (subs : List SubRequest)
    (rest : Bytes) (w : World σ) (hf : w.ctx.callbacks.readHoldingRegistersCb = some cb)
    (hcb : ∀ addr count app, (cb addr count app).1 = 0) (hn : 7 * subs.length ≤ 255)
    (hlen : ∀ s ∈ subs, s.recLen.toNat ≤ 64) (htx : w.ctx.txbuf.cells.length ≠ 0) :
    ∃ r : SlaveRequest,
      let ctx' := { w.ctx with lastFunction := 0x14, request := r }
      (parseSlaveRequest (requestPdu subs ++ rest) (requestPdu subs).length).run w.ctx =
        some (paOk, ctx') ∧
      (paModbusSlaveRespond residue).run { w with ctx := ctx' } =
        replyRecords (serveWithin cb w.ctx.txbuf.cells.length 2 (seen subs)
          { w with ctx := ctx' }) := by
  obtain ⟨r, hparse, hcount, hholds⟩ := request_parsed subs rest w.ctx hn
  refine ⟨r, hparse, ?_⟩
  have hseen := readRecords_seen cb r.slaveRegData.toList (r.slaveRegCount.toNat * 2)
    w.ctx.txbuf.cells.length subs 0 (r.slaveRegCount.toNat * 2 + 1) 2
    { w with ctx := { w.ctx with lastFunction := 0x14, request := r } } hcb hlen hholds
    (by omega) (by omega)
  obtain ⟨left, hrun⟩ := respondReadFileRecord_run residue 0x14
    { w with ctx := { w.ctx with lastFunction := 0x14, request := r } } (by
      dsimp only
      omega)
  dsimp only at hrun ⊢
  rw [hf] at hrun
  dsimp only [withCallback] at hrun
  rw [Nat.zero_mul] at hseen
  rw [hseen, if_neg htx, if_neg Bool.false_ne_true] at hrun
  rw [respond_run]
  exact hrun

theorem served_seen (cb : ReadRegistersFn σ) (subs : List SubRequest) (w w' : World σ) (ret : Int)
    (hcb : ∀ addr count app, (cb addr count app).1 = 0)
    (hsum : recordsSize (subs.map SubRequest.toReading) ≤ 245)
    (htx : 2 + recordsSize (subs.map SubRequest.toReading) + overhead w.ctx.framerType ≤
      w.ctx.txbuf.cells.length)
    (hrun : replyRecords (serveWithin cb w.ctx.txbuf.cells.length 2 (seen subs) w) =
      some (ret, w'))
    (hcalls : w'.calls = w.calls ++ calls (subs.map SubRequest.toReading))
    (hsent : sent w' = frame w (recordsPdu (serve cb (subs.map SubRequest.toReading) w).1)) :
    seen subs = subs.map SubRequest.toReading := by
  have hrep := replyRecords_calls _ _ _ hrun
  obtain ⟨k, hk⟩ := serveWithin_calls cb w.ctx.txbuf.cells.length hcb (seen subs) 2 w
  rw [hcalls, hk] at hrep
  have hsame := List.append_cancel_left hrep
  have hlen := congrArg List.length hsame
  have hle := seen_length subs
  simp only [calls, List.length_map, List.length_take] at hlen
  rw [List.take_of_length_le (by omega)] at hsame
  have hsize := recordsSize_congr _ _ hsame
  rw [hsize] at hsum htx
  obtain ⟨ret₁, w₁, hrun₁, -, -, hsent₁⟩ := reply_served cb (seen subs) w hcb hsum htx
  rw [hrun, Option.some.injEq, Prod.mk.injEq] at hrun₁
  rw [← hrun₁.2, hsent] at hsent₁
  have hpdu := frame_injective _ _ _ hsent₁
  have hrecords := (List.append_inj hpdu rfl).2
  exact (serve_refTypes cb _ _ w hsame hrecords).symm

theorem served_only_seen (residue : Residue) (cb : ReadRegistersFn σ)
    (subs : List SubRequest) (rest : Bytes) (w : World σ)
    (hf : w.ctx.callbacks.readHoldingRegistersCb = some cb)
    (hcb : ∀ addr count app, (cb addr count app).1 = 0) (hn : 7 * subs.length ≤ 255)
    (hlen : ∀ s ∈ subs, s.recLen.toNat ≤ 64)
    (hsum : recordsSize (subs.map SubRequest.toReading) ≤ 245)
    (htx : 2 + recordsSize (subs.map SubRequest.toReading) + overhead w.ctx.framerType ≤
      w.ctx.txbuf.cells.length) (h : ServesAll residue cb subs rest w) :
    seen subs = subs.map SubRequest.toReading := by
  obtain ⟨r, hparse, hrespond⟩ := respond_seen residue cb subs rest w hf hcb hn hlen (by omega)
  obtain ⟨ctx', ret, w', hparse', hrun, -, hcalls, hsent⟩ := h
  rw [hparse, Option.some.injEq, Prod.mk.injEq] at hparse'
  obtain rfl := hparse'.2
  rw [hrespond] at hrun
  exact served_seen cb subs { w with ctx := { w.ctx with lastFunction := 0x14, request := r } }
    w' ret hcb hsum htx hrun hcalls hsent

/-- Of the requests whose response fits, those are served whose odd bytes agree by chance. -/
theorem file_read_served_iff (residue : Residue) (cb : ReadRegistersFn σ)
    (subs : List SubRequest) (rest : Bytes) (w : World σ)
    (hf : w.ctx.callbacks.readHoldingRegistersCb = some cb)
    (hcb : ∀ addr count app, (cb addr count app).1 = 0) (hn : 7 * subs.length ≤ 255)
    (hlen : ∀ s ∈ subs, s.recLen.toNat ≤ 64)
    (hsum : recordsSize (subs.map SubRequest.toReading) ≤ 245)
    (htx : 2 + recordsSize (subs.map SubRequest.toReading) + overhead w.ctx.framerType ≤
      w.ctx.txbuf.cells.length) :
    ServesAll residue cb subs rest w ↔ InStep subs := by
  rw [← seen_eq_iff subs hlen]
  constructor
  · exact served_only_seen residue cb subs rest w hf hcb hn hlen hsum htx
  · intro heq
    obtain ⟨r, hparse, hrespond⟩ := respond_seen residue cb subs rest w hf hcb hn hlen (by omega)
    obtain ⟨ret, w', hrun, hret, hcalls, hsent⟩ := reply_served cb (seen subs)
      { w with ctx := { w.ctx with lastFunction := 0x14, request := r } } hcb
      (by rw [heq]; exact hsum) (by rw [heq]; exact htx)
    refine ⟨_, ret, w', hparse, hrespond.trans hrun, hret, ?_, ?_⟩
    · rw [hcalls, heq]
    · rw [hsent, heq]

def serveNumbers : ReadRegistersFn Unit := fun addr count app =>
  (0, List.Vector.replicate count.toNat addr, app)

def fileSlave : World Unit :=
  ⟨paModbusSetReadHoldingRegistersCb (some serveNumbers) (station .rtu 1 64 64), (), 0, []⟩

def inStepRequest : List SubRequest := [⟨⟨6, 0, 0⟩, 4⟩, ⟨⟨0, 9, 2⟩, 4⟩]

theorem request_in_step_served :
    ServesAll (fun _ _ => 0) serveNumbers inStepRequest [] fileSlave :=
  (file_read_served_iff (fun _ _ => 0) serveNumbers inStepRequest [] fileSlave rfl
    (fun _ _ _ => rfl) (by decide) (by decide) (by decide) (by decide)).mpr
      ⟨rfl, .inl rfl, rfl, trivial⟩

/-- A single sub-request is never looked at, and of two the first is read in a wrong place. -/
theorem file_read_not_served :
    ¬ ServesAll (fun _ _ => 0) serveNumbers [⟨⟨6, 1, 2⟩, 4⟩] [] fileSlave ∧
      seen [⟨⟨6, 1, 2⟩, 4⟩, ⟨⟨6, 9, 2⟩, 4⟩] = [⟨6, 0x0100, 64⟩, ⟨2, 9, 2⟩] ∧
      ¬ ServesAll (fun _ _ => 0) serveNumbers [⟨⟨6, 1, 2⟩, 4⟩, ⟨⟨6, 9, 2⟩, 4⟩] [] fileSlave := by
  refine ⟨fun h => ?_, by decide, fun h => ?_⟩
  · exact absurd (served_only_seen _ _ _ _ _ rfl (fun _ _ _ => rfl) (by decide) (by decide)
      (by decide) (by decide) h) (by decide)
  · exact absurd (served_only_seen _ _ _ _ _ rfl (fun _ _ _ => rfl) (by decide) (by decide)
      (by decide) (by decide) h) (by decide)

end Pamodbus.FileReads
