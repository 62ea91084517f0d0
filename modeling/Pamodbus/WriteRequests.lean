import Pamodbus.Feed
import Pamodbus.Lib.Banks

namespace Pamodbus.WriteRequests

open Pamodbus.Lib.Banks Pamodbus.Lib.Cells Pamodbus.Lib.CInt Pamodbus.Lib.Procedure Pamodbus.Lib.Words
open Pamodbus.Context Pamodbus.Crc16 Pamodbus.FramerRtu Pamodbus.Framer
open Pamodbus.Builders Pamodbus.SlaveParse Pamodbus.SlaveAccept Pamodbus.Feed

variable {σ τ : Type}

inductive WriteRequest
  | singleCoil (addr : UInt16) (value : UInt8)
  | singleRegister (addr value : UInt16)
  | multipleCoils (addr : UInt16) (values : List UInt8)
  | multipleRegisters (addr : UInt16) (values : List UInt16)
  | maskRegister (addr andMask orMask : UInt16)

namespace WriteRequest

def code : WriteRequest → UInt8
  | singleCoil .. => 0x05
  | singleRegister .. => 0x06
  | multipleCoils .. => 0x0F
  | multipleRegisters .. => 0x10
  | maskRegister .. => 0x16

def addr : WriteRequest → UInt16
  | singleCoil addr _ | singleRegister addr _ | multipleCoils addr _ | multipleRegisters addr _
  | maskRegister addr _ _ => addr

def count : WriteRequest → Nat
  | multipleCoils _ values => values.length
  | multipleRegisters _ values => values.length
  | _ => 1

def build : WriteRequest → Proc (World σ) Int
  | singleCoil addr value => paModbusBuildWriteSingleCoil addr value
  | singleRegister addr value => paModbusBuildWriteSingleRegister addr value
  | multipleCoils addr values =>
    paModbusBuildWriteMultipleCoils addr values (UInt16.ofNat values.length)
  | multipleRegisters addr values =>
    paModbusBuildWriteMultipleRegisters addr values (UInt16.ofNat values.length)
  | maskRegister addr andMask orMask => paModbusBuildMaskWriteRegister addr andMask orMask

/-- The counts that the builders accept. -/
def Valid : WriteRequest → Prop
  | multipleCoils _ values => 1 ≤ values.length ∧ values.length ≤ 1968
  | multipleRegisters _ values => 1 ≤ values.length ∧ values.length ≤ 123
  | _ => True

def pduLen : WriteRequest → Nat
  | singleCoil .. | singleRegister .. => 5
  | multipleCoils _ values => 6 + (values.length + 7) / 8
  | multipleRegisters _ values => 6 + values.length * 2
  | maskRegister .. => 7

/-- Bit `i` of the stored coils is on exactly when value `i` is not zero. -/
def CoilsStored (values : List UInt8) (req : SlaveRequest) : Prop :=
  ∀ i v, values[i]? = some v → bitAt req.slaveCoilData.toList i = decide (v ≠ 0)

def Stored : WriteRequest → SlaveRequest → Prop
  | singleCoil _ value, req => CoilsStored [value] req
  | singleRegister _ value, req => [value] <+: req.slaveRegData.toList
  | multipleCoils _ values, req => CoilsStored values req
  | multipleRegisters _ values, req => values <+: req.slaveRegData.toList
  | maskRegister _ andMask orMask, req => [andMask, orMask] <+: req.slaveRegData.toList

/-- The coils that the slave has room for: 33 bytes of them. -/
def Fits : WriteRequest → Prop
  | multipleCoils _ values => values.length ≤ 264
  | _ => True

def Received (req : WriteRequest) (peer : PaModbus τ) : Prop :=
  peer.lastFunction = req.code ∧ peer.request.slaveAddr = req.addr ∧
    peer.request.slaveCount.toNat = req.count ∧ req.Stored peer.request

/-- The request is built, and the slave that is fed it holds the same request. -/
def RoundTrips (req : WriteRequest) (w : World σ) (peer : PaModbus τ) : Prop :=
  ∃ ret w', req.build.run w = some (ret, w') ∧ 0 < ret ∧
    ∃ peer', (paModbusSlaveFeed (sent w')).run peer = some (paOk, peer') ∧ req.Received peer'

/-- The PDU of a request. Only the unused bits of the last coil byte are left open. -/
def Encodes : WriteRequest → Bytes → Prop
  | singleCoil addr value, pdu =>
    pdu = [0x05] ++ put16 addr ++ put16 (if value ≠ 0 then 0xFF00 else 0x0000)
  | singleRegister addr value, pdu => pdu = [0x06] ++ put16 addr ++ put16 value
  | multipleCoils addr values, pdu =>
    ∃ bits, bits.length = (values.length + 7) / 8 ∧ PacksTo values values.length bits ∧
      pdu = writeHeader 0x0F addr (UInt16.ofNat values.length) ((values.length + 7) / 8) ++ bits
  | multipleRegisters addr values, pdu =>
    pdu = writeHeader 0x10 addr (UInt16.ofNat values.length) (values.length * 2) ++
      registerBytes values
  | maskRegister addr andMask orMask, pdu =>
    pdu = [0x16] ++ put16 addr ++ put16 andMask ++ put16 orMask

end WriteRequest

open WriteRequest

theorem count_toNat (n : Nat) (h : n ≤ 1968) : (UInt16.ofNat n).toNat = n := by
  rw [UInt16.toNat_ofNat']
  omega

theorem build_sent (req : WriteRequest) (w : World σ) (hf : w.ctx.framerType = .rtu)
    (hv : req.Valid) (hbuf : req.pduLen + 3 ≤ w.ctx.txbuf.cells.length) :
    ∃ pdu ret w', req.Encodes pdu ∧ req.build.run w = some (ret, w') ∧ 0 < ret ∧
      sent w' = rtuFrame w.ctx.slave pdu := by
  cases req with
  | singleCoil addr value =>
    obtain ⟨w', hw, hs⟩ := emit_finish_rtu
      ([0x05] ++ put16 addr ++ put16 (if value ≠ 0 then 0xFF00 else 0x0000)) w hf (by simp)
      (by simpa [pduLen] using hbuf)
    refine ⟨_, 8, w', rfl, ?_, by decide, hs⟩
    rw [build, paModbusBuildWriteSingleCoil, buildWriteSingle_eq]
    exact hw
  | singleRegister addr value =>
    obtain ⟨w', hw, hs⟩ :=
      emit_finish_rtu ([0x06] ++ put16 addr ++ put16 value) w hf (by simp)
      (by simpa [pduLen] using hbuf)
    refine ⟨_, 8, w', rfl, ?_, by decide, hs⟩
    rw [build, paModbusBuildWriteSingleRegister, buildWriteSingle_eq]
    exact hw
  | multipleCoils addr values =>
    obtain ⟨h1, h2⟩ := hv
    rw [pduLen] at hbuf
    have hn := count_toNat values.length h2
    obtain ⟨bits, hl, hp, hb⟩ := writeMultipleCoils_run addr values (UInt16.ofNat values.length) w
      (by omega) hn.symm (by omega)
    rw [hn] at hl hp hb
    have hlen : (writeHeader 0x0F addr (UInt16.ofNat values.length) ((values.length + 7) / 8) ++
        bits).length = 6 + (values.length + 7) / 8 := by simp [hl]
    obtain ⟨w', hw, hs⟩ := emit_finish_rtu _ w hf (by rw [hlen]; omega) (by rw [hlen]; exact hbuf)
    rw [hlen, ← hb] at hw
    exact ⟨_, _, w', ⟨bits, hl, hp, rfl⟩, hw, by omega, hs⟩
  | multipleRegisters addr values =>
    obtain ⟨h1, h2⟩ := hv
    rw [pduLen] at hbuf
    have hn := count_toNat values.length (by omega)
    have hb := writeMultipleRegisters_run addr values (UInt16.ofNat values.length) w
      (by omega) hn.symm (by omega)
    rw [hn] at hb
    have hlen : (writeHeader 0x10 addr (UInt16.ofNat values.length) (values.length * 2) ++
        registerBytes values).length = 6 + values.length * 2 := by
      simp
      omega
    obtain ⟨w', hw, hs⟩ := emit_finish_rtu _ w hf (by rw [hlen]; omega) (by rw [hlen]; exact hbuf)
    rw [hlen, ← hb] at hw
    exact ⟨_, _, w', rfl, hw, by omega, hs⟩
  | maskRegister addr andMask orMask =>
    obtain ⟨w', hw, hs⟩ := emit_finish_rtu
      ([0x16] ++ put16 addr ++ put16 andMask ++ put16 orMask) w hf (by simp)
      (by simpa [pduLen] using hbuf)
    refine ⟨_, 10, w', rfl, ?_, by decide, hs⟩
    rw [build, maskWriteRegister_eq]
    exact hw

theorem overlay_prefix {α : Type} (m xs : List α) (h : xs.length ≤ m.length) :
    xs <+: overlay m xs := by
  rw [overlay_eq m xs h]
  exact List.prefix_append _ _

theorem patch_prefix {α : Type} {n : Nat} (v : List.Vector α n) (xs : List α) (h : xs.length ≤ n) :
    xs <+: (patch v xs).toList := by
  rw [patch_toList]
  exact overlay_prefix _ _ (by simpa using h)

theorem expectedLen_multiple (fc : UInt8) (addr count : UInt16) (bytes : Bytes) (n : Nat)
    (slave : UInt8) (hfc : fc = 0x0F ∨ fc = 0x10) (hn : bytes.length = n) (hb : n < 256) :
    expectedLen fc (rtuFrame slave (writeHeader fc addr count n ++ bytes)) =
      some (.ok (n + 9)) := by
  have h6 : (rtuFrame slave (writeHeader fc addr count n ++ bytes))[6]? = some (UInt8.ofNat n) := rfl
  have hlen : ¬ (rtuFrame slave (writeHeader fc addr count n ++ bytes)).length < 8 := by
    simp
    omega
  have hm : (UInt8.ofNat n).toNat = n := by
    rw [UInt8.toNat_ofNat']
    omega
  rcases hfc with rfl | rfl
  all_goals
    simp only [expectedLen, h6, hm, if_neg hlen, Option.bind_eq_bind, Option.bind_some,
      Option.pure_def, Option.some.injEq, Except.ok.injEq]
    omega

theorem feed_multipleCoils (addr : UInt16) (values : List UInt8) (bits : Bytes)
    (peer : PaModbus τ) (hf : peer.framerType = .rtu) (h1 : 1 ≤ values.length)
    (hfit : values.length ≤ 264) (hl : bits.length = (values.length + 7) / 8)
    (hp : PacksTo values values.length bits) :
    ∃ peer', (paModbusSlaveFeed (rtuFrame peer.slave (writeHeader 0x0F addr
        (UInt16.ofNat values.length) ((values.length + 7) / 8) ++ bits))).run peer =
        some (paOk, peer') ∧ (multipleCoils addr values).Received peer' := by
  have hn := count_toNat values.length (by omega)
  generalize UInt16.ofNat values.length = count at hn
  generalize hk : (values.length + 7) / 8 = k at hl
  have he := expectedLen_multiple 0x0F addr count bits k peer.slave (.inl rfl) hl (by omega)
  have hr : ∃ r, (parseWriteMultipleCoils (writeHeader 0x0F addr count k ++ bits ++
      crcBytes (peer.slave :: (writeHeader 0x0F addr count k ++ bits)))
      (writeHeader 0x0F addr count k ++ bits).length).run
        { peer.request with slaveDataValid := false } = some (paOk, r) ∧
      r.slaveAddr = addr ∧ r.slaveCount = count ∧ CoilsStored values r := by
    rw [List.append_assoc]
    obtain ⟨ha, hc, bc, hb, hm⟩ := writeHeader_fields 0x0F addr count k (bits ++ crcBytes _)
      (by omega)
    have hd : block (writeHeader 0x0F addr count k ++ (bits ++ crcBytes (peer.slave ::
        (writeHeader 0x0F addr count k ++ bits)))) 6 bc.toNat = some bits := by
      rw [block_eq _ _ _ (by simp; omega), List.drop_left' (by simp), List.take_left' (by omega)]
    refine ⟨_, (parseWriteMultipleCoils_accepts _ _ _ _).mpr ⟨by simp, addr, ha, count, hc,
      by omega, bc, hb, by simp; omega, by omega, bits, hd, by omega, rfl⟩, rfl, rfl, ?_⟩
    intro i v hi
    obtain ⟨hlt, rfl⟩ := List.getElem?_eq_some_iff.mp hi
    rw [bitAt_patch _ _ _ (by omega) (by omega), hp i]
    simp [hlt]
  obtain ⟨r, hr, ha, hc, hs⟩ := hr
  refine ⟨_, (slaveFeed_framed peer _ 0x0F _ hf rfl ?_).mpr ⟨rfl, r, hr, rfl⟩, rfl, ha, ?_, hs⟩
  · rw [he]
    simp
    omega
  · rw [hc, hn]
    rfl

theorem feed_multipleRegisters (addr : UInt16) (values : List UInt16) (peer : PaModbus τ)
    (hf : peer.framerType = .rtu) (h1 : 1 ≤ values.length) (h2 : values.length ≤ 123) :
    ∃ peer', (paModbusSlaveFeed (rtuFrame peer.slave (writeHeader 0x10 addr
        (UInt16.ofNat values.length) (values.length * 2) ++ registerBytes values))).run peer =
        some (paOk, peer') ∧ (multipleRegisters addr values).Received peer' := by
  have hn := count_toNat values.length (by omega)
  generalize UInt16.ofNat values.length = count at hn
  have he := expectedLen_multiple 0x10 addr count (registerBytes values) (values.length * 2)
    peer.slave (.inr rfl) (by simp; omega) (by omega)
  have hr : ∃ r, (parseWriteMultipleRegisters (writeHeader 0x10 addr count (values.length * 2) ++
      registerBytes values ++ crcBytes (peer.slave ::
        (writeHeader 0x10 addr count (values.length * 2) ++ registerBytes values)))
      (writeHeader 0x10 addr count (values.length * 2) ++ registerBytes values).length).run
        { peer.request with slaveDataValid := false } = some (paOk, r) ∧
      r.slaveAddr = addr ∧ r.slaveCount = count ∧ values <+: r.slaveRegData.toList := by
    have hv := registersAt_registerBytes (writeHeader 0x10 addr count (values.length * 2))
      (crcBytes (peer.slave ::
        (writeHeader 0x10 addr count (values.length * 2) ++ registerBytes values))) values
    rw [List.append_assoc] at hv ⊢
    obtain ⟨ha, hc, bc, hb, hm⟩ := writeHeader_fields 0x10 addr count (values.length * 2)
      (registerBytes values ++ crcBytes _) (by omega)
    exact ⟨_, (parseWriteMultipleRegisters_accepts _ _ _ _).mpr ⟨by simp, addr, ha, count, hc,
      by omega, bc, hb, by simp; omega, by omega, values, by omega, hv, by omega, rfl⟩, rfl, rfl,
      patch_prefix _ _ (by omega)⟩
  obtain ⟨r, hr, ha, hc, hs⟩ := hr
  refine ⟨_, (slaveFeed_framed peer _ 0x10 _ hf rfl ?_).mpr ⟨rfl, r, hr, rfl⟩, rfl, ha, ?_, hs⟩
  · rw [he]
    simp
    omega
  · rw [hc, hn]
    rfl

theorem feed_fitting (req : WriteRequest) (pdu : Bytes) (peer : PaModbus τ)
    (hf : peer.framerType = .rtu) (hv : req.Valid) (he : req.Encodes pdu) (hfit : req.Fits) :
    ∃ peer', (paModbusSlaveFeed (rtuFrame peer.slave pdu)).run peer = some (paOk, peer') ∧
      req.Received peer' := by
  cases req with
  | singleCoil addr value =>
    obtain rfl := he
    have ha (crc : Bytes) := get16_put16 [0x05] (put16 (if value ≠ 0 then 0xFF00 else 0x0000) ++ crc)
      addr 1 rfl
    have hx (crc : Bytes) := get16_put16 ([0x05] ++ put16 addr) (crc)
      (if value ≠ 0 then 0xFF00 else 0x0000) 3 rfl
    have hr (crc : Bytes) (r : SlaveRequest) := (parseWriteSingleCoil_accepts _ 5 r _).mpr
      ⟨le_rfl, addr, ha crc, _, hx crc, rfl⟩
    refine ⟨_, (slaveFeed_framed peer _ 0x05 _ hf rfl rfl).mpr ⟨rfl, _, hr _ _, rfl⟩, rfl, rfl,
      rfl, ?_⟩
    intro i v hi
    obtain ⟨rfl, rfl⟩ : i = 0 ∧ v = value := by
      cases i with
      | zero => simpa [eq_comm] using hi
      | succ i => simp at hi
    rw [bitAt_patch _ _ _ (by simp) (by simp)]
    by_cases hz : v = 0
    · simp [hz, bitAt]
    · simp [hz, bitAt]
  | singleRegister addr value =>
    obtain rfl := he
    have ha (crc : Bytes) := get16_put16 [0x06] (put16 value ++ crc) addr 1 rfl
    have hx (crc : Bytes) := get16_put16 ([0x06] ++ put16 addr) (crc) value 3 rfl
    have hr (crc : Bytes) (r : SlaveRequest) := (parseWriteSingleRegister_accepts _ 5 r _).mpr
      ⟨le_rfl, addr, ha crc, value, hx crc, rfl⟩
    exact ⟨_, (slaveFeed_framed peer _ 0x06 _ hf rfl rfl).mpr ⟨rfl, _, hr _ _, rfl⟩, rfl, rfl, rfl,
      patch_prefix _ _ (by simp)⟩
  | multipleCoils addr values =>
    obtain ⟨bits, hl, hp, rfl⟩ := he
    exact feed_multipleCoils addr values bits peer hf hv.1 hfit hl hp
  | multipleRegisters addr values =>
    obtain rfl := he
    exact feed_multipleRegisters addr values peer hf hv.1 hv.2
  | maskRegister addr andMask orMask =>
    obtain rfl := he
    have ha (crc : Bytes) := get16_put16 [0x16] (put16 andMask ++ put16 orMask ++ crc)
      addr 1 rfl
    have hm (crc : Bytes) := get16_put16 ([0x16] ++ put16 addr) (put16 orMask ++ crc)
      andMask 3 rfl
    have ho (crc : Bytes) := get16_put16 ([0x16] ++ put16 addr ++ put16 andMask) (crc)
      orMask 5 rfl
    have hr (crc : Bytes) (r : SlaveRequest) := (parseMaskWriteRegister_accepts _ 7 r _).mpr
      ⟨le_rfl, addr, ha crc, andMask, hm crc, orMask, ho crc, rfl⟩
    exact ⟨_, (slaveFeed_framed peer _ 0x16 _ hf rfl rfl).mpr ⟨rfl, _, hr _ _, rfl⟩, rfl, rfl, rfl,
      patch_prefix _ _ (by simp)⟩

/-- More than 33 bytes of coils are refused. -/
theorem feed_unfitting (req : WriteRequest) (pdu : Bytes) (peer peer' : PaModbus τ)
    (hf : peer.framerType = .rtu) (hv : req.Valid) (he : req.Encodes pdu) (hfit : ¬ req.Fits) :
    (paModbusSlaveFeed (rtuFrame peer.slave pdu)).run peer ≠ some (paOk, peer') := by
  cases req with
  | multipleCoils addr values =>
    obtain ⟨bits, hl, hp, rfl⟩ := he
    obtain ⟨h1, h2⟩ := hv
    have hbig : 264 < values.length := Nat.lt_of_not_le hfit
    have hlen := expectedLen_multiple 0x0F addr (UInt16.ofNat values.length) bits
      ((values.length + 7) / 8) peer.slave (.inl rfl) hl (by omega)
    intro hfeed
    rw [slaveFeed_framed peer _ 0x0F _ hf rfl (by rw [hlen]; simp; omega)] at hfeed
    obtain ⟨-, r, hr, -⟩ := hfeed
    obtain ⟨-, -, -, -, -, -, bc, hb, -, hbc, -⟩ := (parseWriteMultipleCoils_accepts _ _ _ _).mp hr
    rw [List.append_assoc] at hb
    obtain ⟨-, -, bc', hb', hm⟩ := writeHeader_fields 0x0F addr (UInt16.ofNat values.length)
      ((values.length + 7) / 8) (bits ++ crcBytes _) (by omega)
    rw [hb', Option.some.injEq] at hb
    subst hb
    omega
  | _ => exact absurd trivial hfit

/-- Write requests round-trip exactly when they write at most 264 coils. -/
theorem write_round_trip_iff (req : WriteRequest) (w : World σ) (peer : PaModbus τ)
    (hf : w.ctx.framerType = .rtu) (hp : peer.framerType = .rtu) (hs : peer.slave = w.ctx.slave)
    (hv : req.Valid) (hbuf : req.pduLen + 3 ≤ w.ctx.txbuf.cells.length) :
    req.RoundTrips w peer ↔ req.Fits := by
  obtain ⟨pdu, ret, w', he, hw, hret, hsent⟩ := build_sent req w hf hv hbuf
  rw [← hs] at hsent
  constructor
  · rintro ⟨ret', w'', hw', -, peer', hfeed, -⟩
    obtain rfl : w' = w'' := by
      rw [hw, Option.some.injEq, Prod.mk.injEq] at hw'
      exact hw'.2
    rw [hsent] at hfeed
    by_contra hfit
    exact feed_unfitting req pdu peer peer' hp hv he hfit hfeed
  · intro hfit
    obtain ⟨peer', hfeed, hr⟩ := feed_fitting req pdu peer hp hv he hfit
    rw [← hsent] at hfeed
    exact ⟨ret, w', hw, hret, peer', hfeed, hr⟩

def writer : World Unit := ⟨station .rtu 1 64 64, (), 1, []⟩

theorem three_coils_round_trip :
    (multipleCoils 0x0010 [1, 0, 1]).RoundTrips writer writer.ctx := by
  have hfit : (multipleCoils 0x0010 [1, 0, 1]).Fits := Nat.le_of_ble_eq_true rfl
  exact (write_round_trip_iff (multipleCoils 0x0010 [1, 0, 1]) writer writer.ctx rfl rfl rfl
    ⟨by decide, by decide⟩ (by decide)).mpr hfit

/-- 265 coils take 34 bytes, one more than the slave can hold. -/
theorem many_coils_refused :
    ¬ (multipleCoils 0 (List.replicate 265 1)).RoundTrips writer writer.ctx := by
  have hlen : (List.replicate 265 (1 : UInt8)).length = 265 := List.length_replicate
  have hv : (multipleCoils 0 (List.replicate 265 1)).Valid := by
    rw [Valid, hlen]
    decide
  obtain ⟨pdu, ret, w', he, hw, -, hsent⟩ := build_sent (multipleCoils 0 (List.replicate 265 1))
    writer rfl hv (by rw [pduLen, hlen]; decide)
  rintro ⟨ret', w'', hw', -, peer', hfeed, -⟩
  obtain rfl : w' = w'' := by
    rw [hw, Option.some.injEq, Prod.mk.injEq] at hw'
    exact hw'.2
  rw [hsent] at hfeed
  refine feed_unfitting _ pdu writer.ctx peer' rfl hv he ?_ hfeed
  rw [Fits, hlen]
  decide

end Pamodbus.WriteRequests
