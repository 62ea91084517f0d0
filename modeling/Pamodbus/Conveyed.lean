import Pamodbus.MasterResults
import Pamodbus.Transactions

namespace Pamodbus.Conveyed

open Pamodbus.Lib.Banks Pamodbus.Lib.Cells Pamodbus.Lib.Procedure Pamodbus.Lib.Words
open Pamodbus.Context Pamodbus.Crc16 Pamodbus.FramerRtu Pamodbus.Framer Pamodbus.Builders
open Pamodbus.SlaveParse Pamodbus.SlaveAccept Pamodbus.MasterParse Pamodbus.Feed
open Pamodbus.Addresses Pamodbus.ReadRequests Pamodbus.WriteRequests
open Pamodbus.EndToEnd Pamodbus.Exceptions Pamodbus.Transactions

variable {σ τ : Type}

/-- A master that asked for `x` and is fed the frame of the PDU learns `reply`. It
takes no frame for what stays unanswered. -/
def Learns (m : PaModbus τ) (id : UInt8) (x : Transaction) (pdu : Bytes) (reply : Reply) : Prop :=
  if reply = .unanswered then ∃ r, unwrap m (rtuFrame id pdu) = some (.ret r)
  else unwrap m (rtuFrame id pdu) = some (.ok 1 pdu.length) ∧
    ∃ ret m', (paModbusMasterFeed (rtuFrame id pdu)).run m = some (ret, m') ∧ ret ≤ 0 ∧
      observe m' ret x = some reply

def Conveys (τ : Type) (id : UInt8) (x : Transaction) (pdu : Bytes) (reply : Reply) : Prop :=
  ∀ m : PaModbus τ, m.framerType = .rtu → accepts m id = true → Learns m id x pdu reply

theorem conveys_of_own {id : UInt8} {x : Transaction} {pdu : Bytes} {reply : Reply}
    (h : ∀ m : PaModbus τ, m.framerType = .rtu → m.slave = id → Learns m id x pdu reply) :
    Conveys τ id x pdu reply := by
  intro m hf ha
  have hown := h (paModbusSetSlave id m) hf rfl
  rw [Learns, unwrap_readdressed hf ha] at hown
  rw [Learns]
  split
  next hsilent =>
    rw [if_pos hsilent] at hown
    exact hown
  next hsilent =>
    rw [if_neg hsilent] at hown
    obtain ⟨hu, ret, own, hfed, hret, hobserve⟩ := hown
    obtain ⟨m', hfeed, rfl⟩ := masterFeed_readdressed hf ha hfed
    exact ⟨hu, ret, m', hfeed, hret, hobserve⟩

theorem mapM_defined {α β : Type} {f : α → Option β} {g : α → β} {xs : List α}
    (h : ∀ a ∈ xs, f a = some (g a)) : xs.mapM f = some (xs.map g) := by
  induction xs with
  | nil => rfl
  | cons a xs ih =>
    rw [List.mapM_cons, h a (by simp), ih fun b hb => h b (by simp [hb])]
    rfl

theorem counted_whole (fc byteCount : UInt8) (payload : Bytes) (m : PaModbus τ)
    (hf : m.framerType = .rtu) (hfc : fc = 0x01 ∨ fc = 0x02 ∨ fc = 0x03 ∨ fc = 0x04)
    (hn : 0 < byteCount.toNat ∧ byteCount.toNat ≤ 250) (hl : payload.length = byteCount.toNat) :
    unwrap m (rtuFrame m.slave ([fc, byteCount] ++ payload)) =
      some (.ok 1 ([fc, byteCount] ++ payload).length) := by
  have he := ResponseFrames.expectedLen_counted fc m.slave byteCount payload hfc hn
  have hlen : byteCount.toNat + 5 = (byteCount :: payload).length + 4 := by
    rw [List.length_cons]
    omega
  rw [hlen] at he
  rw [unwrap_rtu m _ hf]
  exact unwrap_frame m m.slave fc (byteCount :: payload) he (accepts_self m)

theorem bits_conveyed (kind : ReadKind) (addr count : UInt16) (id : UInt8) (t : Tables)
    (values : Bytes) (hk : kind = .coils ∨ kind = .discreteInputs)
    (hc : 1 ≤ count.toNat ∧ count.toNat ≤ 264) (hl : values.length = coilBytes count)
    (hbits : ∀ i < count.toNat, bitAt values i = (t.bank kind).coils (addr.toNat + i)) :
    Conveys τ id (.read kind addr count)
      ([kind.code, UInt8.ofNat (coilBytes count)] ++ values) (t.shown addr count kind) := by
  refine conveys_of_own fun m hf hid => ?_
  subst hid
  rw [Learns]
  have hbytes : 0 < coilBytes count ∧ coilBytes count ≤ 33 := by
    rw [coilBytes]
    omega
  have hb : (UInt8.ofNat (coilBytes count)).toNat = coilBytes count := by
    rw [UInt8.toNat_ofNat']
    omega
  have hfc : kind.code = 0x01 ∨ kind.code = 0x02 ∨ kind.code = 0x03 ∨ kind.code = 0x04 := by
    rcases hk with rfl | rfl
    · exact .inl rfl
    · exact .inr (.inl rfl)
  have hblock (rest : Bytes) : block ([kind.code, UInt8.ofNat (coilBytes count)] ++ values ++ rest)
      2 (UInt8.ofNat (coilBytes count)).toNat = some values := by
    have hdrop : ([kind.code, UInt8.ofNat (coilBytes count)] ++ values ++ rest).drop 2 =
      values ++ rest := rfl
    rw [block_eq _ _ _ (by simp [hl, hb]; omega), hdrop, List.take_left' (by omega)]
  have hcase (data : Bytes) (n : Nat) : parseResponse kind.code data n = parseReadBits data n := by
    rcases hk with rfl | rfl
    · rfl
    · rfl
  have hshown : t.shown addr count kind = .bits ((readRange (t.bank kind).coils addr.toNat
      count.toNat).map fun b => if b then 1 else 0) := by
    rcases hk with rfl | rfl
    · rfl
    · rfl
  have hfeed := feed_response m kind.code (UInt8.ofNat (coilBytes count)) values _ hf hfc
    (by omega) (by omega) (by
      rw [hcase]
      exact parseReadBits_run _ values _ _ _ rfl (by omega) (by omega) (hblock _))
  rw [hshown, if_neg (by simp)]
  refine ⟨counted_whole _ _ _ m hf hfc (by omega) (by omega), paOk, _, hfeed, le_rfl, ?_⟩
  generalize hm : ({ m with
    lastFunction := kind.code
    result := { m.result with
      lastError := paOk
      lastException := 0
      lastCoilData := patch m.result.lastCoilData values
      lastCoilCount := UInt16.ofNat ((UInt8.ofNat (coilBytes count)).toNat * 8)
      lastRegCount := 0 } } : PaModbus τ) = m'
  have hvalues : (List.range count.toNat).mapM (fun i => paModbusGetCoil m' (UInt16.ofNat i)) =
      some ((List.range count.toNat).map fun i =>
        if (t.bank kind).coils (addr.toNat + i) then 1 else 0) := by
    apply mapM_defined
    intro i hi
    rw [List.mem_range] at hi
    have hidx : (UInt16.ofNat i).toNat = i := by
      rw [UInt16.toNat_ofNat']
      omega
    have hdiv : i / 8 < values.length := by
      rw [hl, coilBytes]
      omega
    subst hm
    rw [getCoil_eq _ _ ?_ (by omega)]
    · dsimp only
      rw [hidx, bitAt_patch _ _ _ hdiv (by omega), hbits i hi]
    · rw [UInt16.lt_iff_toNat_lt, hidx, UInt16.toNat_ofNat', hb]
      rw [coilBytes] at hbytes ⊢
      omega
  unfold observe
  rw [if_neg (by decide), if_neg (by decide), if_neg (by simp)]
  rcases hk with rfl | rfl
  · simp only [hvalues, readRange, List.map_map]
    rfl
  · simp only [hvalues, readRange, List.map_map]
    rfl

theorem words_conveyed (kind : ReadKind) (addr count : UInt16) (id : UInt8) (t : Tables)
    (hk : kind = .holdingRegisters ∨ kind = .inputRegisters)
    (hc : 1 ≤ count.toNat ∧ count.toNat ≤ 125) :
    Conveys τ id (.read kind addr count)
      ([kind.code, UInt8.ofNat (count.toNat * 2)] ++
        registerBytes (readRange (t.bank kind).registers addr.toNat count.toNat))
      (t.shown addr count kind) := by
  refine conveys_of_own fun m hf hid => ?_
  subst hid
  rw [Learns]
  have hb : (UInt8.ofNat (count.toNat * 2)).toNat = count.toNat * 2 := by
    rw [UInt8.toNat_ofNat']
    omega
  have hfc : kind.code = 0x01 ∨ kind.code = 0x02 ∨ kind.code = 0x03 ∨ kind.code = 0x04 := by
    rcases hk with rfl | rfl
    · exact .inr (.inr (.inl rfl))
    · exact .inr (.inr (.inr rfl))
  have hcase (data : Bytes) (n : Nat) :
      parseResponse kind.code data n = parseReadRegisters data n := by
    rcases hk with rfl | rfl
    · rfl
    · rfl
  have hshown : t.shown addr count kind =
      .words (readRange (t.bank kind).registers addr.toNat count.toNat) := by
    rcases hk with rfl | rfl
    · rfl
    · rfl
  have hl : (readRange (t.bank kind).registers addr.toNat count.toNat).length = count.toNat :=
    readRange_length ..
  have hbytes : (registerBytes (readRange (t.bank kind).registers addr.toNat
      count.toNat)).length = (UInt8.ofNat (count.toNat * 2)).toNat := by
    rw [registerBytes_length, hl, hb, Nat.mul_comm]
  have hfeed := feed_response m kind.code (UInt8.ofNat (count.toNat * 2)) _ _ hf hfc (by omega)
    hbytes (by
      rw [hcase]
      exact parseReadRegisters_run _ _ _ _ _ rfl (by omega) (by omega)
        (registersAt_registerBytes [kind.code, UInt8.ofNat (count.toNat * 2)] _
          (readRange (t.bank kind).registers addr.toNat count.toNat)))
  rw [hshown, if_neg (by simp)]
  refine ⟨counted_whole _ _ _ m hf hfc (by omega) hbytes, paOk, _, hfeed, le_rfl, ?_⟩
  generalize hm : ({ m with
    lastFunction := kind.code
    result := { m.result with
      lastError := paOk
      lastException := 0
      lastRegData := patch m.result.lastRegData
        (readRange (t.bank kind).registers addr.toNat count.toNat)
      lastCoilCount := 0
      lastRegCount := UInt16.ofNat ((UInt8.ofNat (count.toNat * 2)).toNat / 2) } } :
        PaModbus τ) = m'
  have hvalues : (List.range count.toNat).mapM (fun i => paModbusGetRegister m' (UInt16.ofNat i)) =
      some (readRange (t.bank kind).registers addr.toNat count.toNat) := by
    apply mapM_defined
    intro i hi
    rw [List.mem_range] at hi
    have hidx : (UInt16.ofNat i).toNat = i := by
      rw [UInt16.toNat_ofNat']
      omega
    have hlast : UInt16.ofNat i < UInt16.ofNat ((UInt8.ofNat (count.toNat * 2)).toNat / 2) := by
      rw [UInt16.lt_iff_toNat_lt, hidx, UInt16.toNat_ofNat', hb]
      omega
    subst hm
    rw [paModbusGetRegister, if_neg (UInt16.not_le.mpr hlast)]
    dsimp only
    rw [hidx, patch_getElem? _ _ _ (by omega) (by omega), readRange_getElem? _ _ _ _ hi]
  unfold observe
  rw [if_neg (by decide), if_neg (by decide), if_neg (by simp)]
  rcases hk with rfl | rfl
  · simp only [hvalues]
    rfl
  · simp only [hvalues]
    rfl

theorem fixed_conveyed (request : WriteRequest) (fc : UInt8) (body : Bytes) (id : UInt8)
    (hplain : fc &&& 0x80 = 0)
    (hlen : expectedLen fc (rtuFrame id (fc :: body)) = some (.ok (body.length + 4)))
    (hparse : ∀ (rest : Bytes) (r : MasterResult), ∃ r',
      (parseResponse fc (fc :: body ++ rest) (body.length + 1)).run r = some (paOk, r')) :
    Conveys τ id (.write request) (fc :: body) .written := by
  refine conveys_of_own fun m hf hid => ?_
  subst hid
  rw [Learns]
  have hu : unwrap m (rtuFrame m.slave (fc :: body)) = some (.ok 1 (body.length + 1)) := by
    rw [unwrap_rtu m _ hf]
    exact unwrap_frame m m.slave fc body hlen (accepts_self m)
  obtain ⟨r', hr⟩ := hparse (crcBytes (m.slave :: fc :: body))
    { m.result with lastError := paOk, lastException := 0, lastCoilCount := 0, lastRegCount := 0 }
  rw [if_neg (by simp)]
  refine ⟨hu, paOk, { m with lastFunction := fc, result := r' }, ?_, le_rfl, rfl⟩
  rw [masterFeed_ok _ _ _ _ hu, parseMasterResponse, if_neg (by omega)]
  change ((access (some fc) >>= _ : Proc (PaModbus τ) Int)).run m = _
  rw [access_some, pure_bind, modify_bind_run, if_neg (not_not.mpr hplain), modify_bind_run,
    onResult, focus_run]
  change ((parseResponse fc (fc :: body ++ crcBytes _) _).run _).map _ = _
  rw [hr]
  rfl

theorem echo_conveyed (request : WriteRequest) (fc : UInt8) (addr value : UInt16) (id : UInt8)
    (hfc : fc = 0x05 ∨ fc = 0x06) :
    Conveys τ id (.write request) ([fc] ++ put16 addr ++ put16 value) .written := by
  rcases hfc with rfl | rfl
  · exact fixed_conveyed request 0x05 (put16 addr ++ put16 value) id rfl rfl fun _ r => ⟨r, rfl⟩
  · exact fixed_conveyed request 0x06 (put16 addr ++ put16 value) id rfl rfl fun _ r => ⟨r, rfl⟩

theorem mask_conveyed (request : WriteRequest) (addr andMask orMask : UInt16) (id : UInt8) :
    Conveys τ id (.write request) ([0x16] ++ put16 addr ++ put16 andMask ++ put16 orMask)
      .written := by
  refine fixed_conveyed request 0x16 (put16 addr ++ put16 andMask ++ put16 orMask) id rfl rfl
    fun rest r => ?_
  have ha := get16_put16 [0x16] (put16 andMask ++ put16 orMask ++ rest) addr 1 rfl
  have hm := get16_put16 ([0x16] ++ put16 addr) (put16 orMask ++ rest) andMask 3 rfl
  have ho := get16_put16 ([0x16] ++ put16 addr ++ put16 andMask) rest orMask 5 rfl
  have hrun : ∃ r', (MasterParse.parseMaskWriteRegister ([0x16] ++ put16 addr ++
      (put16 andMask ++ put16 orMask ++ rest)) 7).run r = some (paOk, r') := by
    rw [MasterParse.parseMaskWriteRegister, if_neg (by omega), ha, access_some, pure_bind]
    change ∃ r', (MasterParse.regStore 0 [addr] >>= fun _ => access (get16 ([0x16] ++ put16 addr ++
      put16 andMask ++ (put16 orMask ++ rest)) 3) >>= _).run r = some (paOk, r')
    rw [hm, access_some, pure_bind, MasterResults.regStore_bind [addr] [andMask] 1 rfl (by simp)]
    change ∃ r', (MasterParse.regStore 0 _ >>= fun _ => access (get16 ([0x16] ++ put16 addr ++
      put16 andMask ++ put16 orMask ++ rest) 5) >>= _).run r = some (paOk, r')
    rw [ho, access_some, pure_bind,
      MasterResults.regStore_bind ([addr] ++ [andMask]) [orMask] 2 rfl (by simp),
      MasterParse.regStore, update_bind_run, put_front _ _ (by simp)]
    exact ⟨_, rfl⟩
  exact hrun

/-- The master takes the echo of a write of several items for the front of a longer request. -/
theorem echo_unanswered (request : WriteRequest) (fc : UInt8) (addr count : UInt16) (id : UInt8)
    (hfc : fc = 0x0F ∨ fc = 0x10) :
    Conveys τ id (.write request) ([fc] ++ put16 addr ++ put16 count) .unanswered := by
  intro m hf ha
  rw [Learns, if_pos rfl]
  have hl : (rtuFrame id ([fc] ++ put16 addr ++ put16 count)).length = 8 := by simp
  have h1 : (rtuFrame id ([fc] ++ put16 addr ++ put16 count))[1]? = some fc := rfl
  obtain ⟨u, hu⟩ := Framer.unwrap_defined m (rtuFrame id ([fc] ++ put16 addr ++ put16 count))
  generalize rtuFrame id ([fc] ++ put16 addr ++ put16 count) = data at hl h1 hu ⊢
  cases u with
  | ret r => exact ⟨r, hu⟩
  | ok p n =>
    rw [unwrap_rtu m _ hf] at hu
    obtain ⟨addr', fc', body, rest, hd, he, -, -, -⟩ := (FramerRtu.unwrap_ok_iff _ _ _ _).mp hu
    have hshort : body.length + 4 ≤ 8 := by
      rw [hd] at hl
      simp at hl
      omega
    obtain rfl : fc = fc' := by
      rw [hd] at h1
      simpa [rtuFrame, eq_comm] using h1
    obtain ⟨b, h6⟩ := getElem?_some data 6 (by omega)
    rcases hfc with rfl | rfl
    all_goals
      simp only [expectedLen, hl, h6, if_neg (Nat.lt_irrefl 8), Option.bind_eq_bind,
        Option.bind_some, Option.pure_def, Option.some.injEq, Except.ok.injEq] at he
      omega

theorem exception_length (fc code id : UInt8) (hfc : 1 ≤ fc ∧ fc ≤ 0x18) :
    expectedLen (fc ||| 0x80) (rtuFrame id [fc ||| 0x80, code]) = some (.ok 5) := by
  have h127 : fc ≤ 127 := UInt8.le_trans hfc.2 (by decide)
  obtain ⟨hbit, hlow⟩ := exception_code fc h127
  unfold expectedLen
  split
  case h_19 =>
    rw [hlow, if_pos ⟨hbit, hfc⟩]
  all_goals
    next heq => exact absurd (congrArg (· &&& 0x80) heq) hbit

theorem exception_conveyed (x : Transaction) (fc code id : UInt8) (hfc : 1 ≤ fc ∧ fc ≤ 0x18) :
    Conveys τ id x [fc ||| 0x80, code] (.refused code) := by
  refine conveys_of_own fun m hf hid => ?_
  subst hid
  rw [Learns]
  have h127 : fc ≤ 127 := UInt8.le_trans hfc.2 (by decide)
  obtain ⟨m', hfeed, hcode⟩ := (exception_received_iff fc code m hf ⟨hfc.1, h127⟩).mpr hfc.2
  rw [if_neg (by simp)]
  refine ⟨?_, paErrException, m', hfeed, by decide, ?_⟩
  · rw [unwrap_rtu m _ hf]
    exact unwrap_frame m m.slave _ [code] (exception_length fc code m.slave hfc) (accepts_self m)
  · unfold observe
    rw [if_pos rfl, hcode]

end Pamodbus.Conveyed
