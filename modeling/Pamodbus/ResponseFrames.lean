import Pamodbus.Feed
import Pamodbus.FileRecords

namespace Pamodbus.ResponseFrames

open Pamodbus.Lib.Cells Pamodbus.Lib.Procedure Pamodbus.Lib.Words
open Pamodbus.Context Pamodbus.Crc16 Pamodbus.FramerRtu Pamodbus.Framer Pamodbus.Builders
open Pamodbus.SlaveParse Pamodbus.SlaveAccept Pamodbus.Respond Pamodbus.RespondRun
open Pamodbus.FileRecords

variable {σ τ β : Type}

/-- The receiver gets out of the frame that was sent exactly the PDU that was put into it. -/
def Received (slave : UInt8) (peer : PaModbus τ) (w : World σ) : Prop :=
  ∃ pdu, sent w = rtuFrame slave pdu ∧
    paFramerRtuUnwrap peer (sent w) = some (.ok 1 pdu.length)

theorem received_iff (peer : PaModbus τ) (w : World σ) (fc : UInt8) (body : Bytes)
    (hs : sent w = rtuFrame peer.slave (fc :: body)) :
    Received peer.slave peer w ↔
      expectedLen fc (rtuFrame peer.slave (fc :: body)) = some (.ok (body.length + 4)) := by
  rw [Received, hs]
  constructor
  · rintro ⟨pdu, hp, hu⟩
    have hl := congrArg List.length hp
    simp only [rtuFrame_length, List.length_cons] at hl
    obtain ⟨addr, fc', body', rest, hd, he, -, -, hn⟩ := (unwrap_ok_iff _ _ _ _).mp hu
    obtain rfl : fc = fc' := by
      have h1 := congrArg (·[1]?) hd
      simpa [rtuFrame] using h1
    rw [he]
    congr 2
    omega
  · intro he
    exact ⟨fc :: body, rfl, unwrap_frame peer _ fc body he (accepts_self peer)⟩

def Answers (Q : World σ → Prop) (run : Option (Int × World σ)) : Prop :=
  ∀ ret w, run = some (ret, w) → 0 < ret → Q w

variable {Q : World σ → Prop}

theorem answers_callback (cb : Option β) (w : World σ) (f : β → Option (Int × World σ))
    (h : ∀ b, cb = some b → Answers Q (f b)) : Answers Q (withCallback cb w f) := by
  cases cb with
  | none =>
    intro ret w' hr hret
    rw [withCallback, Option.some.injEq, Prod.mk.injEq] at hr
    rw [← hr.1] at hret
    exact absurd hret (by decide)
  | some b => exact h b rfl

theorem answers_refused {c : Prop} [Decidable c] (w : World σ) (rest : Option (Int × World σ))
    (h : ¬ c → Answers Q rest) : Answers Q (if c then some (paErrCallback, w) else rest) := by
  by_cases hc : c
  · rw [if_pos hc]
    intro ret w' hr hret
    rw [Option.some.injEq, Prod.mk.injEq] at hr
    rw [← hr.1] at hret
    exact absurd hret (by decide)
  · rw [if_neg hc]
    exact h hc

theorem answers_overrun {c : Prop} [Decidable c] (rest : Option (Int × World σ))
    (h : ¬ c → Answers Q rest) : Answers Q (if c then none else rest) := by
  by_cases hc : c
  · rw [if_pos hc]
    intro ret w' hr
    cases hr
  · rw [if_neg hc]
    exact h hc

theorem answers_reply (peer : PaModbus τ) (w : World σ) (fc : UInt8) (bytes stored : Bytes)
    (n pduLen : Nat) (d : Prop) (hf : w.ctx.framerType = .rtu) (hs : peer.slave = w.ctx.slave)
    (hst : stored = fc :: bytes) (hl : pduLen = n + 1) (hn : n ≤ 1000) (hb : n ≤ bytes.length)
    (he : expectedLen fc (rtuFrame peer.slave (fc :: bytes.take n)) = some (.ok (n + 4)) ↔ d) :
    Answers (fun w' => Received peer.slave peer w' ↔ d) ((reply stored pduLen).run w) := by
  subst hst hl
  intro ret w' hr hret
  have hsent := reply_sent _ _ w w' ret hf (by omega) (by simpa using hb) hr hret
  rw [List.take_succ_cons, ← hs] at hsent
  rw [received_iff peer w' fc _ hsent, List.length_take_of_le hb]
  exact he

theorem expectedLen_counted (fc slave byteCount : UInt8) (payload : Bytes)
    (hfc : fc = 0x01 ∨ fc = 0x02 ∨ fc = 0x03 ∨ fc = 0x04)
    (h : 0 < byteCount.toNat ∧ byteCount.toNat ≤ 250) :
    expectedLen fc (rtuFrame slave (fc :: byteCount :: payload)) =
      some (.ok (byteCount.toNat + 5)) := by
  have h2 : (rtuFrame slave (fc :: byteCount :: payload))[2]? = some byteCount := rfl
  have hl : 4 ≤ (rtuFrame slave (fc :: byteCount :: payload)).length := by
    simp
  have hcount : byteCount.toNat ≤ 250 ∧ 0 < byteCount.toNat := ⟨h.2, h.1⟩
  have he : 3 + byteCount.toNat + 2 = byteCount.toNat + 5 := by omega
  rcases hfc with rfl | rfl | rfl | rfl
  all_goals
    simp only [expectedLen, if_pos hl, h2, Option.bind_eq_bind, Option.bind_some, Option.pure_def,
      if_pos hcount, he]

theorem expectedLen_serverId (slave byteCount : UInt8) (payload : Bytes)
    (hp : payload.length = byteCount.toNat) (h : byteCount.toNat ≤ 250) :
    expectedLen 0x11 (rtuFrame slave (0x11 :: byteCount :: payload)) =
      some (.ok (byteCount.toNat + 5)) := by
  have h2 : (rtuFrame slave (0x11 :: byteCount :: payload))[2]? = some byteCount := rfl
  have hl : (rtuFrame slave (0x11 :: byteCount :: payload)).length = byteCount.toNat + 5 := by
    simp [hp]
  have he : 3 + byteCount.toNat + 2 = byteCount.toNat + 5 := by omega
  by_cases h0 : byteCount.toNat = 0
  · simp only [expectedLen, hl, h0, Option.pure_def]
    rfl
  · have h4 : ¬ byteCount.toNat + 5 = 4 := by omega
    have h5 : ¬ byteCount.toNat + 5 = 5 := by omega
    have hlong : 5 < byteCount.toNat + 5 := by omega
    have hcount : 0 < byteCount.toNat ∧ byteCount.toNat ≤ 250 ∧
        byteCount.toNat + 5 ≤ byteCount.toNat + 5 := by omega
    simp only [expectedLen, hl, h2, if_neg h4, if_neg h5, if_pos hlong, Option.bind_eq_bind,
      Option.bind_some, Option.pure_def, he, if_pos hcount]

/-- The echo of a write of several items is a byte short of any length its
check value could stand for. -/
theorem expectedLen_echo (fc slave : UInt8) (body : Bytes) (hfc : fc = 0x0F ∨ fc = 0x10)
    (hb : body.length = 4) :
    expectedLen fc (rtuFrame slave (fc :: body)) ≠ some (.ok 8) := by
  have hl : (rtuFrame slave (fc :: body)).length = 8 := by simp [hb]
  obtain ⟨b, h6⟩ := getElem?_some (rtuFrame slave (fc :: body)) 6 (by omega)
  rcases hfc with rfl | rfl
  all_goals
    simp only [expectedLen, hl, h6, if_neg (Nat.lt_irrefl 8), Option.bind_eq_bind,
      Option.bind_some, Option.pure_def, ne_eq, Option.some.injEq, Except.ok.injEq]
    omega

theorem expectedLen_fileRecord (fc slave : UInt8) (body : Bytes) (hfc : fc = 0x14 ∨ fc = 0x15) :
    expectedLen fc (rtuFrame slave (fc :: body)) = some (.ok (body.length + 4)) ↔
      4 ≤ body.length := by
  have hl : (rtuFrame slave (fc :: body)).length = body.length + 4 := by simp
  rcases hfc with rfl | rfl
  all_goals
    simp only [expectedLen, hl]
    split
    · simp
      omega
    · simp
      omega

theorem registerBytes_getElem? (values : List UInt16) (i : Nat) :
    (registerBytes values)[2 * i]? = values[i]?.map hiByte := by
  induction values generalizing i with
  | nil => rfl
  | cons v values ih =>
    cases i with
    | zero => rfl
    | succ i => exact ih i

/-- The response to a read and write of registers passes for a request, with
the high byte of the fourth register as its byte count. -/
theorem expectedLen_readWrite (slave byteCount : UInt8) (values : List UInt16) :
    expectedLen 0x17 (rtuFrame slave (0x17 :: byteCount :: registerBytes values)) =
        some (.ok (values.length * 2 + 5)) ↔
      4 ≤ values.length ∧ (hiByte (values[3]?.getD 0)).toNat + 7 = values.length * 2 := by
  have hl : (rtuFrame slave (0x17 :: byteCount :: registerBytes values)).length =
      values.length * 2 + 5 := by
    simp
    omega
  by_cases h3 : values.length < 3
  · have hshort : values.length * 2 + 5 < 11 := by omega
    simp only [expectedLen, hl, if_pos hshort]
    simp
    omega
  obtain ⟨b, h9⟩ := getElem?_some (rtuFrame slave (0x17 :: byteCount :: registerBytes values)) 9
    (by omega)
  have hlong : ¬ values.length * 2 + 5 < 11 := by omega
  simp only [expectedLen, hl, h9, if_neg hlong, Option.bind_eq_bind, Option.bind_some,
    Option.pure_def, Option.some.injEq, Except.ok.injEq]
  by_cases h4 : values.length = 3
  · omega
  · obtain ⟨v, hv⟩ := getElem?_some values 3 (by omega)
    have hb : hiByte v = b := by
      have hr : (registerBytes values)[6]? = some (hiByte v) := by
        rw [registerBytes_getElem? values 3, hv, Option.map_some]
      rw [rtuFrame, List.cons_append, List.getElem?_cons_succ, List.cons_append,
        List.getElem?_cons_succ, List.cons_append, List.getElem?_cons_succ,
        List.getElem?_append_left (by simp; omega), hr, Option.some.injEq] at h9
      exact h9
    rw [hv, Option.getD_some, hb]
    omega

variable (residue : Residue) (fc : UInt8) (w : World σ) (peer : PaModbus τ)

theorem answers_fixed (bytes stored : Bytes) (pduLen expected : Nat) (d : Prop)
    (hst : stored = fc :: bytes) (hx : ∀ data, expectedLen fc data = some (.ok expected))
    (hf : w.ctx.framerType = .rtu) (hs : peer.slave = w.ctx.slave)
    (hn : 1 ≤ pduLen ∧ pduLen ≤ 1000) (hb : pduLen ≤ stored.length)
    (hd : expected = pduLen + 3 ↔ d) :
    Answers (fun w' => Received peer.slave peer w' ↔ d) ((reply stored pduLen).run w) := by
  obtain ⟨n, rfl⟩ : ∃ n, pduLen = n + 1 := ⟨pduLen - 1, by omega⟩
  refine answers_reply peer w fc bytes stored n _ _ hf hs hst rfl (by omega)
    (by simpa [hst] using hb) ?_
  rw [hx, Option.some.injEq, Except.ok.injEq]
  exact hd

theorem readBits_received (cb : Option (ReadCoilsFn σ)) (call : UInt16 → UInt16 → Call)
    (hfc : fc = 0x01 ∨ fc = 0x02) (hf : w.ctx.framerType = .rtu) (hs : peer.slave = w.ctx.slave)
    (hc : 1 ≤ w.ctx.request.slaveCount.toNat) :
    Answers (fun w' => Received peer.slave peer w' ↔ True)
      ((respondReadBits fc cb call >>= conclude).run w) := by
  rw [respondReadBits_run fc cb call w _ _ rfl rfl]
  refine answers_callback _ _ _ fun f _ => answers_overrun _ fun h => answers_refused _ _ fun _ => ?_
  generalize f w.ctx.request.slaveAddr w.ctx.request.slaveCount w.app = r
  have hb : 1 ≤ coilBytes w.ctx.request.slaveCount := by
    rw [coilBytes]
    omega
  have ho : (UInt8.ofNat (coilBytes w.ctx.request.slaveCount)).toNat =
      coilBytes w.ctx.request.slaveCount := by
    rw [UInt8.toNat_ofNat']
    omega
  refine answers_reply peer _ fc (UInt8.ofNat (coilBytes w.ctx.request.slaveCount) :: r.2.1.toList)
    _ (coilBytes w.ctx.request.slaveCount + 1) _ _ hf hs rfl (by omega) (by omega) (by simp) ?_
  rw [List.take_of_length_le (by simp), expectedLen_counted fc _ _ _ (by tauto) (by omega), ho]
  exact iff_of_true rfl trivial

theorem readRegisters_received (cb : Option (ReadRegistersFn σ)) (call : UInt16 → UInt16 → Call)
    (hfc : fc = 0x03 ∨ fc = 0x04) (hf : w.ctx.framerType = .rtu) (hs : peer.slave = w.ctx.slave)
    (hc : 1 ≤ w.ctx.request.slaveCount.toNat ∧ w.ctx.request.slaveCount.toNat ≤ 125) :
    Answers (fun w' => Received peer.slave peer w' ↔ True)
      ((respondReadRegisters residue fc cb call >>= conclude).run w) := by
  rw [respondReadRegisters_run residue fc cb call w _ _ rfl rfl]
  refine answers_callback _ _ _ fun f _ => answers_overrun _ fun _ => answers_refused _ _ fun _ => ?_
  generalize f w.ctx.request.slaveAddr w.ctx.request.slaveCount w.app = r
  have ho : (UInt8.ofNat (w.ctx.request.slaveCount.toNat * 2)).toNat =
      w.ctx.request.slaveCount.toNat * 2 := by
    rw [UInt8.toNat_ofNat']
    omega
  refine answers_reply peer _ fc (UInt8.ofNat (w.ctx.request.slaveCount.toNat * 2) ::
    registerBytes r.2.1.toList) _ (w.ctx.request.slaveCount.toNat * 2 + 1) _ _ hf hs rfl
    (by omega) (by omega) (by simp; omega) ?_
  rw [List.take_of_length_le (by simp; omega), expectedLen_counted fc _ _ _ (by tauto) (by omega),
    ho]
  exact iff_of_true rfl trivial

theorem writeSingleCoil_received (hf : w.ctx.framerType = .rtu) (hs : peer.slave = w.ctx.slave) :
    Answers (fun w' => Received peer.slave peer w' ↔ True)
      ((respondWriteSingleCoil 0x05 >>= conclude).run w) := by
  obtain ⟨v, hv⟩ := getElem?_some w.ctx.request.slaveCoilData.toList 0 (by simp)
  rw [respondWriteSingleCoil_run 0x05 w _ v rfl hv]
  refine answers_callback _ _ _ fun cb _ => answers_refused _ _ fun _ => ?_
  exact answers_fixed 0x05 _ peer _ _ 5 8 _ rfl (fun _ => rfl) hf hs (by decide) (by simp)
    (by decide)

theorem writeSingleRegister_received (hf : w.ctx.framerType = .rtu)
    (hs : peer.slave = w.ctx.slave) :
    Answers (fun w' => Received peer.slave peer w' ↔ True)
      ((respondWriteSingleRegister 0x06 >>= conclude).run w) := by
  obtain ⟨v, hv⟩ := getElem?_some w.ctx.request.slaveRegData.toList 0 (by simp)
  rw [respondWriteSingleRegister_run 0x06 w _ v rfl hv]
  refine answers_callback _ _ _ fun cb _ => answers_refused _ _ fun _ => ?_
  exact answers_fixed 0x06 _ peer _ _ 5 8 _ rfl (fun _ => rfl) hf hs (by decide) (by simp)
    (by decide)

theorem exceptionStatus_received (hf : w.ctx.framerType = .rtu) (hs : peer.slave = w.ctx.slave) :
    Answers (fun w' => Received peer.slave peer w' ↔ False)
      ((respondExceptionStatus residue 0x07 >>= conclude).run w) := by
  rw [respondExceptionStatus_run]
  refine answers_callback _ _ _ fun f _ => answers_refused _ _ fun _ => ?_
  exact answers_fixed 0x07 _ peer _ _ 2 8 _ rfl (fun _ => rfl) hf hs (by decide)
    (by simp [coilBytes]) (by decide)

theorem diagnostic_received (hf : w.ctx.framerType = .rtu) (hs : peer.slave = w.ctx.slave) :
    Answers (fun w' => Received peer.slave peer w' ↔ True)
      ((respondDiagnostic 0x08 >>= conclude).run w) := by
  obtain ⟨v, hv⟩ := getElem?_some w.ctx.request.slaveRegData.toList 0 (by simp)
  rw [respondDiagnostic_run 0x08 w _ v rfl hv]
  exact answers_fixed 0x08 w peer _ _ 5 8 _ rfl (fun _ => rfl) hf hs (by decide) (by simp)
    (by decide)

theorem comEventCounter_received (hf : w.ctx.framerType = .rtu) (hs : peer.slave = w.ctx.slave) :
    Answers (fun w' => Received peer.slave peer w' ↔ True)
      ((respondComEventCounter residue 0x0B >>= conclude).run w) := by
  rw [respondComEventCounter_run]
  refine answers_callback _ _ _ fun f _ => answers_refused _ _ fun _ => ?_
  exact answers_fixed 0x0B _ peer _ _ 5 8 _ rfl (fun _ => rfl) hf hs (by decide) (by simp)
    (by decide)

theorem comEventLog_received (hf : w.ctx.framerType = .rtu) (hs : peer.slave = w.ctx.slave) :
    Answers (fun w' => Received peer.slave peer w' ↔ False)
      ((respondComEventLog residue 0x0C >>= conclude).run w) := by
  rw [respondComEventLog_run]
  refine answers_callback _ _ _ fun f _ => answers_refused _ _ fun _ => ?_
  exact answers_fixed 0x0C _ peer _ _ 12 8 _ rfl (fun _ => rfl) hf hs (by decide) (by simp)
    (by decide)

theorem answers_echo (addr count : UInt16) (hfc : fc = 0x0F ∨ fc = 0x10)
    (hf : w.ctx.framerType = .rtu) (hs : peer.slave = w.ctx.slave) :
    Answers (fun w' => Received peer.slave peer w' ↔ False)
      ((reply ([fc] ++ put16 addr ++ put16 count) 5).run w) := by
  refine answers_reply peer w fc (put16 addr ++ put16 count) _ 4 5 _ hf hs rfl rfl (by omega)
    (by simp) (iff_false_intro ?_)
  exact expectedLen_echo fc peer.slave _ hfc (by simp)

theorem writeMultipleCoils_received (hf : w.ctx.framerType = .rtu) (hs : peer.slave = w.ctx.slave) :
    Answers (fun w' => Received peer.slave peer w' ↔ False)
      ((respondWriteMultipleCoils 0x0F >>= conclude).run w) := by
  rw [respondWriteMultipleCoils_run 0x0F w _ _ rfl rfl]
  refine answers_callback _ _ _ fun cb _ => answers_refused _ _ fun _ => ?_
  exact answers_echo 0x0F _ peer _ _ (.inl rfl) hf hs

theorem writeMultipleRegisters_received (hf : w.ctx.framerType = .rtu)
    (hs : peer.slave = w.ctx.slave) :
    Answers (fun w' => Received peer.slave peer w' ↔ False)
      ((respondWriteMultipleRegisters 0x10 >>= conclude).run w) := by
  rw [respondWriteMultipleRegisters_run 0x10 w _ _ rfl rfl]
  refine answers_callback _ _ _ fun cb _ => answers_refused _ _ fun _ => ?_
  exact answers_echo 0x10 _ peer _ _ (.inr rfl) hf hs

theorem reportServerId_received (hf : w.ctx.framerType = .rtu) (hs : peer.slave = w.ctx.slave) :
    Answers (fun w' => Received peer.slave peer w' ↔ True)
      ((respondReportServerId residue 0x11 >>= conclude).run w) := by
  rw [respondReportServerId_run]
  refine answers_callback _ _ _ fun f _ => answers_refused _ _ fun _ => ?_
  generalize f 0xFFF0 64 w.app = r
  generalize hk : min (loByte (r.2.1.toList.headD 0)).toNat 126 = k
  have ho : (UInt8.ofNat k).toNat = k := by
    rw [UInt8.toNat_ofNat']
    omega
  have hl : k ≤ (registerBytes ((r.2.1.toList.drop 1).take (min ((k + 1) / 2) 63))).length := by
    simp
    omega
  refine answers_reply peer _ 0x11 (UInt8.ofNat k :: registerBytes _) _ (k + 1) _ _ hf hs rfl
    (by omega) (by omega) (by simpa using hl) ?_
  rw [List.take_succ_cons, expectedLen_serverId _ _ _ (by rw [List.length_take_of_le hl, ho])
    (by omega), ho]
  exact iff_of_true rfl trivial

theorem maskWriteRegister_received (hf : w.ctx.framerType = .rtu) (hs : peer.slave = w.ctx.slave) :
    Answers (fun w' => Received peer.slave peer w' ↔ True)
      ((respondMaskWriteRegister residue 0x16 >>= conclude).run w) := by
  obtain ⟨andMask, orMask, hm⟩ :=
    List.length_eq_two.mp (List.length_take_of_le (i := 2) (l := w.ctx.request.slaveRegData.toList)
      (by simp))
  have hreply (w' : World σ) (hctx : w'.ctx = w.ctx) :
      Answers (fun w' => Received peer.slave peer w' ↔ True)
        ((maskReply 0x16 w.ctx.request.slaveAddr andMask orMask).run w') :=
    answers_fixed 0x16 w' peer _ _ 7 10 _ rfl (fun _ => rfl) (by rw [hctx, hf])
      (by rw [hctx, hs]) (by decide) (by simp) (by decide)
  rw [respondMaskWriteRegister_run residue 0x16 w _ andMask orMask rfl hm]
  refine answers_callback _ _ _ fun cb _ => ?_
  cases w.ctx.callbacks.readHoldingRegistersCb with
  | none => exact hreply w rfl
  | some f =>
    dsimp only
    split
    · exact hreply _ rfl
    · exact answers_refused _ _ fun _ => hreply _ rfl

theorem readFifoQueue_received (hf : w.ctx.framerType = .rtu) (hs : peer.slave = w.ctx.slave) :
    Answers (fun w' => Received peer.slave peer w' ↔ False)
      ((respondReadFifoQueue residue 0x18 >>= conclude).run w) := by
  rw [respondReadFifoQueue_run residue 0x18 w _ rfl]
  refine answers_callback _ _ _ fun f _ => answers_refused _ _ fun _ => ?_
  exact answers_fixed 0x18 _ peer _ _ _ 6 _ rfl (fun _ => rfl) hf hs (by omega) (by simp; omega)
    (iff_of_false (by omega) not_false)

theorem readFileRecord_received (hf : w.ctx.framerType = .rtu) (hs : peer.slave = w.ctx.slave)
    (hc : w.ctx.request.slaveRegCount.toNat ≤ 127) :
    Answers (fun w' => Received peer.slave peer w' ↔
        3 ≤ servedBytes w.ctx.request.slaveRegData.toList (w.ctx.request.slaveRegCount.toNat * 2)
          w.ctx.txbuf.cells.length (w.ctx.request.slaveRegCount.toNat * 2 + 1) 0 2 % 256)
      ((respondReadFileRecord residue 0x14 >>= conclude).run w) := by
  obtain ⟨left, hrun⟩ := respondReadFileRecord_run residue 0x14 w (by omega)
  rw [hrun]
  refine answers_callback _ _ _ fun cb _ => answers_overrun _ fun _ => ?_
  have hctx := readRecords_ctx cb w.ctx.request.slaveRegData.toList
    (w.ctx.request.slaveRegCount.toNat * 2) w.ctx.txbuf.cells.length
    (w.ctx.request.slaveRegCount.toNat * 2 + 1) 0 2 w
  have hlen := readRecords_length cb w.ctx.request.slaveRegData.toList
    (w.ctx.request.slaveRegCount.toNat * 2) w.ctx.txbuf.cells.length
    (w.ctx.request.slaveRegCount.toNat * 2 + 1) 0 2 w
  generalize readRecords cb w.ctx.request.slaveRegData.toList
    (w.ctx.request.slaveRegCount.toNat * 2) w.ctx.txbuf.cells.length
    (w.ctx.request.slaveRegCount.toNat * 2 + 1) 0 2 w = served at hctx hlen ⊢
  refine answers_refused _ _ fun hr => ?_
  rw [← hlen (by simpa using hr)]
  have ho : (UInt8.ofNat served.bytes.length).toNat = served.bytes.length % 256 := by
    rw [UInt8.toNat_ofNat']
  rw [ho]
  refine answers_reply peer _ 0x14 (UInt8.ofNat served.bytes.length :: served.bytes) _
    (served.bytes.length % 256 + 1) _ _ (by rw [hctx, hf]) (by rw [hctx, hs]) rfl (by omega)
    (by omega) (by simp; omega) ?_
  have hl := List.length_take_of_le (Nat.mod_le served.bytes.length 256)
  rw [List.take_succ_cons]
  have he := expectedLen_fileRecord 0x14 peer.slave (UInt8.ofNat served.bytes.length ::
    served.bytes.take (served.bytes.length % 256)) (.inl rfl)
  rw [List.length_cons, hl] at he
  exact he.trans (by omega)

theorem writeFileRecord_received (hf : w.ctx.framerType = .rtu) (hs : peer.slave = w.ctx.slave)
    (hc : w.ctx.request.slaveRegCount.toNat ≤ 127) :
    Answers (fun w' => Received peer.slave peer w' ↔ 2 ≤ w.ctx.request.slaveRegCount.toNat)
      ((respondWriteFileRecord residue 0x15 >>= conclude).run w) := by
  rw [respondWriteFileRecord_run residue 0x15 w (by omega)]
  refine answers_callback _ _ _ fun cb _ => answers_refused _ _ fun hr => ?_
  have hctx := writeRecords_ctx residue cb w.ctx.request.slaveRegData.toList
    w.ctx.request.slaveRegCount.toNat (w.ctx.request.slaveRegCount.toNat * 2 + 1) 0 w
  have ho : (UInt8.ofNat (w.ctx.request.slaveRegCount.toNat * 2)).toNat =
      w.ctx.request.slaveRegCount.toNat * 2 := by
    rw [UInt8.toNat_ofNat']
    omega
  rw [ho]
  have hl : (registerBytes (w.ctx.request.slaveRegData.toList.take
      w.ctx.request.slaveRegCount.toNat)).length = w.ctx.request.slaveRegCount.toNat * 2 := by
    simp
    omega
  refine answers_reply peer _ 0x15 (UInt8.ofNat (w.ctx.request.slaveRegCount.toNat * 2) ::
    registerBytes _) _ (w.ctx.request.slaveRegCount.toNat * 2 + 1) _ _ (by rw [hctx, hf])
    (by rw [hctx, hs]) rfl (by omega) (by omega) (by rw [List.length_cons, hl]) ?_
  rw [List.take_succ_cons, List.take_of_length_le hl.le]
  have he := expectedLen_fileRecord 0x15 peer.slave
    (UInt8.ofNat (w.ctx.request.slaveRegCount.toNat * 2) ::
      registerBytes (w.ctx.request.slaveRegData.toList.take w.ctx.request.slaveRegCount.toNat))
    (.inr rfl)
  rw [List.length_cons, hl] at he
  exact he.trans (by omega)

/-- The registers that the read callback returns after the write callback has run. -/
def readBack (w : World σ) : List UInt16 :=
  let req := w.ctx.request
  let coils := req.slaveCoilData.toList
  let writeAddr := word (coils[0]?.getD 0) (coils[1]?.getD 0)
  let writeCount := word (coils[2]?.getD 0) (coils[3]?.getD 0)
  match w.ctx.callbacks.readHoldingRegistersCb, w.ctx.callbacks.writeMultipleRegistersCb with
  | some rcb, some wcb =>
    let written := wcb writeAddr writeCount (req.slaveRegData.toList.take writeCount.toNat) w.app
    (rcb req.slaveAddr req.slaveCount written.2).2.1.toList
  | _, _ => []

theorem readWriteRegisters_received (writeAddr writeCount : UInt16)
    (hf : w.ctx.framerType = .rtu) (hs : peer.slave = w.ctx.slave)
    (hc : 1 ≤ w.ctx.request.slaveCount.toNat ∧ w.ctx.request.slaveCount.toNat ≤ 125)
    (hd : w.ctx.request.slaveCoilData.toList.take 4 =
      [hiByte writeAddr, loByte writeAddr, hiByte writeCount, loByte writeCount]) :
    Answers (fun w' => Received peer.slave peer w' ↔ 4 ≤ w.ctx.request.slaveCount.toNat ∧
        (hiByte ((readBack w)[3]?.getD 0)).toNat + 7 = w.ctx.request.slaveCount.toNat * 2)
      ((respondReadWriteRegisters residue 0x17 >>= conclude).run w) := by
  have hcell (i : Nat) (hi : i < 4) := getElem?_of_take hd hi
  rw [respondReadWriteRegisters_run residue 0x17 w _ _ writeAddr writeCount rfl rfl hd, readBack]
  dsimp only
  rw [hcell 0 (by decide), hcell 1 (by decide), hcell 2 (by decide), hcell 3 (by decide)]
  simp only [List.getElem?_cons_succ, List.getElem?_cons_zero, Option.getD_some, word_bytes]
  refine answers_callback _ _ _ fun rcb hr => answers_callback _ _ _ fun wcb hw => ?_
  rw [hr, hw]
  refine answers_refused _ _ fun _ => answers_overrun _ fun _ => answers_refused _ _ fun _ => ?_
  dsimp only
  generalize wcb writeAddr writeCount _ w.app = written
  rw [World.called_app]
  generalize rcb w.ctx.request.slaveAddr w.ctx.request.slaveCount written.2 = r
  have ho : (UInt8.ofNat (w.ctx.request.slaveCount.toNat * 2)).toNat =
      w.ctx.request.slaveCount.toNat * 2 := by
    rw [UInt8.toNat_ofNat']
    omega
  have hl : r.2.1.toList.length = w.ctx.request.slaveCount.toNat := r.2.1.toList_length
  refine answers_reply peer _ 0x17 (UInt8.ofNat (w.ctx.request.slaveCount.toNat * 2) ::
    registerBytes r.2.1.toList) _ (w.ctx.request.slaveCount.toNat * 2 + 1) _ _ hf hs rfl (by omega)
    (by omega) (by simp; omega) ?_
  rw [List.take_of_length_le (by simp; omega)]
  have he := expectedLen_readWrite peer.slave (UInt8.ofNat (w.ctx.request.slaveCount.toNat * 2))
    r.2.1.toList
  rw [hl] at he
  exact he

/-- The state before a response whose frame a master takes off the line. -/
def Receivable (w : World σ) : Prop :=
  let req := w.ctx.request
  let regCount := req.slaveRegCount.toNat
  match w.ctx.lastFunction with
  | 0x07 | 0x0C | 0x0F | 0x10 | 0x18 => False
  | 0x14 => 3 ≤ servedBytes req.slaveRegData.toList (regCount * 2) w.ctx.txbuf.cells.length
      (regCount * 2 + 1) 0 2 % 256
  | 0x15 => 2 ≤ regCount
  | 0x17 => 4 ≤ req.slaveCount.toNat ∧
      (hiByte ((readBack w)[3]?.getD 0)).toNat + 7 = req.slaveCount.toNat * 2
  | _ => True

theorem response_received_iff (residue : Residue) (ctx : PaModbus σ) (request : Bytes)
    (pduLen : Nat) (w w' : World σ) (ret : Int) (peer : PaModbus τ)
    (hparse : (parseSlaveRequest request pduLen).run ctx = some (paOk, w.ctx))
    (hf : w.ctx.framerType = .rtu)
    (hrun : (paModbusSlaveRespond residue).run w = some (ret, w')) (hret : 0 < ret)
    (hs : peer.slave = w.ctx.slave) :
    Received peer.slave peer w' ↔ Receivable w := by
  obtain ⟨-, fc, -, -, r, hr, hctx⟩ := (parseSlaveRequest_accepts _ _ _ _).mp hparse
  have hfc : w.ctx.lastFunction = fc := by rw [hctx]
  have hwf : WellFormed fc w.ctx.request := by
    rw [hctx]
    exact accepted_wellFormed fc _ _ _ r hr
  rw [respond_run, hfc] at hrun
  rw [Receivable, hfc]
  unfold WellFormed at hwf
  split at hwf
  case h_1 => exact readBits_received 0x01 w peer _ _ (.inl rfl) hf hs hwf.1 ret w' hrun hret
  case h_2 => exact readBits_received 0x02 w peer _ _ (.inr rfl) hf hs hwf.1 ret w' hrun hret
  case h_3 =>
    exact readRegisters_received residue 0x03 w peer _ _ (.inl rfl) hf hs hwf ret w' hrun hret
  case h_4 =>
    exact readRegisters_received residue 0x04 w peer _ _ (.inr rfl) hf hs hwf ret w' hrun hret
  case h_5 => exact writeSingleCoil_received w peer hf hs ret w' hrun hret
  case h_6 => exact writeSingleRegister_received w peer hf hs ret w' hrun hret
  case h_7 => exact exceptionStatus_received residue w peer hf hs ret w' hrun hret
  case h_8 => exact diagnostic_received w peer hf hs ret w' hrun hret
  case h_9 => exact comEventCounter_received residue w peer hf hs ret w' hrun hret
  case h_10 => exact comEventLog_received residue w peer hf hs ret w' hrun hret
  case h_11 => exact reportServerId_received residue w peer hf hs ret w' hrun hret
  case h_12 => exact maskWriteRegister_received residue w peer hf hs ret w' hrun hret
  case h_13 => exact readFifoQueue_received residue w peer hf hs ret w' hrun hret
  case h_14 => exact writeMultipleCoils_received w peer hf hs ret w' hrun hret
  case h_15 => exact writeMultipleRegisters_received w peer hf hs ret w' hrun hret
  case h_16 => exact readFileRecord_received residue w peer hf hs hwf ret w' hrun hret
  case h_17 => exact writeFileRecord_received residue w peer hf hs hwf ret w' hrun hret
  case h_18 =>
    obtain ⟨hc, writeAddr, writeCount, -, hd⟩ := hwf
    exact readWriteRegisters_received residue w peer writeAddr writeCount hf hs hc hd ret w' hrun hret
  case h_19 => exact absurd hwf not_false

def serveBits : ReadCoilsFn Unit :=
  fun _ count app => (0, List.Vector.replicate (coilBytes count) 0, app)

def server : PaModbus Unit := paModbusSetReadCoilsCb (some serveBits) (station .rtu 1 64 64)

def master : PaModbus Unit := station .rtu 1 64 64

def coilsRequested : World Unit :=
  ⟨{ server with lastFunction := 0x01, request := { server.request with slaveCount := 8 } },
    (), 0, []⟩

theorem coil_response_received :
    ∃ w', (paModbusSlaveRespond (fun _ _ => 0)).run coilsRequested = some (6, w') ∧
      Received 1 master w' :=
  ⟨_, rfl, (response_received_iff (fun _ _ => 0) server [0x01, 0, 0, 0, 8] 5 coilsRequested _ 6
    master rfl rfl rfl (by decide) rfl).mpr trivial⟩

def statusRequested : World Unit := ⟨{ server with lastFunction := 0x07 }, (), 0, []⟩

/-- The response with the exception status is five bytes long, and the master
waits for eight. -/
theorem status_response_lost :
    (parseSlaveRequest [0x07] 1).run server = some (paOk, statusRequested.ctx) ∧
      ∃ w', (paModbusSlaveRespond (fun _ _ => 0)).run statusRequested = some (5, w') ∧
        sent w' = rtuFrame 1 [0x07, 0] ∧ paFramerRtuUnwrap master (sent w') = some (.ret 3) :=
  ⟨rfl, _, rfl, rfl, rfl⟩

end Pamodbus.ResponseFrames
