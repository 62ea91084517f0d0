import Pamodbus.CrcErrors

namespace Pamodbus.LineErrors

open Pamodbus.Lib.Cells Pamodbus.Lib.Crc Pamodbus.Lib.Words
open Pamodbus.Context Pamodbus.Crc16 Pamodbus.CrcBitSerial Pamodbus.CrcErrors Pamodbus.RawScan
open Pamodbus.FramerRtu Pamodbus.Framer Pamodbus.Feed

variable {σ : Type} {ctx : PaModbus σ} {fc : UInt8} {data frame e : Bytes} {n : Nat}

/-- The errors that a check value shows in a frame of this length. -/
structure Noticed (e : Bytes) : Prop where
  set : ∃ b ∈ e, b ≠ 0
  kind : Burst e ∨ Odd (changed e) ∨ changed e = 2 ∧ e.length ≤ 256

/-- The bytes by which the framer knows the length of a frame have arrived as they were sent. -/
def SparesLength (e : Bytes) : Prop := ∀ i ∈ [1, 2, 6, 9], i < e.length → e[i]? = some 0

theorem Noticed.remainder (h : Noticed e) : remainder polynomial 0#16 (lineBits e) ≠ 0#16 := by
  rcases h.kind with ⟨k, hburst⟩ | hodd | ⟨hpair, hshort⟩
  · exact burst_remainder (by decide) k (lineBits_set e h.set) hburst
  · exact odd_remainder (by decide) (by decide) hodd
  · refine pair_remainder (by decide) 2047 (by decide +kernel) hpair ?_
    rw [lineBits_length]
    omega

theorem corrupted_length (h : frame.length = e.length) :
    (corrupted frame e).length = frame.length := by
  rw [corrupted, List.length_zipWith, h, min_self]

theorem corrupted_spared (h : frame.length = e.length) {i : Nat}
    (hi : i < e.length → e[i]? = some 0) :
    (corrupted frame e)[i]? = frame[i]? := by
  rw [corrupted, List.getElem?_zipWith]
  rcases Nat.lt_or_ge i e.length with hlt | hge
  · rw [hi hlt]
    cases frame[i]? with
    | none => rfl
    | some b => simp
  · rw [List.getElem?_eq_none (h.trans_le hge)]

theorem expectedLen_congr {data' : Bytes} (hlen : data'.length = data.length)
    (h2 : data'[2]? = data[2]?) (h6 : data'[6]? = data[6]?) (h9 : data'[9]? = data[9]?) :
    expectedLen fc data' = expectedLen fc data := by
  unfold expectedLen
  rw [hlen, h2, h6, h9]

/-- The check value of bytes that look like one frame is tested before the address. -/
theorem unwrap_refuses (h4 : 4 ≤ data.length) (h1 : data[1]? = some fc)
    (he : expectedLen fc data = some (.ok data.length)) (hc : crcValid data = false) :
    paFramerRtuUnwrap ctx data = some (.ret paErrCrc) := by
  obtain ⟨lo, hlo⟩ := getElem?_some data (data.length - 2) (by omega)
  obtain ⟨hi, hhi⟩ := getElem?_some data (data.length - 1) (by omega)
  have hne : ¬ crc16 (data.take (data.length - 2)) = word hi lo := by
    rw [← decide_eq_false_iff_not, ← crcValid_take data data.length lo hi (by omega) le_rfl hlo hhi,
      List.take_length]
    exact hc
  have hshort : ¬ data.length < 4 := by omega
  simp only [paFramerRtuUnwrap, h1, he, hlo, hhi, paCrc16_eq data (data.length - 2) (by omega),
    Option.bind_eq_bind, Option.bind_some, Option.pure_def, if_neg hshort, if_neg (lt_irrefl _)]
  exact if_pos hne

/-- Bytes that are no frame as a whole may begin with one. -/
theorem unwrap_shortens (hc : crcValid data = false) {p : Nat}
    (hu : paFramerRtuUnwrap ctx data = some (.ok p n)) : n + 3 < data.length := by
  obtain ⟨addr, fc, body, rest, rfl, -, -, -, rfl⟩ := (unwrap_ok_iff _ _ _ _).mp hu
  cases rest with
  | nil =>
    rw [List.append_nil, crcValid_rtuFrame] at hc
    cases hc
  | cons b rest =>
    rw [List.length_append, rtuFrame_length, List.length_cons, List.length_cons]
    omega

/-- Of a frame with errors that a check value shows, neither side takes a PDU as long as the one
that was sent. When the length can still be told, both sides refuse it, and it leaves nothing but
the error code of the master. -/
theorem damaged_frame_refused (ctx : PaModbus σ) (addr fc : UInt8) (body e : Bytes)
    (hf : ctx.framerType = .rtu)
    (hwhole : expectedLen fc (rtuFrame addr (fc :: body)) = some (.ok (body.length + 4)))
    (hlen : e.length = body.length + 4) (he : Noticed e) :
    let data := corrupted (rtuFrame addr (fc :: body)) e
    (∀ p n, unwrap ctx data = some (.ok p n) → n < body.length + 1) ∧
      (SparesLength e →
        (paModbusSlaveFeed data).run ctx = some (paErrCrc, ctx) ∧
          (paModbusMasterFeed data).run ctx =
            some (paErrCrc, { ctx with result := { ctx.result with lastError := paErrCrc } })) := by
  intro data
  have hframe : (rtuFrame addr (fc :: body)).length = e.length := by
    rw [rtuFrame_length, List.length_cons, hlen]
  have hdata : data.length = body.length + 4 := by
    rw [corrupted_length hframe, hframe, hlen]
  have hc : crcValid data = false := by
    rw [← Bool.not_eq_true]
    change ¬ crcValid (corrupted (addr :: fc :: body ++ crcBytes (addr :: fc :: body)) e) = true
    rw [corrupted_valid_iff (addr :: fc :: body) e hlen]
    exact he.remainder
  rw [unwrap_rtu ctx data hf]
  refine ⟨fun p n hu => ?_, fun hspare => ?_⟩
  · have hless := unwrap_shortens hc hu
    omega
  · have hsame : ∀ i ∈ [1, 2, 6, 9], data[i]? = (rtuFrame addr (fc :: body))[i]? :=
      fun i hi => corrupted_spared hframe (hspare i hi)
    have h1 : data[1]? = some fc := by
      rw [hsame 1 (by decide), rtuFrame]
      rfl
    have hexpected : expectedLen fc data = some (.ok data.length) := by
      rw [expectedLen_congr (hdata.trans (hlen.symm.trans hframe.symm)) (hsame 2 (by decide))
        (hsame 6 (by decide)) (hsame 9 (by decide)), hwhole, hdata]
    have hu : unwrap ctx data = some (.ret paErrCrc) := by
      rw [unwrap_rtu ctx data hf]
      exact unwrap_refuses (by omega) h1 hexpected hc
    exact ⟨slaveFeed_ret ctx data paErrCrc hu, masterFeed_ret ctx data paErrCrc hu⟩

/-- Two bits of the count of a request change, and one of its check value. -/
theorem garbled_count_refused :
    let ctx : PaModbus Unit := station .rtu 1 16 16
    let data := corrupted (rtuFrame 1 [0x03, 0x00, 0x00, 0x00, 0x0A]) [0, 0, 0, 0, 0, 0x82, 0, 0x01]
    (∀ p n, unwrap ctx data = some (.ok p n) → n < 5) ∧
      (paModbusSlaveFeed data).run ctx = some (paErrCrc, ctx) ∧
      (paModbusMasterFeed data).run ctx =
        some (paErrCrc, { ctx with result := { ctx.result with lastError := paErrCrc } }) := by
  obtain ⟨hshort, hspared⟩ := damaged_frame_refused (station .rtu 1 16 16 : PaModbus Unit) 1 0x03
    [0x00, 0x00, 0x00, 0x0A] [0, 0, 0, 0, 0, 0x82, 0, 0x01] rfl rfl rfl
    ⟨⟨0x82, by decide, by decide⟩, .inr (.inl (by decide))⟩
  exact ⟨hshort, hspared (by unfold SparesLength; decide)⟩

end Pamodbus.LineErrors
