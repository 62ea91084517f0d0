import Pamodbus.Lib.Prefixes
import Pamodbus.Receiver

namespace Pamodbus.RawScan

open Pamodbus.Lib.Cells Pamodbus.Lib.Prefixes Pamodbus.Lib.Words
open Pamodbus.Context Pamodbus.Crc16 Pamodbus.FramerRtu Pamodbus.Recv
open Pamodbus.Receiver

variable {σ : Type}

def crcValid (data : Bytes) : Bool :=
  decide (data.drop (data.length - 2) = crcBytes (data.take (data.length - 2)))

theorem crcValid_rtuFrame (addr : UInt8) (pdu : Bytes) : crcValid (rtuFrame addr pdu) = true := by
  have hl : (rtuFrame addr pdu).length - 2 = (addr :: pdu).length := by simp
  rw [crcValid, hl, rtuFrame, List.drop_left, List.take_left, decide_eq_true_eq]

theorem crcValid_take (data : Bytes) (n : Nat) (lo hi : UInt8) (h2 : 2 ≤ n) (hn : n ≤ data.length)
    (hlo : data[n - 2]? = some lo) (hhi : data[n - 1]? = some hi) :
    crcValid (data.take n) = decide (crc16 (data.take (n - 2)) = word hi lo) := by
  have hlen : (data.take n).length = n := List.length_take_of_le hn
  have htail : (data.take n).drop (n - 2) = [lo, hi] := by
    obtain ⟨hl, rfl⟩ := List.getElem?_eq_some_iff.mp hlo
    obtain ⟨hh, rfl⟩ := List.getElem?_eq_some_iff.mp hhi
    have hnext : n - 2 + 1 = n - 1 := by omega
    have hcount : n - (n - 2) = 2 := by omega
    rw [List.drop_take, hcount, List.drop_eq_getElem_cons hl, List.take_succ_cons]
    simp only [hnext]
    rw [List.drop_eq_getElem_cons hh, List.take_succ_cons, List.take_zero]
  rw [crcValid, hlen, htail, List.take_take, min_eq_left (by omega), decide_eq_decide]
  exact crcBytes_eq_iff _ lo hi

theorem scanCrc_eq (data : Bytes) (frameLen k : Nat) (h2 : 2 ≤ frameLen)
    (hk : frameLen + k ≤ data.length + 1) :
    scanCrc data frameLen k =
      some ((List.range' frameLen k).find? fun n => crcValid (data.take n)) := by
  induction k generalizing frameLen with
  | zero => rfl
  | succ k ih =>
    obtain ⟨lo, hlo⟩ := getElem?_some data (frameLen - 2) (by omega)
    obtain ⟨hi, hhi⟩ := getElem?_some data (frameLen - 1) (by omega)
    rw [List.range'_succ, List.find?_cons, crcValid_take data frameLen lo hi h2 (by omega) hlo hhi,
      scanCrc, hlo, hhi, paCrc16_eq data (frameLen - 2) (by omega)]
    simp only [Option.bind_eq_bind, Option.bind_some, Option.pure_def]
    by_cases h : crc16 (data.take (frameLen - 2)) = word hi lo
    · rw [if_pos h, decide_eq_true h]
    · rw [if_neg h, decide_eq_false h]
      exact ih (frameLen + 1) (by omega) (by omega)

theorem scanCrc_overlay (m acc : Bytes) (frameLen k : Nat) (hm : acc.length ≤ m.length)
    (h2 : 2 ≤ frameLen) (hk : frameLen + k ≤ acc.length + 1) :
    scanCrc (overlay m acc) frameLen k = scanCrc acc frameLen k := by
  induction k generalizing frameLen with
  | zero => rfl
  | succ k ih =>
    rw [scanCrc, scanCrc, overlay_getElem? m acc _ (by omega) hm,
      overlay_getElem? m acc _ (by omega) hm, paCrc16_eq _ _ (by rw [overlay_length]; omega),
      paCrc16_eq acc _ (by omega), overlay_take m acc _ (by omega) hm,
      ih (frameLen + 1) (by omega) (by omega)]

theorem rawScan_shortest (ctx : PaModbus σ) (b : Buffer UInt8) (whole : Bytes) (t : UInt32)
    (hb : whole.length ≤ b.cells.length) :
    rawScan (holding ctx b whole t) = some (shortest crcValid 4 whole) := by
  by_cases h4 : 4 ≤ whole.length
  · have hcount : whole.length + 1 - 4 = whole.length - 3 := by omega
    have hscan : rawScan (holding ctx b whole t) =
        scanCrc (overlay b.cells whole) 4 (whole.length - 3) := if_pos h4
    rw [hscan, scanCrc_overlay b.cells whole 4 _ hb (by omega) (by omega),
      scanCrc_eq whole 4 _ (by omega) (by omega), shortest, hcount]
  · have hcount : whole.length + 1 - 4 = 0 := by omega
    rw [shortest, hcount]
    exact if_neg h4

end Pamodbus.RawScan
