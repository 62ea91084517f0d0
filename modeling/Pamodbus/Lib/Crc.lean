import Mathlib.Algebra.Ring.Parity
import Mathlib.Data.List.GetD
import Mathlib.Logic.Function.Iterate

namespace Pamodbus.Lib.Crc

variable {w : Nat} {poly : BitVec w}

/-- Shift out the lowest bit, and add the polynomial if it was set. -/
def shift (poly r : BitVec w) : BitVec w :=
  if r.getLsbD 0 then (r >>> 1) ^^^ poly else r >>> 1

def feed (poly r : BitVec w) (b : Bool) : BitVec w :=
  shift poly (r ^^^ (BitVec.ofBool b).setWidth w)

def remainder (poly r : BitVec w) (bits : List Bool) : BitVec w := bits.foldl (feed poly) r

theorem shift_getLsbD (r : BitVec w) (i : Nat) :
    (shift poly r).getLsbD i = (r.getLsbD (i + 1) ^^ (r.getLsbD 0 && poly.getLsbD i)) := by
  rw [shift, Nat.add_comm i 1]
  cases hr : r.getLsbD 0 with
  | false => simp
  | true => simp

theorem shift_xor (r s : BitVec w) : shift poly (r ^^^ s) = shift poly r ^^^ shift poly s := by
  apply BitVec.eq_of_getLsbD_eq
  intro i _
  simp only [shift_getLsbD, BitVec.getLsbD_xor]
  cases r.getLsbD 0 <;> cases s.getLsbD 0 <;> cases poly.getLsbD i <;> simp

@[simp] theorem shift_zero : shift poly 0#w = 0#w := by simp [shift]

theorem shift_even (r : BitVec w) (h : r.getLsbD 0 = false) : shift poly r = r >>> 1 := by
  rw [shift, h]
  rfl

theorem shift_eq_zero {r : BitVec w} (hpoly : poly.msb = true) (h : shift poly r = 0#w) :
    r = 0#w := by
  have hbit (i : Nat) : (r.getLsbD (i + 1) ^^ (r.getLsbD 0 && poly.getLsbD i)) = false := by
    rw [← shift_getLsbD, h, BitVec.getLsbD_zero]
  rw [BitVec.msb_eq_getLsbD_last] at hpoly
  have hlow : r.getLsbD 0 = false := by
    have htop := hbit (w - 1)
    rwa [hpoly, BitVec.getLsbD_of_ge r _ (by omega), Bool.and_true, Bool.false_xor] at htop
  apply BitVec.eq_of_getLsbD_eq
  intro i _
  rw [BitVec.getLsbD_zero]
  cases i with
  | zero => exact hlow
  | succ i =>
    have hi := hbit i
    rwa [hlow, Bool.false_and, Bool.xor_false] at hi

theorem shift_injective (hpoly : poly.msb = true) : Function.Injective (shift poly) := by
  intro r s h
  have hzero : shift poly (r ^^^ s) = 0#w := by rw [shift_xor, h, BitVec.xor_self]
  exact BitVec.xor_eq_zero_iff.mp (shift_eq_zero hpoly hzero)

theorem shifts_xor (n : Nat) (r s : BitVec w) :
    (shift poly)^[n] (r ^^^ s) = (shift poly)^[n] r ^^^ (shift poly)^[n] s := by
  induction n generalizing r s with
  | zero => rfl
  | succ n ih => rw [Function.iterate_succ_apply, shift_xor, ih]; rfl

theorem shifts_zero (n : Nat) : (shift poly)^[n] 0#w = 0#w := Function.iterate_fixed shift_zero n

theorem shifts_eq_zero_iff (hpoly : poly.msb = true) (n : Nat) (r : BitVec w) :
    (shift poly)^[n] r = 0#w ↔ r = 0#w := by
  constructor
  · intro h
    apply (shift_injective hpoly).iterate n
    rw [h, shifts_zero]
  · rintro rfl
    exact shifts_zero n

theorem shifts_even (n : Nat) (r : BitVec w) (h : ∀ i < n, r.getLsbD i = false) :
    (shift poly)^[n] r = r >>> n := by
  induction n with
  | zero => simp
  | succ n ih =>
    rw [Function.iterate_succ_apply', ih fun i hi => h i (by omega), shift_even,
      BitVec.shiftRight_add]
    simpa using h n (by omega)

theorem shifts_split (n : Nat) (r : BitVec w) :
    (shift poly)^[n] r = (r >>> n) ^^^ (shift poly)^[n] ((r.setWidth n).setWidth w) := by
  have hlow (i : Nat) :
      ((r.setWidth n).setWidth w).getLsbD i = (decide (i < n) && r.getLsbD i) := by
    rw [BitVec.getLsbD_setWidth, BitVec.getLsbD_setWidth]
    by_cases hi : i < w
    · rw [decide_eq_true hi, Bool.true_and]
    · rw [BitVec.getLsbD_of_ge r i (by omega), Bool.and_false, Bool.and_false]
  have hhigh : (shift poly)^[n] (r ^^^ (r.setWidth n).setWidth w) = r >>> n := by
    rw [shifts_even n]
    · apply BitVec.eq_of_getLsbD_eq
      intro i _
      rw [BitVec.getLsbD_ushiftRight, BitVec.getLsbD_ushiftRight, BitVec.getLsbD_xor, hlow,
        decide_eq_false (by omega), Bool.false_and, Bool.xor_false]
    · intro i hi
      rw [BitVec.getLsbD_xor, hlow, decide_eq_true hi, Bool.true_and, Bool.xor_self]
  rw [← hhigh, shifts_xor, BitVec.xor_assoc, BitVec.xor_self, BitVec.xor_zero]

variable {bits : List Bool}

theorem feed_true (r : BitVec w) : feed poly r true = shift poly (r ^^^ 1#w) := by
  rw [feed]
  congr 2
  apply BitVec.eq_of_toNat_eq
  rw [BitVec.toNat_setWidth]
  rfl

theorem feed_false (r : BitVec w) : feed poly r false = shift poly r := by simp [feed]

theorem remainder_append (r : BitVec w) (bits bits' : List Bool) :
    remainder poly r (bits ++ bits') = remainder poly (remainder poly r bits) bits' :=
  List.foldl_append

theorem feed_xor (r s : BitVec w) (b c : Bool) :
    feed poly (r ^^^ s) (b ^^ c) = feed poly r b ^^^ feed poly s c := by
  rw [feed, feed, feed, ← shift_xor, ← BitVec.ofBool_xor_ofBool, BitVec.setWidth_xor]
  congr 1
  ac_rfl

theorem remainder_xor (r s : BitVec w) (bits bits' : List Bool) (h : bits.length = bits'.length) :
    remainder poly (r ^^^ s) (List.zipWith xor bits bits') =
      remainder poly r bits ^^^ remainder poly s bits' := by
  induction bits generalizing r s bits' with
  | nil =>
    cases bits' with
    | nil => rfl
    | cons c bits' => cases h
  | cons b bits ih =>
    cases bits' with
    | nil => cases h
    | cons c bits' =>
      rw [List.zipWith_cons_cons, remainder, List.foldl_cons, feed_xor]
      exact ih _ _ bits' (Nat.succ.inj h)

theorem remainder_zeros (n : Nat) (r : BitVec w) :
    remainder poly r (List.replicate n false) = (shift poly)^[n] r := by
  induction n generalizing r with
  | zero => rfl
  | succ n ih =>
    rw [List.replicate_succ, remainder, List.foldl_cons, feed_false]
    exact ih _

def row (w : Nat) (bits : List Bool) : BitVec w := (BitVec.ofBoolListLE bits).setWidth w

theorem row_getLsbD (bits : List Bool) (i : Nat) :
    (row w bits).getLsbD i = (decide (i < w) && bits.getD i false) := by
  rw [row, BitVec.getLsbD_setWidth, BitVec.getLsbD_ofBoolListLE]

theorem row_eq_zero_iff (h : bits.length ≤ w) : row w bits = 0#w ↔ true ∉ bits := by
  constructor
  · intro hzero hmem
    obtain ⟨i, hi, hbit⟩ := List.getElem_of_mem hmem
    have hrow := row_getLsbD (w := w) bits i
    rw [hzero, BitVec.getLsbD_zero, List.getD_eq_getElem _ _ hi, hbit] at hrow
    simp at hrow
    omega
  · intro hnone
    apply BitVec.eq_of_getLsbD_eq
    intro i hi
    rw [row_getLsbD, BitVec.getLsbD_zero, decide_eq_true hi, Bool.true_and]
    by_cases hl : i < bits.length
    · rw [List.getD_eq_getElem _ _ hl]
      exact Bool.eq_false_iff.mpr fun hb => hnone (hb ▸ List.getElem_mem hl)
    · exact List.getD_eq_default _ _ (by omega)

theorem feed_row (r : BitVec w) (b : Bool) (h : bits.length < w) :
    feed poly r b ^^^ row w bits = shift poly (r ^^^ row w (b :: bits)) := by
  apply BitVec.eq_of_getLsbD_eq
  intro i hi
  have hlast : (decide (i < w) && bits.getD i false) =
      (decide (i + 1 < w) && bits.getD i false) := by
    by_cases hw : i + 1 < w
    · simp [hw, hi]
    · rw [List.getD_eq_default _ _ (by omega), Bool.and_false, Bool.and_false]
  rw [BitVec.getLsbD_xor, feed, shift_getLsbD, shift_getLsbD]
  simp only [BitVec.getLsbD_xor, row_getLsbD, hlast, BitVec.getLsbD_setWidth, BitVec.getLsbD_ofBool,
    List.getD_cons_succ, List.getD_cons_zero, Nat.add_one_ne_zero, decide_false, decide_true,
    Bool.false_and, Bool.true_and, Bool.and_false, Bool.xor_false]
  exact Bool.xor_right_comm _ _ _

/-- A row that fits into the register may be added to it at once. -/
theorem remainder_row (r : BitVec w) (h : bits.length ≤ w) :
    remainder poly r bits = (shift poly)^[bits.length] (r ^^^ row w bits) := by
  induction bits generalizing r with
  | nil =>
    rw [(row_eq_zero_iff h).mpr List.not_mem_nil, BitVec.xor_zero]
    rfl
  | cons b bits ih =>
    rw [List.length_cons] at h
    rw [remainder, List.foldl_cons, ← remainder, ih _ (by omega), List.length_cons,
      Function.iterate_succ_apply, feed_row r b (by omega)]

theorem remainder_leading (n : Nat) (bits : List Bool) :
    remainder poly 0#w (List.replicate n false ++ bits) = remainder poly 0#w bits := by
  rw [remainder_append, remainder_zeros, shifts_zero]

theorem remainder_trailing (hpoly : poly.msb = true) (n : Nat) (r : BitVec w) (bits : List Bool) :
    remainder poly r (bits ++ List.replicate n false) = 0#w ↔ remainder poly r bits = 0#w := by
  rw [remainder_append, remainder_zeros, shifts_eq_zero_iff hpoly]

theorem burst_remainder (hpoly : poly.msb = true) (k : Nat) (hset : true ∈ bits)
    (hburst : ∀ i, bits[i]? = some true → k ≤ i ∧ i < k + w) : remainder poly 0#w bits ≠ 0#w := by
  have hquiet (xs : List Bool) (h : ∀ i : Nat, xs[i]? ≠ some true) :
      xs = List.replicate xs.length false := by
    rw [List.eq_replicate_iff]
    refine ⟨rfl, fun b hb => ?_⟩
    obtain ⟨i, hi⟩ := List.getElem?_of_mem hb
    cases b with
    | false => rfl
    | true => exact absurd hi (h i)
  have hbefore : bits.take k = List.replicate (bits.take k).length false := by
    refine hquiet _ fun i hi => ?_
    rw [List.getElem?_take] at hi
    split at hi
    · have hk := hburst i hi
      omega
    · cases hi
  have hbehind : (bits.drop k).drop w = List.replicate ((bits.drop k).drop w).length false := by
    refine hquiet _ fun i hi => ?_
    rw [List.getElem?_drop, List.getElem?_drop] at hi
    have hk := hburst _ hi
    omega
  have hsplit : bits = bits.take k ++ ((bits.drop k).take w ++ (bits.drop k).drop w) := by
    rw [List.take_append_drop, List.take_append_drop]
  have hmem : true ∈ (bits.drop k).take w := by
    rw [hsplit, hbefore, hbehind] at hset
    simpa using hset
  rw [hsplit, hbefore, remainder_leading, hbehind, ne_eq, remainder_trailing hpoly,
    remainder_row _ (List.length_take_le _ _), shifts_eq_zero_iff hpoly, BitVec.zero_xor,
    row_eq_zero_iff (List.length_take_le _ _)]
  exact fun hnone => hnone hmem

/-- The exclusive or of the lowest `n` bits. -/
def parity (r : BitVec w) : (n : Nat) → Bool
  | 0 => false
  | n + 1 => r.getLsbD n ^^ parity r n

theorem parity_succ (r : BitVec w) (n : Nat) : parity r (n + 1) = (r.getLsbD n ^^ parity r n) := rfl

theorem parity_xor (r s : BitVec w) (n : Nat) :
    parity (r ^^^ s) n = (parity r n ^^ parity s n) := by
  induction n with
  | zero => rfl
  | succ n ih =>
    rw [parity_succ, parity_succ, parity_succ, ih, BitVec.getLsbD_xor, Bool.xor_assoc,
      Bool.xor_assoc]
    congr 1
    exact Bool.xor_left_comm _ _ _

theorem parity_zero (n : Nat) : parity 0#w n = false := by
  induction n with
  | zero => rfl
  | succ n ih => rw [parity_succ, ih, BitVec.getLsbD_zero, Bool.xor_false]

theorem parity_shiftRight (r : BitVec w) (n : Nat) :
    parity (r >>> 1) n = (r.getLsbD 0 ^^ parity r (n + 1)) := by
  induction n with
  | zero => simp [parity]
  | succ n ih =>
    rw [parity_succ, ih, BitVec.getLsbD_ushiftRight, Nat.add_comm 1 n, parity_succ r (n + 1)]
    exact Bool.xor_left_comm _ _ _

/-- A polynomial with an odd number of set bits, the one shifted out included, does not change
how many are set, odd or even. -/
theorem parity_shift (hpoly : parity poly w = true) (r : BitVec w) :
    parity (shift poly r) w = parity r w := by
  have hright : parity (r >>> 1) w = (r.getLsbD 0 ^^ parity r w) := by
    rw [parity_shiftRight, parity_succ, BitVec.getLsbD_of_ge r w le_rfl, Bool.false_xor]
  rw [shift]
  cases hlow : r.getLsbD 0 with
  | false => rw [if_neg Bool.false_ne_true, hright, hlow, Bool.false_xor]
  | true =>
    rw [if_pos rfl, parity_xor, hright, hlow, hpoly, Bool.xor_true, Bool.true_xor, Bool.not_not]

theorem parity_one (hw : 0 < w) : parity 1#w w = true := by
  have hlow (n : Nat) (hn : n < w) : parity 1#w (n + 1) = true := by
    induction n with
    | zero => simp [parity, hw]
    | succ n ih =>
      rw [parity_succ, ih (by omega)]
      simp
  obtain ⟨n, rfl⟩ := Nat.exists_eq_succ_of_ne_zero (Nat.pos_iff_ne_zero.mp hw)
  exact hlow n (Nat.lt_succ_self n)

theorem parity_remainder (hw : 0 < w) (hpoly : parity poly w = true) (r : BitVec w) :
    parity (remainder poly r bits) w = (parity r w ^^ decide (Odd (bits.count true))) := by
  induction bits generalizing r with
  | nil => simp [remainder]
  | cons b bits ih =>
    rw [remainder, List.foldl_cons, ← remainder, ih]
    cases b with
    | false => rw [feed_false, parity_shift hpoly, List.count_cons_of_ne (by decide)]
    | true =>
      rw [feed_true, parity_shift hpoly, parity_xor, parity_one hw, List.count_cons_self,
        Bool.xor_assoc]
      simp only [Nat.odd_add_one, decide_not, Bool.true_xor]

theorem odd_remainder (hw : 0 < w) (hpoly : parity poly w = true) (hodd : Odd (bits.count true)) :
    remainder poly 0#w bits ≠ 0#w := by
  intro h
  have hparity : parity (remainder poly 0#w bits) w = _ := parity_remainder hw hpoly 0#w
  rw [h, parity_zero, decide_eq_true hodd] at hparity
  cases hparity

theorem first_set {n : Nat} (h : bits.count true = n + 1) :
    ∃ i rest, bits = List.replicate i false ++ true :: rest ∧ rest.count true = n := by
  induction bits with
  | nil => cases h
  | cons b bits ih =>
    cases b with
    | true =>
      rw [List.count_cons_self] at h
      exact ⟨0, bits, rfl, Nat.succ.inj h⟩
    | false =>
      rw [List.count_cons_of_ne (by decide)] at h
      obtain ⟨i, rest, rfl, hrest⟩ := ih h
      exact ⟨i + 1, rest, rfl, hrest⟩

/-- The register does not become `target` before it has been shifted `n` times. -/
def avoids (poly target : BitVec w) : (n : Nat) → (r : BitVec w) → Bool
  | 0, _ => true
  | n + 1, r => r != target && avoids poly target n (shift poly r)

theorem avoids_iff {target : BitVec w} (n : Nat) (r : BitVec w) :
    avoids poly target n r = true ↔ ∀ i < n, (shift poly)^[i] r ≠ target := by
  induction n generalizing r with
  | zero => exact iff_of_true rfl fun i hi => absurd hi (Nat.not_lt_zero i)
  | succ n ih =>
    rw [avoids, Bool.and_eq_true, bne_iff_ne, ih]
    constructor
    · rintro ⟨h0, h⟩ i hi
      cases i with
      | zero => exact h0
      | succ i => exact h i (by omega)
    · intro h
      exact ⟨h 0 (Nat.succ_pos n), fun i hi => h (i + 1) (by omega)⟩

/-- Two set bits leave a remainder when the register, starting with its lowest bit, does not
come back to it as early as the stream is long. -/
theorem pair_remainder (hpoly : poly.msb = true) (period : Nat)
    (hperiod : avoids poly 1#w period (shift poly 1#w) = true)
    (hpair : bits.count true = 2) (hlen : bits.length ≤ period + 1) :
    remainder poly 0#w bits ≠ 0#w := by
  obtain ⟨i, rest, rfl, hrest⟩ := first_set hpair
  obtain ⟨n, rest, rfl, hnone⟩ := first_set hrest
  have hzeros : rest = List.replicate rest.length false := by
    rw [List.eq_replicate_iff]
    refine ⟨rfl, fun b hb => ?_⟩
    cases b with
    | false => rfl
    | true => exact absurd hb (List.count_eq_zero.mp hnone)
  have hfirst : remainder poly 0#w (true :: (List.replicate n false ++ [true])) =
      shift poly ((shift poly)^[n + 1] 1#w ^^^ 1#w) := by
    rw [remainder, List.foldl_cons, ← remainder, remainder_append, remainder_zeros, feed_true,
      BitVec.zero_xor, ← Function.iterate_succ_apply, ← feed_true]
    rfl
  have hshape : true :: (List.replicate n false ++ true :: rest) =
      true :: (List.replicate n false ++ [true]) ++ List.replicate rest.length false := by
    rw [← hzeros, List.cons_append, List.append_assoc, List.singleton_append]
  rw [remainder_leading, hshape, ne_eq, remainder_trailing hpoly, hfirst]
  intro h
  simp only [List.length_append, List.length_replicate, List.length_cons] at hlen
  refine (avoids_iff period _).mp hperiod n (by omega) ?_
  rw [← Function.iterate_succ_apply]
  exact BitVec.xor_eq_zero_iff.mp (shift_eq_zero hpoly h)

end Pamodbus.Lib.Crc
