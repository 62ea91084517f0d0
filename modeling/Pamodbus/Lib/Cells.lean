import Mathlib.Data.Vector.Basic

namespace Pamodbus.Lib.Cells

variable {α : Type} {n : Nat}

/-- `len` cells from `off`, when all of them exist. -/
def block (m : List α) (off len : Nat) : Option (List α) :=
  if off + len ≤ m.length then some ((m.drop off).take len) else none

/-- Overwrite the cells from `off`, when all of them exist. -/
def store (m : List α) (off : Nat) (xs : List α) : Option (List α) :=
  if off + xs.length ≤ m.length then some (m.take off ++ xs ++ m.drop (off + xs.length)) else none

/-- The cells after `xs` has been written over the first of them. -/
def overlay (m xs : List α) : List α := (xs ++ m.drop xs.length).take m.length

@[simp] theorem overlay_length (m xs : List α) : (overlay m xs).length = m.length := by
  simp only [overlay, List.length_take, List.length_append, List.length_drop]
  omega

@[simp] theorem overlay_nil (m : List α) : overlay m [] = m := by simp [overlay]

theorem overlay_eq (m xs : List α) (h : xs.length ≤ m.length) :
    overlay m xs = xs ++ m.drop xs.length := by
  rw [overlay, List.take_of_length_le]
  simp only [List.length_append, List.length_drop]
  omega

theorem overlay_take (m xs : List α) (k : Nat) (hk : k ≤ xs.length) (h : xs.length ≤ m.length) :
    (overlay m xs).take k = xs.take k := by
  rw [overlay_eq m xs h, List.take_append_of_le_length hk]

theorem overlay_take_self (m xs : List α) (h : xs.length ≤ m.length) :
    (overlay m xs).take xs.length = xs := by
  rw [overlay_take m xs _ le_rfl h, List.take_length]

theorem overlay_getElem? (m xs : List α) (i : Nat) (hi : i < xs.length) (h : xs.length ≤ m.length) :
    (overlay m xs)[i]? = xs[i]? := by
  rw [overlay_eq m xs h, List.getElem?_append_left hi]

theorem overlay_getElem?_right (m xs : List α) (i : Nat) (hi : xs.length ≤ i)
    (h : xs.length ≤ m.length) : (overlay m xs)[i]? = m[i]? := by
  rw [overlay_eq m xs h, List.getElem?_append_right hi, List.getElem?_drop]
  congr 1
  omega

theorem overlay_next (m xs : List α) (x : α) (h : m[xs.length]? = some x) :
    overlay m (xs ++ [x]) = overlay m xs := by
  obtain ⟨hl, rfl⟩ := List.getElem?_eq_some_iff.mp h
  rw [overlay_eq m xs (by omega), overlay_eq m _ (by simp; omega),
    List.drop_eq_getElem_cons hl]
  simp

theorem block_eq (m : List α) (off len : Nat) (h : off + len ≤ m.length) :
    block m off len = some ((m.drop off).take len) := if_pos h

theorem block_none (m : List α) (off len : Nat) (h : m.length < off + len) :
    block m off len = none := if_neg (by omega)

theorem block_length {m xs : List α} {off len : Nat} (h : block m off len = some xs) :
    xs.length = len := by
  simp only [block, Option.ite_none_right_eq_some, Option.some.injEq] at h
  obtain ⟨hl, rfl⟩ := h
  simp only [List.length_take, List.length_drop]
  omega

theorem block_front (m : List α) (len : Nat) (h : len ≤ m.length) :
    block m 0 len = some (m.take len) := by
  rw [block_eq m 0 len (by omega), List.drop_zero]

theorem block_overlay (m xs : List α) (off len : Nat) (h : off + len ≤ xs.length)
    (hx : xs.length ≤ m.length) : block (overlay m xs) off len = some ((xs.drop off).take len) := by
  rw [block_eq _ _ _ (by rw [overlay_length]; omega), overlay_eq m xs hx,
    List.drop_append_of_le_length (by omega), List.take_append_of_le_length (by simp; omega)]

theorem overlay_overlay (m xs ys : List α) (h : ys.length ≤ xs.length) (hx : xs.length ≤ m.length) :
    overlay (overlay m xs) ys = overlay m (ys ++ xs.drop ys.length) := by
  have hl : (ys ++ xs.drop ys.length).length = xs.length := by
    rw [List.length_append, List.length_drop]
    omega
  rw [overlay_eq _ ys (by rw [overlay_length]; omega), overlay_eq m xs hx,
    overlay_eq m _ (by rw [hl]; exact hx), hl, List.drop_append_of_le_length h, List.append_assoc]

theorem store_length {m m' xs : List α} {off : Nat} (h : store m off xs = some m') :
    m'.length = m.length := by
  simp only [store, Option.ite_none_right_eq_some, Option.some.injEq] at h
  obtain ⟨hl, rfl⟩ := h
  simp only [List.length_append, List.length_take, List.length_drop]
  omega

theorem store_front (m xs : List α) :
    store m 0 xs = if xs.length ≤ m.length then some (overlay m xs) else none := by
  by_cases h : xs.length ≤ m.length
  · simp [store, h, overlay_eq]
  · simp [store, h]

theorem store_overlay (m xs ys : List α) (h : xs.length ≤ m.length) :
    store (overlay m xs) xs.length ys =
      if xs.length + ys.length ≤ m.length then some (overlay m (xs ++ ys)) else none := by
  simp only [store, overlay_length]
  split
  · next hl =>
    rw [overlay_eq m xs h, overlay_eq m (xs ++ ys) (by simpa using hl), List.take_left,
      List.drop_append, List.drop_of_length_le (by omega), List.drop_drop, List.length_append,
      List.nil_append]
    congr 4
    omega
  · rfl

theorem store_overlay_inside (m xs ys : List α) (off : Nat) (h : xs.length ≤ m.length)
    (ho : off + ys.length ≤ xs.length) :
    store (overlay m xs) off ys =
      some (overlay m (xs.take off ++ ys ++ xs.drop (off + ys.length))) := by
  have hl : (xs.take off ++ ys ++ xs.drop (off + ys.length)).length = xs.length := by
    simp only [List.length_append, List.length_take, List.length_drop]
    omega
  rw [store, if_pos (by rw [overlay_length]; omega), overlay_eq m xs h,
    overlay_eq m _ (by rw [hl]; exact h), hl, List.take_append_of_le_length (by omega),
    List.drop_append_of_le_length (by omega)]
  simp only [List.append_assoc]

theorem getElem?_of_take {m xs : List α} {k i : Nat} (h : m.take k = xs) (hi : i < k) :
    m[i]? = xs[i]? := by
  rw [← h, List.getElem?_take_of_lt hi]

theorem getElem?_some (m : List α) (i : Nat) (h : i < m.length) : ∃ x, m[i]? = some x :=
  ⟨m[i], List.getElem?_eq_getElem h⟩

theorem overlay_take_cells (m : List α) (k : Nat) : overlay m (m.take k) = m := by
  rw [overlay_eq m _ (by simp), List.length_take]
  by_cases h : k ≤ m.length
  · rw [Nat.min_eq_left h, List.take_append_drop]
  · rw [Nat.min_eq_right (by omega), List.take_of_length_le (by omega), List.drop_length,
      List.append_nil]

/-- Overwrite the cells of an array from `off`, when all of them exist. -/
def put (v : List.Vector α n) (off : Nat) (xs : List α) : Option (List.Vector α n) :=
  if h : off + xs.length ≤ n then
    some ⟨v.toList.take off ++ xs ++ v.toList.drop (off + xs.length), by
      simp only [List.length_append, List.length_take, List.length_drop, List.Vector.toList_length]
      omega⟩
  else none

/-- The array after `xs` has been written over its first cells. -/
def patch (v : List.Vector α n) (xs : List α) : List.Vector α n :=
  ⟨overlay v.toList xs, by simp⟩

@[simp] theorem patch_toList (v : List.Vector α n) (xs : List α) :
    (patch v xs).toList = overlay v.toList xs := rfl

@[simp] theorem patch_nil (v : List.Vector α n) : patch v [] = v :=
  List.Vector.eq _ _ (by simp)

theorem put_store (v : List.Vector α n) (off : Nat) (xs : List α) :
    (put v off xs).map List.Vector.toList = store v.toList off xs := by
  by_cases h : off + xs.length ≤ n
  · rw [put, dif_pos h, store, if_pos (by simpa using h)]
    rfl
  · rw [put, dif_neg h, store, if_neg (by simpa using h)]
    rfl

theorem put_eq_some (v w : List.Vector α n) (off : Nat) (xs : List α)
    (h : store v.toList off xs = some w.toList) : put v off xs = some w := by
  rw [← put_store, Option.map_eq_some_iff] at h
  obtain ⟨u, hu, he⟩ := h
  rw [hu, List.Vector.eq u w he]

theorem put_none (v : List.Vector α n) (off : Nat) (xs : List α) (h : n < off + xs.length) :
    put v off xs = none := dif_neg (by omega)

theorem put_front (v : List.Vector α n) (xs : List α) (h : xs.length ≤ n) :
    put v 0 xs = some (patch v xs) := by
  apply put_eq_some
  rw [store_front, if_pos (by simpa using h), patch_toList]

theorem put_patch (v : List.Vector α n) (xs ys : List α) (h : xs.length + ys.length ≤ n) :
    put (patch v xs) xs.length ys = some (patch v (xs ++ ys)) := by
  apply put_eq_some
  rw [patch_toList, store_overlay _ _ _ (by simp; omega), if_pos (by simpa using h), patch_toList]

theorem put_isSome (v : List.Vector α n) (off : Nat) (xs : List α) (h : off + xs.length ≤ n) :
    (put v off xs).isSome := by
  rw [put, dif_pos h]
  rfl

theorem put_front_iff (v w : List.Vector α n) (xs : List α) :
    put v 0 xs = some w ↔ xs.length ≤ n ∧ w = patch v xs := by
  by_cases h : xs.length ≤ n
  · rw [put_front v xs h, Option.some.injEq, and_iff_right h, eq_comm]
  · rw [put_none v 0 xs (by omega)]
    simp [h]

theorem put_patch_iff (v w : List.Vector α n) (xs ys : List α) (off : Nat) (ho : off = xs.length) :
    put (patch v xs) off ys = some w ↔ xs.length + ys.length ≤ n ∧ w = patch v (xs ++ ys) := by
  subst ho
  by_cases h : xs.length + ys.length ≤ n
  · rw [put_patch v xs ys h, Option.some.injEq, and_iff_right h, eq_comm]
  · rw [put_none _ _ _ (by omega)]
    simp [h]

theorem patch_take (v : List.Vector α n) (xs : List α) (k : Nat) (hk : k = xs.length)
    (h : k ≤ n) : (patch v xs).toList.take k = xs := by
  subst hk
  rw [patch_toList, overlay_take_self _ _ (by simpa using h)]

theorem block_patch (v : List.Vector α n) (xs : List α) (k : Nat) (hk : k = xs.length)
    (h : k ≤ n) : block (patch v xs).toList 0 k = some xs := by
  rw [block_front _ _ (by simpa using h), patch_take v xs k hk h]

theorem patch_all (v : List.Vector α n) (xs : List α) (h : xs.length = n) :
    (patch v xs).toList = xs := by
  rw [patch_toList, overlay_eq _ _ (by simp [h]), List.drop_of_length_le (by simp [h]),
    List.append_nil]

theorem patch_getElem? (v : List.Vector α n) (xs : List α) (i : Nat) (hi : i < xs.length)
    (h : xs.length ≤ n) : (patch v xs).toList[i]? = xs[i]? := by
  rw [patch_toList, overlay_getElem? _ _ _ hi (by simpa using h)]

structure Buffer (α : Type) where
  cells : List α
  bounded : cells.length < 2 ^ 64

namespace Buffer

def empty : Buffer α := ⟨[], Nat.two_pow_pos 64⟩

/-- A buffer of `n` equal cells. -/
def filled (n : UInt16) (x : α) : Buffer α :=
  ⟨List.replicate n.toNat x, by
    have h := n.toNat_lt
    rw [List.length_replicate]
    omega⟩

def store (b : Buffer α) (off : Nat) (xs : List α) : Option (Buffer α) :=
  if h : off + xs.length ≤ b.cells.length then
    some ⟨b.cells.take off ++ xs ++ b.cells.drop (off + xs.length), by
      have hb := b.bounded
      simp only [List.length_append, List.length_take, List.length_drop]
      omega⟩
  else none

/-- The buffer after `xs` has been written over its first cells. -/
def patch (b : Buffer α) (xs : List α) : Buffer α :=
  ⟨overlay b.cells xs, by simpa using b.bounded⟩

theorem ext {b c : Buffer α} (h : b.cells = c.cells) : b = c := by
  cases b
  cases c
  simpa using h

@[simp] theorem patch_cells (b : Buffer α) (xs : List α) :
    (b.patch xs).cells = overlay b.cells xs := rfl

@[simp] theorem patch_nil (b : Buffer α) : b.patch [] = b := ext (by simp)

theorem patch_next (b : Buffer α) (xs : List α) (x : α) (h : b.cells[xs.length]? = some x) :
    b.patch (xs ++ [x]) = b.patch xs := ext (overlay_next b.cells xs x h)

theorem patch_patch (b : Buffer α) (xs ys : List α) (h : ys.length ≤ xs.length)
    (hx : xs.length ≤ b.cells.length) :
    (b.patch xs).patch ys = b.patch (ys ++ xs.drop ys.length) := ext (overlay_overlay _ _ _ h hx)

theorem patch_take_cells (b : Buffer α) (k : Nat) : b.patch (b.cells.take k) = b :=
  ext (overlay_take_cells b.cells k)

theorem store_cells (b : Buffer α) (off : Nat) (xs : List α) :
    (b.store off xs).map cells = Cells.store b.cells off xs := by
  by_cases h : off + xs.length ≤ b.cells.length
  · rw [store, dif_pos h, Cells.store, if_pos h]
    rfl
  · rw [store, dif_neg h, Cells.store, if_neg h]
    rfl

theorem store_eq_some (b c : Buffer α) (off : Nat) (xs : List α)
    (h : Cells.store b.cells off xs = some c.cells) : b.store off xs = some c := by
  rw [← store_cells, Option.map_eq_some_iff] at h
  obtain ⟨d, hd, he⟩ := h
  rw [hd, ext he]

theorem store_none (b : Buffer α) (off : Nat) (xs : List α) (h : b.cells.length < off + xs.length) :
    b.store off xs = none := dif_neg (by omega)

theorem store_front (b : Buffer α) (xs : List α) :
    b.store 0 xs = if xs.length ≤ b.cells.length then some (b.patch xs) else none := by
  split
  · next h =>
    apply store_eq_some
    rw [Cells.store_front, patch_cells]
    exact if_pos h
  · next h => exact store_none b 0 xs (by omega)

theorem store_patch (b : Buffer α) (xs ys : List α) (h : xs.length ≤ b.cells.length) :
    (b.patch xs).store xs.length ys =
      if xs.length + ys.length ≤ b.cells.length then some (b.patch (xs ++ ys)) else none := by
  split
  · next hl =>
    apply store_eq_some
    rw [patch_cells, store_overlay _ _ _ h, patch_cells]
    exact if_pos hl
  · next hl => exact store_none _ _ _ (by rw [patch_cells, overlay_length]; omega)

theorem store_patch_inside (b : Buffer α) (xs ys : List α) (off : Nat)
    (h : xs.length ≤ b.cells.length) (ho : off + ys.length ≤ xs.length) :
    (b.patch xs).store off ys =
      some (b.patch (xs.take off ++ ys ++ xs.drop (off + ys.length))) := by
  apply store_eq_some
  rw [patch_cells, store_overlay_inside _ _ _ _ h ho, patch_cells]

/-- Moving the first `n` cells back and writing a header in the room made for it. -/
theorem shift_store (b : Buffer α) (n : Nat) (header : List α)
    (h : n + header.length ≤ b.cells.length) :
    ((b.store header.length (b.cells.take n)).bind fun c => c.store 0 header) =
      some (b.patch (header ++ b.cells.take n)) := by
  generalize hk : header.length = k at h
  have hp : (b.cells.take n).length = n := List.length_take_of_le (by omega)
  have hx : (b.cells.take (n + k)).length = n + k := List.length_take_of_le h
  have h1 := store_patch_inside b (b.cells.take (n + k)) (b.cells.take n) k (by omega) (by omega)
  rw [patch_take_cells, hp, Nat.add_comm k n, List.drop_of_length_le (by omega),
    List.append_nil] at h1
  have ht : ((b.cells.take (n + k)).take k).length = k := List.length_take_of_le (by omega)
  have hl : ((b.cells.take (n + k)).take k ++ b.cells.take n).length = n + k := by
    rw [List.length_append, ht, hp]
    omega
  have h0 := store_patch_inside b _ header 0 (by rw [hl]; exact h) (by rw [hl]; omega)
  rw [h1, Option.bind_some, h0, List.take_zero, List.nil_append, hk, Nat.zero_add,
    List.drop_left' ht]

theorem store_cells_length {b c : Buffer α} {off : Nat} {xs : List α} (h : b.store off xs = some c) :
    c.cells.length = b.cells.length := by
  have hc := store_cells b off xs
  rw [h] at hc
  exact store_length hc.symm

end Buffer

end Pamodbus.Lib.Cells
