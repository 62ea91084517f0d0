import Mathlib.Data.List.Infix

namespace Pamodbus.Lib.Scanner

variable {α β : Type}

/-- The first offset from which something starts; `f xs` is what starts at the front of `xs`. -/
def scan (f : List α → Option β) : (off : Nat) → List α → Option (Nat × β)
  | _, [] => none
  | off, a :: xs =>
    match f (a :: xs) with
    | some b => some (off, b)
    | none => scan f (off + 1) xs

/-- Nothing starts anywhere in the stream, in no part of at most `room` elements. -/
def Silent (f : List α → Option β) (room : Nat) (xs : List α) : Prop :=
  ∀ part, part <:+: xs → part ≠ [] → part.length ≤ room → f part = none

variable {f : List α → Option β}

theorem scan_front {xs : List α} {b : β} (off : Nat) (hn : xs ≠ []) (h : f xs = some b) :
    scan f off xs = some (off, b) := by
  cases xs with
  | nil => exact absurd rfl hn
  | cons a xs => rw [scan, h]

theorem scan_none_iff (off : Nat) (xs : List α) :
    scan f off xs = none ↔ ∀ suf, suf <:+ xs → suf ≠ [] → f suf = none := by
  induction xs generalizing off with
  | nil =>
    refine ⟨fun _ suf hs hn => absurd (List.suffix_nil.mp hs) hn, fun _ => rfl⟩
  | cons a xs ih =>
    rw [scan]
    cases hf : f (a :: xs) with
    | some b =>
      simp only [reduceCtorEq, false_iff]
      intro h
      rw [h (a :: xs) List.suffix_rfl (List.cons_ne_nil a xs)] at hf
      cases hf
    | none =>
      rw [ih]
      constructor
      · intro h suf hs hn
        rcases List.suffix_cons_iff.mp hs with rfl | hs
        · exact hf
        · exact h suf hs hn
      · intro h suf hs hn
        exact h suf (hs.trans (List.suffix_cons a xs)) hn

theorem scan_some {off k : Nat} {xs : List α} {b : β} (h : scan f off xs = some (k, b)) :
    ∃ pre suf, xs = pre ++ suf ∧ k = off + pre.length ∧ suf ≠ [] ∧ f suf = some b := by
  induction xs generalizing off with
  | nil => cases h
  | cons a xs ih =>
    rw [scan] at h
    cases hf : f (a :: xs) with
    | some c =>
      rw [hf, Option.some.injEq, Prod.mk.injEq] at h
      obtain ⟨rfl, rfl⟩ := h
      exact ⟨[], a :: xs, rfl, rfl, List.cons_ne_nil a xs, hf⟩
    | none =>
      rw [hf] at h
      obtain ⟨pre, suf, rfl, hk, hn, hs⟩ := ih h
      exact ⟨a :: pre, suf, rfl, by rw [hk, List.length_cons]; omega, hn, hs⟩

theorem scan_append {pre suf : List α} {b : β} (off : Nat) (hn : suf ≠ [])
    (hpre : ∀ l r, pre = l ++ r → r ≠ [] → f (r ++ suf) = none) (h : f suf = some b) :
    scan f off (pre ++ suf) = some (off + pre.length, b) := by
  induction pre generalizing off with
  | nil => exact scan_front off hn h
  | cons a pre ih =>
    have hskip : f (a :: (pre ++ suf)) = none := hpre [] (a :: pre) rfl (List.cons_ne_nil a pre)
    rw [List.cons_append, scan, hskip]
    dsimp only
    rw [ih (off + 1) fun l r hr hne => hpre (a :: l) r (by rw [hr, List.cons_append]) hne,
      List.length_cons]
    congr 2
    omega

theorem Silent.part {room : Nat} {xs ys : List α} (h : Silent f room xs) (hy : ys <:+: xs) :
    Silent f room ys :=
  fun part hp => h part (hp.trans hy)

theorem Silent.scan_none {room : Nat} {xs ys : List α} (h : Silent f room xs) (hy : ys <:+: xs)
    (hr : ys.length ≤ room) (off : Nat) : scan f off ys = none := by
  rw [scan_none_iff]
  intro suf hs hn
  exact h suf (hs.isInfix.trans hy) hn (hs.length_le.trans hr)

/-- The first message, and what stays behind it; what precedes it is dropped. -/
def extract (f : List α → Option β) (len : β → Nat) (xs : List α) : Option (List α × List α) :=
  (scan f 0 xs).map fun r => ((xs.drop r.1).take (len r.2), xs.drop (r.1 + len r.2))

/-- The messages are extracted in this order, and nothing is left. -/
inductive Drains (f : List α → Option β) (len : β → Nat) : List α → List (List α) → Prop
  | nil : Drains f len [] []
  | cons {xs m rest : List α} {ms : List (List α)} (h : extract f len xs = some (m, rest))
      (hrest : Drains f len rest ms) : Drains f len xs (m :: ms)

/-- Each message is found where it starts, with its own length, in front of the others. -/
def Delimited (f : List α → Option β) (len : β → Nat) : List (List α) → Prop
  | [] => True
  | m :: ms => (∃ b, f (m ++ ms.flatten) = some b ∧ len b = m.length) ∧ Delimited f len ms

variable {len : β → Nat}

theorem extract_front {xs : List α} {b : β} (hn : xs ≠ []) (h : f xs = some b) :
    extract f len xs = some (xs.take (len b), xs.drop (len b)) := by
  rw [extract, scan_front 0 hn h, Option.map_some, List.drop_zero, Nat.zero_add]

theorem extract_some {xs m rest : List α} (h : extract f len xs = some (m, rest)) :
    ∃ k b, f (xs.drop k) = some b ∧ k < xs.length ∧ m = (xs.drop k).take (len b) ∧
      rest = xs.drop (k + len b) := by
  rw [extract, Option.map_eq_some_iff] at h
  obtain ⟨⟨k, b⟩, hs, he⟩ := h
  obtain ⟨pre, suf, rfl, hk, hn, hb⟩ := scan_some hs
  obtain rfl : k = pre.length := by omega
  rw [Prod.mk.injEq] at he
  have hpos := List.length_pos_iff.mpr hn
  refine ⟨pre.length, b, ?_, ?_, he.1.symm, he.2.symm⟩
  · rw [List.drop_left, hb]
  · rw [List.length_append]
    omega

theorem drains_nil_iff {xs : List α} : Drains f len xs [] ↔ xs = [] := by
  constructor
  · intro h
    cases h with
    | nil => rfl
  · rintro rfl
    exact .nil

theorem drains_cons_iff {xs m : List α} {ms : List (List α)} :
    Drains f len xs (m :: ms) ↔ ∃ rest, extract f len xs = some (m, rest) ∧ Drains f len rest ms := by
  constructor
  · intro h
    cases h with
    | cons h hrest => exact ⟨_, h, hrest⟩
  · rintro ⟨rest, h, hrest⟩
    exact .cons h hrest

theorem Drains.length_le {xs : List α} {ms : List (List α)} (h : Drains f len xs ms) :
    ms.flatten.length ≤ xs.length := by
  induction h with
  | nil => exact le_rfl
  | cons h _ ih =>
    obtain ⟨k, b, -, hk, rfl, rfl⟩ := extract_some h
    rw [List.length_drop] at ih
    rw [List.flatten_cons, List.length_append, List.length_take, List.length_drop]
    omega

theorem drains_flatten_iff (ms : List (List α)) (hn : ∀ m ∈ ms, m ≠ [])
    (hlen : ∀ xs b, f xs = some b → len b ≤ xs.length) :
    Drains f len ms.flatten ms ↔ Delimited f len ms := by
  induction ms with
  | nil => exact iff_of_true .nil trivial
  | cons m ms ih =>
    have hne : m ++ ms.flatten ≠ [] :=
      List.append_ne_nil_of_left_ne_nil (hn m (List.mem_cons_self ..)) _
    have ih := ih fun m hm => hn m (List.mem_cons_of_mem _ hm)
    rw [List.flatten_cons, drains_cons_iff]
    constructor
    · rintro ⟨rest, hx, hrest⟩
      obtain ⟨k, b, hb, hk, hm, rfl⟩ := extract_some hx
      have hfit := hlen _ _ hb
      have hle := hrest.length_le
      have hml := congrArg List.length hm
      rw [List.length_drop] at hfit hle
      rw [List.length_take, List.length_drop] at hml
      have hsum : (m ++ ms.flatten).length = m.length + ms.flatten.length := List.length_append
      -- nothing may be dropped in front of the message, or too little is left for the others
      obtain rfl : k = 0 := by omega
      have hl : len b = m.length := by omega
      rw [List.drop_zero] at hb
      rw [Nat.zero_add, hl, List.drop_left] at hrest
      exact ⟨⟨b, hb, hl⟩, ih.mp hrest⟩
    · rintro ⟨⟨b, hb, hl⟩, hrest⟩
      refine ⟨ms.flatten, ?_, ih.mpr hrest⟩
      rw [extract_front hne hb, hl, List.take_left, List.drop_left]

end Pamodbus.Lib.Scanner
