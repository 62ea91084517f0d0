import Mathlib.Data.List.Flatten
import Pamodbus.Lib.Prefixes

namespace Pamodbus.Lib.Collector

open Pamodbus.Lib.Prefixes

variable {α : Type} {p : List α → Bool} {least : Nat}

/-- A collector takes a message from the front of what it holds, and drops the rest. A chunk comes
with the length up to which a message may be taken then. -/
def collect (p : List α → Bool) (least : Nat) :
    (held : List α) → (chunks : List (List α × Nat)) → List (List α)
  | _, [] => []
  | held, (c, room) :: chunks =>
    match shortest p least (held ++ c) with
    | some n =>
      if n ≤ room then (held ++ c).take n :: collect p least [] chunks
      else collect p least (held ++ c) chunks
    | none => collect p least (held ++ c) chunks

/-- Behind the elements held, every message ends where a chunk ends. -/
inductive Aligned : (held : List α) → (chunks messages : List (List α)) → Prop
  | nil : Aligned [] [] []
  | part {held c : List α} {chunks messages : List (List α)}
      (h : Aligned (held ++ c) chunks messages) : Aligned held (c :: chunks) messages
  | whole {held c : List α} {chunks messages : List (List α)} (h : Aligned [] chunks messages) :
      Aligned held (c :: chunks) ((held ++ c) :: messages)

theorem Aligned.flatten {held : List α} {chunks messages : List (List α)}
    (h : Aligned held chunks messages) : held ++ chunks.flatten = messages.flatten := by
  induction h with
  | nil => rfl
  | part h ih => rw [List.flatten_cons, ← List.append_assoc, ih]
  | whole h ih => rw [List.flatten_cons, List.flatten_cons, ← List.append_assoc, ← ih, List.nil_append]

theorem Aligned.held_prefix {held : List α} {chunks messages : List (List α)}
    (h : Aligned held chunks messages) (hne : held ≠ []) :
    ∃ m ms, messages = m :: ms ∧ held <+: m := by
  induction h with
  | nil => exact absurd rfl hne
  | @part held c chunks messages h ih =>
    obtain ⟨m, ms, rfl, hp⟩ := ih (by simp [hne])
    exact ⟨m, ms, rfl, (List.prefix_append held c).trans hp⟩
  | whole h ih => exact ⟨_, _, rfl, List.prefix_append _ _⟩

theorem collect_length_le (held : List α) (chunks : List (List α × Nat)) :
    (collect p least held chunks).flatten.length ≤
      held.length + (chunks.map Prod.fst).flatten.length := by
  induction chunks generalizing held with
  | nil => exact Nat.zero_le _
  | cons c chunks ih =>
    have hpart := ih (held ++ c.1)
    have hwhole := ih []
    rw [List.length_append] at hpart
    rw [List.length_nil] at hwhole
    rw [collect, List.map_cons, List.flatten_cons, List.length_append]
    cases hs : shortest p least (held ++ c.1) with
    | none => exact hpart.trans (by omega)
    | some n =>
      have hn := (shortest_eq_some_iff.mp hs).1
      rw [List.length_append] at hn
      dsimp only
      split
      · rw [List.flatten_cons, List.length_append, List.length_take, List.length_append]
        omega
      · exact hpart.trans (by omega)

theorem collect_all (held : List α) (chunks : List (List α × Nat))
    (h : held.length + (chunks.map Prod.fst).flatten.length ≤
      (collect p least held chunks).flatten.length) :
    Aligned held (chunks.map Prod.fst) (collect p least held chunks) := by
  induction chunks generalizing held with
  | nil =>
    have hnil : held = [] := List.length_eq_zero_iff.mp (Nat.le_zero.mp h)
    rw [hnil]
    exact .nil
  | cons c chunks ih =>
    have hle : (collect p least [] chunks).flatten.length ≤ _ := collect_length_le [] chunks
    rw [List.map_cons, List.flatten_cons, List.length_append, ← Nat.add_assoc,
      ← List.length_append] at h
    rw [collect] at h ⊢
    cases hs : shortest p least (held ++ c.1) with
    | none =>
      rw [hs] at h
      exact .part (ih _ h)
    | some n =>
      rw [hs] at h
      dsimp only at h ⊢
      split at h
      · next hroom =>
        have hsplit : ((held ++ c.1).take n ++ (collect p least [] chunks).flatten).length =
            min n (held ++ c.1).length + (collect p least [] chunks).flatten.length := by
          rw [List.length_append, List.length_take]
        rw [List.flatten_cons, hsplit] at h
        rw [List.length_nil] at hle
        rw [if_pos hroom, List.take_of_length_le (by omega)]
        exact .whole (ih [] (by rw [List.length_nil]; omega))
      · next hroom =>
        rw [if_neg hroom]
        exact .part (ih _ h)

theorem collect_aligned {held : List α} {chunks : List (List α × Nat)} {messages : List (List α)}
    (hpos : 0 < least) (h : Aligned held (chunks.map Prod.fst) messages)
    (hm : ∀ m ∈ messages, First p least m)
    (hroom : ∀ c ∈ chunks, ∀ m ∈ messages, m.length ≤ c.2) :
    (shortest p least held = none → collect p least held chunks = messages) ∧
      ∀ ms, messages = held :: ms → collect p least [] chunks = ms := by
  have hnone : shortest p least ([] : List α) = none := shortest_nil hpos
  induction chunks generalizing held messages with
  | nil =>
    cases h with
    | nil => exact ⟨fun _ => rfl, fun ms hms => absurd hms (List.cons_ne_nil _ _).symm⟩
  | cons c chunks ih =>
    have hempty : collect p least [] (([], c.2) :: chunks) = collect p least [] chunks := by
      rw [collect, List.append_nil, hnone]
    have hroom' {messages : List (List α)} (hr : ∀ d ∈ c :: chunks, ∀ m ∈ messages, m.length ≤ d.2) :
        ∀ d ∈ chunks, ∀ m ∈ messages, m.length ≤ d.2 :=
      fun d hd => hr d (List.mem_cons_of_mem c hd)
    cases h with
    | part h =>
      obtain ⟨hmore, hdone⟩ := ih h hm (hroom' hroom)
      constructor
      · intro hheld
        rw [collect]
        cases hs : shortest p least (held ++ c.1) with
        | none => exact hmore hs
        | some n =>
          have hne : held ++ c.1 ≠ [] := fun hn => by
            rw [hn, hnone] at hs
            cases hs
          obtain ⟨m, ms, rfl, hp⟩ := h.held_prefix hne
          have hfirst := hm m (List.mem_cons_self ..)
          have heq : held ++ c.1 = m := by
            by_contra hproper
            rw [hfirst.shortest_prefix hp hproper] at hs
            cases hs
          have hlen := hfirst.shortest_append []
          rw [List.append_nil, ← heq, hs, Option.some.injEq, heq] at hlen
          dsimp only
          rw [heq, hlen, if_pos (hroom c (List.mem_cons_self ..) m (List.mem_cons_self ..)),
            List.take_length, hdone ms (by rw [heq])]
      · rintro ms rfl
        have hfirst := hm held (List.mem_cons_self ..)
        have hlong := hfirst.long
        obtain ⟨m, ms', hms, hp⟩ := h.held_prefix (List.ne_nil_of_length_pos (by
          rw [List.length_append]
          omega))
        obtain ⟨rfl, rfl⟩ := List.cons.inj hms
        have hc : c.1 = [] := by
          have hle := hp.length_le
          rw [List.length_append] at hle
          exact List.length_eq_zero_iff.mp (by omega)
        obtain ⟨c, room⟩ := c
        obtain rfl : c = [] := hc
        rw [hempty]
        exact hdone ms (by rw [List.append_nil])
    | @whole _ _ _ messages h =>
      obtain ⟨hmore, -⟩ := ih h (fun m hm' => hm m (List.mem_cons_of_mem _ hm'))
        (hroom' fun d hd m hm' => hroom d hd m (List.mem_cons_of_mem _ hm'))
      constructor
      · intro _
        have hfirst := hm (held ++ c.1) (List.mem_cons_self ..)
        have hlen := hfirst.shortest_append []
        rw [List.append_nil] at hlen
        rw [collect, hlen]
        dsimp only
        rw [if_pos (hroom c (List.mem_cons_self ..) _ (List.mem_cons_self ..)), List.take_length,
          hmore hnone]
      · intro ms hms
        obtain ⟨hheld, rfl⟩ := List.cons.inj hms
        obtain ⟨c, room⟩ := c
        obtain rfl : c = [] := List.append_right_eq_self.mp hheld
        rw [hempty]
        exact hmore hnone

theorem collect_first {held m : List α} {chunks : List (List α × Nat)}
    (h : m ∈ collect p least held chunks) : First p least m := by
  induction chunks generalizing held with
  | nil => cases h
  | cons c chunks ih =>
    rw [collect] at h
    cases hs : shortest p least (held ++ c.1) with
    | none =>
      rw [hs] at h
      exact ih h
    | some n =>
      rw [hs] at h
      dsimp only at h
      split at h
      · rcases List.mem_cons.mp h with rfl | h
        · exact (shortest_eq_some_iff.mp hs).2
        · exact ih h
      · exact ih h

theorem collect_eq_of_lengths (chunks : List (List α × Nat)) (messages : List (List α))
    (hbytes : (chunks.map Prod.fst).flatten = messages.flatten)
    (hlen : (collect p least [] chunks).map List.length = messages.map List.length) :
    collect p least [] chunks = messages := by
  have htotal : (collect p least [] chunks).flatten.length = messages.flatten.length := by
    rw [List.length_flatten, List.length_flatten, hlen]
  have hall := collect_all [] chunks (by rw [htotal, hbytes, List.length_nil, Nat.zero_add])
  exact List.eq_iff_flatten_eq.mpr ⟨by rw [← hall.flatten, List.nil_append, hbytes], hlen⟩

/-- All messages are taken, each whole and in order, if and only if each ends where a chunk ends. -/
theorem collect_eq_iff (chunks : List (List α × Nat)) (messages : List (List α)) (hpos : 0 < least)
    (hbytes : (chunks.map Prod.fst).flatten = messages.flatten)
    (hm : ∀ m ∈ messages, First p least m)
    (hroom : ∀ c ∈ chunks, ∀ m ∈ messages, m.length ≤ c.2) :
    collect p least [] chunks = messages ↔ Aligned [] (chunks.map Prod.fst) messages := by
  constructor
  · intro heq
    have hall := collect_all [] chunks
      (by rw [heq, hbytes, List.length_nil, Nat.zero_add])
    rwa [heq] at hall
  · intro h
    exact (collect_aligned hpos h hm hroom).1 (shortest_nil hpos)

end Pamodbus.Lib.Collector
