import Mathlib.Data.List.Chain
import Pamodbus.Lib.Exchange

namespace Pamodbus.Lib.Retries

open Pamodbus.Lib.Exchange

variable {T X R : Type} {act : T → X → R × T} {unsure : R → Prop} {lossy : Bool} {t : T}
  {done : List X} {replies : List (X × R)} {x : X} {r : R}

def Insistent (unsure : R → Prop) (replies : List (X × R)) : Prop :=
  replies.IsChain fun a b => unsure a.2 → b.1 = a.1

def settled (unsure : R → Prop) [DecidablePred unsure] (replies : List (X × R)) : List (X × R) :=
  replies.filter fun a => ¬ unsure a.2

/-- An operation that is done again changes nothing, and has the same reply. -/
def Repeatable (act : T → X → R × T) : Prop := ∀ t x, act (act t x).2 x = act t x

theorem Insistent.snoc (h : Insistent unsure (replies ++ [(x, r)])) :
    Insistent unsure replies ∧ ∀ y s, replies.getLast? = some (y, s) → unsure s → x = y := by
  obtain ⟨hinit, -, hlast⟩ := List.isChain_append.mp h
  exact ⟨hinit, fun y s hy => hlast (y, s) hy (x, r) rfl⟩

section

variable [DecidablePred unsure]

@[simp] theorem settled_unsure (h : unsure r) :
    settled unsure (replies ++ [(x, r)]) = settled unsure replies := by
  simp [settled, h]

@[simp] theorem settled_sure (h : ¬ unsure r) :
    settled unsure (replies ++ [(x, r)]) = settled unsure replies ++ [(x, r)] := by
  simp [settled, h]

/-- The store is as if only what is settled had been done, or that and the last operation. -/
def Effective (act : T → X → R × T) (unsure : R → Prop) [DecidablePred unsure] (t : T)
    (done : List X) (replies : List (X × R)) : Prop :=
  (outcome act t done).2 = (outcome act t ((settled unsure replies).map Prod.fst)).2 ∨
    ∃ x r, replies.getLast? = some (x, r) ∧ unsure r ∧
      (outcome act t done).2 = (outcome act t ((settled unsure replies).map Prod.fst ++ [x])).2

theorem Effective.again (h : Effective act unsure t done replies) (hrep : Repeatable act)
    (hlast : ∀ y s, replies.getLast? = some (y, s) → unsure s → x = y) :
    act (outcome act t done).2 x =
      act (outcome act t ((settled unsure replies).map Prod.fst)).2 x := by
  rcases h with h | ⟨y, s, hy, hs, h⟩
  · rw [h]
  · obtain rfl := hlast y s hy hs
    rw [h, outcome_snoc]
    exact hrep _ x

theorem Effective.performed (h : Effective act unsure t done replies) (hrep : Repeatable act)
    (hlast : ∀ y s, replies.getLast? = some (y, s) → unsure s → x = y) (hr : unsure r) :
    Effective act unsure t (done ++ [x]) (replies ++ [(x, r)]) := by
  refine .inr ⟨x, r, List.getLast?_concat, hr, ?_⟩
  rw [settled_unsure hr, outcome_snoc, outcome_snoc, h.again hrep hlast]

theorem accounts_effective (h : Accounts act unsure lossy t done replies)
    (hrep : Repeatable act) (hins : Insistent unsure replies) :
    Effective act unsure t done replies ∧ (settled unsure replies).map Prod.snd =
      (outcome act t ((settled unsure replies).map Prod.fst)).1 := by
  induction h with
  | nil => exact ⟨.inl rfl, rfl⟩
  | @answered done replies x h ih =>
    obtain ⟨hinit, hlast⟩ := hins.snoc
    obtain ⟨heff, hsettled⟩ := ih hinit
    have hagain := heff.again hrep hlast
    by_cases hr : unsure (act (outcome act t done).2 x).1
    · rw [settled_unsure hr]
      exact ⟨heff.performed hrep hlast hr, hsettled⟩
    · refine ⟨.inl ?_, ?_⟩
      · rw [settled_sure hr, List.map_append, List.map_singleton, outcome_snoc, outcome_snoc, hagain]
      · rw [settled_sure hr, List.map_append, List.map_append, List.map_singleton,
          List.map_singleton, outcome_snoc, hsettled, hagain]
  | @dropped done replies x r hlossy hr h ih =>
    obtain ⟨hinit, hlast⟩ := hins.snoc
    obtain ⟨heff, hsettled⟩ := ih hinit
    rw [settled_unsure hr]
    refine ⟨?_, hsettled⟩
    rcases heff with heff | ⟨y, s, hy, hs, heff⟩
    · exact .inl (by rw [settled_unsure hr]; exact heff)
    · obtain rfl := hlast y s hy hs
      exact .inr ⟨x, r, List.getLast?_concat, hr, by rw [settled_unsure hr]; exact heff⟩
  | @unheard done replies x r hlossy hr h ih =>
    obtain ⟨hinit, hlast⟩ := hins.snoc
    obtain ⟨heff, hsettled⟩ := ih hinit
    rw [settled_unsure hr]
    exact ⟨heff.performed hrep hlast hr, hsettled⟩

/-- With retries every operation that is settled has been done as if once, and in order. -/
theorem retried_once (h : Accounts act unsure lossy t done replies) (hrep : Repeatable act)
    (hins : Insistent unsure replies)
    (hlast : ∀ x r, replies.getLast? = some (x, r) → ¬ unsure r) :
    outcome act t ((settled unsure replies).map Prod.fst) =
      ((settled unsure replies).map Prod.snd, (outcome act t done).2) := by
  obtain ⟨heff, hsettled⟩ := accounts_effective h hrep hins
  rcases heff with heff | ⟨x, r, hx, hr, -⟩
  · rw [hsettled, heff]
  · exact absurd hr (hlast x r hx)

end

end Pamodbus.Lib.Retries
