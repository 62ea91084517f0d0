import Mathlib.Data.List.Basic

namespace Pamodbus.Lib.Interleaving

variable {S L M A B O P : Type}

/-- What an action gives and makes of the shared state and of the own one. -/
abbrev Component (S L A O : Type) := A → S → L → Option (O × S × L)

def alone (f : Component S L A O) : S → L → List A → Option (List O)
  | _, _, [] => some []
  | s, l, a :: as => (f a s l).bind fun r => (alone f r.2.1 r.2.2 as).map (r.1 :: ·)

def together (f : Component S L A O) (g : Component S M B P) :
    S → L → M → List (A ⊕ B) → Option (List O × List P)
  | _, _, _, [] => some ([], [])
  | s, l, m, .inl a :: as =>
    (f a s l).bind fun r => (together f g r.2.1 r.2.2 m as).map fun x => (r.1 :: x.1, x.2)
  | s, l, m, .inr b :: as =>
    (g b s m).bind fun r => (together f g r.2.1 l r.2.2 as).map fun x => (x.1, r.1 :: x.2)

def lefts (as : List (A ⊕ B)) : List A := as.filterMap Sum.getLeft?

def rights (as : List (A ⊕ B)) : List B := as.filterMap Sum.getRight?

@[simp] theorem lefts_inl (a : A) (as : List (A ⊕ B)) : lefts (.inl a :: as) = a :: lefts as := rfl

@[simp] theorem lefts_inr (b : B) (as : List (A ⊕ B)) : lefts (.inr b :: as) = lefts as := rfl

@[simp] theorem rights_inl (a : A) (as : List (A ⊕ B)) : rights (.inl a :: as) = rights as := rfl

@[simp] theorem rights_inr (b : B) (as : List (A ⊕ B)) :
    rights (.inr b :: as) = b :: rights as := rfl

def apart (f : Component S L A O) (g : Component S M B P) (s : S) (l : L) (m : M) (as : List A)
    (bs : List B) : Option (List O × List P) :=
  (alone f s l as).bind fun os => (alone g s m bs).map fun ps => (os, ps)

/-- Each component gives in every interleaving what it gives alone. -/
def Isolated (f : Component S L A O) (g : Component S M B P) (s : S) (l : L) (m : M) : Prop :=
  ∀ as, together f g s l m as = apart f g s l m (lefts as) (rights as)

/-- A component that neither looks at the shared state nor changes it, as long as
its own state has `Inv`. -/
structure Detached (f : Component S L A O) (Inv : L → Prop) : Prop where
  blind : ∀ a s t l, Inv l → f a t l = (f a s l).map fun r => (r.1, t, r.2.2)
  keeps : ∀ a s l r, Inv l → f a s l = some r → Inv r.2.2

variable {f : Component S L A O} {g : Component S M B P} {Inv : L → Prop} {s s' : S} {l : L} {m : M}

theorem Detached.shared (hf : Detached f Inv) (hl : Inv l) {a : A} {r : O × S × L}
    (h : f a s l = some r) : r.2.1 = s := by
  have hb := hf.blind a s s l hl
  rw [h, Option.map_some, Option.some.injEq] at hb
  rw [hb]

theorem Detached.alone_eq (hf : Detached f Inv) (hl : Inv l) (as : List A) :
    alone f s' l as = alone f s l as := by
  induction as generalizing s s' l with
  | nil => rfl
  | cons a as ih =>
    rw [alone, alone, hf.blind a s s' l hl]
    cases h : f a s l with
    | none => rfl
    | some r =>
      rw [Option.map_some, Option.bind_some, Option.bind_some]
      dsimp only
      rw [ih (hf.keeps a s l r hl h)]

/-- One detached component is enough. -/
theorem Detached.isolated (hf : Detached f Inv) (hl : Inv l) : Isolated f g s l m := by
  intro as
  rw [apart]
  induction as generalizing s l m with
  | nil => rfl
  | cons a as ih =>
    cases a with
    | inl a =>
      rw [together, lefts_inl, rights_inl, alone]
      cases h : f a s l with
      | none => rfl
      | some r =>
        rw [Option.bind_some, Option.bind_some, ih (hf.keeps a s l r hl h), hf.shared hl h]
        cases alone f s r.2.2 (lefts as) with
        | none => rfl
        | some os =>
          cases alone g s m (rights as) with
          | none => rfl
          | some ps => rfl
    | inr b =>
      rw [together, lefts_inr, rights_inr, alone]
      cases g b s m with
      | none =>
        cases alone f s l (lefts as) with
        | none => rfl
        | some os => rfl
      | some r =>
        rw [Option.bind_some, Option.bind_some, ih hl, hf.alone_eq hl]
        cases alone f s l (lefts as) with
        | none => rfl
        | some os =>
          cases alone g r.2.1 r.2.2 (rights as) with
          | none => rfl
          | some ps => rfl

theorem together_swap (as : List (A ⊕ B)) :
    together g f s m l (as.map Sum.swap) = (together f g s l m as).map Prod.swap := by
  induction as generalizing s l m with
  | nil => rfl
  | cons a as ih =>
    cases a with
    | inl a =>
      change (f a s l).bind _ = ((f a s l).bind _).map _
      cases f a s l with
      | none => rfl
      | some r =>
        rw [Option.bind_some, Option.bind_some, ih, Option.map_map, Option.map_map]
        rfl
    | inr b =>
      change (g b s m).bind _ = ((g b s m).bind _).map _
      cases g b s m with
      | none => rfl
      | some r =>
        rw [Option.bind_some, Option.bind_some, ih, Option.map_map, Option.map_map]
        rfl

theorem lefts_swap (as : List (A ⊕ B)) : lefts (as.map Sum.swap) = rights as := by
  induction as with
  | nil => rfl
  | cons a as ih =>
    cases a with
    | inl a => exact ih
    | inr b => exact congrArg (b :: ·) ih

theorem swap_swap (as : List (A ⊕ B)) : (as.map Sum.swap).map Sum.swap = as := by
  rw [List.map_map]
  exact List.map_id'' Sum.swap_swap as

theorem rights_swap (as : List (A ⊕ B)) : rights (as.map Sum.swap) = lefts as := by
  rw [← lefts_swap, swap_swap]

theorem Isolated.swap (h : Isolated g f s m l) : Isolated f g s l m := by
  intro as
  have hswap := h (as.map Sum.swap)
  rw [together_swap, lefts_swap, rights_swap, apart] at hswap
  have hback := congrArg (Option.map Prod.swap) hswap
  rw [Option.map_map] at hback
  change (together f g s l m as).map id = _ at hback
  rw [Option.map_id, id] at hback
  rw [hback, apart]
  cases alone g s m (rights as) with
  | none =>
    cases alone f s l (lefts as) with
    | none => rfl
    | some os => rfl
  | some ps =>
    cases alone f s l (lefts as) with
    | none => rfl
    | some os => rfl

/-- What isolation asks of an action of one component and the action of the other after it. -/
theorem apart_agree {a : A} {b : B} {r : O × S × L} (ha : f a s l = some r)
    (hab : together f g s l m [.inl a, .inr b] = apart f g s l m [a] [b]) :
    (g b r.2.1 m).map Prod.fst = (g b s m).map Prod.fst := by
  rw [together, ha, Option.bind_some, together, apart, alone, alone, ha] at hab
  cases hlater : g b r.2.1 m with
  | none =>
    cases hnow : g b s m with
    | none => rfl
    | some q =>
      rw [hlater, hnow] at hab
      cases hab
  | some p =>
    cases hnow : g b s m with
    | none =>
      rw [hlater, hnow] at hab
      cases hab
    | some q =>
      rw [hlater, hnow] at hab
      have hlists := (Prod.mk.inj (Option.some.inj hab)).2
      exact congrArg some (List.cons.inj hlists).1

/-- Every action finds a state that has `P` with it when the component runs alone. -/
def Throughout (f : Component S L A O) (P : A → L → Prop) : S → L → List A → Prop
  | _, _, [] => True
  | s, l, a :: as => P a l ∧ ∀ r, f a s l = some r → Throughout f P r.2.1 r.2.2 as

theorem alone_congr {Same : A → A → Prop} {P : A → L → Prop}
    (hsame : ∀ a b s l, Same a b → P a l → f b s l = f a s l) {as bs : List A}
    (hab : List.Forall₂ Same as bs) (hp : Throughout f P s l as) :
    alone f s l bs = alone f s l as := by
  induction hab generalizing s l with
  | nil => rfl
  | cons h _ ih =>
    obtain ⟨hnow, hlater⟩ := hp
    rw [alone, alone, hsame _ _ s l h hnow]
    cases hr : f _ s l with
    | none => rfl
    | some r =>
      rw [Option.bind_some, Option.bind_some, ih (hlater r hr)]

end Pamodbus.Lib.Interleaving
