import Pamodbus.Lib.Procedure

namespace Pamodbus.Lib.Hoare

open Pamodbus.Lib.Procedure

variable {S T α β : Type} {P P' : S → Prop} {Q Q' : α → S → Prop} {R : β → S → Prop}

/-- Total correctness: from a state with `P` the run is defined and ends in a
value and a state with `Q`. -/
def Triple (P : S → Prop) (p : Proc S α) (Q : α → S → Prop) : Prop :=
  ∀ s, P s → ∃ a t, p.run s = some (a, t) ∧ Q a t

/-- A run that is defined from every state and whose value has `V`. -/
def Sure (p : Proc S α) (V : α → Prop) : Prop := Triple (fun _ => True) p fun a _ => V a

theorem triple_pure (a : α) (h : ∀ s, P s → Q a s) : Triple P (pure a : Proc S α) Q :=
  fun s hs => ⟨a, s, rfl, h s hs⟩

theorem triple_bind {p : Proc S α} {f : α → Proc S β} (hp : Triple P p Q)
    (hf : ∀ a, Triple (Q a) (f a) R) : Triple P (p >>= f) R := by
  intro s hs
  obtain ⟨a, t, ht, ha⟩ := hp s hs
  obtain ⟨b, u, hu, hb⟩ := hf a t ha
  exact ⟨b, u, by rw [bind_defined _ _ _ _ _ ht, hu], hb⟩

theorem triple_access_bind {o : Option α} {f : α → Proc S β} (a : α) (ho : o = some a)
    (h : Triple P (f a) R) : Triple P (access o >>= f) R := by
  rw [ho, access_some, pure_bind]
  exact h

theorem triple_ite {c : Prop} [Decidable c] {p q : Proc S α} (hp : c → Triple P p Q)
    (hq : ¬ c → Triple P q Q) : Triple P (if c then p else q) Q := by
  by_cases h : c
  · rw [if_pos h]
    exact hp h
  · rw [if_neg h]
    exact hq h

theorem triple_update {g : S → Option S} (h : ∀ s, P s → ∃ t, g s = some t ∧ P' t) :
    Triple P (update g) fun _ => P' := by
  intro s hs
  obtain ⟨t, ht, hp⟩ := h s hs
  exact ⟨(), t, by rw [update_run, ht]; rfl, hp⟩

theorem triple_modify {g : S → S} (h : ∀ s, P s → P' (g s)) :
    Triple P (modify g : Proc S Unit) fun _ => P' :=
  fun s hs => ⟨(), g s, rfl, h s hs⟩

/-- The rule for counting loops, with the invariant before round `i`. -/
theorem triple_loop (body : Nat → Proc S Unit) (I : Nat → S → Prop) (n : Nat)
    (h : ∀ i, i < n → Triple (I i) (body i) fun _ => I (i + 1)) :
    Triple (I 0) (loop body n) fun _ => I n := by
  intro s hs
  obtain ⟨t, ht, hi⟩ := loop_invariant body I n s hs fun i t hi ht => by
    obtain ⟨⟨⟩, u, hu, hj⟩ := h i hi t ht
    exact ⟨u, hu, hj⟩
  exact ⟨(), t, ht, hi⟩

variable {V : α → Prop} {W : β → Prop}

theorem sure_pure (a : α) (h : V a) : Sure (pure a : Proc S α) V := triple_pure a fun _ _ => h

theorem sure_bind {p : Proc S α} {f : α → Proc S β} (hp : Sure p V)
    (hf : ∀ a, V a → Sure (f a) W) : Sure (p >>= f) W :=
  triple_bind hp fun a s ha => hf a ha s trivial

theorem sure_access_bind {o : Option α} {f : α → Proc S β} (a : α) (ho : o = some a)
    (h : Sure (f a) W) : Sure (access o >>= f) W := triple_access_bind a ho h

theorem sure_ite {c : Prop} [Decidable c] {p q : Proc S α} (hp : c → Sure p V)
    (hq : ¬ c → Sure q V) : Sure (if c then p else q) V := triple_ite hp hq

theorem sure_guard {c : Prop} [Decidable c] {e : α} {p : Proc S α} (he : V e)
    (h : ¬ c → Sure p V) : Sure (if c then pure e else p) V :=
  sure_ite (fun _ => sure_pure e he) h

theorem sure_update {g : S → Option S} (h : ∀ s, (g s).isSome) :
    Sure (update g) fun _ => True :=
  triple_update fun s _ => by
    obtain ⟨t, ht⟩ := Option.isSome_iff_exists.mp (h s)
    exact ⟨t, ht, trivial⟩

theorem sure_modify_bind {g : S → S} {f : Unit → Proc S β} (hf : Sure (f ()) W) :
    Sure ((modify g : Proc S Unit) >>= f) W :=
  sure_bind (V := fun _ => True) (triple_modify fun _ _ => trivial) fun _ _ => hf

theorem sure_loop (body : Nat → Proc S Unit) (n : Nat)
    (h : ∀ i, i < n → Sure (body i) fun _ => True) : Sure (loop body n) fun _ => True :=
  triple_loop body (fun _ _ => True) n h

theorem sure_focus (get : S → T) (put : T → S → S) (p : Proc T α) (h : Sure p V) :
    Sure (focus get put p) V := by
  intro s _
  obtain ⟨a, t, ht, ha⟩ := h (get s) trivial
  exact ⟨a, put t s, by rw [focus_run, ht]; rfl, ha⟩

/-- Every defined run relates the state it starts from to the one it ends in. -/
def Within (F : S → S → Prop) (p : Proc S α) : Prop := ∀ s a t, p.run s = some (a, t) → F s t

variable {F : S → S → Prop}

theorem within_pure (a : α) (hr : ∀ s, F s s) : Within F (pure a : Proc S α) := by
  intro s b t h
  obtain ⟨-, rfl⟩ := (pure_run_iff a b s t).mp h
  exact hr t

theorem within_bind {p : Proc S α} {f : α → Proc S β} (ht : ∀ s t u, F s t → F t u → F s u)
    (hp : Within F p) (hf : ∀ a, Within F (f a)) : Within F (p >>= f) := by
  intro s b u h
  obtain ⟨a, t, hpt, hfu⟩ := bind_inv p f s u b h
  exact ht s t u (hp s a t hpt) (hf a t b u hfu)

theorem within_access_bind {o : Option α} {f : α → Proc S β} (hf : ∀ a, Within F (f a)) :
    Within F (access o >>= f) := by
  intro s b t h
  obtain ⟨a, -, h⟩ := (access_bind_iff o f s (b, t)).mp h
  exact hf a s b t h

theorem within_ite {c : Prop} [Decidable c] {p q : Proc S α} (hp : Within F p)
    (hq : Within F q) : Within F (if c then p else q) := by
  by_cases h : c
  · rw [if_pos h]
    exact hp
  · rw [if_neg h]
    exact hq

theorem within_modify {g : S → S} (h : ∀ s, F s (g s)) : Within F (modify g : Proc S Unit) := by
  intro s a t ht
  have hg : t = g s := by
    change some ((), g s) = some (a, t) at ht
    rw [Option.some.injEq, Prod.mk.injEq] at ht
    exact ht.2.symm
  rw [hg]
  exact h s

theorem within_get_bind {f : S → Proc S β} (hf : ∀ s, Within F (f s)) :
    Within F ((get : Proc S S) >>= f) := by
  intro s b t h
  rw [get_bind_run] at h
  exact hf s s b t h

theorem within_access (o : Option α) (hr : ∀ s, F s s) : Within F (access o : Proc S α) := by
  rw [← bind_pure (access o : Proc S α)]
  exact within_access_bind fun a => within_pure a hr

theorem within_update {g : S → Option S} (h : ∀ s t, g s = some t → F s t) :
    Within F (update g) := by
  intro s a t ht
  rw [update_run, Option.map_eq_some_iff] at ht
  obtain ⟨u, hu, he⟩ := ht
  rw [Prod.mk.injEq] at he
  exact he.2 ▸ h s u hu

theorem within_loop {body : Nat → Proc S Unit} (n : Nat) (hr : ∀ s, F s s)
    (ht : ∀ s t u, F s t → F t u → F s u) (h : ∀ i, Within F (body i)) :
    Within F (loop body n) := by
  induction n with
  | zero => exact within_pure () hr
  | succ n ih => exact within_bind ht ih fun _ => h n

theorem within_focus (get : S → T) (put : T → S → S) (p : Proc T α) (h : ∀ s t, F s (put t s)) :
    Within F (focus get put p) := by
  intro s a t ht
  rw [focus_run, Option.map_eq_some_iff] at ht
  obtain ⟨⟨b, u⟩, -, he⟩ := ht
  rw [Prod.mk.injEq] at he
  rw [← he.2]
  exact h s u

/-- Nothing in the run sees the change `g` of the state, or undoes it. -/
def Blind (g : S → S) (p : Proc S α) : Prop :=
  ∀ s, p.run (g s) = (p.run s).map fun r => (r.1, g r.2)

variable {g : S → S}

theorem blind_pure (a : α) : Blind g (pure a : Proc S α) := fun _ => rfl

theorem blind_bind {p : Proc S α} {f : α → Proc S β} (hp : Blind g p) (hf : ∀ a, Blind g (f a)) :
    Blind g (p >>= f) := by
  intro s
  rw [StateT.run_bind, StateT.run_bind, hp s]
  cases p.run s with
  | none => rfl
  | some r => exact hf r.1 r.2

theorem blind_bind_values {p : Proc S α} {f : α → Proc S β} (hp : Blind g p)
    (hv : ∀ s a t, p.run s = some (a, t) → V a) (hf : ∀ a, V a → Blind g (f a)) :
    Blind g (p >>= f) := by
  intro s
  rw [StateT.run_bind, StateT.run_bind, hp s]
  cases h : p.run s with
  | none => rfl
  | some r => exact hf r.1 (hv s r.1 r.2 h) r.2

theorem blind_access_bind {o : Option α} {f : α → Proc S β} (hf : ∀ a, Blind g (f a)) :
    Blind g (access o >>= f) := by
  cases o with
  | none => exact fun _ => rfl
  | some a => exact hf a

theorem blind_get_bind {f : S → Proc S β} (hg : ∀ s, f (g s) = f s) (hf : ∀ s, Blind g (f s)) :
    Blind g ((get : Proc S S) >>= f) := by
  intro s
  rw [get_bind_run, get_bind_run, hg s]
  exact hf s s

theorem blind_modify {f : S → S} (h : ∀ s, f (g s) = g (f s)) :
    Blind g (modify f : Proc S Unit) := by
  intro s
  change some ((), f (g s)) = some ((), g (f s))
  rw [h]

theorem blind_ite {c : Prop} [Decidable c] {p q : Proc S α} (hp : Blind g p) (hq : Blind g q) :
    Blind g (if c then p else q) := by
  by_cases h : c
  · rw [if_pos h]
    exact hp
  · rw [if_neg h]
    exact hq

theorem blind_focus (get : S → T) (put : T → S → S) (p : Proc T α) (hget : ∀ s, get (g s) = get s)
    (hput : ∀ s t, put t (g s) = g (put t s)) : Blind g (focus get put p) := by
  intro s
  rw [focus_run, focus_run, hget, Option.map_map]
  congr 1
  funext r
  rw [hput]
  rfl

/-- Every defined run relates its states by `F` and gives a value with `V`. -/
def Yields (F : S → S → Prop) (p : Proc S α) (V : α → Prop) : Prop :=
  ∀ s a t, p.run s = some (a, t) → F s t ∧ V a

theorem yields_pure (a : α) (hr : ∀ s, F s s) (h : V a) : Yields F (pure a : Proc S α) V := by
  intro s b t hrun
  obtain ⟨rfl, rfl⟩ := (pure_run_iff a b s t).mp hrun
  exact ⟨hr t, h⟩

theorem yields_undefined : Yields F (access none : Proc S α) V := by
  intro s a t h
  cases h

theorem yields_bind {p : Proc S α} {f : α → Proc S β} (ht : ∀ s t u, F s t → F t u → F s u)
    (hp : Yields F p V) (hf : ∀ a, V a → Yields F (f a) W) : Yields F (p >>= f) W := by
  intro s b u h
  obtain ⟨a, t, hpt, hfu⟩ := bind_inv p f s u b h
  obtain ⟨hst, ha⟩ := hp s a t hpt
  obtain ⟨htu, hb⟩ := hf a ha t b u hfu
  exact ⟨ht s t u hst htu, hb⟩

theorem Within.yields {p : Proc S α} (h : Within F p) : Yields F p fun _ => True :=
  fun s a t hrun => ⟨h s a t hrun, trivial⟩

theorem Yields.within {p : Proc S α} (h : Yields F p V) : Within F p :=
  fun s a t hrun => (h s a t hrun).1

end Pamodbus.Lib.Hoare
