import Mathlib.Control.Monad.Basic

namespace Pamodbus.Lib.Procedure

variable {S T α β : Type}

/-- A procedure that updates a state `S` and returns a value. `none` is an
undefined step: nothing is said about a run that reaches one. -/
abbrev Proc (S α : Type) := StateT S Option α

/-- Read a partial value: an absent one is an undefined step. -/
def access (o : Option α) : Proc S α := fun s => o.map (·, s)

def update (f : S → Option S) : Proc S Unit := fun s => (f s).map ((), ·)

/-- Run a procedure on a part of the state. The rest is not in its reach. -/
def focus (get : S → T) (put : T → S → S) (p : Proc T α) : Proc S α := fun s =>
  (p.run (get s)).map fun r => (r.1, put r.2 s)

/-- The counting loop `for (i = 0; i < n; i++) body(i)`. -/
def loop (body : Nat → Proc S Unit) : Nat → Proc S Unit
  | 0 => pure ()
  | n + 1 => do
    loop body n
    body n

@[simp] theorem access_run (o : Option α) (s : S) : (access o).run s = o.map (·, s) := rfl

@[simp] theorem access_some (a : α) : (access (some a) : Proc S α) = pure a := rfl

@[simp] theorem update_run (f : S → Option S) (s : S) :
    (update f).run s = (f s).map ((), ·) := rfl

@[simp] theorem focus_run (get : S → T) (put : T → S → S) (p : Proc T α) (s : S) :
    (focus get put p).run s = (p.run (get s)).map fun r => (r.1, put r.2 s) := rfl

theorem bind_undefined (p : Proc S α) (f : α → Proc S β) (s : S) (h : p.run s = none) :
    (p >>= f).run s = none := by
  simp only [StateT.run_bind, h, Option.bind_eq_bind, Option.bind_none]

theorem bind_defined (p : Proc S α) (f : α → Proc S β) (s t : S) (a : α)
    (h : p.run s = some (a, t)) : (p >>= f).run s = (f a).run t := by
  simp only [StateT.run_bind, h, Option.bind_eq_bind, Option.bind_some]

theorem access_bind_iff (o : Option α) (f : α → Proc S β) (s : S) (x : β × S) :
    (access o >>= f).run s = some x ↔ ∃ a, o = some a ∧ (f a).run s = some x := by
  cases o with
  | none => simp
  | some a => simp

theorem access_bind_congr {o : Option α} {f f' : α → Proc S β} {s : S}
    (h : ∀ a, o = some a → (f a).run s = (f' a).run s) :
    (access o >>= f).run s = (access o >>= f').run s := by
  cases o with
  | none => rfl
  | some a => exact h a rfl

theorem access_run_iff {o : Option α} {a : α} {s t : S} :
    (access o : Proc S α).run s = some (a, t) ↔ o = some a ∧ s = t := by
  cases o with
  | none => simp
  | some b => simp

theorem get_bind_run (f : S → Proc S β) (s : S) : ((get : Proc S S) >>= f).run s = (f s).run s := rfl

theorem modify_bind_run (g : S → S) (f : Unit → Proc S β) (s : S) :
    ((modify g : Proc S Unit) >>= f).run s = (f ()).run (g s) := rfl

theorem update_bind_run (g : S → Option S) (f : Unit → Proc S β) (s : S) :
    (update g >>= f).run s = (g s).bind (f ()).run := by
  rw [StateT.run_bind, update_run]
  cases g s with
  | none => rfl
  | some t => rfl

theorem update_bind_iff {g : S → Option S} {P : Prop} {s t : S}
    (hg : ∀ u, g s = some u ↔ P ∧ u = t) (f : Unit → Proc S β) (x : β × S) :
    (update g >>= f).run s = some x ↔ P ∧ (f ()).run t = some x := by
  rw [update_bind_run, Option.bind_eq_some_iff]
  constructor
  · rintro ⟨u, hu, h⟩
    obtain ⟨hp, rfl⟩ := (hg u).mp hu
    exact ⟨hp, h⟩
  · rintro ⟨hp, h⟩
    exact ⟨t, (hg t).mpr ⟨hp, rfl⟩, h⟩

theorem map_eq_some_of_iff {o : Option α} {P : Prop} {a : α} (g : α → β)
    (ho : ∀ b, o = some b ↔ P ∧ b = a) (b : β) : o.map g = some b ↔ P ∧ b = g a := by
  rw [Option.map_eq_some_iff]
  constructor
  · rintro ⟨c, hc, rfl⟩
    obtain ⟨hp, rfl⟩ := (ho c).mp hc
    exact ⟨hp, rfl⟩
  · rintro ⟨hp, rfl⟩
    exact ⟨a, (ho a).mpr ⟨hp, rfl⟩, rfl⟩

theorem pure_run_iff (a b : α) (s t : S) :
    (pure a : Proc S α).run s = some (b, t) ↔ b = a ∧ t = s := by
  rw [StateT.run_pure, Option.pure_def, Option.some.injEq, Prod.mk.injEq, eq_comm, eq_comm (a := s)]

theorem guard_run_iff {c : Prop} [Decidable c] (e a : α) (p : Proc S α) (s t : S) (h : e ≠ a) :
    (if c then pure e else p).run s = some (a, t) ↔ ¬ c ∧ p.run s = some (a, t) := by
  by_cases hc : c
  · rw [if_pos hc, pure_run_iff]
    exact ⟨fun he => absurd he.1.symm h, fun hn => absurd hc hn.1⟩
  · rw [if_neg hc, and_iff_right hc]

theorem bind_inv (p : Proc S α) (f : α → Proc S β) (s u : S) (b : β)
    (h : (p >>= f).run s = some (b, u)) :
    ∃ a t, p.run s = some (a, t) ∧ (f a).run t = some (b, u) := by
  simp only [StateT.run_bind, Option.bind_eq_bind, Option.bind_eq_some_iff, Prod.exists] at h
  exact h

theorem loop_congr {body body' : Nat → Proc S Unit} {n : Nat} (h : ∀ i, i < n → body i = body' i) :
    loop body n = loop body' n := by
  induction n with
  | zero => rfl
  | succ n ih => rw [loop, loop, ih fun i hi => h i (by omega), h n (by omega)]

/-- The invariant rule: `I i` holds before round `i`, and every round is defined. -/
theorem loop_invariant (body : Nat → Proc S Unit) (I : Nat → S → Prop) (n : Nat) (s : S)
    (h0 : I 0 s)
    (hs : ∀ i t, i < n → I i t → ∃ u, (body i).run t = some ((), u) ∧ I (i + 1) u) :
    ∃ t, (loop body n).run s = some ((), t) ∧ I n t := by
  induction n with
  | zero => exact ⟨s, rfl, h0⟩
  | succ n ih =>
    obtain ⟨t, ht, hi⟩ := ih fun i u hn => hs i u (by omega)
    obtain ⟨u, hu, hj⟩ := hs n t (by omega) hi
    exact ⟨u, by rw [loop, bind_defined _ _ _ _ _ ht, hu], hj⟩

end Pamodbus.Lib.Procedure
