import Pamodbus.Lib.Procedure

namespace Pamodbus.Lib.Commuting

open Pamodbus.Lib.Procedure

variable {S T α β : Type} {f : S → S} {p q : Proc S α} {s s' : S} {a : α}

/-- From the changed state the procedure gives the same value, and the change is still there. -/
def Commutes (f : S → S) (p : Proc S α) : Prop :=
  ∀ s, p.run (f s) = (p.run s).map fun r => (r.1, f r.2)

theorem Commutes.run (h : Commutes f p) (hrun : p.run s = some (a, s')) :
    p.run (f s) = some (a, f s') := by
  rw [h s, hrun, Option.map_some]

theorem Commutes.run_inv (h : Commutes f p) (hrun : p.run (f s) = some (a, s')) :
    ∃ t, p.run s = some (a, t) ∧ s' = f t := by
  rw [h s] at hrun
  obtain ⟨⟨b, t⟩, ht, he⟩ := Option.map_eq_some_iff.mp hrun
  obtain ⟨rfl, rfl⟩ := Prod.mk.inj he
  exact ⟨t, ht, rfl⟩

theorem commutes_pure (a : α) : Commutes f (pure a : Proc S α) := fun _ => rfl

theorem commutes_access (o : Option α) : Commutes f (access o : Proc S α) := by
  intro s
  cases o with
  | none => rfl
  | some a => rfl

theorem commutes_modify {g : S → S} (h : ∀ s, g (f s) = f (g s)) :
    Commutes f (modify g : Proc S Unit) := by
  intro s
  change some ((), g (f s)) = some ((), f (g s))
  rw [h]

theorem commutes_bind {k : α → Proc S β} (hp : Commutes f p) (hk : ∀ a, Commutes f (k a)) :
    Commutes f (p >>= k) := by
  intro s
  cases hrun : p.run s with
  | none =>
    have hrun' : p.run (f s) = none := by rw [hp s, hrun, Option.map_none]
    rw [bind_undefined p k _ hrun', bind_undefined p k _ hrun, Option.map_none]
  | some r =>
    rw [bind_defined p k _ _ _ (hp.run hrun), bind_defined p k _ _ _ hrun, hk]

theorem commutes_ite {c : Prop} [Decidable c] (hp : Commutes f p) (hq : Commutes f q) :
    Commutes f (if c then p else q) := by
  split
  · exact hp
  · exact hq

theorem commutes_focus {get : S → T} {put : T → S → S} (p : Proc T α)
    (hget : ∀ s, get (f s) = get s) (hput : ∀ t s, put t (f s) = f (put t s)) :
    Commutes f (focus get put p) := by
  intro s
  rw [focus_run, focus_run, hget, Option.map_map]
  congr 1
  funext r
  exact congrArg (Prod.mk r.1) (hput r.2 s)

end Pamodbus.Lib.Commuting
