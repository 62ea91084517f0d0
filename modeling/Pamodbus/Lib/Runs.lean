import Mathlib.Logic.Basic

namespace Pamodbus.Lib.Runs

variable {S A : Type} {step : S → A → Option S} {Inv : S → Prop} {P Q : S → A → Prop}
  {s s' : S} {a : A} {as bs : List A}

def after (step : S → A → Option S) : S → List A → Option S
  | s, [] => some s
  | s, a :: as => (step s a).bind fun s' => after step s' as

/-- The run goes through, and `P` holds where each of its steps starts. -/
def Along (step : S → A → Option S) (P : S → A → Prop) : S → List A → Prop
  | _, [] => True
  | s, a :: as => P s a ∧ ∃ s', step s a = some s' ∧ Along step P s' as

theorem after_append (h : after step s as = some s') :
    after step s (as ++ bs) = after step s' bs := by
  induction as generalizing s with
  | nil =>
    obtain rfl : s = s' := Option.some.inj h
    rfl
  | cons a as ih =>
    obtain ⟨t, ht, hrest⟩ := Option.bind_eq_some_iff.mp h
    rw [List.cons_append, after, ht, Option.bind_some]
    exact ih hrest

theorem along_append (h : after step s as = some s') :
    Along step P s (as ++ bs) ↔ Along step P s as ∧ Along step P s' bs := by
  induction as generalizing s with
  | nil =>
    obtain rfl : s = s' := Option.some.inj h
    exact ⟨fun hrun => ⟨trivial, hrun⟩, fun hrun => hrun.2⟩
  | cons a as ih =>
    obtain ⟨t, ht, hrest⟩ := Option.bind_eq_some_iff.mp h
    rw [List.cons_append, Along, Along]
    constructor
    · rintro ⟨hp, t', ht', hrun⟩
      obtain rfl : t = t' := Option.some.inj (ht.symm.trans ht')
      obtain ⟨hleft, hright⟩ := (ih hrest).mp hrun
      exact ⟨⟨hp, t, ht, hleft⟩, hright⟩
    · rintro ⟨⟨hp, t', ht', hleft⟩, hright⟩
      obtain rfl : t = t' := Option.some.inj (ht.symm.trans ht')
      exact ⟨hp, t, ht, (ih hrest).mpr ⟨hleft, hright⟩⟩

/-- An invariant that the steps keep holds after them. -/
theorem Along.invariant (hs : Inv s)
    (hkeep : ∀ s a s', Inv s → P s a → step s a = some s' → Inv s')
    (hrun : Along step P s as) (hafter : after step s as = some s') : Inv s' := by
  induction as generalizing s with
  | nil =>
    obtain rfl : s = s' := Option.some.inj hafter
    exact hs
  | cons a as ih =>
    obtain ⟨hp, t, hstep, hrest⟩ := hrun
    rw [after, hstep, Option.bind_some] at hafter
    exact ih (hkeep s a t hs hp hstep) hrest hafter

theorem Along.mono (hs : Inv s) (hkeep : ∀ s a s', Inv s → P s a → step s a = some s' → Inv s')
    (h : ∀ s a, Inv s → P s a → Q s a) (hrun : Along step P s as) : Along step Q s as := by
  induction as generalizing s with
  | nil => trivial
  | cons a as ih =>
    obtain ⟨hp, s', hstep, hrest⟩ := hrun
    exact ⟨h s a hs hp, s', hstep, ih (hkeep s a s' hs hp hstep) hrest⟩

theorem Along.imp (h : ∀ s a, P s a → Q s a) (hrun : Along step P s as) : Along step Q s as := by
  induction as generalizing s with
  | nil => trivial
  | cons a as ih =>
    obtain ⟨hp, s', hstep, hrest⟩ := hrun
    exact ⟨h s a hp, s', hstep, ih hrest⟩

theorem along_and :
    Along step (fun s a => P s a ∧ Q s a) s as ↔ Along step P s as ∧ Along step Q s as := by
  induction as generalizing s with
  | nil => exact ⟨fun _ => ⟨trivial, trivial⟩, fun _ => trivial⟩
  | cons a as ih =>
    constructor
    · rintro ⟨⟨hp, hq⟩, s', hstep, hrest⟩
      obtain ⟨hl, hr⟩ := ih.mp hrest
      exact ⟨⟨hp, s', hstep, hl⟩, ⟨hq, s', hstep, hr⟩⟩
    · rintro ⟨⟨hp, s', hstep, hl⟩, ⟨hq, s'', hstep', hr⟩⟩
      obtain rfl : s' = s'' := Option.some.inj (hstep.symm.trans hstep')
      exact ⟨⟨hp, hq⟩, s', hstep, ih.mpr ⟨hl, hr⟩⟩

theorem Along.congr {R : S → A → Prop} (hs : Inv s)
    (hkeep : ∀ s a s', Inv s → R s a → step s a = some s' → Inv s')
    (h : ∀ s a, Inv s → R s a → (P s a ↔ Q s a)) (hrun : Along step R s as) :
    Along step P s as ↔ Along step Q s as := by
  constructor
  · intro hp
    exact Along.mono hs (fun s a s' hs ha => hkeep s a s' hs ha.1)
      (fun s a hs ha => (h s a hs ha.1).mp ha.2) (along_and.mpr ⟨hrun, hp⟩)
  · intro hq
    exact Along.mono hs (fun s a s' hs ha => hkeep s a s' hs ha.1)
      (fun s a hs ha => (h s a hs ha.1).mpr ha.2) (along_and.mpr ⟨hrun, hq⟩)

theorem Along.length_le (m : S → Nat)
    (h : Along step (fun s a => ∀ s', step s a = some s' → m s' < m s) s as) :
    as.length ≤ m s := by
  induction as generalizing s with
  | nil => exact Nat.zero_le _
  | cons a as ih =>
    obtain ⟨hless, s', hstep, hrest⟩ := h
    exact Nat.succ_le_of_lt (Nat.lt_of_le_of_lt (ih hrest) (hless s' hstep))

/-- `P` holds wherever a step starts, as far as the run goes. -/
def Throughout (step : S → A → Option S) (P : S → A → Prop) : S → List A → Prop
  | _, [] => True
  | s, a :: as => P s a ∧ ∀ s' ∈ step s a, Throughout step P s' as

instance [∀ s a, Decidable (P s a)] : (s : S) → (as : List A) → Decidable (Throughout step P s as)
  | _, [] => .isTrue trivial
  | s, a :: as =>
    have (s' : S) : Decidable (Throughout step P s' as) := instDecidableThroughout s' as
    inferInstanceAs (Decidable (P s a ∧ ∀ s' ∈ step s a, Throughout step P s' as))

theorem throughout_append (h : after step s as = some s') :
    Throughout step P s (as ++ bs) ↔ Throughout step P s as ∧ Throughout step P s' bs := by
  induction as generalizing s with
  | nil =>
    obtain rfl : s = s' := Option.some.inj h
    simp [Throughout]
  | cons a as ih =>
    obtain ⟨t, hstep, h⟩ := Option.bind_eq_some_iff.mp h
    have honly : (∀ s' ∈ step s a, Throughout step P s' (as ++ bs)) ↔
        (∀ s' ∈ step s a, Throughout step P s' as) ∧ Throughout step P s' bs := by
      simp only [Option.mem_def, hstep, Option.some.injEq, forall_eq']
      exact ih h
    rw [List.cons_append, Throughout, honly, Throughout, and_assoc]

/-- Steps that go through and keep an invariant on the past, wherever `P` holds. -/
theorem Throughout.goes (Inv : List A → S → Prop) (past : List A) (hs : Inv past s)
    (hkeep : ∀ past s, ∀ a ∈ as, Inv past s → P s a →
      ∃ s', step s a = some s' ∧ Inv (past ++ [a]) s')
    (h : Throughout step P s as) : ∃ s', after step s as = some s' ∧ Inv (past ++ as) s' := by
  induction as generalizing s past with
  | nil => exact ⟨s, rfl, by rw [List.append_nil]; exact hs⟩
  | cons a as ih =>
    obtain ⟨hp, hrest⟩ := h
    obtain ⟨t, hstep, ht⟩ := hkeep past s a List.mem_cons_self hs hp
    obtain ⟨s', hafter, hs'⟩ := ih _ ht
      (fun past s b hb => hkeep past s b (List.mem_cons_of_mem a hb)) (hrest t hstep)
    rw [List.append_assoc] at hs'
    exact ⟨s', by rw [after, hstep, Option.bind_some]; exact hafter, hs'⟩

end Pamodbus.Lib.Runs
