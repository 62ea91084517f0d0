import Mathlib.Data.List.Basic

namespace Pamodbus.Lib.Exchange

variable {T X R : Type} {act : T → X → R × T}

/-- Operations one after the other: what each yields, and the state at the end. -/
def outcome (act : T → X → R × T) : T → List X → List R × T
  | t, [] => ([], t)
  | t, x :: xs => ((act t x).1 :: (outcome act (act t x).2 xs).1, (outcome act (act t x).2 xs).2)

theorem outcome_append (t : T) (xs ys : List X) :
    outcome act t (xs ++ ys) =
      ((outcome act t xs).1 ++ (outcome act (outcome act t xs).2 ys).1,
        (outcome act (outcome act t xs).2 ys).2) := by
  induction xs generalizing t with
  | nil => rfl
  | cons x xs ih =>
    rw [List.cons_append, outcome, ih]
    rfl

theorem outcome_snoc (t : T) (xs : List X) (x : X) :
    outcome act t (xs ++ [x]) = ((outcome act t xs).1 ++ [(act (outcome act t xs).2 x).1],
      (act (outcome act t xs).2 x).2) := outcome_append t xs [x]

/-- What the client has been told of the operations that have been performed. Where something
may get lost, it may be told what is `unsure`: then the operation has been performed or not. -/
inductive Accounts (act : T → X → R × T) (unsure : R → Prop) (lossy : Bool) (t : T) :
    List X → List (X × R) → Prop
  | nil : Accounts act unsure lossy t [] []
  | answered {done : List X} {replies : List (X × R)} (x : X)
    (h : Accounts act unsure lossy t done replies) : Accounts act unsure lossy t (done ++ [x])
      (replies ++ [(x, (act (outcome act t done).2 x).1)])
  | dropped {done : List X} {replies : List (X × R)} (x : X) (r : R) (hlossy : lossy = true)
    (hr : unsure r) (h : Accounts act unsure lossy t done replies) :
    Accounts act unsure lossy t done (replies ++ [(x, r)])
  | unheard {done : List X} {replies : List (X × R)} (x : X) (r : R) (hlossy : lossy = true)
    (hr : unsure r) (h : Accounts act unsure lossy t done replies) :
    Accounts act unsure lossy t (done ++ [x]) (replies ++ [(x, r)])

/-- Where nothing gets lost, everything is performed once and told as it is. -/
theorem Accounts.exact {unsure : R → Prop} {t : T} {done : List X} {replies : List (X × R)}
    (h : Accounts act unsure false t done replies) :
    done = replies.map Prod.fst ∧ replies.map Prod.snd = (outcome act t done).1 := by
  induction h with
  | nil => exact ⟨rfl, rfl⟩
  | @answered done replies x h ih =>
    obtain ⟨hdone, hreplies⟩ := ih
    exact ⟨by simp [hdone], by simp [outcome_snoc, hreplies]⟩
  | dropped x r hlossy hr h ih => cases hlossy
  | unheard x r hlossy hr h ih => cases hlossy

theorem snoc_eq_split {A : Type} {xs pre suf : List A} {a b : A}
    (h : xs ++ [a] = pre ++ b :: suf) : xs = pre ∧ a = b ∨ ∃ suf', xs = pre ++ b :: suf' := by
  rcases List.eq_nil_or_concat suf with rfl | ⟨suf', z, rfl⟩
  · exact .inl ⟨List.append_inj_left' h rfl, List.singleton_inj.mp (List.append_inj_right' h rfl)⟩
  · refine .inr ⟨suf', ?_⟩
    rw [List.concat_eq_append, ← List.cons_append, ← List.append_assoc] at h
    exact List.append_inj_left' h rfl

/-- A reply that leaves nothing open is what the operation yields after those done before. -/
theorem Accounts.sure {unsure : R → Prop} {lossy : Bool} {t : T} {done : List X}
    {pre suf : List (X × R)} {x : X} {r : R}
    (h : Accounts act unsure lossy t done (pre ++ (x, r) :: suf)) (hr : lossy = true → ¬ unsure r) :
    ∃ done', Accounts act unsure lossy t done' pre ∧ r = (act (outcome act t done').2 x).1 := by
  generalize hreplies : pre ++ (x, r) :: suf = replies at h
  induction h generalizing suf with
  | nil => exact absurd hreplies (by simp)
  | @answered done replies y h ih =>
    rcases snoc_eq_split hreplies.symm with ⟨rfl, he⟩ | ⟨suf', he⟩
    · obtain ⟨rfl, rfl⟩ := Prod.mk.inj he
      exact ⟨done, h, rfl⟩
    · exact ih he.symm
  | dropped y s hlossy hs h ih | unheard y s hlossy hs h ih =>
    rcases snoc_eq_split hreplies.symm with ⟨rfl, he⟩ | ⟨suf', he⟩
    · obtain ⟨rfl, rfl⟩ := Prod.mk.inj he
      exact absurd hs (hr hlossy)
    · exact ih he.symm

/-- `asked` is what is still open, with the reply once it has been done. -/
structure Session (T X R : Type) where
  store : T
  done : List X
  replies : List (X × R)
  asked : Option (X × Option R)

namespace Session

def start (t : T) : Session T X R := ⟨t, [], [], none⟩

inductive Step (act : T → X → R × T) (unsure : R → Prop) (lossy : Bool) :
    Option X → Session T X R → Session T X R → Prop
  | ask (t : T) (done : List X) (replies : List (X × R)) (x : X) :
    Step act unsure lossy (some x) ⟨t, done, replies, none⟩ ⟨t, done, replies, some (x, none)⟩
  | perform (t : T) (done : List X) (replies : List (X × R)) (x : X) :
    Step act unsure lossy none ⟨t, done, replies, some (x, none)⟩
      ⟨(act t x).2, done ++ [x], replies, some (x, some (act t x).1)⟩
  | conclude (t : T) (done : List X) (replies : List (X × R)) (x : X) (r : R) :
    Step act unsure lossy none ⟨t, done, replies, some (x, some r)⟩
      ⟨t, done, replies ++ [(x, r)], none⟩
  | lose (t : T) (done : List X) (replies : List (X × R)) (x : X) (o : Option R) (r : R)
    (hlossy : lossy = true) (hr : unsure r) :
    Step act unsure lossy none ⟨t, done, replies, some (x, o)⟩ ⟨t, done, replies ++ [(x, r)], none⟩

def requested (e : Session T X R) : List X :=
  e.replies.map Prod.fst ++ (e.asked.map Prod.fst).toList

/-- The replies account for all that has been done, but for what has not been replied to yet. -/
def Consistent (act : T → X → R × T) (unsure : R → Prop) (lossy : Bool) (t : T)
    (e : Session T X R) : Prop :=
  e.store = (outcome act t e.done).2 ∧
    match e.asked with
    | some (x, some r) => ∃ done, e.done = done ++ [x] ∧ r = (act (outcome act t done).2 x).1 ∧
        Accounts act unsure lossy t done e.replies
    | _ => Accounts act unsure lossy t e.done e.replies

variable {unsure : R → Prop} {lossy : Bool} {t : T} {asks : Option X} {e e' : Session T X R}

theorem Step.requested (h : Step act unsure lossy asks e e') :
    e'.requested = e.requested ++ asks.toList := by
  cases h with
  | ask t done replies x => simp [Session.requested]
  | perform t done replies x => simp [Session.requested]
  | conclude t done replies x r => simp [Session.requested]
  | lose t done replies x o r => simp [Session.requested]

theorem consistent_start (t : T) : Consistent act unsure lossy t (start t) := ⟨rfl, .nil⟩

theorem Consistent.step (h : Consistent act unsure lossy t e)
    (hstep : Step act unsure lossy asks e e') : Consistent act unsure lossy t e' := by
  obtain ⟨hstore, haccounts⟩ := h
  cases hstep with
  | ask store done replies x => exact ⟨hstore, haccounts⟩
  | perform store done replies x =>
    have hstore : store = (outcome act t done).2 := hstore
    refine ⟨?_, done, rfl, ?_, haccounts⟩
    · rw [outcome_snoc, hstore]
    · rw [hstore]
  | conclude store done replies x r =>
    obtain ⟨done, rfl, rfl, haccounts⟩ := haccounts
    exact ⟨hstore, haccounts.answered x⟩
  | lose store done replies x o r hlossy hr =>
    refine ⟨hstore, ?_⟩
    cases o with
    | none => exact .dropped x r hlossy hr haccounts
    | some r' =>
      obtain ⟨done, rfl, -, haccounts⟩ := haccounts
      exact .unheard x r hlossy hr haccounts

/-- The operation `x` has been asked for when the store was `s`: it is open, performed, or told. -/
inductive Due (act : T → X → R × T) (s : T) (given : List (X × R)) (x : X) :
    Session T X R → Prop
  | asked (done : List X) : Due act s given x ⟨s, done, given, some (x, none)⟩
  | performed (done : List X) :
    Due act s given x ⟨(act s x).2, done, given, some (x, some (act s x).1)⟩
  | told (done : List X) : Due act s given x ⟨(act s x).2, done, given ++ [(x, (act s x).1)], none⟩

theorem Consistent.due {x : X} {o : Option R} (h : Consistent act unsure lossy t e)
    (hasked : e.asked = some (x, o)) : ∃ done, Accounts act unsure lossy t done e.replies ∧
      Due act (outcome act t done).2 e.replies x e := by
  obtain ⟨store, done, replies, asked⟩ := e
  obtain rfl : asked = some (x, o) := hasked
  obtain ⟨hstore, haccounts⟩ := h
  obtain rfl : store = (outcome act t done).2 := hstore
  cases o with
  | none => exact ⟨done, haccounts, .asked done⟩
  | some r =>
    obtain ⟨done', rfl, rfl, haccounts⟩ := haccounts
    refine ⟨done', haccounts, ?_⟩
    rw [outcome_snoc]
    exact .performed _

/-- Where nothing gets lost, an operation that is due stays so until it is told. -/
theorem Due.step {s : T} {given : List (X × R)} {x : X} (h : Due act s given x e)
    (hstep : Step act unsure false none e e') : Due act s given x e' := by
  cases h with
  | asked done =>
    cases hstep with
    | perform t done replies x => exact .performed _
    | lose t done replies x o r hlossy hr => cases hlossy
  | performed done =>
    cases hstep with
    | conclude t done replies x r => exact .told done
    | lose t done replies x o r hlossy hr => cases hlossy
  | told done => cases hstep

end Session

end Pamodbus.Lib.Exchange
