import Mathlib.Logic.Function.Basic
import Pamodbus.Lib.Exchange

namespace Pamodbus.Lib.Routing

open Pamodbus.Lib.Exchange

variable {I T X R : Type} [DecidableEq I] {act : I → T → X → R × T} {unsure : R → Prop}
  {lossy : Bool}

def routed (act : I → T → X → R × T) (t : I → T) (x : I × X) : R × (I → T) :=
  ((act x.1 (t x.1) x.2).1, Function.update t x.1 (act x.1 (t x.1) x.2).2)

def share (i : I) (xs : List (I × X)) : List X :=
  xs.filterMap fun x => if x.1 = i then some x.2 else none

/-- What the client has been told of the operations that are meant for one server. -/
def answers (i : I) (replies : List ((I × X) × R)) : List (X × R) :=
  replies.filterMap fun a => if a.1.1 = i then some (a.1.2, a.2) else none

theorem share_snoc (i : I) (xs : List (I × X)) (x : I × X) :
    share i (xs ++ [x]) = share i xs ++ if x.1 = i then [x.2] else [] := by
  rw [share, List.filterMap_append]
  by_cases h : x.1 = i
  · simp [share, h]
  · simp [share, h]

theorem answers_snoc (i : I) (replies : List ((I × X) × R)) (x : I × X) (r : R) :
    answers i (replies ++ [(x, r)]) =
      answers i replies ++ if x.1 = i then [(x.2, r)] else [] := by
  rw [answers, List.filterMap_append]
  by_cases h : x.1 = i
  · simp [answers, h]
  · simp [answers, h]

theorem answers_requests (i : I) (replies : List ((I × X) × R)) :
    (answers i replies).map Prod.fst = share i (replies.map Prod.fst) := by
  rw [answers, share, List.map_filterMap, List.filterMap_map]
  refine congrArg (List.filterMap · replies) (funext fun a => ?_)
  by_cases h : a.1.1 = i
  · simp [h]
  · simp [h]

/-- A server stores what it would store without the others. -/
theorem outcome_routed (t : I → T) (xs : List (I × X)) (i : I) :
    (outcome (routed act) t xs).2 i = (outcome (act i) (t i) (share i xs)).2 := by
  induction xs generalizing t with
  | nil => rfl
  | cons x xs ih =>
    rw [outcome, ih]
    obtain ⟨j, x⟩ := x
    by_cases h : j = i
    · subst h
      simp [share, routed, outcome]
    · simp [share, routed, h, Function.update_of_ne (Ne.symm h)]

theorem Accounts.routed {t : I → T} {done : List (I × X)} {replies : List ((I × X) × R)}
    (h : Accounts (Routing.routed act) unsure lossy t done replies) (i : I) :
    Accounts (act i) unsure lossy (t i) (share i done) (answers i replies) := by
  induction h with
  | nil => exact .nil
  | @answered done replies x h ih =>
    obtain ⟨j, x⟩ := x
    rw [share_snoc, answers_snoc]
    by_cases hj : j = i
    · subst hj
      rw [if_pos rfl, if_pos rfl, Routing.routed, outcome_routed]
      exact ih.answered x
    · rw [if_neg hj, if_neg hj, List.append_nil, List.append_nil]
      exact ih
  | @dropped done replies x r hlossy hr h ih =>
    rw [answers_snoc]
    split
    · exact ih.dropped x.2 r hlossy hr
    · rw [List.append_nil]
      exact ih
  | @unheard done replies x r hlossy hr h ih =>
    rw [share_snoc, answers_snoc]
    split
    · exact ih.unheard x.2 r hlossy hr
    · rw [List.append_nil, List.append_nil]
      exact ih

/-- A session with one server, as part of a session `E` with all of them. -/
def within (i : I) (E : Session (I → T) (I × X) R) (e : Session T X R) :
    Session (I → T) (I × X) R where
  store := Function.update E.store i e.store
  done := E.done ++ e.done.map (Prod.mk i)
  replies := E.replies ++ e.replies.map fun a => ((i, a.1), a.2)
  asked := e.asked.map fun a => ((i, a.1), a.2)

theorem within_told (i : I) (E : Session (I → T) (I × X) R) (t : T) (done : List X)
    (replies : List (X × R)) (x : X) (r : R) :
    within i E ⟨t, done, replies ++ [(x, r)], none⟩ =
      { within i E ⟨t, done, replies, none⟩ with
        replies := (within i E ⟨t, done, replies, none⟩).replies ++ [((i, x), r)] } := by
  simp [within]

theorem Step.within {i : I} {E : Session (I → T) (I × X) R} {asks : Option X}
    {e e' : Session T X R} (h : Session.Step (act i) unsure lossy asks e e') :
    Session.Step (routed act) unsure lossy (asks.map (Prod.mk i)) (within i E e) (within i E e') := by
  cases h with
  | ask t done replies x => exact .ask _ _ _ (i, x)
  | perform t done replies x =>
    have hact : routed act (Function.update E.store i t) (i, x) =
        ((act i t x).1, Function.update E.store i (act i t x).2) := by
      rw [routed, Function.update_self, Function.update_idem]
    have hdone : E.done ++ (done ++ [x]).map (Prod.mk i) =
        E.done ++ done.map (Prod.mk i) ++ [(i, x)] := by simp
    have hstep : Session.Step (routed act) unsure lossy none
        ⟨Function.update E.store i t, E.done ++ done.map (Prod.mk i),
          E.replies ++ replies.map fun a => ((i, a.1), a.2), some ((i, x), none)⟩ _ :=
      .perform _ _ _ (i, x)
    rw [hact, ← hdone] at hstep
    exact hstep
  | conclude t done replies x r =>
    rw [within_told]
    exact .conclude _ _ _ (i, x) r
  | lose t done replies x o r hlossy hr =>
    rw [within_told]
    cases o with
    | none => exact .lose _ _ _ (i, x) none r hlossy hr
    | some r' => exact .lose _ _ _ (i, x) (some r') r hlossy hr

end Pamodbus.Lib.Routing
