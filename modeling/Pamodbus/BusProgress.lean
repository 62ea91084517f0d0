import Pamodbus.BusAgreement
import Pamodbus.Progress

namespace Pamodbus.BusProgress

open Pamodbus.Lib.Exchange Pamodbus.Lib.Routing Pamodbus.Lib.Runs
open Pamodbus.ReadRequests Pamodbus.Transactions
open Pamodbus.SerialLink
open Pamodbus.Agreement (performed Told)
open Pamodbus.Progress (Unconfirmed slaveTurn_line turns_settle)
open Pamodbus.TestBanks Pamodbus.Boundaries Pamodbus.Multidrop Pamodbus.BusAgreement

variable {ι σ τ : Type} [DecidableEq ι] {view : ι → σ → Tables} {size : ι → ReadKind → Nat}
  {code : UInt8} {b b' : Bus ι τ σ} {E : BusSession ι} {events : List (Event ι)} {i : ι}
  {x : Transaction}

theorem link_due {t : ι → Tables} {given : List ((ι × Transaction) × Reply)} {o : Option Reply}
    (h : Session.Due (routed fun i => Transaction.fulfil (size i) code) t given (i, x) E)
    (hasked : E.asked = some ((i, x), o)) :
    Session.Due (Transaction.fulfil (size i) code) (t i) [] x ⟨E.store i, [], [], some (x, o)⟩ := by
  cases h with
  | asked done =>
    obtain rfl : none = o := (Prod.mk.inj (Option.some.inj hasked)).2
    exact .asked []
  | performed done =>
    obtain rfl := (Prod.mk.inj (Option.some.inj hasked)).2
    have hstore : (routed (fun i => Transaction.fulfil (size i) code) t (i, x)).2 i =
        (x.fulfil (size i) code (t i)).2 := Function.update_self ..
    dsimp only
    rw [hstore]
    exact .performed []
  | told done => cases hasked

/-- The slave `i`, whose tables were `t`, has carried out the request `x`. The master has been given
its reply, or it is a write after which nothing comes any more. -/
structure Settled (view : ι → σ → Tables) (size : ι → ReadKind → Nat) (code : UInt8) (t : Tables)
    (given : List ((ι × Transaction) × Reply)) (i : ι) (x : Transaction) (b : Bus ι τ σ) :
    Prop where
  store : view i (b.slaves i).app = (x.fulfil (size i) code t).2
  reply : b.pending = none ∧ b.replies = given ++ [((i, x), (x.fulfil (size i) code t).1)] ∨
    Unconfirmed (size i) x ∧ b.pending = some (i, x) ∧ (b.link i).Silent

/-- Once the slave that is asked and the master have taken all there is to take, a request that has
not been disturbed has been carried out and has its reply, whatever the other slaves have heard. The
exception are writes of several items. -/
theorem bus_answers {tick tick' : UInt32} {n n' : Nat} {residue : Respond.Residue}
    (h : AtRest view size b) (hafter : after (Bus.step code) b events = some b')
    (hpending : b'.pending = some (i, x)) (hclean : b'.spoiled = false)
    (hrun : FairRun code b (events ++ [.slaveTurn i tick n residue, .masterTurn tick' n']))
    (hn : 255 ≤ n) (hn' : 255 ≤ n') :
    ∃ b'' done, after (Bus.step code) b (events ++ [.slaveTurn i tick n residue,
        .masterTurn tick' n']) = some b'' ∧
      Told (size i) code true (view i (b.slaves i).app) done (answers i b'.replies) ∧
      Settled view size code (performed (size i) code (view i (b.slaves i).app) done).2 b'.replies
        i x b'' := by
  obtain ⟨hfirst, hslave, hmaster⟩ := (throughout_append hafter).mp hrun
  obtain ⟨b₀, E, hafter', hcarries, hE, -⟩ := run_carries true h hfirst fun _ _ _ => rfl
  obtain rfl : b' = b₀ := Option.some.inj (hafter.symm.trans hafter')
  obtain ⟨⟨a, o⟩, hasked, rfl⟩ := Option.map_eq_some_iff.mp (hcarries.pending.symm.trans hpending)
  obtain ⟨done, htold, hdue⟩ := hE.due hasked
  have hlink := hcarries.link hasked
  have hdueLink := link_due hdue hasked
  rw [outcome_routed] at hdueLink
  -- after the slave's turn, the line to it is that of the bus
  have hslaveTurn (l₁ : Link τ σ) (hl₁ : (b'.link i).slaveTurn code tick n residue = some l₁) :
      ∃ heard, b'.step code (.slaveTurn i tick n residue) = some (b'.put i l₁ heard) ∧
        (b'.put i l₁ heard).link i = l₁ ∧ (b'.put i l₁ heard).pending = some (i, x) ∧
          l₁.replies = [] := by
    obtain ⟨-, hp, hreplies⟩ := slaveTurn_line hl₁
    have hp₁ : l₁.pending = some x := hp.trans (pendingAt_asked hpending)
    have hnone : l₁.replies = [] := hreplies
    refine ⟨_, slaveTurn_put hpending hl₁, ?_, ?_, hnone⟩
    · rw [link_put hp₁, ← hnone]
    · rw [Bus.put, hp₁, Option.map_some]
  obtain ⟨l₁, l₂, hstep₁, hstep₂, hstore, hanswer⟩ := turns_settle hlink hdueLink hclean
    (hslave.2 x (pendingAt_asked hpending)) (fun l₁ hl₁ => by
      obtain ⟨heard, hput, hsame, hp₁, -⟩ := hslaveTurn l₁ hl₁
      have hfair := (hmaster _ hput).1.2 (i, x) hp₁
      rw [hsame] at hfair
      exact hfair) hn hn'
  obtain ⟨heard, hput, hsame, hp₁, hnone⟩ := hslaveTurn l₁ hstep₁
  have hlast : (b'.put i l₁ heard).step code (.masterTurn tick' n') =
      some ((b'.put i l₁ heard).put i l₂ []) := by
    rw [← hsame] at hstep₂
    exact masterTurn_put hp₁ hstep₂
  rw [← hcarries.replies] at htold
  refine ⟨(b'.put i l₁ heard).put i l₂ [], share i done, ?_, Accounts.routed htold i, ?_, ?_⟩
  · rw [after_append hafter, after, hput, Option.bind_some, after, hlast]
    rfl
  · rw [put_slave]
    exact hstore
  · have hreplies : ((b'.put i l₁ heard).put i l₂ []).replies =
        b'.replies ++ l₂.replies.map fun a => ((i, a.1), a.2) := by
      rw [Bus.put, Bus.put, hnone, List.map_nil, List.append_nil]
    rw [hreplies]
    rcases hanswer with ⟨hp₂, hgiven⟩ | ⟨hun, hp₂, hsilent⟩
    · refine .inl ⟨?_, ?_⟩
      · rw [Bus.put, hp₂, Option.map_none]
      · rw [hgiven]
        rfl
    · refine .inr ⟨hun, ?_, ?_⟩
      · rw [Bus.put, hp₂, Option.map_some]
      · rw [link_put hp₂]
        exact hsilent

def overheardRead : List (Event Bool) :=
  [.issue true (.read .coils 0 3), .slaveTurn false 0 8 fun _ _ => 0]

theorem overheard_read_answered : ∃ (b' b'' : Bus Bool Unit (Banks 1 4 × Banks 1 4))
    (done : List Transaction),
    after (Bus.step 0x02) twoSlaves overheardRead = some b' ∧
      after (Bus.step 0x02) twoSlaves (overheardRead ++
        [.slaveTurn true 0 255 fun _ _ => 0, .masterTurn 0 255]) = some b'' ∧
      Told (sizes 8 4) 0x02 true (tables Banks.view (twoSlaves.slaves true).app) done
        (answers true b'.replies) ∧
      Settled (fun _ => tables Banks.view) (fun _ => sizes 8 4) 0x02
        (performed (sizes 8 4) 0x02 (tables Banks.view (twoSlaves.slaves true).app) done).2
        b'.replies true (.read .coils 0 3) b'' := by
  have hsome : (after (Bus.step 0x02) twoSlaves overheardRead).isSome := by decide +kernel
  obtain ⟨b', hafter⟩ := Option.isSome_iff_exists.mp hsome
  have hstate : (after (Bus.step 0x02) twoSlaves overheardRead).map
      (fun b => (b.pending, b.spoiled)) =
      some (some (true, .read .coils 0 3), false) := by decide +kernel
  have hfair : FairRun 0x02 twoSlaves (overheardRead ++
      [.slaveTurn true 0 255 fun _ _ => 0, .masterTurn 0 255]) := by decide +kernel
  rw [hafter, Option.map_some, Option.some.injEq, Prod.mk.injEq] at hstate
  obtain ⟨b'', done, hlast, htold, hsettled⟩ := bus_answers twoSlaves_atRest hafter hstate.1
    hstate.2 hfair le_rfl le_rfl
  exact ⟨b', b'', done, hafter, hlast, htold, hsettled⟩

end Pamodbus.BusProgress
