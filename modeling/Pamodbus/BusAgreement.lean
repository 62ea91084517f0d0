import Pamodbus.Multidrop

namespace Pamodbus.BusAgreement

open Pamodbus.Lib.Exchange Pamodbus.Lib.Routing Pamodbus.Lib.Runs
open Pamodbus.Context Pamodbus.ReadRequests Pamodbus.Transactions
open Pamodbus.SerialLink (Station Server)
open Pamodbus.LinkRuns (Holds holds_nil)
open Pamodbus.Agreement (performed Told smallLine smallLine_atRest)
open Pamodbus.TestBanks Pamodbus.Boundaries Pamodbus.Multidrop

variable {ι σ τ : Type} [DecidableEq ι] {view : ι → σ → Tables} {size : ι → ReadKind → Nat}
  {code : UInt8} {b b' : Bus ι τ σ} {E : BusSession ι} {events : List (Event ι)}

abbrev FairRun (code : UInt8) : Bus ι τ σ → List (Event ι) → Prop :=
  Throughout (Bus.step code) Bus.Fair

structure AtRest (view : ι → σ → Tables) (size : ι → ReadKind → Nat) (b : Bus ι τ σ) : Prop where
  master : Station .master b.master.ctx
  slaves : ∀ i, Server (view i) (size i) (b.slaves i).ctx
  empty : b.master.ctx.rxLen = 0 ∧ ∀ i, (b.slaves i).ctx.rxLen = 0
  pending : b.pending = none
  replies : b.replies = []
  clean : b.spoiled = false
  strangers : Strangers b
  foreign : ∀ i, b.foreign i = []

theorem AtRest.carries (h : AtRest view size b) :
    Carries view size b (Session.start fun i => view i (b.slaves i).app) where
  master := h.master
  slaves := h.slaves
  heard := ⟨[], holds_nil h.empty.1⟩
  overheard i := ⟨[], holds_nil (h.empty.2 i)⟩
  replies := h.replies
  store _ := rfl
  pending := h.pending
  asked _ _ _ hasked := nomatch hasked
  strangers := h.strangers
  foreign i frame hmem := by
    rw [h.foreign i] at hmem
    exact absurd hmem List.not_mem_nil

theorem step_spoiled {event : Event ι} (hstep : b.step code event = some b')
    (h : b'.spoiled = true) : b.spoiled = true ∨ disturbs event = true := by
  cases event with
  | issue i x =>
    obtain ⟨⟨ret, w⟩, -, hstep⟩ := Option.bind_eq_some_iff.mp hstep
    rw [← Option.some.inj hstep] at h
    cases h
  | slaveTurn i tick n residue =>
    obtain ⟨l, -, hstep⟩ := Option.bind_eq_some_iff.mp hstep
    rw [← Option.some.inj hstep] at h
    exact .inl h
  | masterTurn tick n =>
    obtain ⟨out, -, hstep⟩ := Option.bind_eq_some_iff.mp hstep
    dsimp only at hstep
    split at hstep
    · rw [← Option.some.inj hstep] at h
      exact .inl h
    · split at hstep
      · rw [← Option.some.inj hstep] at h
        exact .inl h
      · obtain ⟨reply, -, hstep⟩ := Option.bind_eq_some_iff.mp hstep
        rw [← Option.some.inj hstep] at h
        exact .inl h
  | giveUp =>
    rw [← Option.some.inj hstep, Bus.giveUp] at h
    cases hp : b.pending with
    | none =>
      rw [hp] at h
      exact .inl h
    | some x =>
      rw [hp] at h
      exact .inl h
  | disturb down up => exact .inr rfl

abbrev Consistent (size : ι → ReadKind → Nat) (code : UInt8) (lossy : Bool) (t : ι → Tables)
    (E : BusSession ι) : Prop :=
  E.Consistent (routed fun i => Transaction.fulfil (size i) code) Reply.Unsure lossy t

theorem follows_consistent {asks : Option (ι × Transaction)} {E' : BusSession ι} {t : ι → Tables}
    {lossy : Bool} (h : Follows size code lossy asks E E') (hE : Consistent size code lossy t E) :
    Consistent size code lossy t E' ∧ E'.requested = E.requested ++ asks.toList := by
  rcases h with ⟨hasks, rfl⟩ | hs
  · exact ⟨hE, by rw [hasks]; simp⟩
  · exact ⟨hE.step hs, hs.requested⟩

/-- A run goes through, and ends as a session that is consistent. -/
theorem run_carries (lossy : Bool) (h : AtRest view size b) (hrun : FairRun code b events)
    (hlossy : ∀ event ∈ events, disturbs event = true → lossy = true) :
    ∃ b' E', after (Bus.step code) b events = some b' ∧ Carries view size b' E' ∧
      Consistent size code lossy (fun i => view i (b.slaves i).app) E' ∧
      E'.requested = events.filterMap Event.asks := by
  obtain ⟨b', hafter, E', hcarries, hE', hreq, -⟩ := Throughout.goes
    (fun past b' => ∃ E', Carries view size b' E' ∧
      Consistent size code lossy (fun i => view i (b.slaves i).app) E' ∧
      E'.requested = past.filterMap Event.asks ∧ (b'.spoiled = true → lossy = true))
    [] ⟨_, h.carries, Session.consistent_start _, rfl, fun hs => by rw [h.clean] at hs; cases hs⟩
    (fun past b event hm hinv hfair => by
      obtain ⟨E, h, hE, hreq, hspoiled⟩ := hinv
      obtain ⟨b', E', hstep, hfollows, hcarries⟩ := step_simulates h event hfair lossy hspoiled
      obtain ⟨hE', hreq'⟩ := follows_consistent hfollows hE
      refine ⟨b', hstep, E', hcarries, hE', ?_,
        fun hs => (step_spoiled hstep hs).elim hspoiled (hlossy event hm)⟩
      rw [hreq', hreq, List.filterMap_append]
      cases hasks : event.asks with
      | none => simp [hasks]
      | some x => simp [hasks]) hrun
  exact ⟨b', E', hafter, hcarries, hE', hreq⟩

/-- What has come of a run at one of the slaves, whose tables were `t`. -/
def Alone (view : σ → Tables) (size : ReadKind → Nat) (code : UInt8) (lossy : Bool) (t : Tables)
    (i : ι) (b : Bus ι τ σ) : Prop :=
  ∃ done, Told size code lossy t done (answers i b.replies) ∧
    (view (b.slaves i).app = (performed size code t done).2 ∨
      ∃ x, b.pending = some (i, x) ∧
        view (b.slaves i).app = (performed size code t (done ++ [x])).2)

theorem carries_alone {t : ι → Tables} {lossy : Bool} (h : Carries view size b E)
    (hE : Consistent size code lossy t E) (i : ι) :
    Alone (view i) (size i) code lossy (t i) i b := by
  obtain ⟨store, done, replies, asked⟩ := E
  have hstore : view i (b.slaves i).app = store i := h.store i
  have hgiven : b.replies = replies := h.replies
  obtain ⟨hdone, htold⟩ := hE
  have hshare : store i = (performed (size i) code (t i) (share i done)).2 :=
    (congrFun hdone i).trans (outcome_routed t done i)
  rw [Alone, hgiven]
  rcases asked with - | ⟨x, - | r⟩
  · exact ⟨share i done, Accounts.routed htold i, .inl (hstore.trans hshare)⟩
  · exact ⟨share i done, Accounts.routed htold i, .inl (hstore.trans hshare)⟩
  · obtain ⟨done, rfl, -, htold⟩ := htold
    refine ⟨share i done, Accounts.routed htold i, ?_⟩
    rw [share_snoc] at hshare
    by_cases hi : x.1 = i
    · rw [if_pos hi] at hshare
      refine .inr ⟨x.2, ?_, hstore.trans hshare⟩
      rw [← hi]
      exact h.pending
    · rw [if_neg hi, List.append_nil] at hshare
      exact .inl (hstore.trans hshare)

def twoSlaves : Bus Bool Unit (Banks 1 4 × Banks 1 4) where
  master := smallLine.master
  slaves i := { smallLine.slave with
    ctx := paModbusSetSlave (bif i then 1 else 2) smallLine.slave.ctx }
  down _ := []
  foreign _ := []
  up := []
  pending := none
  replies := []
  spoiled := false

theorem twoSlaves_atRest : AtRest (fun _ => tables Banks.view) (fun _ => sizes 8 4) twoSlaves where
  master := smallLine_atRest.joined.master
  slaves _ :=
    have h := smallLine_atRest.joined.slave
    { toStation := ⟨h.framer, h.role, h.callback, h.send, h.tx, h.rx⟩
      tables := h.tables
      untouched := h.untouched }
  empty := ⟨rfl, fun _ => rfl⟩
  pending := rfl
  replies := rfl
  clean := rfl
  strangers := by
    rw [Strangers]
    decide +kernel
  foreign _ := rfl

/-- On an undisturbed bus each slave replies and stores as if it were alone with the master. -/
theorem undisturbed_bus_agrees (h : AtRest view size b) (hrun : FairRun code b events)
    (hquiet : ∀ event ∈ events, disturbs event = false) :
    ∃ b', after (Bus.step code) b events = some b' ∧
      events.filterMap Event.asks = b'.replies.map Prod.fst ++ b'.pending.toList ∧
      ∀ i, (answers i b'.replies).map Prod.snd =
          (performed (size i) code (view i (b.slaves i).app)
            (share i (b'.replies.map Prod.fst))).1 ∧
        (view i (b'.slaves i).app = (performed (size i) code (view i (b.slaves i).app)
            (share i (b'.replies.map Prod.fst))).2 ∨
          view i (b'.slaves i).app = (performed (size i) code (view i (b.slaves i).app)
            (share i (events.filterMap Event.asks))).2) := by
  obtain ⟨b', E', hafter, hcarries, hE', hreq⟩ := run_carries false h hrun
    fun event hm hd => by rw [hquiet event hm] at hd; cases hd
  have hasked : events.filterMap Event.asks = b'.replies.map Prod.fst ++ b'.pending.toList := by
    rw [← hreq, hcarries.replies, hcarries.pending, Session.requested]
  refine ⟨b', hafter, hasked, fun i => ?_⟩
  obtain ⟨done, htold, hstore⟩ := carries_alone hcarries hE' i
  obtain ⟨hdone, hreplies⟩ := htold.exact
  rw [answers_requests] at hdone
  subst hdone
  refine ⟨hreplies, hstore.imp_right ?_⟩
  rintro ⟨x, hpending, hlast⟩
  rw [hasked, hpending, Option.toList_some, share_snoc, if_pos rfl]
  exact hlast

/-- One slave is written to and the other one read, after what it has overheard has been dropped. -/
def overheardWrite : List (Event Bool) :=
  [.issue true (.write (.singleRegister 1 7)), .slaveTurn true 0 5 fun _ _ => 0,
    .slaveTurn true 1 8 fun _ _ => 0, .slaveTurn false 1 16 fun _ _ => 0, .masterTurn 2 8,
    .slaveTurn false 100 16 fun _ _ => 0, .issue false (.read .holdingRegisters 1 2),
    .slaveTurn false 110 8 fun _ _ => 0, .masterTurn 110 9]

theorem overheard_write_agrees :
    (∃ b', after (Bus.step 0x02) twoSlaves overheardWrite = some b' ∧
      overheardWrite.filterMap Event.asks = b'.replies.map Prod.fst ++ b'.pending.toList ∧
      ∀ i, (answers i b'.replies).map Prod.snd = (performed (sizes 8 4) 0x02
          (tables Banks.view (twoSlaves.slaves i).app) (share i (b'.replies.map Prod.fst))).1 ∧
        (tables Banks.view (b'.slaves i).app = (performed (sizes 8 4) 0x02
            (tables Banks.view (twoSlaves.slaves i).app) (share i (b'.replies.map Prod.fst))).2 ∨
          tables Banks.view (b'.slaves i).app = (performed (sizes 8 4) 0x02
            (tables Banks.view (twoSlaves.slaves i).app)
            (share i (overheardWrite.filterMap Event.asks))).2)) ∧
      (after (Bus.step 0x02) twoSlaves overheardWrite).map (fun b => b.replies.map Prod.snd) =
        some [.written, .words [2, 3]] :=
  ⟨undisturbed_bus_agrees twoSlaves_atRest (by decide +kernel) (by decide +kernel),
    by decide +kernel⟩

end Pamodbus.BusAgreement
