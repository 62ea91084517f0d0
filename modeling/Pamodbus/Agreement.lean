import Pamodbus.Boundaries
import Pamodbus.LinkRuns

namespace Pamodbus.Agreement

open Pamodbus.Lib.Exchange Pamodbus.Lib.Runs
open Pamodbus.Context Pamodbus.ReadRequests Pamodbus.Transactions
open Pamodbus.SerialLink Pamodbus.LinkRuns Pamodbus.TestBanks Pamodbus.Boundaries

variable {σ τ : Type} {view : σ → Tables} {size : ReadKind → Nat} {code : UInt8} {known : Bool}
  {l l' : Link τ σ} {e : LineSession} {events : List Event}

abbrev FairRun (code : UInt8) : Link τ σ → List Event → Prop := Throughout (Link.step code) Fair

structure AtRest (view : σ → Tables) (size : ReadKind → Nat) (known : Bool) (l : Link τ σ) :
    Prop where
  joined : Joined view size known l
  silent : l.Silent
  master : l.master.ctx.rxLen = 0
  pending : l.pending = none
  replies : l.replies = []
  clean : l.spoiled = false

theorem AtRest.carries (h : AtRest view size known l) :
    Carries view size known l (Session.start (view l.slave.app)) where
  joined := h.joined
  replies := h.replies
  store := rfl
  pending := h.pending
  phase := .idle h.clean h.silent.1 h.silent.2.1 (holds_nil h.silent.2.2) (holds_nil h.master)

def disturbs : Event → Bool
  | .disturb _ _ => true
  | _ => false

theorem step_spoiled {event : Event} (hstep : l.step code event = some l')
    (h : l'.spoiled = true) : l.spoiled = true ∨ disturbs event = true := by
  cases event with
  | issue x =>
    obtain ⟨⟨ret, w⟩, -, hstep⟩ := Option.bind_eq_some_iff.mp hstep
    rw [← Option.some.inj hstep] at h
    cases h
  | slaveTurn tick n residue =>
    obtain ⟨out, -, hstep⟩ := Option.bind_eq_some_iff.mp hstep
    obtain ⟨⟨ret, w⟩, -, hstep⟩ := Option.bind_eq_some_iff.mp hstep
    rw [← Option.some.inj hstep] at h
    exact .inl h
  | masterTurn tick n =>
    obtain ⟨out, -, hstep⟩ := Option.bind_eq_some_iff.mp hstep
    dsimp only at hstep
    split at hstep
    · rw [← Option.some.inj hstep] at h
      exact .inl h
    · split at hstep
      · rw [← Option.some.inj hstep] at h
        exact .inl h
      · obtain ⟨reply, -, hstep⟩ := Option.bind_eq_some_iff.mp hstep
        rw [← Option.some.inj hstep] at h
        exact .inl h
  | giveUp =>
    rw [← Option.some.inj hstep, Link.giveUp] at h
    cases hp : l.pending with
    | none =>
      rw [hp] at h
      exact .inl h
    | some x =>
      rw [hp] at h
      exact .inl h
  | disturb down up => exact .inr rfl

/-- The requests as one slave does them, with nothing between it and the master. -/
abbrev performed (size : ReadKind → Nat) (code : UInt8) (t : Tables) (xs : List Transaction) :
    List Reply × Tables := outcome (Transaction.fulfil size code) t xs

/-- What the master has been told of the requests that the slave has carried out. -/
abbrev Told (size : ReadKind → Nat) (code : UInt8) (lossy : Bool) (t : Tables)
    (done : List Transaction) (replies : List (Transaction × Reply)) : Prop :=
  Accounts (Transaction.fulfil size code) Reply.Unsure lossy t done replies

abbrev Consistent (size : ReadKind → Nat) (code : UInt8) (known lossy : Bool) (t : Tables)
    (e : LineSession) : Prop :=
  e.Consistent (conducted size code known) Reply.Unsure lossy t

theorem conducted_known : conducted size code true = Transaction.fulfil size code := rfl

theorem follows_requested {asks : Option Transaction} {e' : LineSession} {lossy : Bool}
    (h : Follows size code known lossy asks e e') :
    e'.requested = e.requested ++ asks.toList := by
  rcases h with ⟨hasks, rfl⟩ | hs
  · rw [hasks]
    simp
  · exact hs.requested

theorem follows_consistent {asks : Option Transaction} {e' : LineSession} {t : Tables}
    {lossy : Bool} (h : Follows size code known lossy asks e e')
    (he : Consistent size code known lossy t e) : Consistent size code known lossy t e' := by
  rcases h with ⟨-, rfl⟩ | hs
  · exact he
  · exact he.step hs

/-- A run goes through, and ends as a session that is consistent. -/
theorem run_carries (lossy : Bool) {t : Tables} (h : Carries view size known l e)
    (he : Consistent size code known lossy t e) (hrun : FairRun code l events)
    (hspoiled : l.spoiled = true → lossy = true)
    (hlossy : ∀ event ∈ events, disturbs event = true → lossy = true) :
    ∃ l' e', after (Link.step code) l events = some l' ∧ Carries view size known l' e' ∧
      Consistent size code known lossy t e' ∧
      e'.requested = e.requested ++ events.filterMap Event.asks := by
  obtain ⟨l', hafter, e', hcarries, he', hreq, -⟩ := Throughout.goes
    (fun past l' => ∃ e', Carries view size known l' e' ∧ Consistent size code known lossy t e' ∧
      e'.requested = e.requested ++ past.filterMap Event.asks ∧ (l'.spoiled = true → lossy = true))
    [] ⟨e, h, he, (List.append_nil _).symm, hspoiled⟩ (fun past l event hm hinv hfair => by
      obtain ⟨e, h, he, hreq, hspoiled⟩ := hinv
      obtain ⟨l', e', hstep, hfollows, hcarries⟩ := step_simulates h event hfair lossy hspoiled
      have hreq' := follows_requested hfollows
      refine ⟨l', hstep, e', hcarries, follows_consistent hfollows he, ?_,
        fun hs => (step_spoiled hstep hs).elim hspoiled (hlossy event hm)⟩
      rw [hreq', hreq, List.append_assoc, List.filterMap_append]
      cases hasks : event.asks with
      | none => simp [hasks]
      | some x => simp [hasks]) hrun
  exact ⟨l', e', hafter, hcarries, he', hreq⟩

/-- What has come of a run from the tables `t` in which the master asked for `xs`. -/
structure Agrees (view : σ → Tables) (act : Tables → Transaction → Reply × Tables) (lossy : Bool)
    (t : Tables) (xs : List Transaction) (l : Link τ σ) : Prop where
  /-- Every request has its one reply, or is the one that is pending. -/
  requests : xs = l.replies.map Prod.fst ++ l.pending.toList
  /-- The replies account for what has been done, but for the pending request, which may be
  done as well. -/
  store : ∃ done, Accounts act Reply.Unsure lossy t done l.replies ∧
    (view l.slave.app = (outcome act t done).2 ∨
      ∃ x, l.pending = some x ∧ view l.slave.app = (outcome act t (done ++ [x])).2)

theorem Carries.agrees {t : Tables} {lossy : Bool} (h : Carries view size known l e)
    (he : Consistent size code known lossy t e) :
    Agrees view (conducted size code known) lossy t e.requested l := by
  obtain ⟨store, done, replies, asked⟩ := e
  have hstore : view l.slave.app = store := h.store
  have hgiven : l.replies = replies := h.replies
  obtain ⟨hdone, htold⟩ := he
  refine ⟨by rw [h.replies, h.pending, Session.requested], ?_⟩
  rw [hgiven]
  rcases asked with - | ⟨x, - | r⟩
  · exact ⟨done, htold, .inl (hstore.trans hdone)⟩
  · exact ⟨done, htold, .inl (hstore.trans hdone)⟩
  · obtain ⟨done, rfl, -, htold⟩ := htold
    exact ⟨done, htold, .inr ⟨x, h.pending, hstore.trans hdone⟩⟩

theorem run_agrees (lossy : Bool) (h : AtRest view size known l) (hrun : FairRun code l events)
    (hlossy : ∀ event ∈ events, disturbs event = true → lossy = true) :
    ∃ l', after (Link.step code) l events = some l' ∧ Agrees view (conducted size code known)
      lossy (view l.slave.app) (events.filterMap Event.asks) l' := by
  obtain ⟨l', e', hafter, hcarries, he, hreq⟩ := run_carries lossy h.carries
    (Session.consistent_start (view l.slave.app)) hrun (fun hs => by rw [h.clean] at hs; cases hs)
    hlossy
  have hagrees := Carries.agrees hcarries he
  rw [hreq] at hagrees
  exact ⟨l', hafter, hagrees⟩

def quietSend : SendFn σ := fun _ app => (0, app)

def smallLine : Link Unit (Banks 1 4 × Banks 1 4) where
  master := ⟨paModbusSetSendCb (some quietSend) (paModbusSetMode .master
    (paModbusSetTicksCb true (station .rtu 1 256 256))),
    (), 0, []⟩
  slave := ⟨{ paModbusSetSendCb (some quietSend) (paModbusSetMode .slave
      (paModbusSetTicksCb true (station .rtu 1 256 256)))
      with callbacks := checkedCallbacks bankCallbacks 8 4 },
    (⟨⟨[0x05], rfl⟩, ⟨[1, 2, 3, 4], rfl⟩⟩, ⟨⟨[0x02], rfl⟩, ⟨[9, 9, 9, 9], rfl⟩⟩), 0, []⟩
  down := []
  up := []
  pending := none
  replies := []
  spoiled := false

theorem smallLine_atRest : AtRest (tables Banks.view) (sizes 8 4) true smallLine where
  joined :=
    { master :=
        ⟨rfl, rfl, rfl, ⟨_, rfl, fun _ _ => rfl⟩, by decide +kernel, by decide +kernel⟩
      slave :=
        { toStation :=
            ⟨rfl, rfl, rfl, ⟨_, rfl, fun _ _ => rfl⟩, by decide +kernel, by decide +kernel⟩
          tables := checked_overTables (bankCallbacks_backed (by decide))
          untouched := fun f hf data app => by
            obtain rfl : quietSend = f := Option.some.inj hf
            rfl }
      address := acquainted_self rfl }
  silent := ⟨rfl, rfl, rfl⟩
  master := rfl
  pending := rfl
  replies := rfl
  clean := rfl

/-- Whatever is lost or damaged on the line, and however the stations take their turns: no
request is done twice or out of order, and a reply that leaves nothing open tells what was done. -/
theorem line_agrees (h : AtRest view size true l) (hrun : FairRun code l events) :
    ∃ l', after (Link.step code) l events = some l' ∧
      Agrees view (Transaction.fulfil size code) true (view l.slave.app)
        (events.filterMap Event.asks) l' :=
  run_agrees true h hrun fun _ _ _ => rfl

/-- A register is written in three attempts: the first request is damaged, the second response
is lost. -/
def retriedWrite : List Event :=
  [.issue (.write (.singleRegister 1 7)), .slaveTurn 0 3 fun _ _ => 0, .disturb [0x2A] [],
    .slaveTurn 1 8 fun _ _ => 0, .slaveTurn 50 8 fun _ _ => 0, .giveUp,
    .issue (.write (.singleRegister 1 7)), .slaveTurn 60 8 fun _ _ => 0, .disturb [] [], .giveUp,
    .issue (.write (.singleRegister 1 7)), .slaveTurn 70 8 fun _ _ => 0, .masterTurn 70 8]

theorem retried_write_agrees :
    (∃ l', after (Link.step 0x02) smallLine retriedWrite = some l' ∧
      Agrees (tables Banks.view) (Transaction.fulfil (sizes 8 4) 0x02) true
        (tables Banks.view smallLine.slave.app) (retriedWrite.filterMap Event.asks) l') ∧
      (after (Link.step 0x02) smallLine retriedWrite).map (fun l => l.replies.map Prod.snd) =
        some [.unanswered, .unanswered, .written] :=
  ⟨line_agrees smallLine_atRest (by decide +kernel), by decide +kernel⟩

theorem undisturbed_outcome (h : AtRest view size known l) (hrun : FairRun code l events)
    (hquiet : ∀ event ∈ events, disturbs event = false) :
    ∃ l', after (Link.step code) l events = some l' ∧
      events.filterMap Event.asks = l'.replies.map Prod.fst ++ l'.pending.toList ∧
      l'.replies.map Prod.snd = (outcome (conducted size code known) (view l.slave.app)
        (l'.replies.map Prod.fst)).1 ∧
      (view l'.slave.app = (outcome (conducted size code known) (view l.slave.app)
          (l'.replies.map Prod.fst)).2 ∨
        view l'.slave.app = (outcome (conducted size code known) (view l.slave.app)
          (events.filterMap Event.asks)).2) := by
  obtain ⟨l', hafter, hreq, done, htold, hstore⟩ := run_agrees false h hrun
    fun event hm hd => by rw [hquiet event hm] at hd; cases hd
  obtain ⟨rfl, hreplies⟩ := htold.exact
  refine ⟨l', hafter, hreq, hreplies, hstore.imp_right ?_⟩
  rintro ⟨x, hpending, hlast⟩
  rw [hreq, hpending]
  exact hlast

end Pamodbus.Agreement
