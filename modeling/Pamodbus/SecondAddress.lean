import Pamodbus.Agreement

namespace Pamodbus.SecondAddress

open Pamodbus.Lib.Exchange Pamodbus.Lib.Runs
open Pamodbus.Context Pamodbus.ReadRequests Pamodbus.Transactions
open Pamodbus.SerialLink Pamodbus.LinkRuns Pamodbus.Agreement
open Pamodbus.TestBanks Pamodbus.Boundaries

variable {σ τ : Type} {view : σ → Tables} {size : ReadKind → Nat} {code : UInt8} {known : Bool}
  {l : Link τ σ} {events : List Event}

theorem conducted_store (t : Tables) (xs : List Transaction) :
    (outcome (conducted size code known) t xs).2 = (performed size code t xs).2 := by
  induction xs generalizing t with
  | nil => rfl
  | cons x xs ih => exact ih _

theorem conducted_unheard (t : Tables) (xs : List Transaction) :
    ∀ reply ∈ (outcome (conducted size code false) t xs).1, reply = .unanswered := by
  induction xs generalizing t with
  | nil => simp [outcome]
  | cons x xs ih =>
    intro reply hreply
    rcases List.mem_cons.mp hreply with rfl | hrest
    · rfl
    · exact ih _ reply hrest

/-- On an undisturbed line to a slave whose own address the master does not take, every request is
carried out, one after the other, and none is answered. -/
theorem unknown_slave_unanswered (h : AtRest view size false l) (hrun : FairRun code l events)
    (hquiet : ∀ event ∈ events, disturbs event = false) :
    ∃ l', after (Link.step code) l events = some l' ∧
      events.filterMap Event.asks = l'.replies.map Prod.fst ++ l'.pending.toList ∧
      (∀ reply ∈ l'.replies.map Prod.snd, reply = .unanswered) ∧
      (view l'.slave.app = (performed size code (view l.slave.app) (l'.replies.map Prod.fst)).2 ∨
        view l'.slave.app =
          (performed size code (view l.slave.app) (events.filterMap Event.asks)).2) := by
  obtain ⟨l', hafter, hreq, hreplies, hstore⟩ := undisturbed_outcome h hrun hquiet
  rw [conducted_store, conducted_store] at hstore
  refine ⟨l', hafter, hreq, fun reply hreply => ?_, hstore⟩
  rw [hreplies] at hreply
  exact conducted_unheard _ _ reply hreply

/-- A slave without an address that listens to `0xF8`, where the master asks it. -/
def discoveredSlave : Link Unit (Banks 1 4 × Banks 1 4) :=
  { smallLine with
    master := { smallLine.master with ctx := paModbusSetSlave 0xF8 smallLine.master.ctx }
    slave := { smallLine.slave with
      ctx := paModbusSetDiscoveryAddr 0xF8 (paModbusSetSlave 0x00 smallLine.slave.ctx) } }

theorem discoveredSlave_atRest : AtRest (tables Banks.view) (sizes 8 4) false discoveredSlave where
  joined :=
    have hm := smallLine_atRest.joined.master
    have hs := smallLine_atRest.joined.slave
    { master := ⟨hm.framer, hm.role, hm.callback, hm.send, hm.tx, hm.rx⟩
      slave :=
        { toStation := ⟨hs.framer, hs.role, hs.callback, hs.send, hs.tx, hs.rx⟩
          tables := hs.tables
          untouched := hs.untouched }
      address := ⟨by decide, by decide⟩ }
  silent := ⟨rfl, rfl, rfl⟩
  master := rfl
  pending := rfl
  replies := rfl
  clean := rfl

def writeThenRead : List Event :=
  [.issue (.write (.singleRegister 1 7)), .slaveTurn 0 8 fun _ _ => 0, .masterTurn 0 8, .giveUp,
    .issue (.read .holdingRegisters 0 2), .slaveTurn 10 8 fun _ _ => 0, .masterTurn 10 9,
    .masterTurn 20 9]

theorem discovery_unanswered :
    (∃ l', after (Link.step 0x02) discoveredSlave writeThenRead = some l' ∧
      writeThenRead.filterMap Event.asks = l'.replies.map Prod.fst ++ l'.pending.toList ∧
      (∀ reply ∈ l'.replies.map Prod.snd, reply = .unanswered) ∧
      (tables Banks.view l'.slave.app = (performed (sizes 8 4) 0x02
          (tables Banks.view discoveredSlave.slave.app) (l'.replies.map Prod.fst)).2 ∨
        tables Banks.view l'.slave.app = (performed (sizes 8 4) 0x02
          (tables Banks.view discoveredSlave.slave.app) (writeThenRead.filterMap Event.asks)).2)) ∧
      (after (Link.step 0x02) discoveredSlave writeThenRead).map (fun l =>
        (l.replies.length, l.slave.app.1.testHoldingRegs.toList)) = some (2, [1, 7, 3, 4]) :=
  ⟨unknown_slave_unanswered discoveredSlave_atRest (by decide +kernel) (by decide +kernel),
    by decide +kernel⟩

end Pamodbus.SecondAddress
