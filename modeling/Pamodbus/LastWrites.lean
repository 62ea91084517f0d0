import Pamodbus.Agreement
import Pamodbus.Lib.Retries

namespace Pamodbus.LastWrites

open Pamodbus.Lib.Banks Pamodbus.Lib.Exchange Pamodbus.Lib.Retries Pamodbus.Lib.Runs
open Pamodbus.DataModel Pamodbus.ReadRequests Pamodbus.WriteRequests
open Pamodbus.MaskWrites (Mask)
open Pamodbus.Transactions Pamodbus.Transactions.Transaction
open Pamodbus.SerialLink Pamodbus.Agreement Pamodbus.TestBanks
open Pamodbus.Boundaries

variable {σ τ : Type} {view : σ → Tables} {size : ReadKind → Nat} {code : UInt8}
  {l l' : Link τ σ} {events : List Event}

/-- The value that a write stores in a coil, if it writes there. -/
def coilValue (k : Nat) : WriteRequest → Option Bool
  | .singleCoil addr value => written addr.toNat [decide (value ≠ 0)] k
  | .multipleCoils addr values => written addr.toNat (values.map fun v => decide (v ≠ 0)) k
  | _ => none

def registerValue (k : Nat) (old : UInt16) : WriteRequest → UInt16
  | .singleRegister addr value => (written addr.toNat [value] k).getD old
  | .multipleRegisters addr values => (written addr.toNat values k).getD old
  | .maskRegister addr andMask orMask =>
    if k = addr.toNat then Mask.written ⟨addr, andMask, orMask⟩ old else old
  | _ => old

def effective (size : ReadKind → Nat) (xs : List Transaction) : List WriteRequest :=
  xs.filterMap fun
    | .read .. => none
    | .write request => if (Transaction.write request).Inside size then some request else none

/-- Coils as they were written last, registers as the writes have made them one after the other. -/
def lastWritten (size : ReadKind → Nat) (t : Tables) (xs : List Transaction) : Tables where
  outputs :=
    { coils := fun k =>
        ((effective size xs).filterMap (coilValue k)).getLast?.getD (t.outputs.coils k)
      registers := fun k => (effective size xs).foldl (registerValue k) (t.outputs.registers k) }
  inputs := t.inputs

theorem stored_coils (m : Data) (request : WriteRequest) (k : Nat) :
    (stored m request).coils k = (coilValue k request).getD (m.coils k) := by
  cases request with
  | _ => rfl

theorem stored_registers (m : Data) (request : WriteRequest) (k : Nat) :
    (stored m request).registers k = registerValue k (m.registers k) request := by
  cases request with
  | maskRegister addr andMask orMask =>
    change writeRange m.registers addr.toNat [_] k = _
    rw [writeRange_singleton, Function.update_apply, registerValue]
    split
    next hk => rw [hk]
    next => rfl
  | _ => rfl

theorem performed_effective (t : Tables) (xs : List Transaction) :
    (performed size code t xs).2 =
      { t with outputs := (effective size xs).foldl stored t.outputs } := by
  induction xs generalizing t with
  | nil => rfl
  | cons x xs ih =>
    rw [performed, outcome, ih, fulfil]
    cases x with
    | read kind addr count =>
      split
      · rfl
      · rfl
    | write request =>
      split
      next hin => simp [effective, hin, next]
      next hout => simp [effective, hout]

theorem foldl_registers (m : Data) (requests : List WriteRequest) (k : Nat) :
    (requests.foldl stored m).registers k = requests.foldl (registerValue k) (m.registers k) := by
  induction requests generalizing m with
  | nil => rfl
  | cons request requests ih => rw [List.foldl_cons, ih, stored_registers, List.foldl_cons]

theorem performed_lastWritten (code : UInt8) (t : Tables) (xs : List Transaction) :
    (performed size code t xs).2 = lastWritten size t xs := by
  rw [performed_effective, lastWritten]
  congr 1
  have hcoils : ((effective size xs).foldl stored t.outputs).coils = _ := funext fun k =>
    foldl_last stored (fun m => m.coils k) (coilValue k) (fun m r => stored_coils m r k) t.outputs _
  have hregisters : ((effective size xs).foldl stored t.outputs).registers = _ :=
    funext fun k => foldl_registers t.outputs _ k
  rw [← hcoils, ← hregisters]

/-- A read that is answered shows each item as the requests before it have left it that the
slave has carried out, whatever has been lost on the line. -/
theorem reads_last_writes {pre suf : List (Transaction × Reply)} {kind : ReadKind}
    {addr count : UInt16} {reply : Reply} (h : AtRest view size true l) (hrun : FairRun code l events)
    (hafter : after (Link.step code) l events = some l')
    (hsplit : l'.replies = pre ++ (.read kind addr count, reply) :: suf) (hsure : ¬ reply.Unsure) :
    ∃ done, Told size code true (view l.slave.app) done pre ∧
      reply = if addr.toNat + count.toNat ≤ size kind then
          (lastWritten size (view l.slave.app) done).shown addr count kind
        else .refused code := by
  obtain ⟨l₁, hafter', hagrees⟩ := run_agrees true h hrun fun _ _ _ => rfl
  rw [conducted_known] at hagrees
  obtain rfl : l' = l₁ := Option.some.inj (hafter.symm.trans hafter')
  obtain ⟨done, htold, -⟩ := hagrees.store
  rw [hsplit] at htold
  obtain ⟨done', htold', rfl⟩ := htold.sure fun _ => hsure
  refine ⟨done', htold', ?_⟩
  rw [← performed_lastWritten code, fulfil]
  by_cases hin : addr.toNat + count.toNat ≤ size kind
  · rw [if_pos hin, if_pos (show Inside size (.read kind addr count) from hin)]
    rfl
  · rw [if_neg hin, if_neg (show ¬ Inside size (.read kind addr count) from hin)]
    rfl

def readsAfterRetries : List Event :=
  [.issue (.read .holdingRegisters 0 2), .slaveTurn 80 8 fun _ _ => 0, .masterTurn 80 9]

theorem reads_after_retries : ∃ l' : Link Unit (Banks 1 4 × Banks 1 4), ∃ reply,
    after (Link.step 0x02) smallLine (retriedWrite ++ readsAfterRetries) = some l' ∧
      reply = .words [1, 7] ∧
      ∃ done, Told (sizes 8 4) 0x02 true (tables Banks.view smallLine.slave.app) done
          (l'.replies.take 3) ∧
        reply = if (0 : UInt16).toNat + (2 : UInt16).toNat ≤ sizes 8 4 .holdingRegisters then
          (lastWritten (sizes 8 4) (tables Banks.view smallLine.slave.app) done).shown 0 2
            .holdingRegisters
        else .refused 0x02 := by
  have hreplies : (after (Link.step 0x02) smallLine
      (retriedWrite ++ readsAfterRetries)).map Link.replies =
      some [(.write (.singleRegister 1 7), .unanswered),
        (.write (.singleRegister 1 7), .unanswered), (.write (.singleRegister 1 7), .written),
        (.read .holdingRegisters 0 2, .words [1, 7])] := by
    decide +kernel
  obtain ⟨l', hafter, hgiven⟩ := Option.map_eq_some_iff.mp hreplies
  have hsplit : l'.replies =
      l'.replies.take 3 ++ (.read .holdingRegisters 0 2, .words [1, 7]) :: [] := by
    rw [hgiven]
    rfl
  exact ⟨l', _, hafter, rfl,
    reads_last_writes smallLine_atRest (by decide +kernel) hafter hsplit (by decide)⟩

theorem mask_again (r : Mask) (old : UInt16) : r.written (r.written old) = r.written old := by
  simp only [Mask.written]
  apply UInt16.eq_of_toBitVec_eq
  ext i hi
  simp only [UInt16.toBitVec_or, UInt16.toBitVec_and, BitVec.getElem_or, BitVec.getElem_and]
  cases r.orMask.toBitVec[i] with
  | true => simp
  | false => simp

theorem stored_again (m : Data) (request : WriteRequest) :
    stored (stored m request) request = stored m request := by
  cases request with
  | singleCoil addr value =>
    exact congrArg (fun c => { m with coils := c }) (writeRange_writeRange _ _ _)
  | multipleCoils addr values =>
    exact congrArg (fun c => { m with coils := c }) (writeRange_writeRange _ _ _)
  | singleRegister addr value =>
    exact congrArg (fun c => { m with registers := c }) (writeRange_writeRange _ _ _)
  | multipleRegisters addr values =>
    exact congrArg (fun c => { m with registers := c }) (writeRange_writeRange _ _ _)
  | maskRegister addr andMask orMask =>
    have hwritten (old : UInt16) : writeRange m.registers addr.toNat [old] addr.toNat = old := by
      rw [writeRange_singleton, Function.update_self]
    simp only [stored, Data.writeRegisters, hwritten, mask_again, writeRange_writeRange]

/-- To carry out a request once more changes nothing and has the same reply. -/
theorem fulfil_repeatable : Repeatable (Transaction.fulfil size code) := by
  intro t x
  by_cases hin : x.Inside size
  · simp only [fulfil, if_pos hin]
    cases x with
    | read kind addr count => rfl
    | write request =>
      have hnext : next (next t (.write request)) (.write request) = next t (.write request) := by
        simp only [next, stored_again]
      rw [hnext]
      cases request with
      | _ => rfl
  · simp only [fulfil, if_neg hin]

/-- A master that repeats each request until it is sure of it has every one carried out as if
once and in order, though requests and responses are lost or damaged. -/
theorem retried_requests_once (h : AtRest view size true l) (hrun : FairRun code l events)
    (hafter : after (Link.step code) l events = some l') (hpending : l'.pending = none)
    (hins : Insistent Reply.Unsure l'.replies)
    (hlast : ∀ x reply, l'.replies.getLast? = some (x, reply) → ¬ reply.Unsure) :
    performed size code (view l.slave.app) ((settled Reply.Unsure l'.replies).map Prod.fst) =
      ((settled Reply.Unsure l'.replies).map Prod.snd, view l'.slave.app) := by
  obtain ⟨l₁, hafter', hagrees⟩ := run_agrees true h hrun fun _ _ _ => rfl
  rw [conducted_known] at hagrees
  obtain rfl : l' = l₁ := Option.some.inj (hafter.symm.trans hafter')
  obtain ⟨done, htold, hstore⟩ := hagrees.store
  have hdone : view l'.slave.app = (performed size code (view l.slave.app) done).2 := by
    rcases hstore with hstore | ⟨x, hx, -⟩
    · exact hstore
    · rw [hpending] at hx
      cases hx
  rw [hdone]
  exact retried_once htold fulfil_repeatable hins hlast

theorem retried_write_once : ∃ l' : Link Unit (Banks 1 4 × Banks 1 4),
    after (Link.step 0x02) smallLine retriedWrite = some l' ∧ l'.replies.length = 3 ∧
      performed (sizes 8 4) 0x02 (tables Banks.view smallLine.slave.app)
          ((settled Reply.Unsure l'.replies).map Prod.fst) =
        ((settled Reply.Unsure l'.replies).map Prod.snd, tables Banks.view l'.slave.app) := by
  have hstate : (after (Link.step 0x02) smallLine retriedWrite).map
      (fun l => (l.pending, l.replies)) =
      some (none, [(.write (.singleRegister 1 7), .unanswered),
        (.write (.singleRegister 1 7), .unanswered),
        (.write (.singleRegister 1 7), .written)]) := by
    decide +kernel
  obtain ⟨l', hafter, hgiven⟩ := Option.map_eq_some_iff.mp hstate
  obtain ⟨hpending, hreplies⟩ := Prod.mk.inj hgiven
  refine ⟨l', hafter, by rw [hreplies]; rfl,
    retried_requests_once smallLine_atRest (by decide +kernel) hafter hpending ?_ ?_⟩
  · rw [hreplies]
    simp [Insistent]
  · rw [hreplies]
    rintro x reply hx
    obtain ⟨-, rfl⟩ := Prod.mk.inj (Option.some.inj hx)
    exact id

end Pamodbus.LastWrites
