import Pamodbus.Agreement
import Pamodbus.Lib.Routing
import Pamodbus.Responses

namespace Pamodbus.Multidrop

open Pamodbus.Lib.Exchange Pamodbus.Lib.Routing
open Pamodbus.Context Pamodbus.FramerRtu Pamodbus.Recv Pamodbus.Receiver Pamodbus.Accumulator
open Pamodbus.ReadRequests Pamodbus.Respond Pamodbus.Transactions
open Pamodbus.SerialLink Pamodbus.LinkRuns

variable {ι σ τ : Type} [DecidableEq ι]

/-- `down` is what each of the slaves has still to read, and `foreign` is what has been sent to and
by the others since the line was disturbed, frame by frame. -/
structure Bus (ι τ σ : Type) where
  master : World τ
  slaves : ι → World σ
  down : ι → Bytes
  foreign : ι → List Bytes
  up : Bytes
  pending : Option (ι × Transaction)
  replies : List ((ι × Transaction) × Reply)
  spoiled : Bool

inductive Event (ι : Type)
  | issue (i : ι) (x : Transaction)
  | slaveTurn (i : ι) (tick : UInt32) (n : Nat) (residue : Residue)
  | masterTurn (tick : UInt32) (n : Nat)
  | giveUp
  | disturb (down : ι → Bytes) (up : Bytes)

def Event.asks : Event ι → Option (ι × Transaction)
  | .issue i x => some (i, x)
  | _ => none

def disturbs : Event ι → Bool
  | .disturb _ _ => true
  | _ => false

namespace Bus

def pendingAt (i : ι) (b : Bus ι τ σ) : Option Transaction :=
  b.pending.bind fun a => if a.1 = i then some a.2 else none

def link (i : ι) (b : Bus ι τ σ) : Link τ σ where
  master := b.master
  slave := b.slaves i
  down := b.down i
  up := b.up
  pending := b.pendingAt i
  replies := []
  spoiled := b.spoiled

def address (i : ι) (b : Bus ι τ σ) : Bus ι τ σ :=
  { b with master := { b.master with
      ctx := paModbusSetSlave (b.slaves i).ctx.slave b.master.ctx } }

def issue (i : ι) (x : Transaction) (b : Bus ι τ σ) : Option (Bus ι τ σ) := do
  let (ret, w) ← (request x).run (b.address i).master
  return { b with
    master := w
    down := fun j => b.down j ++ sentSince b.master w
    foreign := fun j => if j = i then b.foreign j else b.foreign j ++ [sentSince b.master w]
    pending := if ret = paOk then some (i, x) else b.pending
    spoiled := false }

/-- A turn of a slave at its line, of which the others hear what it sends. -/
def slaveTurn (code : UInt8) (i : ι) (tick : UInt32) (n : Nat) (residue : Residue)
    (b : Bus ι τ σ) : Option (Bus ι τ σ) := do
  let l ← (b.link i).slaveTurn code tick n residue
  let sent := sentSince (b.slaves i) l.slave
  return { b with
    slaves := Function.update b.slaves i l.slave
    down := fun j => if j = i then l.down else b.down j ++ sent
    foreign := fun j => if j = i then b.foreign j else b.foreign j ++ [sent]
    up := l.up }

def conclude (x : ι × Transaction) (reply : Reply) (b : Bus ι τ σ) : Bus ι τ σ :=
  { b with pending := none, replies := b.replies ++ [(x, reply)] }

def masterTurn (tick : UInt32) (n : Nat) (b : Bus ι τ σ) : Option (Bus ι τ σ) := do
  let line := copied b.master.ctx b.up n
  let out ← paModbusRecv b.master.ctx ⟨tick, some line⟩
  let b' := { b with
    master := { b.master with ctx := out.ctx }
    up := b.up.drop line.length }
  match b.pending with
  | none => return b'
  | some x =>
    if 0 < out.ret then return b'
    return b'.conclude x (← observe out.ctx out.ret x.2)

def giveUp (b : Bus ι τ σ) : Bus ι τ σ :=
  let b' := { b with master := { b.master with ctx := paModbusRxReset b.master.ctx } }
  match b.pending with
  | none => b'
  | some x => b'.conclude x .unanswered

def step (code : UInt8) (b : Bus ι τ σ) : Event ι → Option (Bus ι τ σ)
  | .issue i x => b.issue i x
  | .slaveTurn i tick n residue => b.slaveTurn code i tick n residue
  | .masterTurn tick n => b.masterTurn tick n
  | .giveUp => some b.giveUp
  | .disturb down up =>
    some { b with down := down, foreign := fun _ => [], up := up, spoiled := true }

/-- What passes for a message to a slave begins where a frame to or by another one does. -/
def Overhears (b : Bus ι τ σ) (i : ι) (n : Nat) : Prop :=
  let line := copied (b.slaves i).ctx (b.down i) n
  ∀ suf ∈ (accumulator (b.slaves i).ctx ++ line).tails, Passes (b.slaves i).ctx suf →
    ∃ frames ∈ (b.foreign i).tails, suf ++ (b.down i).drop line.length = frames.flatten

instance (b : Bus ι τ σ) (i : ι) (n : Nat) : Decidable (b.Overhears i n) :=
  inferInstanceAs (Decidable (∀ suf ∈ _, _ → ∃ frames ∈ _, _ = _))

/-- The stations are used as on a line with one slave. -/
def Fair (b : Bus ι τ σ) : Event ι → Prop
  | .issue i x => b.pending = none ∧ SerialLink.Fair (b.link i) (.issue x)
  | .slaveTurn i tick n residue => (b.pendingAt i = none → b.Overhears i n) ∧
      ∀ x ∈ b.pendingAt i, SerialLink.Fair (b.link i) (.slaveTurn tick n residue)
  | .masterTurn tick n => (b.pending = none → Clear true b.master.ctx b.up n) ∧
      ∀ a ∈ b.pending, SerialLink.Fair (b.link a.1) (.masterTurn tick n)
  | .giveUp => ∀ a ∈ b.pending, (b.link a.1).Silent
  | .disturb _ _ => True

instance (b : Bus ι τ σ) : (event : Event ι) → Decidable (b.Fair event)
  | .issue _ _ => inferInstanceAs (Decidable (_ ∧ SerialLink.Fair _ _))
  | .slaveTurn _ _ _ _ => inferInstanceAs (Decidable ((_ → Overhears ..) ∧ ∀ x ∈ _, _))
  | .masterTurn _ _ => inferInstanceAs (Decidable ((_ → Clear ..) ∧ ∀ a ∈ b.pending, _))
  | .giveUp => inferInstanceAs (Decidable (∀ a ∈ b.pending, _))
  | .disturb _ _ => .isTrue trivial

/-- What a step on the line to one slave leaves of the bus, when the others hear these frames. -/
def put (i : ι) (l : Link τ σ) (heard : List Bytes) (b : Bus ι τ σ) : Bus ι τ σ where
  master := l.master
  slaves := Function.update b.slaves i l.slave
  down := fun j => if j = i then l.down else b.down j ++ heard.flatten
  foreign := fun j => if j = i then b.foreign j else b.foreign j ++ heard
  up := l.up
  pending := l.pending.map (Prod.mk i)
  replies := b.replies ++ l.replies.map fun a => ((i, a.1), a.2)
  spoiled := l.spoiled

end Bus

variable {view : ι → σ → Tables} {size : ι → ReadKind → Nat} {code : UInt8} {b b' : Bus ι τ σ}
  {events : List (Event ι)} {i : ι} {x : Transaction} {l : Link τ σ}

theorem pendingAt_asked (h : b.pending = some (i, x)) : b.pendingAt i = some x := by
  rw [Bus.pendingAt, h, Option.bind_some, if_pos rfl]

theorem pendingAt_unasked (h : ∀ x, b.pending ≠ some (i, x)) : b.pendingAt i = none := by
  rw [Bus.pendingAt, Option.bind_eq_none_iff]
  rintro ⟨j, x⟩ hp
  refine if_neg fun hj => h x ?_
  rw [hp, ← hj]

theorem link_asked (h : b.pending = some (i, x)) : b.link i =
    ⟨b.master, b.slaves i, b.down i, b.up, some x, [], b.spoiled⟩ := by
  rw [Bus.link, pendingAt_asked h]

theorem ite_same {A : Type} (i : ι) (f : ι → A) : (fun j => if j = i then f i else f j) = f := by
  funext j
  split
  next h => rw [h]
  next h => rfl

theorem link_addressed (hp : b.pending = none) : (b.address i).link i =
    ⟨(b.address i).master, b.slaves i, b.down i, b.up, none, [], b.spoiled⟩ := by
  have hnone : (b.address i).pendingAt i = none := by
    rw [Bus.pendingAt, Bus.address, hp, Option.bind_none]
  rw [Bus.link, hnone]
  rfl

theorem issue_put (hp : b.pending = none) (hstep : ((b.address i).link i).issue x = some l) :
    b.issue i x = some (b.put i l [sentSince b.master l.master]) := by
  rw [link_addressed hp] at hstep
  obtain ⟨⟨ret, w⟩, hrun, hl⟩ := Option.bind_eq_some_iff.mp hstep
  have hsent : sentSince (b.address i).master w = sentSince b.master w := rfl
  rw [Bus.issue, hrun, ← Option.some.inj hl]
  by_cases hret : ret = paOk
  · simp [Bus.put, hret, hsent, ite_same i fun j => b.down j ++ sentSince b.master w]
  · simp [Bus.put, hret, hp, hsent, ite_same i fun j => b.down j ++ sentSince b.master w]

theorem slaveTurn_put {tick : UInt32} {n : Nat} {residue : Residue} (hp : b.pending = some (i, x))
    (hstep : (b.link i).slaveTurn code tick n residue = some l) :
    b.slaveTurn code i tick n residue = some (b.put i l [sentSince (b.slaves i) l.slave]) := by
  rw [Bus.slaveTurn, hstep]
  obtain ⟨out, -, hstep⟩ := Option.bind_eq_some_iff.mp hstep
  obtain ⟨⟨ret, w⟩, -, hl⟩ := Option.bind_eq_some_iff.mp hstep
  rw [link_asked hp] at hl
  rw [← Option.some.inj hl]
  simp [Bus.put, hp]

theorem masterTurn_put {tick : UInt32} {n : Nat} (hp : b.pending = some (i, x))
    (hstep : (b.link i).masterTurn tick n = some l) :
    b.masterTurn tick n = some (b.put i l []) := by
  rw [link_asked hp] at hstep
  obtain ⟨out, hrun, hl⟩ := Option.bind_eq_some_iff.mp hstep
  dsimp only at hrun
  simp only [Bus.masterTurn, hrun, hp, Option.bind_eq_bind, Option.bind_some]
  dsimp only at hl
  by_cases hret : 0 < out.ret
  · rw [if_pos hret] at hl ⊢
    rw [← Option.some.inj hl]
    simp [Bus.put, ite_same]
  · rw [if_neg hret] at hl ⊢
    obtain ⟨reply, hobs, hl⟩ := Option.bind_eq_some_iff.mp hl
    rw [hobs, ← Option.some.inj hl]
    simp [Bus.put, Bus.conclude, Link.conclude, ite_same]

theorem giveUp_put (hp : b.pending = some (i, x)) :
    b.giveUp = b.put i (b.link i).giveUp [] := by
  rw [link_asked hp]
  obtain ⟨master, slaves, down, foreign, up, pending, replies, spoiled⟩ := b
  obtain rfl : pending = some (i, x) := hp
  simp [Bus.giveUp, Bus.put, Link.giveUp, Link.conclude, Bus.conclude, ite_same]

abbrev BusSession (ι : Type) := Session (ι → Tables) (ι × Transaction) Reply

variable {E : BusSession ι} {lossy : Bool}

def Strangers (b : Bus ι τ σ) : Prop :=
  ∀ i j, i ≠ j → accepts (b.slaves i).ctx (b.slaves j).ctx.slave = false

structure Carries (view : ι → σ → Tables) (size : ι → ReadKind → Nat) (b : Bus ι τ σ)
    (E : BusSession ι) : Prop where
  master : Station .master b.master.ctx
  slaves : ∀ i, Server (view i) (size i) (b.slaves i).ctx
  heard : ∃ acc, Holds b.master.ctx acc
  overheard : ∀ i, ∃ acc, Holds (b.slaves i).ctx acc
  replies : b.replies = E.replies
  store : ∀ i, view i (b.slaves i).app = E.store i
  pending : b.pending = E.asked.map Prod.fst
  asked : ∀ i x o, E.asked = some ((i, x), o) →
    Acquainted true b.master.ctx (b.slaves i).ctx ∧ Phase (b.link i) (some (x, o))
  strangers : Strangers b
  foreign : ∀ i, ∀ frame ∈ b.foreign i, ∀ id ∈ frame.head?, accepts (b.slaves i).ctx id = false

def Follows (size : ι → ReadKind → Nat) (code : UInt8) (lossy : Bool)
    (asks : Option (ι × Transaction)) (E E' : BusSession ι) : Prop :=
  asks = none ∧ E' = E ∨
    Session.Step (routed fun i => Transaction.fulfil (size i) code) Reply.Unsure lossy asks E E'

def Simulates (view : ι → σ → Tables) (size : ι → ReadKind → Nat) (code : UInt8) (lossy : Bool)
    (asks : Option (ι × Transaction)) (E : BusSession ι) (run : Option (Bus ι τ σ)) : Prop :=
  ∃ b' E', run = some b' ∧ Follows size code lossy asks E E' ∧ Carries view size b' E'

theorem Carries.pending_asked {o : Option Reply} (h : Carries view size b E)
    (hE : E.asked = some ((i, x), o)) : b.pending = some (i, x) := by
  rw [h.pending, hE, Option.map_some]

theorem Carries.unasked (h : Carries view size b E) (hp : b.pending = none) : E.asked = none := by
  rw [h.pending] at hp
  exact Option.map_eq_none_iff.mp hp

theorem Carries.link {o : Option Reply} (h : Carries view size b E)
    (hE : E.asked = some ((i, x), o)) :
    LinkRuns.Carries (view i) (size i) true (b.link i) ⟨E.store i, [], [], some (x, o)⟩ where
  joined := ⟨h.master, h.slaves i, (h.asked i x o hE).1⟩
  replies := rfl
  store := h.store i
  pending := pendingAt_asked (h.pending_asked hE)
  phase := (h.asked i x o hE).2

theorem Carries.addressed (h : Carries view size b E) (hp : b.pending = none)
    (hs : (b.link i).Silent) (hempty : b.master.ctx.rxLen = 0) :
    LinkRuns.Carries (view i) (size i) true ((b.address i).link i) ⟨E.store i, [], [], none⟩ := by
  obtain ⟨hdown, hup, hslave⟩ := hs
  rw [link_addressed hp]
  obtain ⟨hframer, hrole, hcallback, hsend, htx, hrx⟩ := h.master
  refine ⟨⟨⟨hframer, hrole, hcallback, hsend, htx, hrx⟩, h.slaves i, acquainted_self rfl⟩,
    rfl, h.store i, rfl, ?_⟩
  cases hspoiled : b.spoiled with
  | false => exact .idle rfl hdown hup (holds_nil hslave) (holds_nil hempty)
  | true => exact .disturbed none [] [] rfl (holds_nil hslave) (holds_nil hempty)

theorem within_asked {o : Option Reply} (hE : E.asked = some ((i, x), o)) :
    within i E ⟨E.store i, [], [], some (x, o)⟩ = E := by
  obtain ⟨store, done, replies, asked⟩ := E
  obtain rfl : asked = some ((i, x), o) := hE
  simp [within]

theorem within_unasked (hE : E.asked = none) (i : ι) :
    within i E ⟨E.store i, [], [], none⟩ = E := by
  obtain ⟨store, done, replies, asked⟩ := E
  obtain rfl : asked = none := hE
  simp [within]

theorem phase_told {asked : Option (Transaction × Option Reply)} (h : Phase l asked)
    (replies : List (Transaction × Reply)) : Phase { l with replies := replies } asked := by
  cases h with
  | idle hclean hdown hup hslave hmaster => exact .idle hclean hdown hup hslave hmaster
  | asking x pdu acc hclean hv henc hslave hsplit hdown hup hmaster =>
    exact .asking x pdu acc hclean hv henc hslave hsplit hdown hup hmaster
  | answering x reply pdu acc hclean hpdu hreaches hmaster hsplit hup hdown hslave =>
    exact .answering x reply pdu acc hclean hpdu hreaches hmaster hsplit hup hdown hslave
  | disturbed _ acc acc' hspoiled hslave hmaster =>
    exact .disturbed _ acc acc' hspoiled hslave hmaster

theorem link_put (hp : l.pending = some x) (heard : List Bytes) :
    (b.put i l heard).link i = { l with replies := [] } := by
  have hput : (b.put i l heard).pending = some (i, x) := by rw [Bus.put, hp, Option.map_some]
  rw [link_asked hput]
  simp [Bus.put, hp]

@[simp] theorem put_slave (l : Link τ σ) (heard : List Bytes) :
    (b.put i l heard).slaves i = l.slave := Function.update_self ..

@[simp] theorem put_other {j : ι} (hj : j ≠ i) (l : Link τ σ) (heard : List Bytes) :
    (b.put i l heard).slaves j = b.slaves j := Function.update_of_ne hj ..

theorem forall_updated {P : ι → World σ → Prop} {w : World σ} (hi : P i w)
    (hothers : ∀ j, P j (b.slaves j)) (j : ι) : P j (Function.update b.slaves i w j) :=
  (Function.forall_update_iff b.slaves P).mpr ⟨hi, fun k _ => hothers k⟩ j

/-- The slave of the line keeps its addresses, and what goes out to the others carries its own. -/
structure Utters (b : Bus ι τ σ) (i : ι) (l : Link τ σ) (heard : List Bytes) : Prop where
  slave : l.slave.ctx.slave = (b.slaves i).ctx.slave
  accepts : ∀ id, accepts l.slave.ctx id = accepts (b.slaves i).ctx id
  frames : ∀ frame ∈ heard, ∀ id ∈ frame.head?, id = (b.slaves i).ctx.slave

theorem utters_nothing {ι : Type} {b : Bus ι τ σ} {i : ι} (h : l.slave = b.slaves i) :
    Utters b i l [] where
  slave := by rw [h]
  accepts _ := by rw [h]
  frames := List.forall_mem_nil _

theorem Utters.put_slave {heard : List Bytes} (h : Utters b i l heard) (j : ι) :
    ((b.put i l heard).slaves j).ctx.slave = (b.slaves j).ctx.slave :=
  forall_updated (P := fun k w => w.ctx.slave = (b.slaves k).ctx.slave) h.slave (fun _ => rfl) j

theorem Utters.put_accepts {heard : List Bytes} (h : Utters b i l heard) (j : ι) (id : UInt8) :
    FramerRtu.accepts ((b.put i l heard).slaves j).ctx id =
      FramerRtu.accepts (b.slaves j).ctx id :=
  forall_updated (P := fun k w => FramerRtu.accepts w.ctx id =
    FramerRtu.accepts (b.slaves k).ctx id) (h.accepts id) (fun _ => rfl) j

theorem Utters.strangers {heard : List Bytes} (h : Utters b i l heard) (hs : Strangers b) :
    Strangers (b.put i l heard) := by
  intro j k hjk
  rw [h.put_slave, h.put_accepts]
  exact hs j k hjk

theorem put_carries {e : LineSession} {heard : List Bytes} (h : Carries view size b E)
    (hl : LinkRuns.Carries (view i) (size i) true l e) (hutters : Utters b i l heard) :
    Carries view size (b.put i l heard) (within i E e) := by
  obtain ⟨acc, acc', hslave, hmaster⟩ := hl.phase.holds
  have hslaves := forall_updated (P := fun j w => Server (view j) (size j) w.ctx)
    hl.joined.slave h.slaves
  have hoverheard := forall_updated (i := i) (P := fun _ w => ∃ acc, Holds w.ctx acc)
    ⟨acc, hslave⟩ h.overheard
  refine ⟨hl.joined.master, hslaves, ⟨acc', hmaster⟩, hoverheard, ?_, fun j => ?_, ?_, ?_,
    hutters.strangers h.strangers, fun j frame hmem id hid => ?_⟩
  · rw [Bus.put, within, h.replies, hl.replies]
  · by_cases hj : j = i
    · rw [hj, put_slave]
      exact hl.store.trans (Function.update_self i e.store E.store).symm
    · rw [put_other hj]
      exact (h.store j).trans (Function.update_of_ne hj _ E.store).symm
  · rw [Bus.put, within, hl.pending, Option.map_map, Option.map_map]
    rfl
  · rintro j y o hasked
    obtain ⟨⟨x, o'⟩, he, htag⟩ := Option.map_eq_some_iff.mp hasked
    obtain ⟨⟨rfl, rfl⟩, rfl⟩ := (Prod.mk.inj htag).imp_left Prod.mk.inj
    have hp : l.pending = some x := by rw [hl.pending, he, Option.map_some]
    have hphase := hl.phase
    rw [he] at hphase
    rw [link_put hp, put_slave]
    exact ⟨hl.joined.address, phase_told hphase []⟩
  · rw [hutters.put_accepts]
    rw [Bus.put] at hmem
    dsimp only at hmem
    by_cases hj : j = i
    · rw [if_pos hj] at hmem
      exact h.foreign j frame hmem id hid
    · rw [if_neg hj] at hmem
      rcases List.mem_append.mp hmem with hmem | hmem
      · exact h.foreign j frame hmem id hid
      · rw [hutters.frames frame hmem id hid]
        exact h.strangers j i hj

theorem simulates_put {asks : Option Transaction} {e : LineSession} {run : Option (Link τ σ)}
    {run' : Option (Bus ι τ σ)} (h : Carries view size b E) (hE : within i E e = E)
    (hl : LinkRuns.Simulates (view i) (size i) code true lossy asks e run)
    (hput : ∀ l, run = some l → ∃ heard, run' = some (b.put i l heard) ∧ Utters b i l heard) :
    Simulates view size code lossy (asks.map (Prod.mk i)) E run' := by
  obtain ⟨l, e', hrun, hfollows, hcarries⟩ := hl
  obtain ⟨heard, hrun', hutters⟩ := hput l hrun
  refine ⟨_, within i E e', hrun', ?_, put_carries h hcarries hutters⟩
  rcases hfollows with ⟨rfl, rfl⟩ | hstep
  · exact .inl ⟨rfl, hE⟩
  · have hwithin : Session.Step (routed fun i => Transaction.fulfil (size i) code) Reply.Unsure
        lossy (asks.map (Prod.mk i)) (within i E e) (within i E e') := Step.within hstep
    rw [hE] at hwithin
    exact .inr hwithin

theorem Carries.quiet (h : Carries view size b E) (hmaster : SameSetup b.master.ctx b'.master.ctx)
    (hslaves : ∀ i, SameSetup (b.slaves i).ctx (b'.slaves i).ctx)
    (happ : ∀ i, (b'.slaves i).app = (b.slaves i).app) (hheard : ∃ acc, Holds b'.master.ctx acc)
    (hoverheard : ∀ i, ∃ acc, Holds (b'.slaves i).ctx acc) (hreplies : b'.replies = b.replies)
    (hpending : b'.pending = b.pending)
    (hphase : ∀ i x o, b.pending = some (i, x) → Phase (b.link i) (some (x, o)) →
      Phase (b'.link i) (some (x, o)))
    (hforeign : ∀ i, ∀ frame ∈ b'.foreign i, frame ∈ b.foreign i ∨ frame = []) :
    Carries view size b' E where
  master := h.master.same hmaster
  slaves i := (h.slaves i).same (hslaves i)
  heard := hheard
  overheard := hoverheard
  replies := hreplies.trans h.replies
  store i := by
    rw [happ]
    exact h.store i
  pending := hpending.trans h.pending
  asked i x o hE := by
    obtain ⟨haddress, hp⟩ := h.asked i x o hE
    exact ⟨haddress.same hmaster (hslaves i), hphase i x o (h.pending_asked hE) hp⟩
  strangers i j hij := by
    rw [(hslaves i).accepts, (hslaves j).slave]
    exact h.strangers i j hij
  foreign i frame hmem id hid := by
    rw [(hslaves i).accepts]
    rcases hforeign i frame hmem with hold | rfl
    · exact h.foreign i frame hold id hid
    · cases hid

theorem rtuFrame_head {id addr : UInt8} {pdu : Bytes} (h : id ∈ (rtuFrame addr pdu).head?) :
    id = addr := (Option.some.inj h).symm

theorem issue_simulates (h : Carries view size b E) (hp : b.pending = none)
    (hfair : SerialLink.Fair (b.link i) (.issue x)) (lossy : Bool) :
    Simulates view size code lossy (some (i, x)) E (b.issue i x) := by
  obtain ⟨-, hv, hs, hempty⟩ := hfair
  have hline := h.addressed hp hs hempty
  obtain ⟨pdu, w, -, hrun, hsent⟩ := request_sent hv.buildable hline.joined.master
  have hframe : sentSince b.master w = rtuFrame (b.slaves i).ctx.slave pdu := hsent.sentSince
  have hissue := issue_run hrun
  refine simulates_put h (within_unasked (h.unasked hp) i)
    (LinkRuns.issue_simulates hline x hline.pending hv hs hempty lossy)
    fun l hl => ⟨_, issue_put hp hl, ?_⟩
  obtain rfl := Option.some.inj (hissue.symm.trans hl)
  refine ⟨rfl, fun _ => rfl, List.forall_mem_singleton.mpr fun id hid => ?_⟩
  exact rtuFrame_head (hframe ▸ hid)

theorem slaveTurn_utters {tick : UInt32} {n : Nat} {residue : Residue} {acc : Bytes}
    (h : Station .slave (b.slaves i).ctx) (hheld : Holds (b.slaves i).ctx acc)
    (hstep : (b.link i).slaveTurn code tick n residue = some l) :
    Utters b i l [sentSince (b.slaves i) l.slave] := by
  have hrx := h.rx
  obtain ⟨out, hrecv, hstep⟩ := Option.bind_eq_some_iff.mp hstep
  obtain ⟨⟨ret, w⟩, hrun, hl⟩ := Option.bind_eq_some_iff.mp hstep
  obtain rfl := Option.some.inj hl
  have hturn : Responses.turn code (b.slaves i)
      ⟨tick, copied (b.slaves i).ctx (b.down i) n, residue⟩ = some w :=
    Option.bind_eq_some_iff.mpr ⟨out, hrecv, Option.bind_eq_some_iff.mpr ⟨(ret, w), hrun, rfl⟩⟩
  have hoffered : (copied (b.slaves i).ctx (b.down i) n).length ≤ offered (b.slaves i).ctx := by
    rw [copied, List.length_take]
    omega
  have hready : Ready (b.slaves i).ctx.rxbuf.cells.length (b.slaves i).ctx :=
    ⟨h.callback, rfl, by omega, hheld.le⟩
  obtain ⟨-, hturned, taken, answered, -, -, hsent, hanswers⟩ :=
    Responses.turn_accounted ⟨hready, h.framer, h.role⟩ hoffered hturn
  refine ⟨hturned.slave, hturned.accepts, List.forall_mem_singleton.mpr fun id hid => ?_⟩
  rw [sentSince, hsent, List.drop_left, List.head?_flatMap] at hid
  obtain ⟨a, ha, hid⟩ := List.exists_of_findSome?_eq_some hid
  rcases (hanswers a ha).answer with hnone | ⟨pdu, hframe, -⟩
  · rw [hnone] at hid
    cases hid
  · rw [hframe] at hid
    exact rtuFrame_head hid

/-- A slave that is not asked refuses what it overhears, as it is for another address. -/
theorem overhears_nothing {n : Nat} (h : Carries view size b E) (hover : b.Overhears i n) :
    Clear true (b.slaves i).ctx (b.down i) n := by
  intro suf hsuf hpass
  obtain ⟨frames, htail, heq⟩ := hover suf hsuf hpass
  obtain ⟨id, rest, rfl, haccepts⟩ := passes_accepts (h.slaves i).framer hpass
  have hhead : frames.flatten.head? = some id := by rw [← heq]; rfl
  rw [List.head?_flatten] at hhead
  obtain ⟨frame, hmem, hid⟩ := List.exists_of_findSome?_eq_some hhead
  have hrefuses := h.foreign i frame ((List.mem_tails _ _).mp htail |>.mem hmem) id hid
  rw [haccepts] at hrefuses
  cases hrefuses

theorem slaveTurn_unasked (h : Carries view size b E) (hp : ∀ x, b.pending ≠ some (i, x))
    {tick : UInt32} {n : Nat} {residue : Residue} (lossy : Bool) (hover : b.Overhears i n) :
    Simulates view size code lossy none E (b.slaveTurn code i tick n residue) := by
  obtain ⟨acc, hslave⟩ := h.overheard i
  obtain ⟨ctx, acc', hrun, hsame, hholds⟩ := slaveTurn_overhears (l := b.link i)
    (h.slaves i).toStation hslave (overhears_nothing h hover) code tick residue
  have hnothing : sentSince (b.slaves i) { b.slaves i with ctx := ctx } = [] := List.drop_length
  refine ⟨{ b with
    slaves := Function.update b.slaves i { b.slaves i with ctx := ctx }
    down := fun j => if j = i then (b.down i).drop (copied (b.slaves i).ctx (b.down i) n).length
      else b.down j ++ []
    foreign := fun j => if j = i then b.foreign j else b.foreign j ++ [[]] }, E, ?_,
    .inl ⟨rfl, rfl⟩, ?_⟩
  · rw [Bus.slaveTurn, hrun, ← hnothing]
    rfl
  · have hsetup := forall_updated (i := i) (P := fun j w => SameSetup (b.slaves j).ctx w.ctx)
      (w := { b.slaves i with ctx := ctx }) hsame fun j => sameSetup_refl (b.slaves j).ctx
    have happ := forall_updated (i := i) (P := fun j w => w.app = (b.slaves j).app)
      (w := { b.slaves i with ctx := ctx }) rfl fun _ => rfl
    have hoverheard := forall_updated (i := i) (P := fun _ w => ∃ acc, Holds w.ctx acc)
      (w := { b.slaves i with ctx := ctx }) ⟨acc', hholds⟩ h.overheard
    refine h.quiet (sameSetup_refl _) hsetup happ h.heard hoverheard rfl rfl ?_
      fun j frame hmem => ?_
    · intro j x o hasked hphase
      have hj : j ≠ i := by
        rintro rfl
        exact hp x hasked
      simpa [Bus.link, Bus.pendingAt, hj] using hphase
    · dsimp only at hmem
      split at hmem
      · exact .inl hmem
      · exact (List.mem_append.mp hmem).imp_right List.mem_singleton.mp

theorem slaveTurn_simulates (h : Carries view size b E) {tick : UInt32} {n : Nat}
    {residue : Residue} (lossy : Bool) (hfair : b.Fair (.slaveTurn i tick n residue)) :
    Simulates view size code lossy none E (b.slaveTurn code i tick n residue) := by
  obtain ⟨hunasked, hasked⟩ := hfair
  by_cases hp : ∃ x, b.pending = some (i, x)
  · obtain ⟨x, hp⟩ := hp
    obtain ⟨⟨a, o⟩, hE, rfl⟩ := Option.map_eq_some_iff.mp (h.pending.symm.trans hp)
    obtain ⟨hclear, htime⟩ := hasked x (pendingAt_asked hp)
    obtain ⟨acc, hslave⟩ := h.overheard i
    exact simulates_put h (within_asked hE)
      (LinkRuns.slaveTurn_simulates (h.link hE) tick n residue lossy hclear htime)
      fun l hl => ⟨_, slaveTurn_put hp hl, slaveTurn_utters (h.slaves i).toStation hslave hl⟩
  · have hnone (x : Transaction) : b.pending ≠ some (i, x) := fun hx => hp ⟨x, hx⟩
    exact slaveTurn_unasked h hnone lossy (hunasked (pendingAt_unasked hnone))

theorem masterTurn_utters {tick : UInt32} {n : Nat}
    (hstep : (b.link i).masterTurn tick n = some l) : Utters b i l [] := by
  obtain ⟨out, -, hl⟩ := Option.bind_eq_some_iff.mp hstep
  dsimp only at hl
  refine utters_nothing ?_
  split at hl
  · rw [← Option.some.inj hl]
    rfl
  · split at hl
    · rw [← Option.some.inj hl]
      rfl
    · obtain ⟨reply, -, hl⟩ := Option.bind_eq_some_iff.mp hl
      rw [← Option.some.inj hl]
      rfl

theorem masterTurn_simulates (h : Carries view size b E) {tick : UInt32} {n : Nat} (lossy : Bool)
    (hlossy : b.spoiled = true → lossy = true) (hfair : b.Fair (.masterTurn tick n)) :
    Simulates view size code lossy none E (b.masterTurn tick n) := by
  obtain ⟨hnone, hsome⟩ := hfair
  cases hp : b.pending with
  | none =>
    obtain ⟨acc, hmaster⟩ := h.heard
    have hun := hnone hp
    rw [Clear, hmaster.1] at hun
    obtain ⟨ret, ctx, acc', hrecv, hsame, hholds, -⟩ := turn_fruitless tick h.master hmaster
      (copied_fits h.master hmaster n) hun (fun hpass => Bool.noConfusion hpass.2.2)
    refine ⟨{ b with
      master := { b.master with ctx := ctx }
      up := b.up.drop (copied b.master.ctx b.up n).length }, E, ?_, .inl ⟨rfl, rfl⟩, ?_⟩
    · simp only [Bus.masterTurn, hrecv, Option.bind_eq_bind, Option.bind_some, hp]
      rfl
    · refine h.quiet hsame (fun j => sameSetup_refl _) (fun j => rfl) ⟨acc', hholds⟩ h.overheard rfl
        rfl (fun j x o hasked => ?_) fun _ _ => .inl
      rw [hp] at hasked
      cases hasked
  | some a =>
    obtain ⟨i, x⟩ := a
    obtain ⟨⟨a, o⟩, hE, rfl⟩ := Option.map_eq_some_iff.mp (h.pending.symm.trans hp)
    have hfair := hsome _ hp
    have hspoiled : (b.link i).spoiled = true → lossy = true := by
      rw [link_asked hp]
      exact hlossy
    exact simulates_put h (within_asked hE)
      (LinkRuns.masterTurn_simulates (h.link hE) tick n lossy hspoiled hfair.1 hfair.2)
      fun l hl => ⟨[], masterTurn_put hp hl, masterTurn_utters hl⟩

theorem giveUp_simulates (h : Carries view size b E) (lossy : Bool)
    (hlossy : b.spoiled = true → lossy = true) (hfair : b.Fair .giveUp) :
    Simulates view size code lossy none E (some b.giveUp) := by
  have hsame : SameSetup b.master.ctx (paModbusRxReset b.master.ctx) :=
    ⟨rfl, rfl, rfl, rfl, rfl, rfl, rfl, rfl, rfl, rfl⟩
  cases hp : b.pending with
  | none =>
    refine ⟨{ b with master := { b.master with ctx := paModbusRxReset b.master.ctx } }, E, ?_,
      .inl ⟨rfl, rfl⟩, ?_⟩
    · simp only [Bus.giveUp, hp]
    · refine h.quiet hsame (fun j => sameSetup_refl _) (fun j => rfl) ⟨[], holds_nil rfl⟩
        h.overheard rfl rfl (fun j x o hasked => ?_) fun _ _ => .inl
      rw [hp] at hasked
      cases hasked
  | some a =>
    obtain ⟨i, x⟩ := a
    obtain ⟨⟨a, o⟩, hE, rfl⟩ := Option.map_eq_some_iff.mp (h.pending.symm.trans hp)
    have hspoiled : (b.link i).spoiled = true → lossy = true := by
      rw [link_asked hp]
      exact hlossy
    refine simulates_put h (within_asked hE)
      (LinkRuns.giveUp_simulates (h.link hE) lossy hspoiled (hfair _ hp))
      fun l hl => ⟨[], by rw [giveUp_put hp, Option.some.inj hl], utters_nothing ?_⟩
    rw [← Option.some.inj hl, link_asked hp]
    rfl

/-- Every fair step of the bus is one step of the session, or none. -/
theorem step_simulates (h : Carries view size b E) (event : Event ι) (hfair : b.Fair event)
    (lossy : Bool) (hlossy : b.spoiled = true → lossy = true) :
    Simulates view size code lossy event.asks E (b.step code event) := by
  cases event with
  | issue i x => exact issue_simulates h hfair.1 hfair.2 lossy
  | slaveTurn i tick n residue => exact slaveTurn_simulates h lossy hfair
  | masterTurn tick n => exact masterTurn_simulates h lossy hlossy hfair
  | giveUp => exact giveUp_simulates h lossy hlossy hfair
  | disturb down up =>
    refine ⟨_, _, rfl, .inl ⟨rfl, rfl⟩, h.quiet (sameSetup_refl _) (fun j => sameSetup_refl _)
      (fun j => rfl) h.heard h.overheard rfl rfl (fun i x o hasked hphase => ?_)
      fun _ frame hmem => absurd hmem List.not_mem_nil⟩
    obtain ⟨acc, acc', hslave, hmaster⟩ := hphase.holds
    exact .disturbed _ acc acc' rfl hslave hmaster

end Pamodbus.Multidrop
