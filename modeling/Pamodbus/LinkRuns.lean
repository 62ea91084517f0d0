import Pamodbus.Calls
import Pamodbus.Lib.Exchange
import Pamodbus.SerialLink

namespace Pamodbus.LinkRuns

open Pamodbus.Lib.Cells Pamodbus.Lib.Exchange
open Pamodbus.Context Pamodbus.FramerRtu Pamodbus.Framer Pamodbus.Feed Pamodbus.ReadRequests
open Pamodbus.Recv Pamodbus.Receiver Pamodbus.ParseTotal Pamodbus.Accumulator Pamodbus.Respond
open Pamodbus.Transactions Pamodbus.Conveyed Pamodbus.Serving
open Pamodbus.SerialLink

variable {σ τ : Type}

/-- What a receiver has taken from the line and not yet dispatched. -/
def Holds (ctx : PaModbus σ) (acc : Bytes) : Prop := accumulator ctx = acc ∧ ctx.rxLen = acc.length

theorem Holds.le {ctx : PaModbus σ} {acc : Bytes} (h : Holds ctx acc) :
    ctx.rxLen ≤ ctx.rxbuf.cells.length := by
  have hl := congrArg List.length h.1
  rw [accumulator, List.length_take, ← h.2] at hl
  omega

theorem holds_holding (ctx : PaModbus σ) (b : Buffer UInt8) (acc : Bytes) (t : UInt32)
    (h : acc.length ≤ b.cells.length) : Holds (holding ctx b acc t) acc :=
  ⟨holding_accumulator ctx b acc t h, rfl⟩

theorem holds_nil {ctx : PaModbus σ} (h : ctx.rxLen = 0) : Holds ctx [] :=
  ⟨by rw [accumulator, h]; rfl, h⟩

theorem Transmits.holds {w w' : World σ} {frame acc : Bytes} (h : Transmits w frame w')
    (hheld : Holds w.ctx acc) : Holds w'.ctx acc :=
  ⟨h.held.trans hheld.1, h.rxLen.trans hheld.2⟩

theorem accepted_nil {ctx : PaModbus σ} (hf : ctx.framerType = .rtu) : accepted ctx [] = none :=
  (accepted_none_iff ctx []).mpr ⟨_, by rw [unwrap_rtu ctx [] hf]; rfl⟩

theorem passes_accepts {ctx : PaModbus σ} {data : Bytes} (hf : ctx.framerType = .rtu)
    (h : Passes ctx data) : ∃ id rest, data = id :: rest ∧ accepts ctx id = true := by
  obtain ⟨⟨p, n⟩, hsome⟩ := Option.ne_none_iff_exists'.mp h
  have hu := (accepted_iff ctx data p n).mp hsome
  rw [unwrap_rtu ctx data hf] at hu
  obtain ⟨addr, fc, body, rest, rfl, -, ha, -⟩ := (FramerRtu.unwrap_ok_iff _ _ _ _).mp hu
  exact ⟨addr, _, rfl, ha⟩

theorem copied_append (ctx : PaModbus σ) (line : Bytes) (n : Nat) :
    copied ctx line n ++ line.drop (copied ctx line n).length = line := by
  rw [copied, List.length_take]
  rcases Nat.le_total (min n (offered ctx)) line.length with h | h
  · rw [Nat.min_eq_left h, List.take_append_drop]
  · rw [Nat.min_eq_right h, List.take_of_length_le h, List.drop_length, List.append_nil]

section

variable {mode : Mode} {ctx : PaModbus σ} {acc line rest frame : Bytes} {spoiled : Bool}
  (tick : UInt32)

theorem silent_of_unmistaken (hun : Unmistaken spoiled ctx acc rest)
    (hno : ¬ (Passes ctx acc ∧ rest = [] ∧ spoiled = false)) :
    ∀ suf, suf <:+ acc → accepted ctx suf = none := by
  intro suf hsuf
  by_contra hp
  exact hno (hun suf ((List.mem_tails suf _).mpr hsuf) hp)

theorem turn_waits (h : Station mode ctx) (hheld : Holds ctx acc)
    (hroom : (acc ++ line).length < 256) (hun : Unmistaken spoiled ctx (acc ++ line) rest)
    (hmore : ¬ (Passes ctx (acc ++ line) ∧ rest = [] ∧ spoiled = false))
    (ht : InTime ctx tick line) :
    ∃ ctx', paModbusRecv ctx ⟨tick, some line⟩ = some ⟨paWait, ctx', none⟩ ∧
      SameSetup ctx ctx' ∧ Holds ctx' (acc ++ line) := by
  have hrx := h.rx
  have hsilent := silent_of_unmistaken hun hmore
  rw [List.length_append, ← hheld.2] at hroom
  obtain ⟨t, hrun⟩ := recv_partial tick h.callback hheld.le (by omega)
    (by rw [hheld.1]; exact hsilent) ht
  rw [hheld.1] at hrun
  refine ⟨_, hrun, sameSetup_holding (parsed_refl ctx) _ _ _ rfl, holds_holding _ _ _ _ ?_⟩
  rw [List.length_append, ← hheld.2]
  omega

theorem turn_idle (h : Station mode ctx) (hheld : Holds ctx []) :
    ∃ ctx', paModbusRecv ctx ⟨tick, some []⟩ = some ⟨paWait, ctx', none⟩ ∧ SameSetup ctx ctx' ∧
      Holds ctx' [] := by
  have hun : Unmistaken false ctx ([] ++ []) [0] := by
    intro suf hsuf hp
    rw [List.append_nil, List.tails, List.mem_singleton] at hsuf
    rw [hsuf, Passes, accepted_nil h.framer] at hp
    exact absurd rfl hp
  refine turn_waits tick h hheld (by decide) hun (by simp) fun _ hpos => ?_
  rw [hheld.2] at hpos
  exact absurd hpos (Nat.lt_irrefl 0)

theorem turn_fruitless (h : Station mode ctx) (hheld : Holds ctx acc)
    (hroom : acc.length + line.length ≤ ctx.rxbuf.cells.length)
    (hun : Unmistaken spoiled ctx (acc ++ line) rest)
    (hno : ¬ (Passes ctx (acc ++ line) ∧ rest = [] ∧ spoiled = false)) :
    ∃ ret ctx' acc', paModbusRecv ctx ⟨tick, some line⟩ = some ⟨ret, ctx', none⟩ ∧
      SameSetup ctx ctx' ∧ Holds ctx' acc' ∧
      (ret = paWait ∧ acc' = acc ++ line ∨ ret = paErrTimeout ∧ acc' = [] ∨
        ret = paErrBufferFull ∧ acc' = [] ∧
          acc.length + line.length = ctx.rxbuf.cells.length) := by
  have hrx := h.rx
  have hl := hheld.2
  have hsilent := silent_of_unmistaken hun hno
  rw [← hheld.1] at hsilent
  obtain ⟨t, hrun⟩ := recv_nothing tick h.callback (by omega) (by omega) hsilent
  rw [hheld.1] at hrun
  have hsame (b : Buffer UInt8) (xs : Bytes) (hb : b.cells.length = ctx.rxbuf.cells.length) :
      SameSetup ctx (holding ctx b xs t) := sameSetup_holding (parsed_refl ctx) _ _ _ hb
  rcases hrun with hrun | ⟨ret, hret, hrun⟩
  · exact ⟨_, _, _, hrun, hsame _ _ rfl,
      holds_holding _ _ _ _ (by rw [List.length_append]; exact hroom), .inl ⟨rfl, rfl⟩⟩
  · refine ⟨ret, _, [], hrun, hsame _ _ (by rw [Buffer.patch_cells, overlay_length]),
      holds_holding _ _ _ _ (Nat.zero_le _), .inr ?_⟩
    rcases hret with rfl | ⟨rfl, hfull⟩
    · exact .inl ⟨rfl, rfl⟩
    · exact .inr ⟨rfl, rfl, by rw [← hl]; exact hfull⟩

theorem copied_fits (h : Station mode ctx) (hheld : Holds ctx acc) (n : Nat) :
    acc.length + (copied ctx line n).length ≤ ctx.rxbuf.cells.length := by
  have hrx := h.rx
  have hle := hheld.le
  have hl := hheld.2
  have hoffered := offered_eq ctx ctx.rxbuf.cells.length ⟨h.callback, rfl, by omega, hle⟩
  rw [copied, List.length_take]
  omega

theorem turn_dispatches (h : Station mode ctx) (hheld : Holds ctx acc) (hline : line ≠ [])
    {id : UInt8} {pdu : Bytes} (hwhole : acc ++ line = rtuFrame id pdu)
    (hpdu : pdu.length ≤ 252) (hu : unwrap ctx (rtuFrame id pdu) = some (.ok 1 pdu.length))
    {r : Int} {ctx' : PaModbus σ}
    (hfeed : (roleFeed ctx (rtuFrame id pdu)).run ctx = some (r, ctx')) :
    ∃ b t, paModbusRecv ctx ⟨tick, some line⟩ =
        some ⟨r, holding ctx' b [] t, some (rtuFrame id pdu)⟩ ∧
      SameSetup ctx (holding ctx' b [] t) ∧ Holds (holding ctx' b [] t) [] := by
  have hrx := h.rx
  have hwhole' : accumulator ctx ++ line = rtuFrame id pdu := by rw [hheld.1, hwhole]
  obtain ⟨t, hrun⟩ := recv_message tick h.framer h.callback hheld.le hwhole'
    (by rw [rtuFrame_length]; omega) hline hu (by rw [rtuFrame_length]) hfeed
  refine ⟨_, t, hrun, sameSetup_holding (Calls.roleFeed_parsed ctx _ ctx r ctx' hfeed) _ _ _ ?_,
    holds_holding _ _ _ _ (Nat.zero_le _)⟩
  rw [Buffer.patch_cells, overlay_length]

end

theorem sameSetup_refl (ctx : PaModbus σ) : SameSetup ctx ctx :=
  ⟨rfl, rfl, rfl, rfl, rfl, rfl, rfl, rfl, rfl, rfl⟩

/-- However the master goes on, it learns this from the frame. -/
def Reaches (m : PaModbus τ) (id : UInt8) (x : Transaction) (pdu : Bytes) (reply : Reply) : Prop :=
  ∀ m', SameSetup m m' → Learns m' id x pdu reply

def heard : Bool → Reply → Reply
  | true, reply => reply
  | false, _ => .unanswered

theorem Reaches.same {m m' : PaModbus τ} {id : UInt8} {x : Transaction} {pdu : Bytes}
    {reply : Reply} (h : Reaches m id x pdu reply) (hs : SameSetup m m') :
    Reaches m' id x pdu reply :=
  fun m'' hs' => h m'' (hs.trans hs')

theorem foreign_unanswered {m : PaModbus τ} {id : UInt8} (hf : m.framerType = .rtu)
    (ha : accepts m id = false) (pdu : Bytes) :
    ∃ r, unwrap m (rtuFrame id pdu) = some (.ret r) := by
  obtain ⟨u, hu⟩ := Framer.unwrap_defined m (rtuFrame id pdu)
  cases u with
  | ret r => exact ⟨r, hu⟩
  | ok p n =>
    rw [unwrap_rtu m _ hf] at hu
    obtain ⟨addr, fc, body, rest, hd, -, haccepts, -⟩ := (FramerRtu.unwrap_ok_iff _ _ _ _).mp hu
    obtain rfl : id = addr := (List.cons.inj hd).1
    rw [ha] at haccepts
    cases haccepts

theorem conveys_reaches {m : PaModbus τ} {id : UInt8} {x : Transaction} {pdu : Bytes}
    {reply : Reply} {known : Bool} (hf : m.framerType = .rtu) (ha : accepts m id = known)
    (h : Conveys τ id x pdu reply) : Reaches m id x pdu (heard known reply) := by
  intro m' hs
  have hf' := hs.framer.trans hf
  have ha' := (hs.accepts id).trans ha
  cases known with
  | true => exact h m' hf' ha'
  | false => exact (if_pos rfl).mpr (foreign_unanswered hf' ha' pdu)

/-- Where a request or its response is. The last bytes of a request are still to
be read, and so are those of a response, unless no master takes it. Of a line that
has been disturbed nothing is known. -/
inductive Phase (l : Link τ σ) : Option (Transaction × Option Reply) → Prop
  | idle (hclean : l.spoiled = false) (hdown : l.down = []) (hup : l.up = [])
    (hslave : Holds l.slave.ctx []) (hmaster : Holds l.master.ctx []) : Phase l none
  | asking (x : Transaction) (pdu acc : Bytes) (hclean : l.spoiled = false) (hv : x.Valid)
    (henc : x.Encodes pdu) (hslave : Holds l.slave.ctx acc)
    (hsplit : acc ++ l.down = rtuFrame l.master.ctx.slave pdu) (hdown : l.down ≠ [])
    (hup : l.up = []) (hmaster : Holds l.master.ctx []) : Phase l (some (x, none))
  | answering (x : Transaction) (reply : Reply) (pdu acc : Bytes) (hclean : l.spoiled = false)
    (hpdu : pdu.length ≤ 252) (hreaches : Reaches l.master.ctx l.slave.ctx.slave x pdu reply)
    (hmaster : Holds l.master.ctx acc) (hsplit : acc ++ l.up = rtuFrame l.slave.ctx.slave pdu)
    (hup : l.up ≠ [] ∨ reply = .unanswered) (hdown : l.down = [])
    (hslave : Holds l.slave.ctx []) : Phase l (some (x, some reply))
  | disturbed (asked : Option (Transaction × Option Reply)) (acc acc' : Bytes)
    (hspoiled : l.spoiled = true) (hslave : Holds l.slave.ctx acc)
    (hmaster : Holds l.master.ctx acc') : Phase l asked

/-- The slave takes the frames of the master: the address in them is its own, its second one, or
it takes any. That the master takes those of the slave as well is another matter. -/
structure Acquainted (known : Bool) (master : PaModbus τ) (slave : PaModbus σ) : Prop where
  heard : accepts slave master.slave = true
  known : accepts master slave.slave = known

structure Joined (view : σ → Tables) (size : ReadKind → Nat) (known : Bool) (l : Link τ σ) :
    Prop where
  master : Station .master l.master.ctx
  slave : Server view size l.slave.ctx
  address : Acquainted known l.master.ctx l.slave.ctx

abbrev LineSession := Session Tables Transaction Reply

structure Carries (view : σ → Tables) (size : ReadKind → Nat) (known : Bool) (l : Link τ σ)
    (e : LineSession) : Prop where
  joined : Joined view size known l
  replies : l.replies = e.replies
  store : view l.slave.app = e.store
  pending : l.pending = e.asked.map Prod.fst
  phase : Phase l e.asked

def conducted (size : ReadKind → Nat) (code : UInt8) (known : Bool) (t : Tables)
    (x : Transaction) : Reply × Tables :=
  (heard known (x.fulfil size code t).1, (x.fulfil size code t).2)

/-- A step of the session in which the client asks for this, or none. -/
def Follows (size : ReadKind → Nat) (code : UInt8) (known lossy : Bool)
    (asks : Option Transaction) (e e' : LineSession) : Prop :=
  asks = none ∧ e' = e ∨
    Session.Step (conducted size code known) Reply.Unsure lossy asks e e'

def Simulates (view : σ → Tables) (size : ReadKind → Nat) (code : UInt8) (known lossy : Bool)
    (asks : Option Transaction) (e : LineSession) (run : Option (Link τ σ)) : Prop :=
  ∃ l' e', run = some l' ∧ Follows size code known lossy asks e e' ∧ Carries view size known l' e'

variable {view : σ → Tables} {size : ReadKind → Nat} {code : UInt8} {known : Bool} {l : Link τ σ}
  {e : LineSession}

theorem acquainted_self {master : PaModbus τ} {slave : PaModbus σ}
    (h : master.slave = slave.slave) : Acquainted true master slave where
  heard := by
    rw [h]
    exact accepts_self slave
  known := by
    rw [← h]
    exact accepts_self master

theorem Acquainted.same {master master' : PaModbus τ} {slave slave' : PaModbus σ}
    (h : Acquainted known master slave) (hm : SameSetup master master')
    (hs : SameSetup slave slave') : Acquainted known master' slave' where
  heard := by
    rw [hs.accepts, hm.slave]
    exact h.heard
  known := by
    rw [hm.accepts, hs.slave]
    exact h.known

theorem Joined.same (h : Joined view size known l) {master : World τ} {slave : World σ}
    (hm : SameSetup l.master.ctx master.ctx) (hs : SameSetup l.slave.ctx slave.ctx)
    {down up : Bytes} {pending : Option Transaction} {replies : List (Transaction × Reply)}
    {spoiled : Bool} :
    Joined view size known (⟨master, slave, down, up, pending, replies, spoiled⟩ : Link τ σ) :=
  ⟨h.master.same hm, h.slave.same hs, h.address.same hm hs⟩

theorem issue_run {x : Transaction} {w : World τ}
    (h : (request x).run l.master = some (paOk, w)) :
    l.issue x = some { l with
      master := w
      down := l.down ++ sentSince l.master w
      pending := some x
      spoiled := false } := by
  rw [Link.issue, h]
  rfl

theorem slaveTurn_fruitless {tick : UInt32} {n : Nat} {residue : Residue} {ret : Int}
    {ctx : PaModbus σ}
    (h : paModbusRecv l.slave.ctx ⟨tick, some (copied l.slave.ctx l.down n)⟩ =
      some ⟨ret, ctx, none⟩) (hret : ret ≠ paOk) :
    l.slaveTurn code tick n residue = some { l with
      slave := { l.slave with ctx := ctx }
      down := l.down.drop (copied l.slave.ctx l.down n).length } := by
  have hnothing : sentSince l.slave { l.slave with ctx := ctx } = [] := List.drop_length
  simp only [Link.slaveTurn, h, Option.bind_eq_bind, Option.bind_some, Option.pure_def]
  rw [if_neg hret]
  change some _ = _
  rw [hnothing, List.append_nil]

theorem slaveTurn_answers {tick : UInt32} {n : Nat} {residue : Residue} {ctx : PaModbus σ}
    {frame : Bytes} {ret : Int} {w : World σ}
    (h : paModbusRecv l.slave.ctx ⟨tick, some (copied l.slave.ctx l.down n)⟩ =
      some ⟨paOk, ctx, some frame⟩)
    (hrun : (respond code residue).run { l.slave with ctx := ctx } = some (ret, w)) :
    l.slaveTurn code tick n residue = some { l with
      slave := w
      down := l.down.drop (copied l.slave.ctx l.down n).length
      up := l.up ++ sentSince l.slave w } := by
  simp only [Link.slaveTurn, h, Option.bind_eq_bind, Option.bind_some, Option.pure_def]
  rw [if_pos trivial, hrun]
  rfl

theorem masterTurn_waits {tick : UInt32} {n : Nat} {ctx : PaModbus τ}
    (h : paModbusRecv l.master.ctx ⟨tick, some (copied l.master.ctx l.up n)⟩ =
      some ⟨paWait, ctx, none⟩) :
    l.masterTurn tick n = some { l with
      master := { l.master with ctx := ctx }
      up := l.up.drop (copied l.master.ctx l.up n).length } := by
  obtain ⟨master, slave, down, up, pending, replies, spoiled⟩ := l
  simp only [Link.masterTurn, h, Option.bind_eq_bind, Option.bind_some, Option.pure_def]
  cases pending with
  | none => rfl
  | some x => exact if_pos (by decide)

theorem masterTurn_unasked {tick : UInt32} {n : Nat} {out : Outcome τ} (hpending : l.pending = none)
    (h : paModbusRecv l.master.ctx ⟨tick, some (copied l.master.ctx l.up n)⟩ = some out) :
    l.masterTurn tick n = some { l with
      master := { l.master with ctx := out.ctx }
      up := l.up.drop (copied l.master.ctx l.up n).length } := by
  simp only [Link.masterTurn, h, Option.bind_eq_bind, Option.bind_some, Option.pure_def, hpending]

theorem masterTurn_concludes {tick : UInt32} {n : Nat} {out : Outcome τ} {x : Transaction}
    {reply : Reply} (hpending : l.pending = some x)
    (h : paModbusRecv l.master.ctx ⟨tick, some (copied l.master.ctx l.up n)⟩ = some out)
    (hret : out.ret ≤ 0) (hreply : observe out.ctx out.ret x = some reply) :
    l.masterTurn tick n = some (Link.conclude x reply { l with
      master := { l.master with ctx := out.ctx }
      up := l.up.drop (copied l.master.ctx l.up n).length }) := by
  simp only [Link.masterTurn, h, Option.bind_eq_bind, Option.bind_some, Option.pure_def, hpending]
  rw [if_neg (by omega), hreply]
  rfl

theorem issue_simulates (h : Carries view size known l e) (x : Transaction)
    (hpending : l.pending = none)
    (hv : x.Valid) (hs : l.Silent) (hempty : l.master.ctx.rxLen = 0) (lossy : Bool) :
    Simulates view size code known lossy (some x) e (l.issue x) := by
  obtain ⟨store, done, replies, asked⟩ := e
  have hnone : asked = none := by
    have hp := h.pending
    rw [hpending] at hp
    exact Option.map_eq_none_iff.mp hp.symm
  subst hnone
  obtain ⟨hdown, hup, hslave⟩ := hs
  obtain ⟨pdu, w', henc, hrun, hsent⟩ := request_sent hv.buildable h.joined.master
  have hframe : l.down ++ sentSince l.master w' = rtuFrame w'.ctx.slave pdu := by
    rw [hdown, hsent.sentSince, hsent.setup.slave, List.nil_append]
  refine ⟨_, ⟨store, done, replies, some (x, none)⟩, issue_run hrun,
    .inr (.ask store done replies x), h.joined.same hsent.setup (sameSetup_refl _), h.replies,
    h.store, rfl, ?_⟩
  refine .asking x pdu [] rfl hv henc (holds_nil hslave) hframe ?_ hup
    (Transmits.holds hsent (holds_nil hempty))
  rw [hframe]
  exact List.cons_ne_nil _ _

theorem slaveTurn_idle (h : Joined view size known l) (hdown : l.down = [])
    (hslave : Holds l.slave.ctx [])
    (tick : UInt32) (n : Nat) (residue : Residue) :
    ∃ ctx, l.slaveTurn code tick n residue =
        some { l with slave := { l.slave with ctx := ctx }, down := [] } ∧
      SameSetup l.slave.ctx ctx ∧ Holds ctx [] := by
  have hline : copied l.slave.ctx l.down n = [] := by rw [hdown, copied, List.take_nil]
  obtain ⟨ctx, hrecv, hsame, hholds⟩ := turn_idle tick h.slave.toStation hslave
  rw [← hline] at hrecv
  refine ⟨ctx, ?_, hsame, hholds⟩
  rw [slaveTurn_fruitless hrecv (by decide), hdown, List.drop_nil]

theorem held_holding {ctx : PaModbus σ} {x : Transaction} (h : Held ctx x) (b : Buffer UInt8)
    (acc : Bytes) (t : UInt32) : Held (holding ctx b acc t) x := by
  cases x with
  | read kind addr count => exact h
  | write request =>
    cases request with
    | _ => exact h

theorem split_short {acc line rest frame : Bytes} (hsplit : acc ++ (line ++ rest) = frame)
    (hrest : rest ≠ []) (hframe : frame.length ≤ 255) : (acc ++ line).length < 256 := by
  have hl := congrArg List.length hsplit
  have hpos := List.length_pos_iff.mpr hrest
  rw [List.length_append, List.length_append] at hl
  rw [List.length_append]
  omega

theorem request_answered {w : World σ} {x : Transaction} {id : UInt8} {pdu acc line : Bytes}
    (h : Server view size w.ctx) (ha : accepts w.ctx id = true) (hv : x.Valid)
    (henc : x.Encodes pdu) (hheld : Holds w.ctx acc) (hline : line ≠ [])
    (hwhole : acc ++ line = rtuFrame id pdu) (tick : UInt32) (residue : Residue) :
    ∃ ctx w' answer, paModbusRecv w.ctx ⟨tick, some line⟩ =
        some ⟨paOk, ctx, some (rtuFrame id pdu)⟩ ∧
      (respond code residue).run { w with ctx := ctx } = some (paOk, w') ∧
      SameSetup w.ctx w'.ctx ∧ Holds w'.ctx [] ∧
      sentSince w w' = rtuFrame w.ctx.slave answer ∧
      view w'.app = (x.fulfil size code (view w.app)).2 ∧ answer.length ≤ 252 ∧
      Conveys τ w.ctx.slave x answer (x.fulfil size code (view w.app)).1 := by
  have hpdu : pdu.length ≤ 252 := by
    rw [encodes_length henc]
    exact pduLen_le hv.buildable
  have hu := request_whole w.ctx h.framer ha hv henc
  obtain ⟨ctx', hfeed, hkept⟩ := request_fed w.ctx h.framer ha hv henc
  have hrole : roleFeed w.ctx (rtuFrame id pdu) = paModbusSlaveFeed (rtuFrame id pdu) :=
    if_pos h.role
  rw [← hrole] at hfeed
  obtain ⟨b, t, hrecv, hsame, hholds⟩ := turn_dispatches tick h.toStation hheld hline hwhole hpdu hu
    hfeed
  have hserver := h.same hsame
  have hserved := held_served (τ := τ) (w := { w with ctx := holding ctx' b [] t }) residue
    hserver.tables hv (held_holding hkept b [] t) hserver.framer hserver.tx code
  obtain ⟨answer, w', hrun, hsent, hview, hanswer, hconveys⟩ := response_sent hserver hserved
  have hslave : (holding ctx' b [] t).slave = w.ctx.slave := hsame.slave
  have hsince := hsent.sentSince
  dsimp only at hsince hconveys
  rw [hslave] at hsince hconveys
  exact ⟨_, w', answer, hrecv, hrun, hsame.trans hsent.setup, Transmits.holds hsent hholds, hsince,
    hview, hanswer, hconveys⟩

theorem fruitless_ret {ret : Int} {acc acc' line : Bytes} {size : Nat}
    (h : ret = paWait ∧ acc' = acc ++ line ∨ ret = paErrTimeout ∧ acc' = [] ∨
      ret = paErrBufferFull ∧ acc' = [] ∧ acc.length + line.length = size) :
    ret = paWait ∨ ret = paErrTimeout ∨ ret = paErrBufferFull := by
  rcases h with h | h | h
  · exact .inl h.1
  · exact .inr (.inl h.1)
  · exact .inr (.inr h.1)

theorem slaveTurn_overhears {acc : Bytes} (h : Station .slave l.slave.ctx)
    (hslave : Holds l.slave.ctx acc) {n : Nat} (hun : Clear true l.slave.ctx l.down n)
    (code : UInt8) (tick : UInt32) (residue : Residue) :
    ∃ ctx acc', l.slaveTurn code tick n residue = some { l with
        slave := { l.slave with ctx := ctx }
        down := l.down.drop (copied l.slave.ctx l.down n).length } ∧
      SameSetup l.slave.ctx ctx ∧ Holds ctx acc' := by
  rw [Clear, hslave.1] at hun
  obtain ⟨ret, ctx, acc', hrecv, hsame, hholds, hret⟩ := turn_fruitless tick h hslave
    (copied_fits h hslave n) hun (fun hp => Bool.noConfusion hp.2.2)
  have hne : ret ≠ paOk := by
    rcases fruitless_ret hret with rfl | rfl | rfl
    · decide
    · decide
    · decide
  exact ⟨ctx, acc', slaveTurn_fruitless hrecv hne, hsame, hholds⟩

theorem slaveTurn_simulates (h : Carries view size known l e) (tick : UInt32) (n : Nat)
    (residue : Residue) (lossy : Bool) (hun : Clear l.spoiled l.slave.ctx l.down n)
    (ht : l.spoiled = true ∨ InTime l.slave.ctx tick (copied l.slave.ctx l.down n)) :
    Simulates view size code known lossy none e (l.slaveTurn code tick n residue) := by
  obtain ⟨store, done, replies, asked⟩ := e
  cases h.phase with
  | idle hclean hdown hup hslave hmaster =>
    obtain ⟨ctx, hrun, hsame, hholds⟩ := slaveTurn_idle h.joined hdown hslave tick n residue
    exact ⟨_, _, hrun, .inl ⟨rfl, rfl⟩, h.joined.same (sameSetup_refl _) hsame, h.replies, h.store,
      h.pending, .idle hclean rfl hup hholds hmaster⟩
  | answering x reply pdu acc hclean hpdu hreaches hmaster hsplit hup hdown hslave =>
    obtain ⟨ctx, hrun, hsame, hholds⟩ := slaveTurn_idle h.joined hdown hslave tick n residue
    refine ⟨_, _, hrun, .inl ⟨rfl, rfl⟩, h.joined.same (sameSetup_refl _) hsame, h.replies, h.store,
      h.pending, .answering x reply pdu acc hclean hpdu ?_ hmaster ?_ hup rfl hholds⟩
    · rw [hsame.slave]
      exact hreaches
    · rw [hsame.slave]
      exact hsplit
  | asking x pdu acc hclean hv henc hslave hsplit hdown hup hmaster =>
    have hpdu := pduLen_le hv.buildable
    have hline := copied_append l.slave.ctx l.down n
    rw [← hline] at hsplit
    by_cases hrest : l.down.drop (copied l.slave.ctx l.down n).length = []
    · -- the last bytes of the request
      rw [hrest, List.append_nil] at hsplit hline
      obtain ⟨ctx, w', answer, hrecv, hrun, hsame, hholds, hsent, hview, hanswer, hconveys⟩ :=
        request_answered (τ := τ) h.joined.slave h.joined.address.heard hv henc hslave
          (by rw [hline]; exact hdown) hsplit tick residue
      have hstore : view l.slave.app = store := h.store
      rw [hstore] at hview hconveys
      refine ⟨_, _, slaveTurn_answers hrecv hrun, .inr (.perform store done replies x),
        h.joined.same (sameSetup_refl _) hsame, h.replies, hview, h.pending,
        .answering x _ answer [] hclean hanswer ?_ hmaster ?_ (.inl ?_) hrest hholds⟩
      · rw [hsame.slave]
        exact conveys_reaches h.joined.master.framer h.joined.address.known hconveys
      · rw [hsame.slave, hup, hsent, List.nil_append, List.nil_append]
      · rw [hup, hsent, List.nil_append]
        exact List.cons_ne_nil _ _
    · -- more of it is to come
      have hroom : (acc ++ copied l.slave.ctx l.down n).length < 256 :=
        split_short hsplit hrest (by rw [rtuFrame_length, encodes_length henc]; omega)
      rw [Clear, hslave.1] at hun
      obtain ⟨ctx, hrecv, hsame, hholds⟩ := turn_waits tick h.joined.slave.toStation hslave hroom hun
        (fun hp => hrest hp.2.1) (ht.resolve_left (by rw [hclean]; decide))
      refine ⟨_, _, slaveTurn_fruitless hrecv (by decide), .inl ⟨rfl, rfl⟩,
        h.joined.same (sameSetup_refl _) hsame, h.replies, h.store, h.pending,
        .asking x pdu _ hclean hv henc hholds ?_ hrest hup hmaster⟩
      rw [List.append_assoc]
      exact hsplit
  | disturbed _ acc acc' hspoiled hslave hmaster =>
    rw [hspoiled] at hun
    obtain ⟨ctx, acc'', hrun, hsame, hholds⟩ := slaveTurn_overhears h.joined.slave.toStation hslave
      hun code tick residue
    exact ⟨_, _, hrun, .inl ⟨rfl, rfl⟩, h.joined.same (sameSetup_refl _) hsame, h.replies, h.store,
      h.pending, .disturbed _ _ _ hspoiled hholds hmaster⟩

theorem masterTurn_idle (h : Joined view size known l) (hup : l.up = [])
    (hmaster : Holds l.master.ctx [])
    (tick : UInt32) (n : Nat) :
    ∃ ctx, l.masterTurn tick n =
        some { l with master := { l.master with ctx := ctx }, up := [] } ∧
      SameSetup l.master.ctx ctx ∧ Holds ctx [] := by
  have hline : copied l.master.ctx l.up n = [] := by rw [hup, copied, List.take_nil]
  obtain ⟨ctx, hrecv, hsame, hholds⟩ := turn_idle tick h.master hmaster
  rw [← hline] at hrecv
  refine ⟨ctx, ?_, hsame, hholds⟩
  rw [masterTurn_waits hrecv, hup, List.drop_nil]

theorem observe_holding (ctx : PaModbus τ) (b : Buffer UInt8) (acc : Bytes) (t : UInt32) (ret : Int)
    (x : Transaction) : observe (holding ctx b acc t) ret x = observe ctx ret x := rfl

theorem answer_taken {reply : Reply} {x : Transaction} {pdu acc line : Bytes} {ctx : PaModbus τ}
    {id : UInt8} (h : Station .master ctx) (hheld : Holds ctx acc) (hline : line ≠ [])
    (hwhole : acc ++ line = rtuFrame id pdu) (hpdu : pdu.length ≤ 252)
    (hreaches : Reaches ctx id x pdu reply) (hreply : reply ≠ .unanswered) (tick : UInt32) :
    ∃ out, paModbusRecv ctx ⟨tick, some line⟩ = some out ∧ out.ret ≤ 0 ∧
      observe out.ctx out.ret x = some reply ∧ SameSetup ctx out.ctx ∧ Holds out.ctx [] := by
  have hc := hreaches ctx (sameSetup_refl ctx)
  rw [Learns, if_neg hreply] at hc
  obtain ⟨hu, ret, ctx', hfeed, hret, hobs⟩ := hc
  have hrole : roleFeed ctx (rtuFrame id pdu) = paModbusMasterFeed (rtuFrame id pdu) :=
    if_neg (by rw [h.role]; decide)
  rw [← hrole] at hfeed
  obtain ⟨b, t, hrecv, hsame, hholds⟩ := turn_dispatches tick h hheld hline hwhole hpdu hu hfeed
  refine ⟨_, hrecv, hret, ?_, hsame, hholds⟩
  rw [observe_holding]
  exact hobs

theorem unanswered_passes {x : Transaction} {pdu : Bytes} {ctx : PaModbus τ} {id : UInt8}
    (hreaches : Reaches ctx id x pdu .unanswered) : ¬ Passes ctx (rtuFrame id pdu) := by
  have hc := hreaches ctx (sameSetup_refl ctx)
  rw [Learns, if_pos rfl] at hc
  exact not_not.mpr ((accepted_none_iff ctx _).mpr hc)

theorem observe_dropped (ctx : PaModbus τ) (x : Transaction) {ret : Int}
    (h : ret = paErrTimeout ∨ ret = paErrBufferFull) :
    ret ≤ 0 ∧ ∃ reply, observe ctx ret x = some reply ∧ reply.Unsure ∧
      (ret = paErrTimeout → reply = .unanswered) := by
  rcases h with rfl | rfl
  · refine ⟨by decide, .unanswered, ?_, trivial, fun _ => rfl⟩
    unfold observe
    rw [if_neg (by decide), if_pos rfl]
  · refine ⟨by decide, .failed paErrBufferFull, ?_, trivial, fun hret => absurd hret (by decide)⟩
    unfold observe
    rw [if_neg (by decide), if_neg (by decide), if_pos (by decide)]

theorem unanswered_turn {x : Transaction} {pdu acc : Bytes} {store : Tables}
    {done : List Transaction} {replies : List (Transaction × Reply)}
    (h : Carries view size known l ⟨store, done, replies, some (x, some .unanswered)⟩)
    (hclean : l.spoiled = false) (hpdu : pdu.length ≤ 252)
    (hreaches : Reaches l.master.ctx l.slave.ctx.slave x pdu .unanswered)
    (hmaster : Holds l.master.ctx acc) (hdown : l.down = []) (hslave : Holds l.slave.ctx [])
    (tick : UInt32) (n : Nat) (lossy : Bool)
    (hrest : l.up.drop (copied l.master.ctx l.up n).length = [])
    (hsplit : acc ++ copied l.master.ctx l.up n = rtuFrame l.slave.ctx.slave pdu)
    (hun : Unmistaken l.spoiled l.master.ctx (acc ++ copied l.master.ctx l.up n) []) :
    Simulates view size code known lossy none ⟨store, done, replies, some (x, some .unanswered)⟩
      (l.masterTurn tick n) := by
  have hno := unanswered_passes hreaches
  have hrx := h.joined.master.rx
  have hroom : (acc ++ copied l.master.ctx l.up n).length ≤ 255 := by
    rw [hsplit, rtuFrame_length]
    omega
  rw [← hsplit] at hno
  rw [List.length_append] at hroom
  obtain ⟨ret, ctx, acc', hrecv, hsame, hholds, hret⟩ := turn_fruitless tick h.joined.master hmaster
    (by omega) hun (fun hp => hno hp.1)
  rcases hret with ⟨rfl, rfl⟩ | ⟨rfl, rfl⟩ | ⟨-, -, hfull⟩
  · refine ⟨_, _, masterTurn_waits hrecv, .inl ⟨rfl, rfl⟩, h.joined.same hsame (sameSetup_refl _),
      h.replies, h.store, h.pending, .answering x _ pdu _ hclean hpdu (hreaches.same hsame)
      hholds ?_ (.inr rfl) hdown hslave⟩
    rw [hrest, List.append_nil]
    exact hsplit
  · obtain ⟨hneg, reply, hobs, -, hreply⟩ := observe_dropped ctx x (.inl rfl)
    rw [hreply rfl] at hobs
    exact ⟨_, _, masterTurn_concludes h.pending hrecv hneg hobs,
      .inr (.conclude store done replies x _), h.joined.same hsame (sameSetup_refl _),
      congrArg (· ++ [(x, Reply.unanswered)]) h.replies, h.store, rfl,
      .idle hclean hdown hrest hslave hholds⟩
  · omega

theorem masterTurn_disturbed {store : Tables} {done : List Transaction}
    {replies : List (Transaction × Reply)} {asked : Option (Transaction × Option Reply)}
    {acc acc' : Bytes} (h : Carries view size known l ⟨store, done, replies, asked⟩)
    (hspoiled : l.spoiled = true) (hslave : Holds l.slave.ctx acc)
    (hmaster : Holds l.master.ctx acc') (tick : UInt32) (n : Nat)
    (hun : Clear l.spoiled l.master.ctx l.up n) :
    Simulates view size code known true none ⟨store, done, replies, asked⟩
      (l.masterTurn tick n) := by
  rw [Clear, hmaster.1] at hun
  obtain ⟨ret, ctx, acc'', hrecv, hsame, hholds, hret⟩ := turn_fruitless tick h.joined.master hmaster
    (copied_fits h.joined.master hmaster n) hun (fun hp => by rw [hspoiled] at hp; cases hp.2.2)
  rcases asked with - | ⟨x, o⟩
  · exact ⟨_, _, masterTurn_unasked h.pending hrecv, .inl ⟨rfl, rfl⟩,
      h.joined.same hsame (sameSetup_refl _), h.replies, h.store, h.pending,
      .disturbed _ _ _ hspoiled hslave hholds⟩
  · rcases fruitless_ret hret with rfl | hdropped
    · exact ⟨_, _, masterTurn_waits hrecv, .inl ⟨rfl, rfl⟩, h.joined.same hsame (sameSetup_refl _),
        h.replies, h.store, h.pending, .disturbed _ _ _ hspoiled hslave hholds⟩
    · obtain ⟨hneg, reply, hobs, hunsure, -⟩ := observe_dropped ctx x hdropped
      exact ⟨_, _, masterTurn_concludes h.pending hrecv hneg hobs,
        .inr (.lose store done replies x o reply rfl hunsure), h.joined.same hsame
        (sameSetup_refl _), congrArg (· ++ [(x, reply)]) h.replies, h.store, rfl,
        .disturbed _ _ _ hspoiled hslave hholds⟩

theorem masterTurn_simulates (h : Carries view size known l e) (tick : UInt32) (n : Nat)
    (lossy : Bool) (hlossy : l.spoiled = true → lossy = true)
    (hun : Clear l.spoiled l.master.ctx l.up n)
    (ht : l.spoiled = true ∨ l.Silent ∨ InTime l.master.ctx tick (copied l.master.ctx l.up n)) :
    Simulates view size code known lossy none e (l.masterTurn tick n) := by
  obtain ⟨store, done, replies, asked⟩ := e
  cases h.phase with
  | idle hclean hdown hup hslave hmaster =>
    obtain ⟨ctx, hrun, hsame, hholds⟩ := masterTurn_idle h.joined hup hmaster tick n
    exact ⟨_, _, hrun, .inl ⟨rfl, rfl⟩, h.joined.same hsame (sameSetup_refl _), h.replies, h.store,
      h.pending, .idle hclean hdown rfl hslave hholds⟩
  | asking x pdu acc hclean hv henc hslave hsplit hdown hup hmaster =>
    obtain ⟨ctx, hrun, hsame, hholds⟩ := masterTurn_idle h.joined hup hmaster tick n
    refine ⟨_, _, hrun, .inl ⟨rfl, rfl⟩, h.joined.same hsame (sameSetup_refl _), h.replies, h.store,
      h.pending, .asking x pdu acc hclean hv henc hslave ?_ hdown rfl hholds⟩
    rw [hsame.slave]
    exact hsplit
  | answering x reply pdu acc hclean hpdu hreaches hmaster hsplit hup hdown hslave =>
    have hline := copied_append l.master.ctx l.up n
    have hframe : (rtuFrame l.slave.ctx.slave pdu).length ≤ 255 := by
      rw [rtuFrame_length]
      omega
    rw [← hline] at hsplit
    rw [Clear, hmaster.1] at hun
    by_cases hrest : l.up.drop (copied l.master.ctx l.up n).length = []
    · rw [hrest, List.append_nil] at hsplit hline
      by_cases hreply : reply = .unanswered
      · subst hreply
        rw [hrest] at hun
        exact unanswered_turn h hclean hpdu hreaches hmaster hdown hslave tick n lossy hrest hsplit
          hun
      · -- the last bytes of the response
        have hne : copied l.master.ctx l.up n ≠ [] := by
          rw [hline]
          exact hup.resolve_right hreply
        obtain ⟨out, hrecv, hret, hobs, hsame, hholds⟩ := answer_taken h.joined.master hmaster
          hne hsplit hpdu hreaches hreply tick
        exact ⟨_, _, masterTurn_concludes h.pending hrecv hret hobs,
          .inr (.conclude store done replies x reply), h.joined.same hsame (sameSetup_refl _),
          congrArg (· ++ [(x, reply)]) h.replies, h.store, rfl,
          .idle hclean hdown hrest hslave hholds⟩
    · -- more of it is to come
      have hloud : ¬ l.Silent := by
        rintro ⟨-, hs, -⟩
        rw [hs, List.drop_nil] at hrest
        exact hrest rfl
      obtain ⟨ctx, hrecv, hsame, hholds⟩ := turn_waits tick h.joined.master hmaster
        (split_short hsplit hrest hframe) hun (fun hp => hrest hp.2.1)
        ((ht.resolve_left (by rw [hclean]; decide)).resolve_left hloud)
      refine ⟨_, _, masterTurn_waits hrecv, .inl ⟨rfl, rfl⟩, h.joined.same hsame (sameSetup_refl _),
        h.replies, h.store, h.pending, .answering x reply pdu _ hclean hpdu (hreaches.same hsame)
        hholds ?_ (.inl hrest) hdown hslave⟩
      rw [List.append_assoc]
      exact hsplit
  | disturbed _ acc acc' hspoiled hslave hmaster =>
    rw [hlossy hspoiled]
    exact masterTurn_disturbed h hspoiled hslave hmaster tick n hun

theorem giveUp_simulates (h : Carries view size known l e) (lossy : Bool)
    (hlossy : l.spoiled = true → lossy = true) (hs : l.Silent) :
    Simulates view size code known lossy none e (some l.giveUp) := by
  obtain ⟨store, done, replies, asked⟩ := e
  have hsame : SameSetup l.master.ctx (paModbusRxReset l.master.ctx) :=
    ⟨rfl, rfl, rfl, rfl, rfl, rfl, rfl, rfl, rfl, rfl⟩
  obtain ⟨master, slave, down, up, pending, given, spoiled⟩ := l
  cases h.phase with
  | idle hclean hdown hup hslave hmaster =>
    obtain rfl : pending = none := h.pending
    exact ⟨_, _, rfl, .inl ⟨rfl, rfl⟩, h.joined.same hsame (sameSetup_refl _), h.replies, h.store,
      rfl, .idle hclean hdown hup hslave (holds_nil rfl)⟩
  | asking x pdu acc hclean hv henc hslave hsplit hdown hup hmaster => exact absurd hs.1 hdown
  | answering x reply pdu acc hclean hpdu hreaches hmaster hsplit hup hdown hslave =>
    obtain rfl : pending = some x := h.pending
    obtain rfl := hup.resolve_left (not_not.mpr hs.2.1)
    exact ⟨_, _, rfl, .inr (.conclude store done replies x _), h.joined.same hsame
      (sameSetup_refl _), congrArg (· ++ [(x, Reply.unanswered)]) h.replies, h.store, rfl,
      .idle hclean hdown hs.2.1 hslave (holds_nil rfl)⟩
  | disturbed _ acc acc' hspoiled hslave hmaster =>
    rcases asked with - | ⟨x, o⟩
    · obtain rfl : pending = none := h.pending
      exact ⟨_, _, rfl, .inl ⟨rfl, rfl⟩, h.joined.same hsame (sameSetup_refl _), h.replies,
        h.store, rfl, .disturbed _ _ _ hspoiled hslave (holds_nil rfl)⟩
    · obtain rfl : pending = some x := h.pending
      exact ⟨_, _, rfl, .inr (.lose store done replies x o .unanswered (hlossy hspoiled) trivial),
        h.joined.same hsame (sameSetup_refl _),
        congrArg (· ++ [(x, Reply.unanswered)]) h.replies, h.store, rfl,
        .disturbed _ _ _ hspoiled hslave (holds_nil rfl)⟩

theorem Phase.holds {asked : Option (Transaction × Option Reply)} (h : Phase l asked) :
    ∃ acc acc', Holds l.slave.ctx acc ∧ Holds l.master.ctx acc' := by
  cases h with
  | idle hclean hdown hup hslave hmaster => exact ⟨_, _, hslave, hmaster⟩
  | asking x pdu acc hclean hv henc hslave hsplit hdown hup hmaster => exact ⟨_, _, hslave, hmaster⟩
  | answering x reply pdu acc hclean hpdu hreaches hmaster hsplit hup hdown hslave =>
    exact ⟨_, _, hslave, hmaster⟩
  | disturbed _ acc acc' hspoiled hslave hmaster => exact ⟨_, _, hslave, hmaster⟩

/-- Every fair step of the line is one step of the session, or none. -/
theorem step_simulates (h : Carries view size known l e) (event : Event) (hfair : Fair l event)
    (lossy : Bool) (hlossy : l.spoiled = true → lossy = true) :
    Simulates view size code known lossy event.asks e (l.step code event) := by
  cases event with
  | issue x =>
    obtain ⟨hpending, hv, hs, hempty⟩ := hfair
    exact issue_simulates h x hpending hv hs hempty lossy
  | slaveTurn tick n residue => exact slaveTurn_simulates h tick n residue lossy hfair.1 hfair.2
  | masterTurn tick n => exact masterTurn_simulates h tick n lossy hlossy hfair.1 hfair.2
  | giveUp => exact giveUp_simulates h lossy hlossy hfair
  | disturb down up =>
    obtain ⟨acc, acc', hslave, hmaster⟩ := h.phase.holds
    exact ⟨_, _, rfl, .inl ⟨rfl, rfl⟩, h.joined.same (sameSetup_refl _) (sameSetup_refl _),
      h.replies, h.store, h.pending, .disturbed _ _ _ rfl hslave hmaster⟩

end Pamodbus.LinkRuns
