import Pamodbus.Accumulator
import Pamodbus.Chunking
import Pamodbus.Send
import Pamodbus.Serving

namespace Pamodbus.SerialLink

open Pamodbus.Lib.Cells Pamodbus.Lib.Procedure Pamodbus.Lib.Scanner
open Pamodbus.Context Pamodbus.FramerRtu Pamodbus.Framer Pamodbus.Send
open Pamodbus.Recv Pamodbus.Receiver Pamodbus.ParseTotal Pamodbus.Accumulator Pamodbus.Respond
open Pamodbus.ReadRequests
open Pamodbus.Transactions Pamodbus.Conveyed Pamodbus.Serving

variable {σ τ : Type}

/-- `spoiled` says that the line has been disturbed since the last request. -/
structure Link (τ σ : Type) where
  master : World τ
  slave : World σ
  down : Bytes
  up : Bytes
  pending : Option Transaction
  replies : List (Transaction × Reply)
  spoiled : Bool

/-- In a turn a station calls `pa_modbus_recv` at a tick, when up to `n` bytes can be read from the
line. A disturbance leaves anything under way, or nothing. -/
inductive Event
  | issue (x : Transaction)
  | slaveTurn (tick : UInt32) (n : Nat) (residue : Residue)
  | masterTurn (tick : UInt32) (n : Nat)
  | giveUp
  | disturb (down up : Bytes)

/-- What the master asks for in a step. -/
def Event.asks : Event → Option Transaction
  | .issue x => some x
  | _ => none

def sentSince (w w' : World σ) : Bytes := (transmitted w').drop (transmitted w).length

/-- What the receive callback copies, which is offered the rest of the buffer. -/
def copied (ctx : PaModbus σ) (line : Bytes) (n : Nat) : Bytes := line.take (min n (offered ctx))

def request (x : Transaction) : Proc (World σ) Int := do
  let len ← x.build
  if len < 0 then return len
  paModbusSend

def respond (code : UInt8) (residue : Residue) : Proc (World σ) Int := do
  let len ← serve code residue
  if 0 < len then paModbusSend else return len

namespace Link

def issue (x : Transaction) (l : Link τ σ) : Option (Link τ σ) := do
  let (ret, w) ← (request x).run l.master
  return { l with
    master := w
    down := l.down ++ sentSince l.master w
    pending := if ret = paOk then some x else l.pending
    spoiled := false }

def slaveTurn (code : UInt8) (tick : UInt32) (n : Nat) (residue : Residue) (l : Link τ σ) :
    Option (Link τ σ) := do
  let line := copied l.slave.ctx l.down n
  let out ← paModbusRecv l.slave.ctx ⟨tick, some line⟩
  let (_, w) ← (if out.ret = paOk then respond code residue else pure out.ret).run
    { l.slave with ctx := out.ctx }
  return { l with
    slave := w
    down := l.down.drop line.length
    up := l.up ++ sentSince l.slave w }

/-- The master has learned what has become of `x`. -/
def conclude (x : Transaction) (reply : Reply) (l : Link τ σ) : Link τ σ :=
  { l with pending := none, replies := l.replies ++ [(x, reply)] }

def masterTurn (tick : UInt32) (n : Nat) (l : Link τ σ) : Option (Link τ σ) := do
  let line := copied l.master.ctx l.up n
  let out ← paModbusRecv l.master.ctx ⟨tick, some line⟩
  let l' := { l with
    master := { l.master with ctx := out.ctx }
    up := l.up.drop line.length }
  match l.pending with
  | none => return l'
  | some x =>
    if 0 < out.ret then return l'
    return l'.conclude x (← observe out.ctx out.ret x)

def giveUp (l : Link τ σ) : Link τ σ :=
  let l' := { l with master := { l.master with ctx := paModbusRxReset l.master.ctx } }
  match l.pending with
  | none => l'
  | some x => l'.conclude x .unanswered

def step (code : UInt8) (l : Link τ σ) : Event → Option (Link τ σ)
  | .issue x => l.issue x
  | .slaveTurn tick n residue => l.slaveTurn code tick n residue
  | .masterTurn tick n => l.masterTurn tick n
  | .giveUp => some l.giveUp
  | .disturb down up => some { l with down := down, up := up, spoiled := true }

/-- Nothing is under way, and the slave has nothing to complete. -/
def Silent (l : Link τ σ) : Prop := l.down = [] ∧ l.up = [] ∧ l.slave.ctx.rxLen = 0

instance (l : Link τ σ) : Decidable l.Silent := inferInstanceAs (Decidable (_ ∧ _ ∧ _))

end Link

/-- The bytes at the front pass for a message. -/
def Passes (ctx : PaModbus σ) (data : Bytes) : Prop := accepted ctx data ≠ none

instance (ctx : PaModbus σ) (data : Bytes) : Decidable (Passes ctx data) :=
  inferInstanceAs (Decidable (_ ≠ _))

/-- When something passes for a message at the end of what has arrived, it is one: all that has
arrived passes, no more is to come, and nothing has been disturbed. -/
def Unmistaken (spoiled : Bool) (ctx : PaModbus σ) (held rest : Bytes) : Prop :=
  ∀ suf ∈ held.tails, Passes ctx suf → Passes ctx held ∧ rest = [] ∧ spoiled = false

instance (spoiled : Bool) (ctx : PaModbus σ) (held rest : Bytes) :
    Decidable (Unmistaken spoiled ctx held rest) :=
  inferInstanceAs (Decidable (∀ suf ∈ _, _ → _ ∧ _ ∧ _))

/-- No silence within a message is as long as the idle timeout. -/
def InTime (ctx : PaModbus σ) (tick : UInt32) (line : Bytes) : Prop :=
  ctx.ticksCb = true → 0 < ctx.rxLen + line.length →
    tick - (if 0 < line.length then tick else ctx.lastRxTick) < ctx.idleTimeoutTicks

instance (ctx : PaModbus σ) (tick : UInt32) (line : Bytes) : Decidable (InTime ctx tick line) :=
  inferInstanceAs (Decidable (_ → _ → _))

/-- What a turn takes from the line is not mistaken. -/
def Clear (spoiled : Bool) (ctx : PaModbus σ) (line : Bytes) (n : Nat) : Prop :=
  Unmistaken spoiled ctx (accumulator ctx ++ copied ctx line n)
    (line.drop (copied ctx line n).length)

instance (spoiled : Bool) (ctx : PaModbus σ) (line : Bytes) (n : Nat) :
    Decidable (Clear spoiled ctx line n) := inferInstanceAs (Decidable (Unmistaken ..))

/-- How the stations are used: one request at a time and on a silent line, turns in time, and
patience. -/
def Fair (l : Link τ σ) : Event → Prop
  | .issue x => l.pending = none ∧ x.Valid ∧ l.Silent ∧ l.master.ctx.rxLen = 0
  | .slaveTurn tick n _ => Clear l.spoiled l.slave.ctx l.down n ∧
      (l.spoiled = true ∨ InTime l.slave.ctx tick (copied l.slave.ctx l.down n))
  | .masterTurn tick n => Clear l.spoiled l.master.ctx l.up n ∧
      (l.spoiled = true ∨ l.Silent ∨ InTime l.master.ctx tick (copied l.master.ctx l.up n))
  | .giveUp => l.Silent
  | .disturb _ _ => True

instance (l : Link τ σ) : (event : Event) → Decidable (Fair l event)
  | .issue _ | .slaveTurn _ _ _ | .masterTurn _ _ => inferInstanceAs (Decidable (_ ∧ _))
  | .giveUp => inferInstanceAs (Decidable l.Silent)
  | .disturb _ _ => .isTrue trivial

structure Station (mode : Mode) (ctx : PaModbus σ) : Prop where
  framer : ctx.framerType = .rtu
  role : paRxMode ctx = mode
  callback : ctx.recvCb = true
  send : ∃ f, ctx.sendCb = some f ∧ ∀ data app, (f data app).1 = 0
  tx : 255 ≤ ctx.txbuf.cells.length
  rx : 256 ≤ ctx.rxbuf.cells.length

structure Server (view : σ → Tables) (size : ReadKind → Nat) (ctx : PaModbus σ) : Prop
    extends Station .slave ctx where
  tables : OverTables ctx.callbacks view size
  untouched : ∀ f, ctx.sendCb = some f → ∀ data app, view (f data app).2 = view app

structure SameSetup (ctx ctx' : PaModbus σ) : Prop where
  framer : ctx'.framerType = ctx.framerType
  slave : ctx'.slave = ctx.slave
  discovery : ctx'.discoveryAddr = ctx.discoveryAddr
  mode : ctx'.mode = ctx.mode
  modeSet : ctx'.modeSet = ctx.modeSet
  recv : ctx'.recvCb = ctx.recvCb
  send : ctx'.sendCb = ctx.sendCb
  callbacks : ctx'.callbacks = ctx.callbacks
  tx : ctx'.txbuf.cells.length = ctx.txbuf.cells.length
  rx : ctx'.rxbuf.cells.length = ctx.rxbuf.cells.length

theorem SameSetup.trans {c d e : PaModbus σ} (h : SameSetup c d) (k : SameSetup d e) :
    SameSetup c e :=
  ⟨k.framer.trans h.framer, k.slave.trans h.slave, k.discovery.trans h.discovery,
    k.mode.trans h.mode, k.modeSet.trans h.modeSet, k.recv.trans h.recv, k.send.trans h.send,
    k.callbacks.trans h.callbacks, k.tx.trans h.tx, k.rx.trans h.rx⟩

theorem SameSetup.accepts {ctx ctx' : PaModbus σ} (h : SameSetup ctx ctx') (id : UInt8) :
    accepts ctx' id = accepts ctx id := by
  rw [FramerRtu.accepts, FramerRtu.accepts, h.slave, h.discovery]

theorem sameSetup_holding {ctx ctx' : PaModbus σ} (h : Parsed ctx ctx') (b : Buffer UInt8)
    (acc : Bytes) (t : UInt32) (hb : b.cells.length = ctx.rxbuf.cells.length) :
    SameSetup ctx (holding ctx' b acc t) := by
  obtain ⟨fc, result, req, rfl⟩ := h
  refine ⟨rfl, rfl, rfl, rfl, rfl, rfl, rfl, rfl, rfl, ?_⟩
  rw [holding, Buffer.patch_cells, overlay_length, hb]

theorem sameSetup_framed (w : World σ) (pdu frame : Bytes) :
    SameSetup w.ctx (framed (w.withTx (w.ctx.txbuf.patch pdu)) frame).ctx := by
  refine ⟨rfl, rfl, rfl, rfl, rfl, rfl, rfl, rfl, ?_, rfl⟩
  rw [framed, Buffer.patch_cells, overlay_length, World.withTx_txbuf, Buffer.patch_cells,
    overlay_length]

theorem Station.same {mode : Mode} {ctx ctx' : PaModbus σ} (h : Station mode ctx)
    (hs : SameSetup ctx ctx') : Station mode ctx' where
  framer := hs.framer.trans h.framer
  role := by
    rw [paRxMode, hs.modeSet, hs.mode, hs.callbacks]
    exact h.role
  callback := hs.recv.trans h.callback
  send := by
    rw [hs.send]
    exact h.send
  tx := by
    rw [hs.tx]
    exact h.tx
  rx := by
    rw [hs.rx]
    exact h.rx

theorem Server.same {view : σ → Tables} {size : ReadKind → Nat} {ctx ctx' : PaModbus σ}
    (h : Server view size ctx) (hs : SameSetup ctx ctx') : Server view size ctx' where
  toStation := h.toStation.same hs
  tables := by
    rw [hs.callbacks]
    exact h.tables
  untouched := by
    rw [hs.send]
    exact h.untouched

section

variable {ctx : PaModbus σ} {line : Bytes} (tick : UInt32) {frame : Bytes} {n : Nat}

theorem recv_partial (hc : ctx.recvCb = true) (hheld : ctx.rxLen ≤ ctx.rxbuf.cells.length)
    (hroom : ctx.rxLen + line.length < ctx.rxbuf.cells.length)
    (hs : ∀ suf, suf <:+ accumulator ctx ++ line → accepted ctx suf = none)
    (ht : InTime ctx tick line) :
    ∃ t, paModbusRecv ctx ⟨tick, some line⟩ =
      some ⟨paWait, holding ctx ctx.rxbuf (accumulator ctx ++ line) t, none⟩ := by
  have hacc : (accumulator ctx).length = ctx.rxLen := List.length_take_of_le hheld
  rw [InTime, ← hacc] at ht
  obtain ⟨t, hrun, -⟩ := Chunking.recv_waits ctx ctx.rxbuf (accumulator ctx) ctx.lastRxTick
    (tick, line) hc (by rw [hacc]; exact hroom) ht
    ((scan_none_iff 0 _).mpr fun suf hsuf _ => hs suf hsuf)
  rw [holding_self ctx hheld] at hrun
  exact ⟨t, hrun⟩

theorem recv_message (hf : ctx.framerType = .rtu) (hc : ctx.recvCb = true)
    (hheld : ctx.rxLen ≤ ctx.rxbuf.cells.length) (hwhole : accumulator ctx ++ line = frame)
    (hroom : frame.length ≤ ctx.rxbuf.cells.length) (hline : line ≠ [])
    (hu : unwrap ctx frame = some (.ok 1 n)) (hn : n + 3 = frame.length) {r : Int}
    {ctx' : PaModbus σ} (hfeed : (roleFeed ctx frame).run ctx = some (r, ctx')) :
    ∃ t, paModbusRecv ctx ⟨tick, some line⟩ =
      some ⟨r, holding ctx' (ctx.rxbuf.patch frame) [] t, some frame⟩ := by
  have hacc : (accumulator ctx).length = ctx.rxLen := List.length_take_of_le hheld
  have hlen : ctx.rxLen + line.length = frame.length := by
    rw [← hwhole, List.length_append, hacc]
  have hpos := List.length_pos_iff.mpr hline
  have hbound := ctx.rxbuf.bounded
  have hframe : frameLength ctx 1 n = frame.length := by
    rw [frameLength_rtu ctx n hf (by omega), hn]
  have hdata : (frame.drop 0).take frame.length = frame := by
    rw [List.drop_zero, List.take_length]
  have hscan := scan_front (f := accepted ctx) 0 (List.ne_nil_of_length_pos (by omega))
    ((accepted_iff ctx frame 1 n).mpr hu)
  rw [recv_own ctx line tick hc (by omega) (by omega), hwhole]
  dsimp only
  rw [hscan]
  dsimp only
  rw [hframe, dispatch_holding ctx ctx' ctx.rxbuf frame _ _ 0 frame.length r hroom (by omega)
    (by rw [hdata]; exact hfeed), hdata, Nat.zero_add, List.drop_length]
  exact ⟨_, rfl⟩

theorem recv_nothing (hc : ctx.recvCb = true) (hn : ctx.rxbuf.cells.length ≠ 0)
    (hroom : ctx.rxLen + line.length ≤ ctx.rxbuf.cells.length)
    (hs : ∀ suf, suf <:+ accumulator ctx ++ line → accepted ctx suf = none) :
    ∃ t, paModbusRecv ctx ⟨tick, some line⟩ =
        some ⟨paWait, holding ctx ctx.rxbuf (accumulator ctx ++ line) t, none⟩ ∨
      ∃ ret, (ret = paErrTimeout ∨ ret = paErrBufferFull ∧
          ctx.rxLen + line.length = ctx.rxbuf.cells.length) ∧
        paModbusRecv ctx ⟨tick, some line⟩ =
          some ⟨ret, holding ctx (ctx.rxbuf.patch (accumulator ctx ++ line)) [] t, none⟩ := by
  have hscan : scan (accepted ctx) 0 (accumulator ctx ++ line) = none :=
    (scan_none_iff 0 _).mpr fun suf hsuf _ => hs suf hsuf
  have hacc : (accumulator ctx).length = ctx.rxLen := List.length_take_of_le (by omega)
  refine ⟨if 0 < line.length then (if ctx.ticksCb then tick else 0) else ctx.lastRxTick, ?_⟩
  rw [recv_own ctx line tick hc hn hroom]
  dsimp only
  rw [hscan]
  generalize (if ctx.ticksCb = true then tick else 0) = now
  generalize (if 0 < line.length then now else ctx.lastRxTick) = t
  change some (keepWaiting (holding ctx ctx.rxbuf (accumulator ctx ++ line) t) now) = _ ∨ ∃ ret, _ ∧
    some (keepWaiting (holding ctx ctx.rxbuf (accumulator ctx ++ line) t) now) = _
  have hheld : (holding ctx ctx.rxbuf (accumulator ctx ++ line) t).rxLen =
      ctx.rxLen + line.length := by
    rw [← hacc, ← List.length_append]
    rfl
  have hsize : (holding ctx ctx.rxbuf (accumulator ctx ++ line) t).rxbuf.cells.length =
      ctx.rxbuf.cells.length := by
    rw [holding, Buffer.patch_cells, overlay_length]
  rw [keepWaiting, hheld, hsize]
  split
  · exact .inr ⟨_, .inr ⟨rfl, by omega⟩, by rw [holding_nil, holding]⟩
  · split
    · exact .inr ⟨_, .inl rfl, by rw [holding_nil, holding]⟩
    · exact .inl rfl

theorem recv_expires (hc : ctx.recvCb = true) (hn : ctx.rxbuf.cells.length ≠ 0)
    (hheld : ctx.rxLen ≤ ctx.rxbuf.cells.length) (hticks : ctx.ticksCb = true)
    (hidle : ctx.idleTimeoutTicks ≤ tick - ctx.lastRxTick)
    (hs : ∀ suf, suf <:+ accumulator ctx → accepted ctx suf = none) {out : Outcome σ}
    (h : paModbusRecv ctx ⟨tick, some []⟩ = some out) : out.ctx.rxLen = 0 := by
  have hscan : scan (accepted ctx) 0 (accumulator ctx) = none :=
    (scan_none_iff 0 _).mpr fun suf hsuf _ => hs suf hsuf
  rw [recv_own ctx [] tick hc hn hheld, List.append_nil, hticks] at h
  dsimp only at h
  rw [hscan] at h
  obtain rfl := Option.some.inj h
  change (keepWaiting (holding ctx ctx.rxbuf (accumulator ctx) ctx.lastRxTick) tick).ctx.rxLen = 0
  rw [holding_self ctx hheld]
  by_cases hpos : 0 < ctx.rxLen
  · rw [keepWaiting_expires ctx tick hticks hpos hidle]
  · rcases keepWaiting_cases ctx tick with hk | ⟨ret, -, hk⟩
    · rw [hk]
      exact Nat.eq_zero_of_not_pos hpos
    · rw [hk]

end

structure Transmits (w : World σ) (frame : Bytes) (w' : World σ) : Prop where
  setup : SameSetup w.ctx w'.ctx
  rxLen : w'.ctx.rxLen = w.ctx.rxLen
  held : accumulator w'.ctx = accumulator w.ctx
  transmitted : transmitted w' = transmitted w ++ frame

theorem Transmits.sentSince {w w' : World σ} {frame : Bytes} (h : Transmits w frame w') :
    sentSince w w' = frame := by
  rw [SerialLink.sentSince, h.transmitted, List.drop_left]

theorem framed_transmits {mode : Mode} {w : World σ} (h : Station mode w.ctx) (id : UInt8)
    (pdu : Bytes) (hpdu : pdu.length ≤ 252) :
    ∃ f w', w.ctx.sendCb = some f ∧
      paModbusSend.run (framed (w.withTx (w.ctx.txbuf.patch pdu)) (rtuFrame id pdu)) =
        some (paOk, w') ∧
      Transmits w (rtuFrame id pdu) w' ∧ w'.app = (f (rtuFrame id pdu) w.app).2 := by
  obtain ⟨f, hf, hzero⟩ := h.send
  have htx := h.tx
  generalize hv : w.withTx (w.ctx.txbuf.patch pdu) = v
  have happ : v.app = w.app := by rw [← hv]; rfl
  have hcb : (framed v (rtuFrame id pdu)).ctx.sendCb = some f := by
    rw [← hv]
    exact hf
  have hroom : (rtuFrame id pdu).length ≤ v.ctx.txbuf.cells.length := by
    rw [← hv, World.withTx_txbuf, Buffer.patch_cells, overlay_length, rtuFrame_length]
    omega
  have hsend := sendTxbuf_framed f v (rtuFrame id pdu) hroom
  refine ⟨f, (framed v (rtuFrame id pdu)).called (.send (rtuFrame id pdu)) 0
    (f (rtuFrame id pdu) w.app).2, hf, ?_, ?_, rfl⟩
  · rw [paModbusSend, get_bind_run, hcb]
    dsimp only
    rw [bind_defined _ _ _ _ _ hsend, hzero, if_pos rfl, happ]
    rfl
  · have hsetup := sameSetup_framed w pdu (rtuFrame id pdu)
    rw [hv] at hsetup
    refine ⟨hsetup, ?_, ?_, ?_⟩
    · rw [← hv]
      rfl
    · rw [← hv]
      rfl
    · rw [transmitted_called, ← hv]
      rfl

theorem pduLen_le {x : Transaction} (hb : x.Buildable) : x.pduLen ≤ 252 := by
  cases x with
  | read kind addr count => exact (by decide : 5 ≤ 252)
  | write request =>
    cases request with
    | singleCoil addr value | singleRegister addr value => exact (by decide : 5 ≤ 252)
    | maskRegister addr andMask orMask => exact (by decide : 7 ≤ 252)
    | multipleCoils addr values =>
      obtain ⟨-, h1968⟩ := hb
      change 6 + (values.length + 7) / 8 ≤ 252
      omega
    | multipleRegisters addr values =>
      obtain ⟨-, h123⟩ := hb
      change 6 + values.length * 2 ≤ 252
      omega

theorem request_sent {mode : Mode} {x : Transaction} {w : World σ} (hb : x.Buildable)
    (h : Station mode w.ctx) :
    ∃ pdu w', x.Encodes pdu ∧ (request x).run w = some (paOk, w') ∧
      Transmits w (rtuFrame w.ctx.slave pdu) w' := by
  have htx := h.tx
  have hmax := pduLen_le hb
  obtain ⟨pdu, henc, hrun⟩ := build_run x w hb (by omega)
  have hlen := encodes_length henc
  obtain ⟨f, w', -, hsend, htrans, -⟩ := framed_transmits h w.ctx.slave pdu (by omega)
  have hframed := reply_framed pdu w h.framer (by omega) htx
  refine ⟨pdu, w', henc, ?_, htrans⟩
  rw [request, bind_defined _ _ _ _ _ (hrun.trans hframed), if_neg (by omega)]
  exact hsend

theorem response_sent {view : σ → Tables} {size : ReadKind → Nat} {w : World σ} {x : Transaction}
    {done : Reply × Tables} {code : UInt8} {residue : Residue} (h : Server view size w.ctx)
    (ha : Answers τ view w x done ((serve code residue).run w)) :
    ∃ pdu w', (respond code residue).run w = some (paOk, w') ∧
      Transmits w (rtuFrame w.ctx.slave pdu) w' ∧ view w'.app = done.2 ∧ pdu.length ≤ 252 ∧
      Conveys τ w.ctx.slave x pdu done.1 := by
  obtain ⟨pdu, w₁, hrun, hmax, ⟨hctx, hsent⟩, hview, hconveys⟩ := ha
  have hst : Station .slave w₁.ctx := by
    rw [hctx]
    exact h.toStation
  obtain ⟨f, w', hf, hsend, htrans, happ⟩ := framed_transmits hst w.ctx.slave pdu hmax
  refine ⟨pdu, w', ?_, ⟨?_, ?_, ?_, ?_⟩, ?_, hmax, hconveys⟩
  · rw [respond, bind_defined _ _ _ _ _ hrun, if_pos (by omega)]
    exact hsend
  · rw [← hctx]
    exact htrans.setup
  · rw [htrans.rxLen, hctx]
  · rw [htrans.held, hctx]
  · rw [htrans.transmitted, hsent]
  · rw [hctx] at hf
    rw [happ, h.untouched f hf, hview]

end Pamodbus.SerialLink
