import Pamodbus.SerialLink

namespace Pamodbus.SerialPort

open Pamodbus.Lib.Cells Pamodbus.Lib.Procedure
open Pamodbus.Context Pamodbus.FramerRtu Pamodbus.Framer Pamodbus.Send
open Pamodbus.Serving
open Pamodbus.Transactions Pamodbus.SerialLink

variable {σ : Type}

/-- What `write` comes back with: it has taken some of the bytes it was offered, at most `n`,
a signal has come first (`EINTR`), or it has failed, be it with `EAGAIN`. -/
inductive Written
  | wrote (n : Nat)
  | interrupted
  | failed
  deriving DecidableEq

/-- `writes` is what the calls of `write` come back with, until one fails. -/
structure Device where
  wire : Bytes
  writes : List Written
  deriving DecidableEq

/-- The loop of `ser_send`, with `off` bytes written. -/
def serSendLoop (data : Bytes) : List Written → (off : Nat) → (wire : Bytes) → Int × Device
  | [], off, wire => (if off < data.length then -1 else 0, ⟨wire, []⟩)
  | answer :: writes, off, wire =>
    if off < data.length then
      match answer with
      | .wrote n =>
        let taken := (data.drop off).take n
        serSendLoop data writes (off + taken.length) (wire ++ taken)
      | .interrupted => serSendLoop data writes off wire
      | .failed => (-1, ⟨wire, writes⟩)
    else (0, ⟨wire, answer :: writes⟩)

def serSend : SendFn Device := fun data d => serSendLoop data d.writes 0 d.wire

/-- What a call that has returned `ret` has put on the wire of the bytes `data`: all of them in
case of success, and otherwise only the first ones. -/
inductive Carried (data : Bytes) (ret : Int) (wire wire' : Bytes) : Prop
  | whole (hret : ret = 0) (hwire : wire' = wire ++ data)
  | torn (part rest : Bytes) (hret : ret = -1) (hsplit : part ++ rest = data) (hrest : rest ≠ [])
    (hwire : wire' = wire ++ part)

theorem Carried.after {data first rest wire wire' : Bytes} {ret : Int}
    (h : Carried rest ret (wire ++ first) wire') (hsplit : first ++ rest = data) :
    Carried data ret wire wire' := by
  subst hsplit
  cases h with
  | whole hret hwire => exact .whole hret (by rw [hwire, List.append_assoc])
  | torn part left hret hpart hleft hwire =>
    exact .torn (first ++ part) left hret (by rw [List.append_assoc, hpart]) hleft
      (by rw [hwire, List.append_assoc])

theorem carried_all {data : Bytes} {off : Nat} (h : ¬ off < data.length) (wire : Bytes) :
    Carried (data.drop off) 0 wire wire :=
  .whole rfl (by rw [List.drop_of_length_le (not_lt.mp h), List.append_nil])

theorem carried_nothing {data : Bytes} {off : Nat} (h : off < data.length) (wire : Bytes) :
    Carried (data.drop off) (-1) wire wire :=
  .torn [] _ rfl rfl (fun hnil => absurd h (not_lt.mpr (List.drop_eq_nil_iff.mp hnil)))
    (List.append_nil _).symm

theorem serSendLoop_carried (data : Bytes) (writes : List Written) (off : Nat) (wire : Bytes) :
    Carried (data.drop off) (serSendLoop data writes off wire).1 wire
      (serSendLoop data writes off wire).2.wire := by
  induction writes generalizing off wire with
  | nil =>
    simp only [serSendLoop]
    split
    next h => exact carried_nothing h wire
    next h => exact carried_all h wire
  | cons answer writes ih =>
    by_cases h : off < data.length
    · cases answer with
      | wrote n =>
        have hrest := ih (off + ((data.drop off).take n).length) (wire ++ (data.drop off).take n)
        have hsplit : (data.drop off).take n ++ data.drop (off + ((data.drop off).take n).length) =
            data.drop off := by
          rw [← List.drop_drop]
          exact List.prefix_iff_eq_append.mp (List.take_prefix n _)
        simp only [serSendLoop, if_pos h]
        exact hrest.after hsplit
      | interrupted =>
        simp only [serSendLoop, if_pos h]
        exact ih off wire
      | failed =>
        simp only [serSendLoop, if_pos h]
        exact carried_nothing h wire
    · simp only [serSendLoop, if_neg h]
      exact carried_all h wire

theorem serSend_carried (data : Bytes) (d : Device) :
    Carried data (serSend data d).1 d.wire (serSend data d).2.wire :=
  serSendLoop_carried data d.writes 0 d.wire

/-- What is left of the answers of `write` once it has taken `k` bytes, unless it fails before. -/
def taking : Nat → List Written → Option (List Written)
  | 0, writes => some writes
  | _ + 1, [] => none
  | k + 1, .wrote n :: writes => taking (k + 1 - n) writes
  | k + 1, .interrupted :: writes => taking (k + 1) writes
  | _ + 1, .failed :: _ => none

theorem serSendLoop_takes (data : Bytes) (writes : List Written) (off : Nat) (wire : Bytes) :
    (∀ left ∈ taking (data.length - off) writes, (serSendLoop data writes off wire).1 = 0 ∧
        (serSendLoop data writes off wire).2.writes = left) ∧
      (taking (data.length - off) writes = none →
        (serSendLoop data writes off wire).1 = -1) := by
  induction writes generalizing off wire with
  | nil =>
    by_cases hoff : off < data.length
    · obtain ⟨k, hk⟩ := Nat.exists_eq_add_of_lt hoff
      have hleft : data.length - off = k + 1 := by omega
      simp [serSendLoop, taking, hleft, hoff]
    · have hleft : data.length - off = 0 := by omega
      simp [serSendLoop, taking, hleft, hoff]
  | cons answer writes ih =>
    by_cases hoff : off < data.length
    · obtain ⟨k, hk⟩ := Nat.exists_eq_add_of_lt hoff
      have hleft : data.length - off = k + 1 := by omega
      cases answer with
      | wrote n =>
        have hrest := ih (off + ((data.drop off).take n).length) (wire ++ (data.drop off).take n)
        have hsub : data.length - (off + ((data.drop off).take n).length) = k + 1 - n := by
          rw [List.length_take, List.length_drop]
          omega
        rw [hsub] at hrest
        simp only [serSendLoop, hleft, taking, if_pos hoff]
        exact hrest
      | interrupted =>
        have hrest := ih off wire
        rw [hleft] at hrest
        simp only [serSendLoop, hleft, taking, if_pos hoff]
        exact hrest
      | failed => simp [serSendLoop, taking, hleft, hoff]
    · have hleft : data.length - off = 0 := by omega
      simp [serSendLoop, taking, hleft, hoff]

/-- A master whose send callback is `ser_send`. -/
structure Port (ctx : PaModbus Device) : Prop where
  framer : ctx.framerType = .rtu
  send : ctx.sendCb = some serSend
  tx : 255 ≤ ctx.txbuf.cells.length

/-- What a request has put on the wire that has returned `ret`. -/
def Posted (id : UInt8) (x : Transaction) (ret : Int) (wire wire' : Bytes) : Prop :=
  ∃ pdu r, x.Encodes pdu ∧ Carried (rtuFrame id pdu) r wire wire' ∧
    ret = if r = 0 then paOk else paErrCallback

inductive Wired (id : UInt8) : List Transaction → List Int → Bytes → Bytes → Prop
  | nil (wire : Bytes) : Wired id [] [] wire wire
  | cons {x : Transaction} {xs : List Transaction} {ret : Int} {rets : List Int}
    {wire wire₁ wire₂ : Bytes} (h : Posted id x ret wire wire₁)
    (hrest : Wired id xs rets wire₁ wire₂) :
    Wired id (x :: xs) (ret :: rets) wire wire₂

def Suffice : List Nat → List Written → Prop
  | [], _ => True
  | k :: ks, writes => ∃ left ∈ taking k writes, Suffice ks left

theorem request_posted {w : World Device} {x : Transaction} (h : Port w.ctx) (hb : x.Buildable) :
    ∃ ret w', (request x).run w = some (ret, w') ∧
      Posted w.ctx.slave x ret w.app.wire w'.app.wire ∧ Port w'.ctx ∧
      w'.ctx.slave = w.ctx.slave ∧
      (∀ left ∈ taking (x.pduLen + 3) w.app.writes, ret = paOk ∧ w'.app.writes = left) ∧
      (taking (x.pduLen + 3) w.app.writes = none → ret = paErrCallback) := by
  have htx := h.tx
  have hmax := pduLen_le hb
  obtain ⟨pdu, henc, hrun⟩ := build_run x w hb (by omega)
  have hlen := encodes_length henc
  have hframed := reply_framed pdu w h.framer (by omega) htx
  have hframe : (rtuFrame w.ctx.slave pdu).length = x.pduLen + 3 := by
    rw [rtuFrame_length, hlen]
  have hroom : (rtuFrame w.ctx.slave pdu).length ≤
      (w.withTx (w.ctx.txbuf.patch pdu)).ctx.txbuf.cells.length := by
    rw [World.withTx_txbuf, Buffer.patch_cells, overlay_length, hframe]
    omega
  have hsend := sendTxbuf_framed serSend (w.withTx (w.ctx.txbuf.patch pdu)) _ hroom
  have hcarried := serSend_carried (rtuFrame w.ctx.slave pdu) w.app
  have hsetup := sameSetup_framed w pdu (rtuFrame w.ctx.slave pdu)
  refine ⟨if (serSend (rtuFrame w.ctx.slave pdu) w.app).1 = 0 then paOk else paErrCallback,
    (framed (w.withTx (w.ctx.txbuf.patch pdu)) (rtuFrame w.ctx.slave pdu)).called
      (.send (rtuFrame w.ctx.slave pdu)) (serSend (rtuFrame w.ctx.slave pdu) w.app).1
      (serSend (rtuFrame w.ctx.slave pdu) w.app).2, ?_, ⟨pdu, _, henc, hcarried, rfl⟩,
    ⟨hsetup.framer.trans h.framer, hsetup.send.trans h.send, htx.trans_eq hsetup.tx.symm⟩, rfl, ?_⟩
  · rw [request, bind_defined _ _ _ _ _ (hrun.trans hframed), if_neg (by omega), paModbusSend,
      get_bind_run]
    have hcb : (framed (w.withTx (w.ctx.txbuf.patch pdu)) (rtuFrame w.ctx.slave pdu)).ctx.sendCb =
      some serSend := h.send
    rw [hcb]
    dsimp only
    rw [bind_defined _ _ _ _ _ hsend]
    rfl
  · have htakes := serSendLoop_takes (rtuFrame w.ctx.slave pdu) w.app.writes 0 w.app.wire
    rw [Nat.sub_zero, hframe] at htakes
    obtain ⟨hall, hbroken⟩ := htakes
    refine ⟨fun left htaking => ?_, fun htaking => ?_⟩
    · obtain ⟨hret, hleft⟩ := hall left htaking
      exact ⟨if_pos hret, hleft⟩
    · have hret : (serSend (rtuFrame w.ctx.slave pdu) w.app).1 = -1 := hbroken htaking
      rw [hret]
      rfl

/-- In every run of requests the wire gets their frames in order, each as a whole or, where the call
returns `PA_ERR_CALLBACK`, without its end. It gets them all exactly when `write` takes them all. -/
theorem requests_on_wire {w : World Device} (h : Port w.ctx) (xs : List Transaction)
    (hb : ∀ x ∈ xs, x.Buildable) :
    ∃ rets w', (xs.mapM request).run w = some (rets, w') ∧
      Wired w.ctx.slave xs rets w.app.wire w'.app.wire ∧
      ((∀ ret ∈ rets, ret = paOk) ↔ Suffice (xs.map fun x => x.pduLen + 3) w.app.writes) := by
  induction xs generalizing w with
  | nil => exact ⟨[], w, rfl, .nil _, fun _ => trivial, fun _ => List.forall_mem_nil _⟩
  | cons x xs ih =>
    obtain ⟨hx, hxs⟩ := List.forall_mem_cons.mp hb
    obtain ⟨ret, w₁, hrun₁, hposted, hport, hid, htaken, hbroken⟩ := request_posted h hx
    obtain ⟨rets, w', hrun, hwired, hall⟩ := ih hport hxs
    rw [hid] at hwired
    refine ⟨ret :: rets, w', ?_, .cons hposted hwired, ?_⟩
    · rw [List.mapM_cons, bind_defined _ _ _ _ _ hrun₁, bind_defined _ _ _ _ _ hrun]
      rfl
    · rw [List.forall_mem_cons, hall, List.map_cons, Suffice]
      constructor
      · rintro ⟨hok, hrest⟩
        cases htaking : taking (x.pduLen + 3) w.app.writes with
        | none =>
          rw [hbroken htaking] at hok
          exact absurd hok (by decide)
        | some left =>
          rw [(htaken left htaking).2] at hrest
          exact ⟨left, rfl, hrest⟩
      · rintro ⟨left, htaking, hrest⟩
        obtain ⟨hok, hwrites⟩ := htaken left htaking
        rw [hwrites]
        exact ⟨hok, hrest⟩

/-- A host that reads coils three times. The first request goes out in two pieces and with a signal
between them, the second one breaks off. -/
def unsteadyPort : World Device :=
  ⟨paModbusSetSendCb (some serSend) (station .rtu 1 255 16),
    ⟨[], [.wrote 3, .interrupted, .wrote 10, .wrote 2, .failed, .wrote 8]⟩, 0, []⟩

def threeReads : List Transaction := [.read .coils 0 1, .read .coils 0x100 2, .read .coils 0 3]

theorem three_reads_on_wire :
    (∃ rets w', (threeReads.mapM request).run unsteadyPort = some (rets, w') ∧
      Wired unsteadyPort.ctx.slave threeReads rets unsteadyPort.app.wire w'.app.wire ∧
      ((∀ ret ∈ rets, ret = paOk) ↔
        Suffice (threeReads.map fun x => x.pduLen + 3) unsteadyPort.app.writes)) ∧
      ((threeReads.mapM request).run unsteadyPort).map Prod.fst = some [paOk, paErrCallback, paOk] :=
  ⟨requests_on_wire ⟨rfl, rfl, by decide +kernel⟩ threeReads (by decide +kernel), by decide +kernel⟩

end Pamodbus.SerialPort
