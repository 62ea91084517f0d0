import Pamodbus.Calls
import Pamodbus.Residues
import Pamodbus.Lib.Interleaving

namespace Pamodbus.Reentrancy

open Pamodbus.Lib.Cells Pamodbus.Lib.CInt Pamodbus.Lib.Procedure Pamodbus.Lib.Hoare
open Pamodbus.Lib.Interleaving
open Pamodbus.Context Pamodbus.FramerRtu Pamodbus.FramerTcp Pamodbus.Framer Pamodbus.Send
open Pamodbus.Respond Pamodbus.History Pamodbus.Traversal Pamodbus.TransactionIds Pamodbus.Calls
open Pamodbus.Residues

variable {σ τ α β : Type}

/-- What belongs to one of the contexts: the context, the state of its
application, and the callback invocations. -/
structure Side (σ : Type) where
  ctx : PaModbus σ
  app : σ
  calls : List (Call × Int)

def Side.world (s : Side σ) (next : UInt16) : World σ := ⟨s.ctx, s.app, next, s.calls⟩

/-- What a call shows: its return value, the frame in the transmit buffer, and
what has been parsed. -/
structure Seen where
  ret : Int
  frame : Bytes
  lastFunction : UInt8
  result : MasterResult
  request : SlaveRequest

def see (ret : Int) (w : World σ) : Seen :=
  ⟨ret, sent w, w.ctx.lastFunction, w.ctx.result, w.ctx.request⟩

/-- A context as a component of its process, which shares `next_transaction_id`. -/
def perform : Component UInt16 (Side σ) Act Seen := fun a next s =>
  (a.run.run (s.world next)).map fun r =>
    (see r.1 r.2, r.2.nextTransactionId, ⟨r.2.ctx, r.2.app, r.2.calls⟩)

/-- The context has what it takes to build a frame for TCP. Seven bytes hold an
empty PDU, which only `pa_modbus_send_raw` frames. -/
def FramesTcp (ctx : PaModbus σ) : Prop :=
  ctx.framerType = .tcp ∧ (8 ≤ ctx.txbuf.cells.length ∨
    ctx.txbuf.cells.length = 7 ∧ ctx.sendCb.isSome ∧ ctx.txbufSet)

def renumber (next : UInt16) (w : World σ) : World σ := { w with nextTransactionId := next }

structure SameSetup (c d : PaModbus σ) : Prop where
  framerType : d.framerType = c.framerType
  txSize : d.txbuf.cells.length = c.txbuf.cells.length
  sendCb : d.sendCb = c.sendCb
  txbufSet : d.txbufSet = c.txbufSet

theorem sameSetup_refl (c : PaModbus σ) : SameSetup c c := ⟨rfl, rfl, rfl, rfl⟩

theorem SameSetup.trans {c d e : PaModbus σ} (h : SameSetup c d) (k : SameSetup d e) :
    SameSetup c e :=
  ⟨k.framerType.trans h.framerType, k.txSize.trans h.txSize, k.sendCb.trans h.sendCb,
    k.txbufSet.trans h.txbufSet⟩

theorem SameSetup.framesTcp_iff {c d : PaModbus σ} (h : SameSetup c d) :
    FramesTcp d ↔ FramesTcp c := by
  rw [FramesTcp, FramesTcp, h.framerType, h.txSize, h.sendCb, h.txbufSet]

theorem stable_sameSetup : Stable fun w w' : World σ => SameSetup w.ctx w'.ctx where
  refl w := sameSetup_refl w.ctx
  trans _ _ _ h k := h.trans k
  stored _ _ h := ⟨rfl, h, rfl, rfl⟩
  called w _ _ _ := sameSetup_refl w.ctx

/-- From every state a procedure runs the same whatever the counter is. -/
def Unnumbered : Judgement σ := fun _ p V =>
  (∀ next, Blind (renumber next) p) ∧ Yields (fun w w' => SameSetup w.ctx w'.ctx) p V

theorem closed_unnumbered : Closed (Unnumbered : Judgement σ) where
  ends a ha := ⟨fun _ => blind_pure a, stable_sameSetup.closed.ends a ha⟩
  undefined := ⟨fun _ _ => rfl, yields_undefined⟩
  bind hp hf := ⟨fun next => blind_bind_values (hp.1 next) (fun w a w' h => (hp.2 w a w' h).2)
    fun a ha => (hf a ha).1 next, stable_sameSetup.closed.bind hp.2 fun a ha => (hf a ha).2⟩
  get_bind hg hf := ⟨fun next => blind_get_bind (fun w => hg w next) fun w => (hf w).1 next,
    fun w => (hf w).2 w⟩
  txStore off xs := by
    refine ⟨fun next w => ?_, stable_sameSetup.closed.txStore off xs⟩
    rw [txStore, update_run, update_run]
    change ((w.ctx.txbuf.store off xs).map _).map _ = _
    cases w.ctx.txbuf.store off xs with
    | none => rfl
    | some b => rfl
  called call ret app := ⟨fun _ => blind_modify fun _ => rfl,
    stable_sameSetup.closed.called call ret app⟩

/-- From this state a procedure runs the same whatever the counter is. -/
structure Quiet (p : Proc (World σ) α) (w : World σ) : Prop where
  blind : ∀ next, p.run (renumber next w) = (p.run w).map fun r => (r.1, renumber next r.2)
  same : ∀ a w', p.run w = some (a, w') → SameSetup w.ctx w'.ctx

theorem unnumbered_quiet {p : Proc (World σ) α} {V : α → Prop} (h : Unnumbered α p V)
    (w : World σ) : Quiet p w :=
  ⟨fun next => h.1 next w, fun a w' hrun => (h.2 w a w' hrun).1⟩

theorem quiet_congr {p q : Proc (World σ) α} {w : World σ}
    (h : ∀ next, p.run (renumber next w) = q.run (renumber next w)) (hq : Quiet q w) :
    Quiet p w := by
  have hw : p.run w = q.run w := h w.nextTransactionId
  refine ⟨fun next => ?_, fun a w' hrun => ?_⟩
  · rw [h next, hw]
    exact hq.blind next
  · rw [hw] at hrun
    exact hq.same a w' hrun

theorem quiet_bind {p : Proc (World σ) α} {f : α → Proc (World σ) β} {w : World σ}
    (hp : Quiet p w) (hf : ∀ a w', p.run w = some (a, w') → Quiet (f a) w') :
    Quiet (p >>= f) w := by
  refine ⟨fun next => ?_, fun b u hrun => ?_⟩
  · rw [StateT.run_bind, StateT.run_bind, hp.blind next]
    cases h : p.run w with
    | none => rfl
    | some r => exact (hf r.1 r.2 h).blind next
  · obtain ⟨a, v, hv, hu⟩ := bind_inv _ _ _ _ _ hrun
    exact (hp.same a v hv).trans ((hf a v hv).same b u hu)

/-- There is no room to frame this PDU for TCP, or none at all. -/
def NoRoom (pduLen : Int) (w : World σ) : Prop :=
  w.ctx.txbuf.cells.length < 7 ∨ w.ctx.txbuf.cells.length < sizeT (7 + pduLen)

theorem tcpWrap_run (pduLen : Int) (w : World σ) (h : NoRoom pduLen w) :
    (paFramerTcpWrap pduLen).run w = (access (intExpr (7 + pduLen)) >>= fun need =>
      if w.ctx.txbuf.cells.length < sizeT need then pure (.error paErrBufferFull)
      else access none).run w := by
  rw [paFramerTcpWrap, get_bind_run]
  cases hneed : intExpr (7 + pduLen) with
  | none => rfl
  | some need =>
    obtain ⟨hrange, rfl⟩ := intExpr_some hneed
    rw [access_some, pure_bind, pure_bind]
    by_cases hshort : w.ctx.txbuf.cells.length < sizeT (7 + pduLen)
    · rw [if_pos hshort, if_pos hshort]
    · have hsmall := h.resolve_right hshort
      have hblock : w.ctx.txbuf.cells.length < 0 + sizeT pduLen := by
        simp only [sizeT] at hshort ⊢
        omega
      rw [if_neg hshort, if_neg hshort, block_none _ _ _ hblock]
      rfl

theorem tcpWrap_quiet (pduLen : Int) (w : World σ) (h : NoRoom pduLen w) :
    Quiet (paFramerTcpWrap pduLen) w := by
  have hquiet := unnumbered_quiet (closed_unnumbered.after_access (intExpr (7 + pduLen))
    fun need => judged_ite (c := w.ctx.txbuf.cells.length < sizeT need)
      (closed_unnumbered.ends (.error paErrBufferFull : Except Int Int) trivial)
      (closed_unnumbered.undefined (V := fun _ => True))) w
  exact quiet_congr (fun next => tcpWrap_run pduLen (renumber next w) h) hquiet

theorem wrap_quiet (pduLen : Int) (w : World σ)
    (h : w.ctx.framerType = .tcp → NoRoom pduLen w) : Quiet (wrap pduLen) w := by
  cases hf : w.ctx.framerType with
  | rtu =>
    have hquiet := unnumbered_quiet (closed_unnumbered.holds_paFramerRtuWrap pduLen) w
    exact quiet_congr (fun next => wrap_rtu pduLen _ hf) hquiet
  | tcp => exact quiet_congr (fun next => wrap_tcp pduLen _ hf) (tcpWrap_quiet pduLen w (h hf))

theorem finish_quiet (n : Nat) (w : World σ) (hn : 1 ≤ n) (hi : n + 7 < 2 ^ 31)
    (h : ¬ FramesTcp w.ctx) : Quiet (finish n) w := by
  refine quiet_bind (wrap_quiet n w fun hf => .inr ?_) fun r w' _ => ?_
  · have hsmall : w.ctx.txbuf.cells.length < 8 := by
      by_contra hlarge
      exact h ⟨hf, .inl (by omega)⟩
    have he : (7 : Int) + n = ((n + 7 : Nat) : Int) := by omega
    rw [he, sizeT_natCast _ (by omega)]
    omega
  · cases r with
    | error ret => exact unnumbered_quiet (closed_unnumbered.ends (V := fun _ => True) ret trivial) w'
    | ok framed =>
      refine ⟨fun next => rfl, fun a u hrun => ?_⟩
      obtain ⟨-, rfl⟩ := (pure_run_iff _ _ _ _).mp hrun
      exact ⟨rfl, rfl, rfl, rfl⟩

theorem quiet_ending : Ending (Unnumbered : Judgement σ)
    (fun p => ∀ w, ¬ FramesTcp w.ctx → Quiet p w) where
  refuse ret _ w _ := unnumbered_quiet (closed_unnumbered.ends (V := fun _ => True) ret trivial) w
  after hp hf w h := quiet_bind (unnumbered_quiet hp w) fun a w' hrun =>
    hf a (hp.2 w a w' hrun).2 w' fun h' => h ((hp.2 w a w' hrun).1.framesTcp_iff.mp h')
  get_bind hg hf w h := ⟨fun next => by
      rw [get_bind_run, get_bind_run, renumber, hg w next]
      exact (hf w w h).blind next, (hf w w h).same⟩
  finish n hn hi w h := finish_quiet n w hn hi h

theorem build_quiet {p : Proc (World σ) Int} (hp : Build p) (w : World σ) (h : ¬ FramesTcp w.ctx) :
    Quiet p w := build_ends closed_unnumbered quiet_ending hp w h

theorem deliver_quiet (cb : SendFn σ) (r : Except Int Int) (w : World σ) :
    Quiet (deliver cb r) w := by
  cases r with
  | error ret => exact unnumbered_quiet (closed_unnumbered.ends (V := fun _ => True) ret trivial) w
  | ok framed =>
    have hsend : Unnumbered Int (sendTxbuf cb) fun _ => True :=
      closed_unnumbered.get_bind (fun _ _ => rfl) fun u => closed_unnumbered.after_access _ fun _ =>
        closed_unnumbered.after (closed_unnumbered.called _ _ _) fun _ =>
          closed_unnumbered.ends _ trivial
    refine quiet_bind ⟨fun _ => rfl, fun a u hrun => ?_⟩ fun a u _ => quiet_bind
      (unnumbered_quiet hsend u) fun ret v _ =>
        unnumbered_quiet (closed_unnumbered.ends (V := fun _ => True) _ trivial) v
    obtain rfl := (Prod.mk.inj (Option.some.inj hrun)).2
    exact ⟨rfl, rfl, rfl, rfl⟩

theorem sendRaw_quiet (pdu : Bytes) (w : World σ) (h : ¬ FramesTcp w.ctx) :
    Quiet (paModbusSendRaw pdu) w := by
  by_cases hready : ∃ cb, Ready pdu w cb
  · obtain ⟨cb, hready⟩ := hready
    have hsame (next : UInt16) : Ready pdu (renumber next w) cb :=
      ⟨hready.callback, hready.buffer, hready.room⟩
    have hquiet : Quiet (emit pdu >>= fun _ => wrap (int32 pdu.length) >>= deliver cb) w := by
      rw [← txStore_front]
      refine quiet_bind (unnumbered_quiet (closed_unnumbered.txStore 0 pdu) w) fun _ u hstore =>
        quiet_bind (wrap_quiet _ u fun hf => .inl ?_) fun r v _ => deliver_quiet cb r v
      have hsetup := ((closed_unnumbered.txStore 0 pdu).2 w _ u hstore).1
      rw [hsetup.txSize]
      rw [hsetup.framerType] at hf
      have hsome : w.ctx.sendCb.isSome = true := by
        rw [hready.callback]
        rfl
      by_contra hlarge
      refine h ⟨hf, ?_⟩
      by_cases hseven : w.ctx.txbuf.cells.length = 7
      · exact .inr ⟨hseven, hsome, hready.buffer⟩
      · exact .inl (by omega)
    exact quiet_congr (fun next => sendRaw_ready pdu _ cb (hsame next)) hquiet
  · have hrefused (next : UInt16) := sendRaw_refused pdu (renumber next w) fun cb hcb =>
      hready ⟨cb, hcb.callback, hcb.buffer, hcb.room⟩
    have hnow := sendRaw_refused pdu w fun cb hcb => hready ⟨cb, hcb⟩
    refine ⟨fun next => ?_, fun a u hrun => ?_⟩
    · rw [hrefused next, hnow]
      rfl
    · rw [hnow, Option.some.injEq, Prod.mk.injEq] at hrun
      obtain ⟨-, rfl⟩ := hrun
      exact sameSetup_refl w.ctx

theorem intake_quiet (i : Intake) (w : World σ) : Quiet (Act.take i).run w := by
  refine ⟨fun next => ?_, fun a u hrun => ?_⟩
  · exact blind_focus World.ctx (fun ctx w => { w with ctx := ctx }) i.run (g := renumber next)
      (fun _ => rfl) (fun _ _ => rfl) w
  · rw [Act.run, focus_run, Option.map_eq_some_iff] at hrun
    obtain ⟨⟨r, ctx'⟩, hin, he⟩ := hrun
    obtain ⟨-, rfl⟩ := Prod.mk.inj he
    obtain ⟨_, _, _, _, _, _, rfl⟩ := intake_received i w.ctx r ctx' hin
    exact ⟨rfl, rfl, rfl, rfl⟩

theorem act_quiet (a : Act) (w : World σ) (h : ¬ FramesTcp w.ctx) : Quiet a.run w := by
  cases a with
  | take i => exact intake_quiet i w
  | transmit t =>
    have hbuilds : (∃ pdu, t = .sendRaw pdu) ∨ Build (t.run : Proc (World σ) Int) := t.builds
    rcases hbuilds with ⟨pdu, rfl⟩ | hbuild
    · exact sendRaw_quiet pdu w h
    · exact build_quiet hbuild w h

theorem perform_detached :
    Detached (perform : Component UInt16 (Side σ) Act Seen) fun s => ¬ FramesTcp s.ctx where
  blind a next next' s h := by
    have hblind := (act_quiet a (s.world next) h).blind next'
    change a.run.run (s.world next') = _ at hblind
    rw [perform, perform, hblind]
    cases a.run.run (s.world next) with
    | none => rfl
    | some r => rfl
  keeps a next s r h hrun := by
    obtain ⟨⟨ret, w'⟩, hact, rfl⟩ := Option.map_eq_some_iff.mp hrun
    exact fun h' => h (((act_quiet a (s.world next) h).same ret w' hact).framesTcp_iff.mp h')

theorem framed_next (w : World σ) (xs : Bytes) (hf : w.ctx.framerType = .tcp) :
    (framed w xs).nextTransactionId = w.nextTransactionId + 1 := by
  rw [framed, hf]

theorem reportSlaveId_numbered (w : World σ) (hf : w.ctx.framerType = .tcp)
    (h : 8 ≤ w.ctx.txbuf.cells.length) :
    ∃ ret w', (Transmission.run .reportSlaveId).run w = some (ret, w') ∧
      w'.nextTransactionId = w.nextTransactionId + 1 ∧
      transactionId (sent w') = some w.nextTransactionId := by
  have ho : overhead w.ctx.framerType = 7 := by rw [hf, overhead]
  have hlen := frame_length w [0x11]
  rw [ho] at hlen
  have hrun := emit_finish [0x11] 1 w (by decide) le_rfl
    (by rw [List.length_singleton]; omega) (by rw [ho]; exact h)
  rw [← txStore_front] at hrun
  refine ⟨_, _, hrun, framed_next _ _ hf, ?_⟩
  rw [sent_framed _ _ (by
    rw [World.withTx_txbuf, Buffer.patch_cells, overlay_length, List.take_succ_cons, List.take_nil,
      hlen]
    exact h)]
  exact frame_transactionId w _ hf

theorem sendRaw_numbered (w : World σ) (hf : w.ctx.framerType = .tcp)
    (h : w.ctx.txbuf.cells.length = 7) (hcb : w.ctx.sendCb.isSome) (hset : w.ctx.txbufSet) :
    ∃ ret w', (Transmission.run (.sendRaw [])).run w = some (ret, w') ∧
      w'.nextTransactionId = w.nextTransactionId + 1 ∧
      transactionId (sent w') = some w.nextTransactionId := by
  obtain ⟨cb, hcb⟩ := Option.isSome_iff_exists.mp hcb
  have ho : overhead w.ctx.framerType = 7 := by rw [hf, overhead]
  have hlen := frame_length w []
  rw [ho] at hlen
  have hrun := sendRaw_run [] 0 w cb ⟨hcb, hset, Nat.zero_le _⟩ rfl le_rfl
    (by rw [ho]; decide) (Nat.zero_le _) (by rw [ho, h])
  refine ⟨_, _, hrun, framed_next (w.withTx (w.ctx.txbuf.patch [])) (frame w []) hf, ?_⟩
  have hsent : sent (framed (w.withTx (w.ctx.txbuf.patch [])) (frame w [])) = frame w [] := by
    apply sent_framed
    rw [World.withTx_txbuf, Buffer.patch_cells, overlay_length, hlen, h]
    rfl
  exact (congrArg transactionId hsent).trans (frame_transactionId w _ hf)

def Numbered (a : Act) (s : Side σ) : Prop :=
  ∀ next, ∃ o s', perform a next s = some (o, next + 1, s') ∧ transactionId o.frame = some next

theorem numbered_of_run {t : Transmission} {s : Side σ}
    (h : ∀ next, ∃ ret w', t.run.run (s.world next) = some (ret, w') ∧
      w'.nextTransactionId = next + 1 ∧ transactionId (sent w') = some next) :
    Numbered (.transmit t) s := by
  intro next
  obtain ⟨ret, w', hrun, hnext, hid⟩ := h next
  refine ⟨see ret w', ⟨w'.ctx, w'.app, w'.calls⟩, ?_, hid⟩
  rw [perform, Act.run, hrun, Option.map_some, hnext]

/-- A response is built when the registers that it writes are in the request. -/
def Carried : Act → Side σ → Prop
  | .transmit (.respond _), s => FileWriteComplete s.ctx
  | _, _ => True

theorem framesTcp_numbered (s : Side σ) (h : FramesTcp s.ctx) : ∃ a, Carried a s ∧ Numbered a s := by
  obtain ⟨hf, hlarge | ⟨hseven, hcb, hset⟩⟩ := h
  · exact ⟨.transmit .reportSlaveId, trivial,
      numbered_of_run fun next => reportSlaveId_numbered (s.world next) hf hlarge⟩
  · exact ⟨.transmit (.sendRaw []), trivial,
      numbered_of_run fun next => sendRaw_numbered (s.world next) hf hseven hcb hset⟩

/-- The same call of an application. What the memory of the local variables of a
response held before is not the application's to choose. -/
inductive SameCall : Act → Act → Prop
  | same (a : Act) : SameCall a a
  | respond (residue₁ residue₂ : Residue) :
      SameCall (.transmit (.respond residue₁)) (.transmit (.respond residue₂))

theorem perform_same (a b : Act) (next : UInt16) (s : Side σ) (h : SameCall a b)
    (hc : Carried a s) : perform b next s = perform a next s := by
  cases h with
  | same => rfl
  | respond residue₁ residue₂ =>
    have hrun : (paModbusSlaveRespond residue₂).run (s.world next) =
        (paModbusSlaveRespond residue₁).run (s.world next) := respond_residue (s.world next) hc
    rw [perform, perform, Act.run, Act.run, Transmission.run, Transmission.run, hrun]

/-- In every interleaving of their calls the two contexts show what they show when
each makes its own calls alone, with whatever the stack then holds. -/
def ContextsIsolated (next : UInt16) (s : Side σ) (t : Side τ) : Prop :=
  ∀ as bs cs, List.Forall₂ SameCall (lefts as) bs → List.Forall₂ SameCall (rights as) cs →
    Throughout perform Carried next s (lefts as) → Throughout perform Carried next t (rights as) →
    together perform perform next s t as = apart perform perform next s t bs cs

/-- Two contexts of a process are isolated from each other unless both of them
can frame for TCP: they share the transaction counter alone. -/
theorem contexts_isolated_iff (next : UInt16) (s : Side σ) (t : Side τ) :
    ContextsIsolated next s t ↔ ¬ (FramesTcp s.ctx ∧ FramesTcp t.ctx) := by
  constructor
  · rintro hiso ⟨hs, ht⟩
    obtain ⟨a, hca, ha⟩ := framesTcp_numbered s hs
    obtain ⟨b, hcb, hb⟩ := framesTcp_numbered t ht
    obtain ⟨_, _, hfirst, -⟩ := ha next
    obtain ⟨o, t', hnow, hid⟩ := hb next
    obtain ⟨o', t'', hlater, hid'⟩ := hb (next + 1)
    have hagree := apart_agree hfirst (hiso [.inl a, .inr b] [a] [b] (.cons (.same a) .nil)
      (.cons (.same b) .nil) ⟨hca, fun _ _ => trivial⟩ ⟨hcb, fun _ _ => trivial⟩)
    rw [hlater, hnow] at hagree
    have hsame : o' = o := Option.some.inj hagree
    rw [hsame, hid] at hid'
    exact absurd (Option.some.inj hid') (by simp)
  · intro h as bs cs hbs hcs hp hq
    have hisolated : Isolated perform perform next s t := by
      rcases not_and_or.mp h with hs | ht
      · exact perform_detached.isolated hs
      · exact (perform_detached.isolated ht).swap
    rw [hisolated as, apart, apart, alone_congr perform_same hbs hp, alone_congr perform_same hcs hq]

def master : Side Unit := ⟨station .tcp 1 16 16, (), []⟩

def readCoil : Act := .transmit (.readCoils 0 1)

/-- The second master's first request is numbered 2, and 1 if it runs alone. -/
theorem second_master_renumbered :
    (together perform perform 1 master master [.inl readCoil, .inr readCoil]).map
        (fun r => r.2.map Seen.frame) = some [[0, 2, 0, 0, 0, 6, 1, 1, 0, 0, 0, 1]] ∧
      (alone perform 1 master [readCoil]).map (fun os => os.map Seen.frame) =
        some [[0, 1, 0, 0, 0, 6, 1, 1, 0, 0, 0, 1]] ∧
      ¬ ContextsIsolated 1 master master := by
  refine ⟨by decide +kernel, by decide +kernel, fun h => ?_⟩
  have hframes := congrArg (Option.map fun r => r.2.map Seen.frame)
    (h [.inl readCoil, .inr readCoil] [readCoil] [readCoil] (.cons (.same _) .nil)
      (.cons (.same _) .nil) ⟨trivial, fun _ _ => trivial⟩ ⟨trivial, fun _ _ => trivial⟩)
  exact absurd hframes (by decide +kernel)

end Pamodbus.Reentrancy
