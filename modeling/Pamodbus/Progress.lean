import Pamodbus.Agreement

namespace Pamodbus.Progress

open Pamodbus.Lib.Exchange Pamodbus.Lib.Runs
open Pamodbus.Context Pamodbus.FramerRtu Pamodbus.ReadRequests Pamodbus.Respond
open Pamodbus.Accumulator Pamodbus.Transactions Pamodbus.Transactions.Transaction
open Pamodbus.SerialLink Pamodbus.LinkRuns Pamodbus.Agreement Pamodbus.Boundaries
open Pamodbus.TestBanks

variable {σ τ : Type} {view : σ → Tables} {size : ReadKind → Nat} {code : UInt8}
  {l l' : Link τ σ} {e : LineSession} {events : List Event}

def Unconfirmed (size : ReadKind → Nat) : Transaction → Prop
  | .write (.multipleCoils addr values) =>
    (Transaction.write (.multipleCoils addr values)).Inside size
  | .write (.multipleRegisters addr values) =>
    (Transaction.write (.multipleRegisters addr values)).Inside size
  | _ => False

/-- A slave's answers are lost on the master exactly for these writes. -/
theorem fulfil_unanswered_iff (t : Tables) (x : Transaction) :
    (x.fulfil size code t).1 = .unanswered ↔ Unconfirmed size x := by
  rw [fulfil]
  cases x with
  | read kind addr count =>
    split
    · cases kind with
      | _ => simp [confirmation, Tables.shown, Unconfirmed]
    · simp [refusal, Unconfirmed]
  | write request =>
    cases request with
    | singleCoil addr value | singleRegister addr value | maskRegister addr andMask orMask =>
      split
      · simp [confirmation, Unconfirmed]
      · simp [refusal, Unconfirmed]
    | multipleCoils addr values | multipleRegisters addr values =>
      split
      next hin => simp [confirmation, Unconfirmed, hin]
      next hout => simp [refusal, Unconfirmed, hout]

theorem copied_all {mode : Mode} {ctx : PaModbus σ} {acc line : Bytes} {n : Nat}
    (h : Station mode ctx) (hheld : Holds ctx acc) (hn : 255 ≤ n)
    (hlen : (acc ++ line).length ≤ 255) : line.drop (copied ctx line n).length = [] := by
  have hrx := h.rx
  have hl := hheld.2
  have hoffered := offered_eq ctx ctx.rxbuf.cells.length ⟨h.callback, rfl, by omega, hheld.le⟩
  rw [List.length_append] at hlen
  rw [copied, List.length_take, List.drop_eq_nil_iff]
  omega

theorem slaveTurn_line {tick : UInt32} {n : Nat} {residue : Residue}
    (h : l.slaveTurn code tick n residue = some l') :
    l'.down = l.down.drop (copied l.slave.ctx l.down n).length ∧ l'.pending = l.pending ∧
      l'.replies = l.replies := by
  obtain ⟨out, -, h⟩ := Option.bind_eq_some_iff.mp h
  obtain ⟨⟨ret, w⟩, -, h⟩ := Option.bind_eq_some_iff.mp h
  rw [← Option.some.inj h]
  exact ⟨rfl, rfl, rfl⟩

theorem masterTurn_lines {tick : UInt32} {n : Nat} (h : l.masterTurn tick n = some l') :
    l'.down = l.down ∧ l'.up = l.up.drop (copied l.master.ctx l.up n).length := by
  obtain ⟨out, -, h⟩ := Option.bind_eq_some_iff.mp h
  dsimp only at h
  split at h
  · rw [← Option.some.inj h]
    exact ⟨rfl, rfl⟩
  · split at h
    · rw [← Option.some.inj h]
      exact ⟨rfl, rfl⟩
    · obtain ⟨reply, -, h⟩ := Option.bind_eq_some_iff.mp h
      rw [← Option.some.inj h]
      exact ⟨rfl, rfl⟩

theorem slave_takes {asked : Option (Transaction × Option Reply)} (h : Joined view size true l)
    (hphase : Phase l asked) (hclean : l.spoiled = false) {n : Nat} (hn : 255 ≤ n) :
    l.down.drop (copied l.slave.ctx l.down n).length = [] := by
  cases hphase with
  | idle _ hdown hup hslave hmaster => rw [hdown, List.drop_nil]
  | answering x reply pdu acc _ hpdu hreaches hmaster hsplit hup hdown hslave =>
    rw [hdown, List.drop_nil]
  | asking x pdu acc _ hv henc hslave hsplit hdown hup hmaster =>
    refine copied_all h.slave.toStation hslave hn ?_
    rw [hsplit, rtuFrame_length, encodes_length henc]
    have := pduLen_le hv.buildable
    omega
  | disturbed _ acc acc' hspoiled hslave hmaster =>
    rw [hclean] at hspoiled
    cases hspoiled

theorem master_takes {asked : Option (Transaction × Option Reply)} (h : Joined view size true l)
    (hphase : Phase l asked) (hclean : l.spoiled = false) {n : Nat} (hn : 255 ≤ n) :
    l.up.drop (copied l.master.ctx l.up n).length = [] := by
  cases hphase with
  | idle _ hdown hup hslave hmaster => rw [hup, List.drop_nil]
  | asking x pdu acc _ hv henc hslave hsplit hdown hup hmaster => rw [hup, List.drop_nil]
  | answering x reply pdu acc _ hpdu hreaches hmaster hsplit hup hdown hslave =>
    refine copied_all h.master hmaster hn ?_
    rw [hsplit, rtuFrame_length]
    omega
  | disturbed _ acc acc' hspoiled hslave hmaster =>
    rw [hclean] at hspoiled
    cases hspoiled

theorem step_clean {event : Event} (hstep : l.step code event = some l')
    (hclean : l.spoiled = false)
    (hquiet : disturbs event = false) : l'.spoiled = false := by
  by_contra hs
  rw [Bool.not_eq_false] at hs
  rcases step_spoiled hstep hs with h | h
  · rw [hclean] at h
    cases h
  · rw [hquiet] at h
    cases h

theorem follows_due {e' : LineSession} {t : Tables} {given : List (Transaction × Reply)}
    {x : Transaction} (hf : Follows size code true false none e e')
    (h : Session.Due (Transaction.fulfil size code) t given x e) :
    Session.Due (Transaction.fulfil size code) t given x e' := by
  rcases hf with ⟨-, rfl⟩ | hs
  · exact h
  · exact h.step hs

/-- The slave, whose tables were `t`, has carried out the request `x`. The master has been given its
reply, or it is a write after which nothing comes any more. -/
structure Settled (view : σ → Tables) (size : ReadKind → Nat) (code : UInt8) (t : Tables)
    (given : List (Transaction × Reply)) (x : Transaction) (l : Link τ σ) : Prop where
  store : view l.slave.app = (x.fulfil size code t).2
  reply : l.pending = none ∧ l.replies = given ++ [(x, (x.fulfil size code t).1)] ∨
    Unconfirmed size x ∧ l.pending = some x ∧ l.Silent

theorem taken_settled {t : Tables} {given : List (Transaction × Reply)} {x : Transaction}
    (h : Carries view size true l e) (hclean : l.spoiled = false) (hdown : l.down = [])
    (hup : l.up = []) (hdue : Session.Due (Transaction.fulfil size code) t given x e) :
    Settled view size code t given x l := by
  have hpending := h.pending
  have hphase := h.phase
  cases hdue with
  | asked done =>
    cases hphase with
    | asking x' pdu acc _ hv henc hslave hsplit hdown' hup' hmaster => exact absurd hdown hdown'
    | disturbed _ acc acc' hspoiled hslave hmaster =>
      rw [hclean] at hspoiled
      cases hspoiled
  | performed done =>
    refine ⟨h.store, .inr ?_⟩
    generalize hr : (x.fulfil size code t).1 = reply at hphase
    cases hphase with
    | answering x' reply pdu acc _ hpdu hreaches hmaster hsplit hup' hdown' hslave =>
      obtain rfl := hup'.resolve_left (not_not.mpr hup)
      exact ⟨(fulfil_unanswered_iff t x).mp hr, hpending, hdown, hup, hslave.2⟩
    | disturbed _ acc acc' hspoiled hslave hmaster =>
      rw [hclean] at hspoiled
      cases hspoiled
  | told done => exact ⟨h.store, .inl ⟨hpending, h.replies⟩⟩

theorem turns_settle {t : Tables} {given : List (Transaction × Reply)} {x : Transaction}
    {tick tick' : UInt32} {n n' : Nat} {residue : Residue} (h : Carries view size true l e)
    (hdue : Session.Due (Transaction.fulfil size code) t given x e) (hclean : l.spoiled = false)
    (hslave : Fair l (.slaveTurn tick n residue))
    (hmaster : ∀ l₁ ∈ l.slaveTurn code tick n residue, Fair l₁ (.masterTurn tick' n'))
    (hn : 255 ≤ n) (hn' : 255 ≤ n') :
    ∃ l₁ l₂, l.slaveTurn code tick n residue = some l₁ ∧ l₁.masterTurn tick' n' = some l₂ ∧
      Settled view size code t given x l₂ := by
  -- the slave takes the rest of the request
  obtain ⟨l₁, e₁, hstep₁, hfollows₁, hcarries₁⟩ := step_simulates h _ hslave false
    fun hs => by rw [hclean] at hs; cases hs
  have hclean₁ := step_clean hstep₁ hclean rfl
  obtain ⟨hdown₁, -, -⟩ := slaveTurn_line hstep₁
  rw [slave_takes h.joined h.phase hclean hn] at hdown₁
  -- the master takes the response
  obtain ⟨l₂, e₂, hstep₂, hfollows₂, hcarries₂⟩ := step_simulates hcarries₁ _ (hmaster l₁ hstep₁)
    false fun hs => by rw [hclean₁] at hs; cases hs
  obtain ⟨hdown₂, hup₂⟩ := masterTurn_lines hstep₂
  rw [master_takes hcarries₁.joined hcarries₁.phase hclean₁ hn'] at hup₂
  exact ⟨l₁, l₂, hstep₁, hstep₂, taken_settled hcarries₂ (step_clean hstep₂ hclean₁ rfl)
    (hdown₂.trans hdown₁) hup₂ (follows_due hfollows₂ (follows_due hfollows₁ hdue))⟩

/-- Once both stations have taken all there is to take, a request that has not been disturbed has
been carried out after those that the replies before account for, and has its reply. The exception
are writes of several items, after which nothing comes any more. -/
theorem line_answers {x : Transaction} {tick tick' : UInt32} {n n' : Nat} {residue : Residue}
    (h : AtRest view size true l) (hafter : after (Link.step code) l events = some l')
    (hpending : l'.pending = some x) (hclean : l'.spoiled = false)
    (hrun : FairRun code l (events ++ [.slaveTurn tick n residue, .masterTurn tick' n']))
    (hn : 255 ≤ n) (hn' : 255 ≤ n') :
    ∃ l'' done, after (Link.step code) l (events ++ [.slaveTurn tick n residue,
        .masterTurn tick' n']) = some l'' ∧
      Told size code true (view l.slave.app) done l'.replies ∧
      Settled view size code (performed size code (view l.slave.app) done).2 l'.replies x l'' := by
  obtain ⟨hfirst, hslave, hmaster⟩ := (throughout_append hafter).mp hrun
  obtain ⟨l₀, e, hafter', hcarries, he, -⟩ := run_carries true h.carries
    (Session.consistent_start (view l.slave.app)) hfirst (fun _ => rfl) (fun _ _ _ => rfl)
  obtain rfl : l' = l₀ := Option.some.inj (hafter.symm.trans hafter')
  obtain ⟨⟨x', o⟩, hasked, rfl⟩ :=
    Option.map_eq_some_iff.mp (hcarries.pending.symm.trans hpending)
  obtain ⟨done, htold, hdue⟩ := he.due hasked
  obtain ⟨l₁, l₂, hstep₁, hstep₂, hsettled⟩ := turns_settle hcarries hdue hclean hslave
    (fun l₁ hstep₁ => (hmaster l₁ hstep₁).1) hn hn'
  rw [← hcarries.replies] at htold hsettled
  refine ⟨l₂, done, ?_, htold, hsettled⟩
  rw [after_append hafter, after, Link.step, hstep₁, Option.bind_some, after, Link.step, hstep₂]
  rfl

theorem pending_read_answered : ∃ (l' l'' : Link Unit (Banks 1 4 × Banks 1 4))
    (done : List Transaction),
    after (Link.step 0x02) smallLine [.issue (.read .coils 0 3)] = some l' ∧
      after (Link.step 0x02) smallLine ([.issue (.read .coils 0 3)] ++
        [.slaveTurn 0 255 fun _ _ => 0, .masterTurn 0 255]) = some l'' ∧
      Told (sizes 8 4) 0x02 true (tables Banks.view smallLine.slave.app) done l'.replies ∧
      Settled (tables Banks.view) (sizes 8 4) 0x02
        (performed (sizes 8 4) 0x02 (tables Banks.view smallLine.slave.app) done).2 l'.replies
        (.read .coils 0 3) l'' := by
  have hsome : (after (Link.step 0x02) smallLine [.issue (.read .coils 0 3)]).isSome := by
    decide +kernel
  obtain ⟨l', hafter⟩ := Option.isSome_iff_exists.mp hsome
  have hstate : (after (Link.step 0x02) smallLine [.issue (.read .coils 0 3)]).map
      (fun l => (l.pending, l.spoiled)) = some (some (.read .coils 0 3), false) := by
    decide +kernel
  have hfair : FairRun 0x02 smallLine ([.issue (.read .coils 0 3)] ++
      [.slaveTurn 0 255 fun _ _ => 0, .masterTurn 0 255]) := by decide +kernel
  rw [hafter, Option.map_some, Option.some.injEq, Prod.mk.injEq] at hstate
  obtain ⟨l'', done, hlast, htold, hsettled⟩ := line_answers smallLine_atRest hafter hstate.1
    hstate.2 hfair le_rfl le_rfl
  exact ⟨l', l'', done, hafter, hlast, htold, hsettled⟩

/-- The slave drops what is left of a disturbed message. -/
theorem disturbed_expires (h : Carries view size true l e) (hspoiled : l.spoiled = true)
    (hdown : l.down = []) (hup : l.up = []) {tick : UInt32} {n : Nat}
    (hclear : Clear l.spoiled l.slave.ctx l.down n) (hticks : l.slave.ctx.ticksCb = true)
    (hidle : l.slave.ctx.idleTimeoutTicks ≤ tick - l.slave.ctx.lastRxTick) (code : UInt8)
    (residue : Residue) :
    ∃ l', l.slaveTurn code tick n residue = some l' ∧ l'.Silent := by
  obtain ⟨acc, -, hslave, -⟩ := h.phase.holds
  have hrx := h.joined.slave.rx
  have hline : copied l.slave.ctx l.down n = [] := by rw [hdown, copied, List.take_nil]
  rw [Clear, hline, hslave.1] at hclear
  have hno : ¬ (Passes l.slave.ctx (acc ++ []) ∧ l.down.drop 0 = [] ∧ l.spoiled = false) := by
    rw [hspoiled]
    exact fun hp => Bool.noConfusion hp.2.2
  have hsilent := silent_of_unmistaken hclear hno
  rw [List.append_nil, ← hslave.1] at hsilent
  obtain ⟨ret, ctx, acc', hrecv, -, -, hret⟩ := turn_fruitless tick h.joined.slave.toStation hslave
    (by have hle := hslave.le; rw [hslave.2] at hle; exact hle) hclear hno
  have hempty := recv_expires tick h.joined.slave.callback (by omega) hslave.le hticks hidle hsilent
    hrecv
  rw [← hline] at hrecv
  have hne : ret ≠ paOk := by
    rcases fruitless_ret hret with rfl | rfl | rfl
    · decide
    · decide
    · decide
  refine ⟨_, slaveTurn_fruitless hrecv hne, ?_, hup, hempty⟩
  rw [hdown, List.drop_nil]

theorem giveUp_ready (h : l.Silent) (x : Transaction) (hv : x.Valid) :
    Fair l.giveUp (.issue x) := by
  obtain ⟨master, slave, down, up, pending, replies, spoiled⟩ := l
  cases pending with
  | none => exact ⟨rfl, hv, h, rfl⟩
  | some y => exact ⟨rfl, hv, h, rfl⟩

/-- Wherever a run has got to, and whatever has been disturbed: after a silence the master can
ask again. -/
theorem line_recovers {tick : UInt32} {n : Nat} {residue : Residue} (h : AtRest view size true l)
    (hafter : after (Link.step code) l events = some l')
    (hrun : FairRun code l (events ++ [.disturb [] [], .slaveTurn tick n residue]))
    (hticks : l'.slave.ctx.ticksCb = true)
    (hidle : l'.slave.ctx.idleTimeoutTicks ≤ tick - l'.slave.ctx.lastRxTick)
    (x : Transaction) (hv : x.Valid) :
    FairRun code l
      (events ++ [.disturb [] [], .slaveTurn tick n residue, .giveUp, .issue x]) := by
  obtain ⟨hfirst, -, hlast⟩ := (throughout_append hafter).mp hrun
  obtain ⟨l₀, e, hafter', hcarries, he, -⟩ := run_carries true h.carries
    (Session.consistent_start (view l.slave.app)) hfirst (fun _ => rfl) (fun _ _ _ => rfl)
  obtain rfl : l' = l₀ := Option.some.inj (hafter.symm.trans hafter')
  obtain ⟨l₁, e₁, hstep₁, -, hcarries₁⟩ := step_simulates hcarries (.disturb [] []) trivial true
    fun _ => rfl
  obtain ⟨hfair, -⟩ := hlast l₁ hstep₁
  obtain rfl := Option.some.inj hstep₁
  obtain ⟨l₂, hstep₂, hsilent⟩ := disturbed_expires hcarries₁ rfl rfl rfl hfair.1 hticks
    hidle code residue
  refine (throughout_append hafter).mpr ⟨hfirst, trivial, fun l₃ hstep₃ => ?_⟩
  obtain rfl := Option.some.inj hstep₃
  refine ⟨hfair, fun l₄ hstep₄ => ?_⟩
  obtain rfl : l₂ = l₄ := Option.some.inj (hstep₂.symm.trans hstep₄)
  refine ⟨hsilent, fun l₅ hstep₅ => ?_⟩
  obtain rfl := Option.some.inj hstep₅
  exact ⟨giveUp_ready hsilent x hv, fun _ _ => trivial⟩

def strayByte : List Event :=
  [.issue (.write (.singleRegister 1 7)), .slaveTurn 0 3 fun _ _ => 0, .disturb [0x2A] [],
    .slaveTurn 1 8 fun _ _ => 0]

theorem stray_byte_recovers :
    (after (Link.step 0x02) smallLine strayByte).map (fun l => l.slave.ctx.rxLen) = some 4 ∧
      FairRun 0x02 smallLine (strayByte ++ [.disturb [] [], .slaveTurn 50 8 fun _ _ => 0, .giveUp,
        .issue (.read .coils 0 3)]) := by
  have hstate : (after (Link.step 0x02) smallLine strayByte).map (fun l => (l.slave.ctx.ticksCb,
      decide (l.slave.ctx.idleTimeoutTicks ≤ 50 - l.slave.ctx.lastRxTick))) =
        some (true, true) := by decide +kernel
  obtain ⟨l', hafter, hsilence⟩ := Option.map_eq_some_iff.mp hstate
  obtain ⟨hticks, hidle⟩ := Prod.mk.inj hsilence
  exact ⟨by decide +kernel, line_recovers smallLine_atRest hafter (by decide +kernel) hticks
    (of_decide_eq_true hidle) _ (by decide +kernel)⟩

/-- On an undisturbed line every request that is over has been replied to as one slave does after the
requests before it. It is left without a response if it writes several items and has been carried
out, and only then. -/
theorem unanswered_iff {x : Transaction} {reply : Reply}
    {earlier later : List (Transaction × Reply)} (h : AtRest view size true l)
    (hrun : FairRun code l events) (hquiet : ∀ event ∈ events, disturbs event = false)
    (hafter : after (Link.step code) l events = some l')
    (hreplies : l'.replies = earlier ++ (x, reply) :: later) :
    reply = (x.fulfil size code
        (performed size code (view l.slave.app) (earlier.map Prod.fst)).2).1 ∧
      (reply = .unanswered ↔ Unconfirmed size x) := by
  obtain ⟨l₁, hafter', hagrees⟩ := run_agrees false h hrun
    fun event hm hd => by rw [hquiet event hm] at hd; cases hd
  obtain rfl : l' = l₁ := Option.some.inj (hafter.symm.trans hafter')
  obtain ⟨done, htold, -⟩ := hagrees.store
  rw [hreplies] at htold
  obtain ⟨done', htold', rfl⟩ := htold.sure fun hl => by cases hl
  obtain ⟨rfl, -⟩ := htold'.exact
  exact ⟨rfl, fulfil_unanswered_iff _ x⟩

def abandonedWrite : List Event :=
  [.issue (.write (.multipleRegisters 1 [7, 8])), .slaveTurn 0 255 fun _ _ => 0,
    .masterTurn 0 255, .giveUp]

theorem abandoned_write_unanswered : ∃ l' : Link Unit (Banks 1 4 × Banks 1 4),
    after (Link.step 0x02) smallLine abandonedWrite = some l' ∧
      l'.replies = [] ++ (.write (.multipleRegisters 1 [7, 8]), .unanswered) :: [] ∧
      Reply.unanswered = (Transaction.fulfil (sizes 8 4) 0x02
        (performed (sizes 8 4) 0x02 (tables Banks.view smallLine.slave.app)
          (([] : List (Transaction × Reply)).map Prod.fst)).2
        (.write (.multipleRegisters 1 [7, 8]))).1 ∧
      (Reply.unanswered = .unanswered ↔
        Unconfirmed (sizes 8 4) (.write (.multipleRegisters 1 [7, 8]))) := by
  have hsome : (after (Link.step 0x02) smallLine abandonedWrite).isSome := by decide +kernel
  obtain ⟨l', hafter⟩ := Option.isSome_iff_exists.mp hsome
  have hreplies : (after (Link.step 0x02) smallLine abandonedWrite).map Link.replies =
      some [(.write (.multipleRegisters 1 [7, 8]), .unanswered)] := by decide +kernel
  rw [hafter, Option.map_some, Option.some.injEq] at hreplies
  exact ⟨l', hafter, hreplies, unanswered_iff smallLine_atRest (by decide +kernel)
    (by decide +kernel) hafter hreplies⟩

end Pamodbus.Progress
