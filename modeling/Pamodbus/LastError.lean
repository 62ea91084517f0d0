import Pamodbus.Feed
import Pamodbus.Lib.Hoare

namespace Pamodbus.LastError

open Pamodbus.Lib.Procedure Pamodbus.Lib.Hoare
open Pamodbus.Context Pamodbus.Framer Pamodbus.MasterParse Pamodbus.Feed
open Pamodbus.SlaveParse (get16)

variable {σ α : Type} {pdu : Bytes} {n : Nat}

def paModbusGetError (ctx : PaModbus σ) : Int := ctx.result.lastError

/-- The bytes that the byte count announces are there, and not too many. -/
def Counted (pdu : Bytes) (n limit : Nat) : Prop :=
  2 ≤ n ∧ ∀ byteCount ∈ pdu[1]?, 2 + byteCount.toNat ≤ n ∧ byteCount.toNat ≤ limit

/-- A response whose length is what its function code asks for. -/
def WellFormed (fc : UInt8) (pdu : Bytes) (n : Nat) : Prop :=
  match fc with
  | 0x01 | 0x02 => Counted pdu n 33
  | 0x03 | 0x04 => Counted pdu n 255
  | 0x05 | 0x06 => 5 ≤ n
  | 0x07 => 2 ≤ n
  | 0x08 | 0x0B => 5 ≤ n
  | 0x0C => Counted pdu n 255
  | 0x0F | 0x10 => 5 ≤ n
  | 0x11 | 0x14 | 0x15 => Counted pdu n 255
  | 0x16 => 7 ≤ n
  | 0x17 => Counted pdu n 255
  | 0x18 => 2 ≤ n ∧ ∀ byteCount ∈ get16 pdu 1, 2 + byteCount.toNat ≤ n
  | _ => False

def SameError (r r' : MasterResult) : Prop := r'.lastError = r.lastError

theorem sameError_refl (r : MasterResult) : SameError r r := rfl

theorem sameError_trans (r r' r'' : MasterResult) (h : SameError r r') (h' : SameError r' r'') :
    SameError r r'' := Eq.trans h' h

def Succeeds (p : Proc MasterResult Int) : Prop := Yields SameError p (· = paOk)

/-- A case that succeeds if `V` holds, and is refused otherwise. -/
structure Judges (p : Proc MasterResult Int) (V : Prop) : Prop where
  accepts : V → Succeeds p
  refuses : ¬ V → ∀ r, p.run r = some (paErrProtocol, r)

theorem succeeds_pure : Succeeds (pure paOk) := yields_pure paOk sameError_refl rfl

theorem succeeds_after {p : Proc MasterResult α} {f : α → Proc MasterResult Int}
    (hp : Within SameError p) (hf : ∀ a, Succeeds (f a)) : Succeeds (p >>= f) :=
  yields_bind sameError_trans hp.yields fun a _ => hf a

theorem succeeds_access {o : Option α} {f : α → Proc MasterResult Int}
    (hf : ∀ a, Succeeds (f a)) : Succeeds (access o >>= f) :=
  succeeds_after (within_access o sameError_refl) hf

theorem coilStore_same (off : Nat) (xs : Bytes) : Within SameError (coilStore off xs) := by
  apply within_update
  intro r r' h
  obtain ⟨d, -, rfl⟩ := Option.map_eq_some_iff.mp h
  rfl

theorem regStore_same (off : Nat) (xs : List UInt16) : Within SameError (regStore off xs) := by
  apply within_update
  intro r r' h
  obtain ⟨d, -, rfl⟩ := Option.map_eq_some_iff.mp h
  rfl

theorem setCoilCount_same (k : Nat) : Within SameError (setCoilCount k) := within_modify fun _ => rfl

theorem setRegCount_same (k : Nat) : Within SameError (setRegCount k) := within_modify fun _ => rfl

theorem getRegisters_same (k : Nat) : Within SameError (getRegisters pdu k) :=
  within_loop k sameError_refl sameError_trans fun i => within_access_bind fun v =>
    regStore_same i [v]

theorem judges_succeeds {p : Proc MasterResult Int} {V : Prop} (hV : V) (hp : Succeeds p) :
    Judges p V := ⟨fun _ => hp, fun hn => absurd hV hn⟩

theorem judges_guard {c V W : Prop} [Decidable c] {p : Proc MasterResult Int}
    (hV : V ↔ ¬ c ∧ W) (hp : ¬ c → Judges p W) :
    Judges (if c then pure paErrProtocol else p) V := by
  by_cases hc : c
  · rw [if_pos hc]
    exact ⟨fun h => absurd hc (hV.mp h).1, fun _ _ => rfl⟩
  · rw [if_neg hc]
    exact ⟨fun h => (hp hc).accepts (hV.mp h).2, fun h => (hp hc).refuses fun hw => h (hV.mpr ⟨hc, hw⟩)⟩

theorem judges_length {c V : Prop} [Decidable c] {p : Proc MasterResult Int}
    (hV : V ↔ ¬ c) (hp : Succeeds p) : Judges (if c then pure paErrProtocol else p) V :=
  judges_guard (hV.trans (and_iff_left trivial).symm) fun _ => judges_succeeds trivial hp

theorem judges_access {o : Option α} {W : α → Prop} {f : α → Proc MasterResult Int}
    (hf : ∀ a, Judges (f a) (W a)) : Judges (access o >>= f) (∀ a ∈ o, W a) := by
  cases o with
  | none =>
    constructor
    · exact fun _ => yields_bind sameError_trans yields_undefined fun a (ha : False) => ha.elim
    · exact fun h => absurd nofun h
  | some a =>
    rw [access_some, pure_bind]
    exact ⟨fun h => (hf a).accepts (h a rfl), fun h => (hf a).refuses fun hw => h fun b hb =>
      Option.some.inj hb ▸ hw⟩

theorem judges_counted {limit : Nat} {f : UInt8 → Proc MasterResult Int}
    (hf : ∀ byteCount, Judges (f byteCount) (byteCount.toNat ≤ limit)) :
    Judges (do
      if n < 2 then return paErrProtocol
      let byteCount ← access pdu[1]?
      if n < 2 + byteCount.toNat then return paErrProtocol
      f byteCount) (Counted pdu n limit) :=
  judges_guard (by rw [Counted, not_lt]) fun _ => judges_access fun bc =>
    judges_guard (by rw [not_lt]) fun _ => hf bc

theorem judges_byte {p : UInt8 → Proc MasterResult Int} (hp : ∀ byteCount, Succeeds (p byteCount))
    (byteCount : UInt8) : Judges (p byteCount) (byteCount.toNat ≤ 255) :=
  judges_succeeds (Nat.le_of_lt_succ byteCount.toNat_lt) (hp byteCount)

theorem readBits_judges : Judges (parseReadBits pdu n) (Counted pdu n 33) :=
  judges_counted fun _ => judges_length not_lt.symm <| succeeds_access fun bits =>
    succeeds_after (coilStore_same 0 bits) fun _ =>
      succeeds_after (setCoilCount_same _) fun _ => succeeds_pure

theorem readRegisters_judges : Judges (parseReadRegisters pdu n) (Counted pdu n 255) := by
  refine judges_counted fun bc => judges_length ?_ <| succeeds_after (setRegCount_same _) fun _ =>
    succeeds_after (getRegisters_same _) fun _ => succeeds_pure
  have hbc := bc.toNat_lt
  omega

theorem echo_judges : Judges (parseEcho n) (5 ≤ n) := judges_length not_lt.symm succeeds_pure

theorem exceptionStatus_judges : Judges (parseExceptionStatus pdu n) (2 ≤ n) :=
  judges_length not_lt.symm <| succeeds_access fun b => succeeds_after (coilStore_same 0 [b]) fun _ =>
    succeeds_after (setCoilCount_same 8) fun _ => succeeds_pure

theorem diagnostic_judges : Judges (parseDiagnostic pdu n) (5 ≤ n) :=
  judges_length not_lt.symm <| succeeds_access fun v => succeeds_after (regStore_same 0 [v]) fun _ =>
    succeeds_after (setRegCount_same 1) fun _ => succeeds_pure

theorem comEventCounter_judges : Judges (parseComEventCounter pdu n) (5 ≤ n) :=
  judges_length not_lt.symm <| succeeds_access fun u => succeeds_after (regStore_same 0 [u]) fun _ =>
    succeeds_access fun v => succeeds_after (regStore_same 1 [v]) fun _ =>
      succeeds_after (setRegCount_same 2) fun _ => succeeds_pure

theorem comEventLog_judges : Judges (parseComEventLog pdu n) (Counted pdu n 255) := by
  refine judges_counted (judges_byte fun bc => ?_)
  by_cases h : 4 ≤ bc.toNat
  · rw [if_pos h]
    refine succeeds_access fun u => succeeds_after (regStore_same 0 [u]) fun _ =>
      succeeds_access fun v => succeeds_after (regStore_same 1 [v]) fun _ =>
        succeeds_after (setRegCount_same 2) fun _ => succeeds_access fun bits => ?_
    exact succeeds_after (coilStore_same 0 bits) fun _ => succeeds_after (setCoilCount_same _)
      fun _ => succeeds_pure
  · rw [if_neg h]
    exact succeeds_pure

theorem reportServerId_judges : Judges (parseReportServerId pdu n) (Counted pdu n 255) := by
  refine judges_counted (judges_byte fun bc => succeeds_after (setRegCount_same _) fun _ => ?_)
  refine succeeds_after (within_loop _ sameError_refl sameError_trans fun i => ?_) fun _ =>
    succeeds_pure
  exact within_access_bind fun b => within_ite (within_access_bind fun _ => regStore_same i _)
    (regStore_same i _)

theorem clampedRegisters_judges : Judges (parseClampedRegisters pdu n) (Counted pdu n 255) :=
  judges_counted <| judges_byte fun _ => succeeds_after (setRegCount_same _) fun _ =>
    succeeds_after (getRegisters_same _) fun _ => succeeds_pure

theorem writeFileRecord_judges : Judges (parseWriteFileRecord pdu n) (Counted pdu n 255) :=
  judges_counted <| judges_byte fun _ => succeeds_pure

theorem maskWriteRegister_judges : Judges (parseMaskWriteRegister pdu n) (7 ≤ n) :=
  judges_length not_lt.symm <| succeeds_access fun u => succeeds_after (regStore_same 0 [u]) fun _ =>
    succeeds_access fun v => succeeds_after (regStore_same 1 [v]) fun _ =>
      succeeds_access fun x => succeeds_after (regStore_same 2 [x]) fun _ =>
        succeeds_after (setRegCount_same 3) fun _ => succeeds_pure

theorem readFifoQueue_judges : Judges (parseReadFifoQueue pdu n)
    (2 ≤ n ∧ ∀ byteCount ∈ get16 pdu 1, 2 + byteCount.toNat ≤ n) :=
  judges_guard (by rw [not_lt]) fun _ => judges_access fun _ => judges_length not_lt.symm <|
    succeeds_after (setRegCount_same _) fun _ => succeeds_after (getRegisters_same _) fun _ =>
      succeeds_pure

theorem parseResponse_judges (fc : UInt8) (pdu : Bytes) (n : Nat) :
    Judges (parseResponse fc pdu n) (WellFormed fc pdu n) := by
  unfold parseResponse
  split
  case h_1 | h_2 => exact readBits_judges
  case h_3 | h_4 => exact readRegisters_judges
  case h_5 | h_6 | h_11 | h_12 => exact echo_judges
  case h_7 => exact exceptionStatus_judges
  case h_8 => exact diagnostic_judges
  case h_9 => exact comEventCounter_judges
  case h_10 => exact comEventLog_judges
  case h_13 => exact reportServerId_judges
  case h_14 | h_17 => exact clampedRegisters_judges
  case h_15 => exact writeFileRecord_judges
  case h_16 => exact maskWriteRegister_judges
  case h_18 => exact readFifoQueue_judges
  case h_19 =>
    unfold WellFormed
    split
    case h_19 => exact ⟨False.elim, fun _ _ => rfl⟩
    all_goals contradiction

/-- A response that is parsed without a difference between the error and what is returned,
`before` being the error shown before. -/
def Agrees (before : Int) (pdu : Bytes) (n : Nat) : Prop :=
  if n < 1 then before = paErrProtocol
  else ∀ fc ∈ pdu[0]?, if fc &&& 0x80 ≠ 0 then n < 2 → before = paErrProtocol
    else WellFormed fc pdu n

/-- After a call that has returned 0 or less, this is the error shown. -/
def Reported (run : Option (Int × PaModbus σ)) : Prop :=
  ∀ ret ctx', run = some (ret, ctx') → ret ≤ 0 → paModbusGetError ctx' = ret

theorem reported_pure (ret : Int) (ctx : PaModbus σ) (h : ret ≤ 0) :
    Reported ((pure ret : Proc (PaModbus σ) Int).run ctx) ↔ ctx.result.lastError = ret := by
  constructor
  · exact fun hr => hr ret ctx rfl h
  · intro he ret' ctx' hrun _
    obtain ⟨rfl, rfl⟩ := (pure_run_iff _ _ _ _).mp hrun
    exact he

theorem reported_undefined {f : α → Proc (PaModbus σ) Int} (ctx : PaModbus σ) :
    Reported ((access none >>= f).run ctx) := by
  intro ret ctx' hrun _
  obtain ⟨a, ha, -⟩ := (access_bind_iff _ _ _ _).mp hrun
  cases ha

theorem parse_reported_iff (ctx : PaModbus σ) (pdu : Bytes) (n : Nat) :
    Reported ((parseMasterResponse pdu n).run ctx) ↔ Agrees ctx.result.lastError pdu n := by
  rw [parseMasterResponse, Agrees]
  by_cases hn : n < 1
  · rw [if_pos hn, if_pos hn]
    exact reported_pure paErrProtocol ctx (by decide)
  rw [if_neg hn, if_neg hn]
  cases h0 : pdu[0]? with
  | none => exact iff_of_true (reported_undefined ctx) nofun
  | some fc =>
    rw [access_some, pure_bind, modify_bind_run]
    simp only [Option.mem_def, Option.some.injEq, forall_eq']
    by_cases hexc : fc &&& 0x80 ≠ 0
    · rw [if_pos hexc, if_pos hexc]
      by_cases hshort : n < 2
      · rw [if_pos hshort, imp_iff_right hshort]
        exact reported_pure paErrProtocol _ (by decide)
      · rw [if_neg hshort]
        refine iff_of_true ?_ fun h => absurd h hshort
        cases pdu[1]? with
        | none => exact reported_undefined _
        | some exception =>
          rw [access_some, pure_bind, modify_bind_run]
          exact (reported_pure paErrException _ (by decide)).mpr rfl
    · rw [if_neg hexc, if_neg hexc, modify_bind_run, onResult, focus_run]
      have hjudges := parseResponse_judges fc pdu n
      constructor
      · intro h
        by_contra hill
        rw [hjudges.refuses hill, Option.map_some] at h
        have herr : paOk = paErrProtocol := h paErrProtocol _ rfl (by decide)
        exact absurd herr (by decide)
      · intro hwell ret ctx' hrun _
        obtain ⟨⟨r, result⟩, hparse, he⟩ := Option.map_eq_some_iff.mp hrun
        obtain ⟨rfl, rfl⟩ := Prod.mk.inj he
        obtain ⟨hsame, rfl⟩ := hjudges.accepts hwell _ _ _ hparse
        exact hsame

/-- After a feed the error shown is what was returned if and only if the frame is not
parsed, or is a response with an exception code, or has the length that its function
code asks for; a protocol error that was shown before covers the two shortest ones. -/
theorem error_reported_iff (ctx : PaModbus σ) (data : Bytes) :
    Reported ((paModbusMasterFeed data).run ctx) ↔ ∀ p n, unwrap ctx data = some (.ok p n) →
      Agrees ctx.result.lastError (data.drop p) n := by
  obtain ⟨u, hu⟩ := unwrap_defined ctx data
  cases u with
  | ok p n =>
    rw [masterFeed_ok ctx data p n hu, parse_reported_iff, hu]
    constructor
    · rintro h _ _ ⟨⟩
      exact h
    · exact fun h => h p n rfl
  | ret r =>
    rw [masterFeed_ret ctx data r hu, hu]
    refine iff_of_true ?_ nofun
    intro ret ctx' hrun hret
    obtain ⟨rfl, rfl⟩ := Prod.mk.inj (Option.some.inj hrun)
    have hne := unwrap_ret_ne ctx data r hu
    rw [if_pos (by omega)]
    rfl

/-- A response to a read of registers that announces eight bytes and carries seven. -/
theorem short_response_shown_as_ok :
    let run := (paModbusMasterFeed [0, 1, 0, 0, 0, 10, 1, 0x03, 8, 0, 1, 0, 2, 0, 3, 0, 4]).run
      (station .tcp 1 16 16 : PaModbus Unit)
    run.map (fun r => (r.1, paModbusGetError r.2)) = some (paErrProtocol, paOk) ∧
      ¬ Reported run := by
  intro run
  have hshown : run.map (fun r => (r.1, paModbusGetError r.2)) = some (paErrProtocol, paOk) := by
    decide
  refine ⟨hshown, fun h => ?_⟩
  obtain ⟨⟨ret, ctx'⟩, hrun, he⟩ := Option.map_eq_some_iff.mp hshown
  obtain ⟨rfl, herr⟩ := Prod.mk.inj he
  have hsame := h paErrProtocol ctx' hrun (by decide)
  exact absurd (herr.symm.trans hsame) (by decide)

end Pamodbus.LastError
