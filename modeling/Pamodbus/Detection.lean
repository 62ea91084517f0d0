import Pamodbus.BackToBack
import Pamodbus.Chunking

namespace Pamodbus.Detection

open Pamodbus.Lib.Cells Pamodbus.Lib.Scanner
open Pamodbus.Context Pamodbus.FramerRtu Pamodbus.Framer
open Pamodbus.Recv Pamodbus.Receiver Pamodbus.Chunking Pamodbus.BackToBack

variable {σ : Type}

/-- The receive callback never copies more than the `max_len` it is given. -/
def Respects : PaModbus σ → List Chunk → Prop
  | _, [] => True
  | ctx, c :: chunks =>
    ctx.rxLen + c.2.length ≤ ctx.rxbuf.cells.length ∧
      ∀ out, paModbusRecv ctx c.poll = some out → Respects out.ctx chunks

/-- In the stream `unwrap` takes the frame at its end and no other part. -/
def OnlyFrame (ctx : PaModbus σ) (garbage frame : Bytes) : Prop :=
  ∀ pre part suf, garbage ++ frame = pre ++ part ++ suf → accepted ctx part ≠ none →
    pre = garbage ∧ part = frame

/-- Some call dispatches the frame, and no overflow discards bytes of it. -/
def Detected (ctx : PaModbus σ) (chunks : List Chunk) (garbage frame : Bytes) : Prop :=
  (∃ outs ctx', recvRun ctx (chunks.map Chunk.poll) = some (outs, ctx') ∧
    ∃ out ∈ outs, out.dispatched = some frame) ∧
  ∀ early c late outs ctx' out, chunks = early ++ c :: late →
    recvRun ctx (early.map Chunk.poll) = some (outs, ctx') →
    paModbusRecv ctx' c.poll = some out → out.dispatched = none → out.ret = paErrBufferFull →
    (bytesOf (early ++ [c])).length ≤ garbage.length

/-- How many bytes had arrived by the last call that came after a silence of the idle
timeout, or `since` without one. `last` is when bytes last arrived, `got` counts them. -/
def lastSilence (ctx : PaModbus σ) : (last : UInt32) → (got since : Nat) → List Chunk → Nat
  | _, _, since, [] => since
  | last, got, since, c :: chunks =>
    let last := if 0 < c.2.length then c.1 else last
    let got := got + c.2.length
    let silent := ctx.ticksCb ∧ ctx.idleTimeoutTicks ≤ c.1 - last
    lastSilence ctx last got (if silent then got else since) chunks

/-- Bytes number `first` to `last` lie in one block of `size`, counted from `since`. -/
def InOneBlock (size since first last : Nat) : Prop :=
  since ≤ first ∧ (first - since) / size = (last - since) / size

/-- A message of `m` behind `g` elements lies in what is left since the last full
block exactly when no block ends inside of it. -/
theorem covers_iff (size q r n g m : Nat) (hq : q ≤ r) (hr : r + n = g + m) (hn : 0 < n)
    (hm : 0 < m) (hfit : (r - q) % size + n ≤ size) :
    m ≤ (r - q) % size + n ↔ InOneBlock size q g (g + m - 1) := by
  have hsize : 0 < size := by omega
  have hdiv := Nat.div_add_mod (r - q) size
  -- the last block that is not full by the last element is the one that began before it
  have hblock : (g + m - 1 - q) / size = (r - q) / size := by
    rw [Nat.div_eq_iff hsize, Nat.mul_comm]
    omega
  rw [InOneBlock, hblock]
  constructor
  · intro h
    refine ⟨by omega, ?_⟩
    rw [Nat.div_eq_iff hsize, Nat.mul_comm]
    omega
  · rintro ⟨hg, hd⟩
    have hle := Nat.div_mul_le_self (g - q) size
    rw [hd, Nat.mul_comm] at hle
    omega

theorem recv_misses (ctx : PaModbus σ) (b : Buffer UInt8) (acc : Bytes) (t : UInt32) (c : Chunk)
    (hc : ctx.recvCb = true) (hn : b.cells.length ≠ 0)
    (hfit : acc.length + c.2.length ≤ b.cells.length)
    (hs : scan (accepted ctx) 0 (acc ++ c.2) = none) :
    ∃ ret b' acc' t', paModbusRecv (holding ctx b acc t) c.poll =
        some ⟨ret, holding ctx b' acc' t', none⟩ ∧
      b'.cells.length = b.cells.length ∧
      (ctx.ticksCb = true → t' = if 0 < c.2.length then c.1 else t) ∧
      acc' = (if (ctx.ticksCb = true ∧ ctx.idleTimeoutTicks ≤ c.1 - t') ∨
        b.cells.length ≤ acc.length + c.2.length then [] else acc ++ c.2) ∧
      (ret = paErrBufferFull → acc' = []) := by
  have hrecv := recv_holding ctx b acc c.2 t c.1 hc hn hfit
  rw [hs] at hrecv
  dsimp only at hrecv
  have hnow (h : ctx.ticksCb = true) : (if ctx.ticksCb then c.1 else 0) = c.1 := if_pos h
  generalize ht : (if 0 < c.2.length then (if ctx.ticksCb then c.1 else 0) else t) = t' at hrecv
  have ht' (h : ctx.ticksCb = true) : t' = if 0 < c.2.length then c.1 else t := by
    rw [← ht, hnow h]
  have hlen : (holding ctx b (acc ++ c.2) t').rxLen = acc.length + c.2.length :=
    List.length_append
  have hsize : (holding ctx b (acc ++ c.2) t').rxbuf.cells.length = b.cells.length :=
    overlay_length _ _
  have hdrop (t : UInt32) : { holding ctx b (acc ++ c.2) t with rxLen := 0 } =
      holding ctx (b.patch (acc ++ c.2)) [] t := by
    rw [holding_nil]
    rfl
  have hcells : (b.patch (acc ++ c.2)).cells.length = b.cells.length := overlay_length _ _
  rw [keepWaiting, hlen, hsize, hdrop] at hrecv
  by_cases hfull : b.cells.length ≤ acc.length + c.2.length
  · rw [if_pos ⟨by omega, hfull⟩] at hrecv
    exact ⟨_, _, [], t', hrecv, hcells, ht', (if_pos (.inr hfull)).symm, fun _ => rfl⟩
  · rw [if_neg fun h => hfull h.2] at hrecv
    by_cases hsilent : ctx.ticksCb = true ∧ ctx.idleTimeoutTicks ≤ c.1 - t'
    · by_cases hpos : 0 < acc.length + c.2.length
      · rw [if_pos ⟨hsilent.1, hpos, by rw [hnow hsilent.1]; exact hsilent.2⟩] at hrecv
        exact ⟨_, _, [], t', hrecv, hcells, ht', (if_pos (.inl hsilent)).symm, fun _ => rfl⟩
      · rw [if_neg fun h => hpos h.2.1] at hrecv
        have hnil : acc ++ c.2 = [] := List.length_eq_zero_iff.mp (by rw [List.length_append]; omega)
        rw [hnil] at hrecv
        exact ⟨_, b, [], t', hrecv, rfl, ht', (if_pos (.inl hsilent)).symm, fun _ => rfl⟩
    · rw [if_neg fun h => hsilent ⟨h.1, by rw [← hnow h.1]; exact h.2.2⟩] at hrecv
      refine ⟨_, b, _, t', hrecv, rfl, ht', (if_neg ?_).symm, fun h => absurd h (by decide)⟩
      rintro (h | h)
      · exact hsilent h
      · exact hfull h

theorem respects_fit {ctx : PaModbus σ} {b : Buffer UInt8} {acc : Bytes} {t : UInt32} {c : Chunk}
    {chunks : List Chunk} (h : Respects (holding ctx b acc t) (c :: chunks)) :
    acc.length + c.2.length ≤ b.cells.length := by
  have hfit := h.1
  rwa [holding, Buffer.patch_cells, overlay_length] at hfit

/-- Calls that find no frame hold a part of the stream as long as what has come
since the last silence, less the full blocks in it. -/
theorem run_misses (ctx : PaModbus σ) (size : Nat) (b : Buffer UInt8) (chunks : List Chunk)
    (acc : Bytes) (t last : UInt32) (got since : Nat) (hc : ctx.recvCb = true) (hn : size ≠ 0)
    (hsize : b.cells.length = size) (ht : ctx.ticksCb = true → t = last) (hsince : since ≤ got)
    (hacc : acc.length = (got - since) % size) (hmax : Respects (holding ctx b acc t) chunks)
    (hs : Silent (accepted ctx) size (acc ++ bytesOf chunks)) :
    ∃ outs b' acc' t', recvRun (holding ctx b acc t) (chunks.map Chunk.poll) =
        some (outs, holding ctx b' acc' t') ∧
      b'.cells.length = size ∧ (∀ out ∈ outs, out.dispatched = none) ∧
      acc' <:+ acc ++ bytesOf chunks ∧
      lastSilence ctx last got since chunks ≤ got + (bytesOf chunks).length ∧
      acc'.length = (got + (bytesOf chunks).length - lastSilence ctx last got since chunks) % size := by
  induction chunks generalizing b acc t last got since with
  | nil => exact ⟨[], b, acc, t, rfl, hsize, List.forall_mem_nil _, by simp [bytesOf], hsince, hacc⟩
  | cons c chunks ih =>
    have hbytes : bytesOf (c :: chunks) = c.2 ++ bytesOf chunks := List.flatMap_cons
    have hall : acc ++ bytesOf (c :: chunks) = (acc ++ c.2) ++ bytesOf chunks := by
      rw [hbytes, List.append_assoc]
    have hfit := respects_fit hmax
    obtain ⟨ret, b₁, acc₁, t₁, hrecv, hb₁, ht₁, hacc₁, -⟩ := recv_misses ctx b acc t c hc
      (by omega) hfit (hs.scan_none ⟨[], bytesOf chunks, by rw [List.nil_append, hall]⟩
        (by rw [List.length_append]; omega) 0)
    have hsuf : acc₁ <:+ acc ++ c.2 := by
      rw [hacc₁]
      split
      · exact List.nil_suffix
      · exact List.suffix_rfl
    have hsuf' : acc₁ ++ bytesOf chunks <:+ acc ++ bytesOf (c :: chunks) := by
      obtain ⟨l, hl⟩ := hsuf
      exact ⟨l, by rw [hall, ← hl, List.append_assoc]⟩
    have hlast : ctx.ticksCb = true → t₁ = if 0 < c.2.length then c.1 else last := fun h => by
      rw [ht₁ h, ht h]
    rw [lastSilence, hbytes, List.length_append, ← Nat.add_assoc]
    generalize hlast' : (if 0 < c.2.length then c.1 else last) = last₁ at hlast
    generalize hsince' : (if ctx.ticksCb = true ∧ ctx.idleTimeoutTicks ≤ c.1 - last₁ then
      got + c.2.length else since) = since₁
    have hlen₁ : since₁ ≤ got + c.2.length ∧ acc₁.length = (got + c.2.length - since₁) % size := by
      by_cases hsilent : ctx.ticksCb = true ∧ ctx.idleTimeoutTicks ≤ c.1 - last₁
      · rw [if_pos hsilent] at hsince'
        rw [if_pos (.inl ⟨hsilent.1, by rw [hlast hsilent.1]; exact hsilent.2⟩)] at hacc₁
        rw [hacc₁, ← hsince', Nat.sub_self, Nat.zero_mod]
        exact ⟨le_rfl, rfl⟩
      · rw [if_neg hsilent] at hsince'
        refine ⟨by omega, ?_⟩
        have hmod : (got + c.2.length - since₁) % size = (acc.length + c.2.length) % size := by
          rw [hacc, Nat.mod_add_mod]
          congr 1
          omega
        rw [hmod]
        by_cases hfull : b.cells.length ≤ acc.length + c.2.length
        · rw [if_pos (.inr hfull)] at hacc₁
          rw [hacc₁, ← hsize, Nat.le_antisymm hfit hfull, Nat.mod_self]
          rfl
        · rw [if_neg] at hacc₁
          · rw [hacc₁, List.length_append, Nat.mod_eq_of_lt (by omega)]
          · rintro (h | h)
            · exact hsilent ⟨h.1, by rw [← hlast h.1]; exact h.2⟩
            · exact hfull h
    obtain ⟨outs, b', acc', t', hrun, hb', houts, hsuf₂, hsince₂, hlen₂⟩ := ih b₁ acc₁ t₁ last₁
      (got + c.2.length) since₁ (hb₁.trans hsize) hlast hlen₁.1 hlen₁.2 (hmax.2 _ hrecv)
      (hs.part hsuf'.isInfix)
    refine ⟨_, b', acc', t', recvRun_cons.mpr ⟨hrecv, hrun⟩, hb', ?_, hsuf₂.trans hsuf', hsince₂, hlen₂⟩
    rw [List.forall_mem_cons]
    exact ⟨rfl, houts⟩

theorem respects_left {ctx : PaModbus σ} {early late : List Chunk}
    (h : Respects ctx (early ++ late)) : Respects ctx early := by
  induction early generalizing ctx with
  | nil => trivial
  | cons c early ih => exact ⟨h.1, fun out ho => ih (h.2 out ho)⟩

theorem respects_right {ctx ctx' : PaModbus σ} {early late : List Chunk} {outs : List (Outcome σ)}
    (h : Respects ctx (early ++ late))
    (hrun : recvRun ctx (early.map Chunk.poll) = some (outs, ctx')) : Respects ctx' late := by
  induction early generalizing ctx outs with
  | nil =>
    rw [List.map_nil, recvRun, Option.some.injEq, Prod.mk.injEq] at hrun
    rw [← hrun.2]
    exact h
  | cons c early ih =>
    cases outs with
    | nil => simp [recvRun, Option.bind_eq_some_iff] at hrun
    | cons out outs =>
      obtain ⟨ho, hrest⟩ := recvRun_cons.mp hrun
      exact ih (h.2 out ho) hrest

theorem only_silent {ctx : PaModbus σ} {garbage frame l xs r : Bytes} (room : Nat)
    (h : OnlyFrame ctx garbage frame) (hx : garbage ++ frame = l ++ xs ++ r)
    (hout : r ≠ [] ∨ garbage.length < l.length) : Silent (accepted ctx) room xs := by
  rintro part ⟨p, s, rfl⟩ - -
  by_contra hne
  obtain ⟨hl, hp⟩ := h (l ++ p) part (s ++ r) (by simpa using hx) hne
  have hlen := congrArg List.length hl
  have hall := congrArg List.length hx
  rw [hp] at hall
  simp only [List.length_append] at hlen hall
  rcases hout with hr | hlt
  · have hpos := List.length_pos_iff.mpr hr
    omega
  · omega

theorem frame_extracted {ctx : PaModbus σ} {garbage frame l xs : Bytes}
    (h : OnlyFrame ctx garbage frame) (hw : Whole ctx frame) (hx : garbage ++ frame = l ++ xs)
    (hlen : frame.length ≤ xs.length) : extract (accepted ctx) frameLen xs = some (frame, []) := by
  obtain ⟨n, hu, hn⟩ := hw
  obtain ⟨pre, rfl⟩ : frame <:+ xs :=
    List.suffix_of_suffix_length_le (List.suffix_append garbage frame) ⟨l, hx.symm⟩ hlen
  have hne : frame ≠ [] := by
    rw [← List.length_pos_iff]
    omega
  have hscan : scan (accepted ctx) 0 (pre ++ frame) = some (0 + pre.length, 1, n) := by
    refine scan_append 0 hne ?_ ((accepted_iff ctx frame 1 n).mpr hu)
    rintro l' r rfl hr
    by_contra hacc
    have hp := (h (l ++ l') (r ++ frame) [] (by simpa using hx) hacc).2
    exact hr (List.append_left_eq_self.mp hp)
  rw [extract, hscan, Option.map_some, Nat.zero_add, List.drop_left, frameLen, hn, List.take_length,
    List.drop_of_length_le (by rw [List.length_append])]

theorem overflow_discards (ctx : PaModbus σ) (b : Buffer UInt8) (early mid : List Chunk)
    (c : Chunk) (t : UInt32) (hc : ctx.recvCb = true) (hn : b.cells.length ≠ 0)
    (hmax : Respects (holding ctx b [] t) (early ++ c :: mid))
    (hs : Silent (accepted ctx) b.cells.length (bytesOf (early ++ c :: mid)))
    {outs outs' : List (Outcome σ)} {ctx' : PaModbus σ} {out : Outcome σ} {b' : Buffer UInt8}
    {acc' : Bytes} {t' : UInt32}
    (hearly : recvRun (holding ctx b [] t) (early.map Chunk.poll) = some (outs, ctx'))
    (hrecv : paModbusRecv ctx' c.poll = some out) (hret : out.ret = paErrBufferFull)
    (hrun : recvRun (holding ctx b [] t) ((early ++ c :: mid).map Chunk.poll) =
      some (outs', holding ctx b' acc' t')) : acc'.length ≤ (bytesOf mid).length := by
  have hbytes : bytesOf (early ++ c :: mid) = bytesOf early ++ (c.2 ++ bytesOf mid) := by
    simp [bytesOf]
  obtain ⟨outs₁, b₁, acc₁, t₁, hrun₁, hb₁, -, hsuf₁, -⟩ := run_misses ctx b.cells.length b early []
    t t 0 0 hc hn rfl (fun _ => rfl) le_rfl (Nat.zero_mod _).symm (respects_left hmax)
    (hs.part ⟨[], c.2 ++ bytesOf mid, by rw [hbytes]; simp⟩)
  rw [List.nil_append] at hsuf₁
  have hmax₁ := respects_right hmax hrun₁
  have hfit := respects_fit hmax₁
  obtain ⟨l, hl⟩ := hsuf₁
  have hpart : acc₁ ++ c.2 <:+: bytesOf (early ++ c :: mid) :=
    ⟨l, bytesOf mid, by rw [hbytes, ← hl]; simp⟩
  obtain ⟨ret, b₂, acc₂, t₂, hrecv₂, hb₂, -, -, hfull⟩ := recv_misses ctx b₁ acc₁ t₁ c hc (by omega)
    hfit (hs.scan_none hpart (by rw [List.length_append]; omega) 0)
  rw [hearly, Option.some.injEq, Prod.mk.injEq] at hrun₁
  rw [hrun₁.2, hrecv₂, Option.some.injEq] at hrecv
  rw [← hrecv] at hret
  have hnil := hfull hret
  subst hnil
  obtain ⟨outs₃, b₃, acc₃, t₃, hrun₃, -, -, hsuf₃, -⟩ := run_misses ctx b.cells.length b₂ mid [] t₂ t₂
    0 0 hc hn (hb₂.trans hb₁) (fun _ => rfl) le_rfl (Nat.zero_mod _).symm
    (hmax₁.2 _ hrecv₂)
    (hs.part ⟨bytesOf early ++ c.2, [], by rw [hbytes]; simp⟩)
  rw [hrun₁.2] at hearly
  have hwhole := recvRun_append hearly (recvRun_cons.mpr ⟨hrecv₂, hrun₃⟩)
  rw [← List.map_cons, ← List.map_append, hrun, Option.some.injEq, Prod.mk.injEq] at hwhole
  have hlen : acc'.length = acc₃.length := congrArg PaModbus.rxLen hwhole.2
  rw [hlen]
  exact hsuf₃.length_le

theorem bytesOf_nothing {chunks : List Chunk} (h : ∀ c ∈ chunks, c.2 = []) :
    bytesOf chunks = [] := by
  rw [bytesOf, List.flatMap_eq_nil_iff]
  exact h

theorem bytesOf_last {last : Chunk} {tail : List Chunk} (h : ∀ c ∈ tail, c.2 = []) :
    bytesOf (last :: tail) = last.2 := by
  have hcons : bytesOf (last :: tail) = last.2 ++ bytesOf tail := List.flatMap_cons
  rw [hcons, bytesOf_nothing h, List.append_nil]

theorem silent_nothing {chunks : List Chunk} (ctx : PaModbus σ) (size : Nat)
    (h : ∀ c ∈ chunks, c.2 = []) : Silent (accepted ctx) size ([] ++ bytesOf chunks) := by
  rw [bytesOf_nothing h]
  rintro part hp hne -
  exact absurd (List.infix_nil.mp hp) hne

theorem split_cases {α : Type} {init tail early late : List α} {last c : α}
    (h : init ++ last :: tail = early ++ c :: late) :
    (∃ mid, init = early ++ c :: mid) ∨ (early = init ∧ c = last) ∨
      ∃ mid, early = init ++ last :: mid ∧ tail = mid ++ c :: late := by
  rcases List.append_eq_append_iff.mp h with ⟨mid, rfl, hmid⟩ | ⟨mid, rfl, hmid⟩
  · cases mid with
    | nil =>
      rw [List.nil_append, List.cons.injEq] at hmid
      exact .inr (.inl ⟨List.append_nil _, hmid.1.symm⟩)
    | cons m mid =>
      rw [List.cons_append, List.cons.injEq] at hmid
      exact .inr (.inr ⟨mid, by rw [hmid.1], hmid.2⟩)
  · cases mid with
    | nil =>
      rw [List.nil_append, List.cons.injEq] at hmid
      exact .inr (.inl ⟨(List.append_nil _).symm, hmid.1⟩)
    | cons m mid =>
      rw [List.cons_append, List.cons.injEq] at hmid
      exact .inl ⟨mid, by rw [hmid.1]⟩

theorem empty_waits (ctx : PaModbus σ) (b : Buffer UInt8) (chunks : List Chunk) (c : Chunk)
    (t : UInt32) (hf : ctx.framerType = .rtu) (hc : ctx.recvCb = true) (hn : b.cells.length ≠ 0)
    (hmax : Respects (holding ctx b [] t) (chunks ++ [c])) (hnone : ∀ c' ∈ chunks ++ [c], c'.2 = [])
    {outs : List (Outcome σ)} {ctx' : PaModbus σ} {out : Outcome σ}
    (hrun : recvRun (holding ctx b [] t) (chunks.map Chunk.poll) = some (outs, ctx'))
    (hrecv : paModbusRecv ctx' c.poll = some out) : out.ret = paWait := by
  have hbytes : bytesOf chunks = [] :=
    bytesOf_nothing fun c' hm => hnone c' (List.mem_append_left _ hm)
  obtain ⟨outs', b', acc', t', hrun', hb', -, hsuf, -⟩ := run_misses ctx b.cells.length b chunks []
    t t 0 0 hc hn rfl (fun _ => rfl) le_rfl (Nat.zero_mod _).symm (respects_left hmax)
    (silent_nothing ctx _ fun c' hm => hnone c' (List.mem_append_left _ hm))
  rw [hbytes, List.nil_append, List.suffix_nil] at hsuf
  rw [hrun, Option.some.injEq, Prod.mk.injEq, hsuf] at hrun'
  obtain ⟨out', ho, hret, -⟩ := (recv_empty_iff ctx b' [] t' c.1 hf hc (by omega)
    (Nat.zero_le _)).mpr rfl
  have hc2 : c.2 = [] := hnone c (List.mem_append_right _ (List.mem_singleton_self c))
  rw [hrun'.2, Chunk.poll, hc2] at hrecv
  rw [idle, hrecv, Option.some.injEq] at ho
  rw [ho]
  exact hret

/-- The frame at the end of a stream is detected exactly when all of it lies in
one block of the size of the buffer, counted from the last silence. -/
theorem complete_frame_detected_iff (ctx : PaModbus σ) (init tail : List Chunk) (last : Chunk)
    (garbage frame : Bytes) (hf : ctx.framerType = .rtu) (hc : ctx.recvCb = true)
    (hempty : ctx.rxLen = 0) (hw : Whole ctx frame)
    (hsize : frame.length ≤ ctx.rxbuf.cells.length)
    (hstream : bytesOf init ++ last.2 = garbage ++ frame) (hlast : last.2 ≠ [])
    (htail : ∀ c ∈ tail, c.2 = []) (honly : OnlyFrame ctx garbage frame)
    (hmax : Respects ctx (init ++ last :: tail)) :
    Detected ctx (init ++ last :: tail) garbage frame ↔
      InOneBlock ctx.rxbuf.cells.length (lastSilence ctx ctx.lastRxTick 0 0 init) garbage.length
        (garbage.length + frame.length - 1) := by
  have hself : holding ctx ctx.rxbuf [] ctx.lastRxTick = ctx := by
    rw [holding_nil, ← hempty]
  have hpos : 0 < frame.length := by
    obtain ⟨n, -, hn⟩ := hw
    omega
  have hlast' := List.length_pos_iff.mpr hlast
  have hn : ctx.rxbuf.cells.length ≠ 0 := by omega
  have hbytes := congrArg List.length hstream
  rw [List.length_append, List.length_append] at hbytes
  have hinit : Silent (accepted ctx) ctx.rxbuf.cells.length (bytesOf init) :=
    only_silent _ honly (l := []) (by rw [List.nil_append, hstream]) (.inl hlast)
  obtain ⟨outs₁, b₁, acc₁, t₁, hrun₁, hb₁, houts₁, ⟨l, hl⟩, hsince, hlen₁⟩ := run_misses ctx
    ctx.rxbuf.cells.length ctx.rxbuf init [] ctx.lastRxTick ctx.lastRxTick 0 0 hc hn rfl
    (fun _ => rfl) le_rfl (Nat.zero_mod _).symm (hself.symm ▸ respects_left hmax) hinit
  rw [List.nil_append] at hl
  rw [hself] at hrun₁
  rw [Nat.zero_add] at hsince hlen₁
  have hmax₁ := respects_right hmax hrun₁
  have hfit := respects_fit hmax₁
  have hx : garbage ++ frame = l ++ (acc₁ ++ last.2) := by
    rw [← hstream, ← hl, List.append_assoc]
  rw [← covers_iff _ _ _ _ _ _ hsince hbytes hlast' hpos (by omega), ← hlen₁]
  constructor
  · rintro ⟨⟨outs, ctx', hrun, out, hout, hd⟩, -⟩
    by_contra hshort
    have hxlen := congrArg List.length hx
    simp only [List.length_append] at hxlen
    have hs : Silent (accepted ctx) ctx.rxbuf.cells.length (acc₁ ++ last.2) :=
      only_silent _ honly (r := []) (by rw [List.append_nil, hx]) (.inr (by omega))
    obtain ⟨outs₂, b₂, acc₂, t₂, hrun₂, -, houts₂, -⟩ := run_misses ctx ctx.rxbuf.cells.length b₁
      (last :: tail) acc₁ t₁ t₁ acc₁.length 0 hc hn hb₁ (fun _ => rfl) (Nat.zero_le _)
      (Nat.mod_eq_of_lt (by omega)).symm hmax₁ (by rw [bytesOf_last htail]; exact hs)
    have hwhole := recvRun_append hrun₁ hrun₂
    rw [← List.map_append, hrun, Option.some.injEq, Prod.mk.injEq] at hwhole
    rw [hwhole.1, List.mem_append] at hout
    rw [hout.elim (houts₁ out) (houts₂ out)] at hd
    cases hd
  · intro hcovers
    have hext := frame_extracted honly hw hx (by rw [List.length_append]; omega)
    obtain ⟨ret, ctx₂, t₂, hp, hrecv⟩ :=
      recv_extracts ctx b₁ acc₁ last.2 frame [] t₁ last.1 hf hc (by omega) hfit hext
    change paModbusRecv _ last.poll = _ at hrecv
    obtain ⟨hf₂, hc₂, -⟩ := parsed_keeps hp
    have hmax₂ := hmax₁.2 _ hrecv
    have hb₂ : (b₁.patch (acc₁ ++ last.2)).cells.length = ctx.rxbuf.cells.length := by
      rw [Buffer.patch_cells, overlay_length, hb₁]
    generalize b₁.patch (acc₁ ++ last.2) = b₂ at hrecv hmax₂ hb₂
    refine ⟨?_, ?_⟩
    · obtain ⟨outs₃, b₃, acc₃, t₃, hrun₃, -⟩ := run_misses ctx₂ ctx.rxbuf.cells.length b₂ tail []
        t₂ t₂ 0 0 (hc₂.trans hc) hn hb₂ (fun _ => rfl) le_rfl (Nat.zero_mod _).symm hmax₂
        (silent_nothing ctx₂ _ htail)
      have hwhole := recvRun_append hrun₁ (recvRun_cons.mpr ⟨hrecv, hrun₃⟩)
      rw [← List.map_cons, ← List.map_append] at hwhole
      exact ⟨_, _, hwhole, _, List.mem_append_right _ (List.mem_cons_self ..), rfl⟩
    · intro early c late outs ctx' out hsplit hearly hrecv' hnone hfull
      rcases split_cases hsplit with ⟨mid, rfl⟩ | ⟨rfl, rfl⟩ | ⟨mid, rfl, rfl⟩
      · have hheld := overflow_discards ctx ctx.rxbuf early mid c ctx.lastRxTick hc hn
          (hself.symm ▸ respects_left hmax) hinit (hself.symm ▸ hearly) hrecv' hfull
          (hself.symm ▸ hrun₁)
        have hsum : (bytesOf (early ++ c :: mid)).length =
            (bytesOf (early ++ [c])).length + (bytesOf mid).length := by
          simp [bytesOf]
          omega
        omega
      · rw [hrun₁, Option.some.injEq, Prod.mk.injEq] at hearly
        rw [← hearly.2, hrecv, Option.some.injEq] at hrecv'
        rw [← hrecv'] at hnone
        cases hnone
      · have hone : recvRun (holding ctx b₁ acc₁ t₁) [last.poll] =
            some ([⟨ret, holding ctx₂ b₂ [] t₂, some frame⟩], holding ctx₂ b₂ [] t₂) :=
          recvRun_cons.mpr ⟨hrecv, rfl⟩
        rw [List.map_append, List.map_cons, List.append_cons] at hearly
        obtain ⟨outs₃, hrest⟩ := recvRun_rest (recvRun_append hrun₁ hone) hearly
        rw [List.append_cons] at hmax₂ htail
        have hwait := empty_waits ctx₂ b₂ mid c t₂ (hf₂.trans hf) (hc₂.trans hc) (by omega)
          (respects_left hmax₂) (fun c' hm => htail c' (List.mem_append_left _ hm)) hrest hrecv'
        rw [hwait] at hfull
        exact absurd hfull (by decide)

theorem onlyFrame_of_parts {ctx : PaModbus σ} {garbage frame : Bytes}
    (h : ∀ i ≤ (garbage ++ frame).length, ∀ n ≤ (garbage ++ frame).length - i,
      accepted ctx (((garbage ++ frame).drop i).take n) ≠ none →
        i = garbage.length ∧ n = frame.length) : OnlyFrame ctx garbage frame := by
  intro pre part suf hx hacc
  have hlen := congrArg List.length hx
  simp only [List.length_append] at hlen
  have hpart : ((garbage ++ frame).drop pre.length).take part.length = part := by
    rw [hx, List.append_assoc, List.drop_left, List.take_left]
  obtain ⟨hi, hn⟩ := h pre.length (by rw [List.length_append]; omega) part.length
    (by rw [List.length_append]; omega) (by rwa [hpart])
  rw [List.append_assoc] at hx
  obtain ⟨hg, hrest⟩ := List.append_inj hx hi.symm
  have hnil : suf = [] := List.length_eq_zero_iff.mp (by omega)
  rw [hnil, List.append_nil] at hrest
  exact ⟨hg.symm, hrest.symm⟩

def readThree : Bytes := [0x01, 0x03, 0x00, 0x00, 0x00, 0x03, 0x05, 0xCB]

def strayStart : Chunk := (0, [0xAA, 0x01, 0x03, 0x00, 0x00, 0x00, 0x03, 0x05])

def slave (rxSize : UInt16) : PaModbus Unit := paModbusSetMode .slave (station .rtu 1 32 rxSize)

theorem request_behind_stray_detected :
    Detected (slave 9) [strayStart, (0, [0xCB])] [0xAA] readThree := by
  refine (complete_frame_detected_iff (slave 9) [strayStart] [] (0, [0xCB]) [0xAA] readThree rfl rfl
    rfl ⟨5, rfl, rfl⟩ (by decide) rfl (by decide) (List.forall_mem_nil _)
    (onlyFrame_of_parts (by decide +kernel)) ⟨by decide, fun out ho => ?_⟩).mpr
      ⟨by decide, by decide⟩
  have hlens : (paModbusRecv (slave 9) strayStart.poll).map
      (fun o => (o.ctx.rxLen, o.ctx.rxbuf.cells.length)) = some (8, 9) := rfl
  rw [ho, Option.map_some, Option.some.injEq, Prod.mk.injEq] at hlens
  refine ⟨?_, fun _ _ => trivial⟩
  rw [hlens.1, hlens.2]
  decide

theorem request_behind_stray_lost :
    Whole (slave 8) readThree ∧ readThree.length = (slave 8).rxbuf.cells.length ∧
      OnlyFrame (slave 8) [0xAA] readThree ∧
      Respects (slave 8) [strayStart, (0, [0xCB])] ∧
      bytesOf [strayStart, (0, [0xCB])] = [0xAA] ++ readThree ∧
      (recvRun (slave 8) ([strayStart, (0, [0xCB])].map Chunk.poll)).map
        (fun r => r.1.map fun o => (o.ret, o.dispatched)) =
          some [(paErrBufferFull, none), (paWait, none)] ∧
      ¬ Detected (slave 8) [strayStart, (0, [0xCB])] [0xAA] readThree := by
  have hrun : (recvRun (slave 8) ([strayStart, (0, [0xCB])].map Chunk.poll)).map
      (fun r => r.1.map fun o => (o.ret, o.dispatched)) =
        some [(paErrBufferFull, none), (paWait, none)] := rfl
  refine ⟨⟨5, rfl, rfl⟩, rfl, onlyFrame_of_parts (by decide +kernel),
    ⟨by decide, fun out ho => ⟨?_, fun _ _ => trivial⟩⟩, rfl, hrun, ?_⟩
  · have hlens : (paModbusRecv (slave 8) strayStart.poll).map
        (fun o => (o.ctx.rxLen, o.ctx.rxbuf.cells.length)) = some (0, 8) := rfl
    rw [ho, Option.map_some, Option.some.injEq, Prod.mk.injEq] at hlens
    rw [hlens.1, hlens.2]
    decide
  · rintro ⟨⟨outs, ctx', hall, out, hout, hd⟩, -⟩
    rw [hall, Option.map_some, Option.some.injEq] at hrun
    have hmem : (out.ret, out.dispatched) ∈ outs.map fun o => (o.ret, o.dispatched) :=
      List.mem_map_of_mem hout
    rw [hrun, hd] at hmem
    simp at hmem

end Pamodbus.Detection
