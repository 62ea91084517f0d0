import Pamodbus.IdleTimeout

namespace Pamodbus.HostPolls

open Pamodbus.Lib.CInt Pamodbus.Lib.Runs
open Pamodbus.Context Pamodbus.Recv Pamodbus.Accumulator
open Pamodbus.IdleTimeout (twentyTicks Via Timed Timeline Asks Forgets Incomplete Dated begin_dated
  step_dated never_early never_late)

variable {σ : Type}

/-- What `clock_gettime` fills in. -/
structure Timespec where
  tvSec : Nat
  tvNsec : Nat
  below : tvNsec < 1000000000

def Timespec.nanos (ts : Timespec) : Nat := ts.tvSec * 1000000000 + ts.tvNsec

def serTicks (ts : Timespec) : UInt32 := UInt32.ofNat (ts.tvSec * 1000 + ts.tvNsec / 1000000)

/-- What `poll` and `read` come back with: nothing is there, up to `n` bytes are read, or `read`
fails, with `EAGAIN` or with another error. -/
inductive Readable
  | nothing
  | got (n : Nat)
  | again
  | failed

def serRecv (maxLen : Nat) (unread : Bytes) : Readable → Int × Bytes
  | .nothing => (0, [])
  | .got n =>
    let data := unread.take (min n maxLen)
    (int32 data.length, data)
  | .again => (0, [])
  | .failed => (-1, [])

structure PortPoll where
  clock : Timespec
  via : Via
  arrived : Bytes
  answer : Readable

/-- A receiver at its port, with the readings of the clock at the last poll, at the last one that
appended bytes, and at the last one that appended bytes or consumed a frame. -/
structure Host (σ : Type) where
  ctx : PaModbus σ
  unread : Bytes
  time : Nat
  appended : Option Nat
  touched : Option Nat

def Host.begin (ctx : PaModbus σ) : Host σ := ⟨ctx, [], 0, none, none⟩

namespace PortPoll

variable (h : Host σ) (p : PortPoll)

def read : Int × Bytes := serRecv (offered h.ctx) (h.unread ++ p.arrived) p.answer

def recv : Option Bytes := if (p.read h).1 < 0 then none else some (p.read h).2

def op : Op :=
  match p.via with
  | .recv => .recv ⟨serTicks p.clock, p.recv h⟩
  | .recvRaw capacity => .recvRaw ⟨serTicks p.clock, p.recv h⟩ capacity

def timed : Timed := ⟨p.clock.nanos / 1000000, p.via, p.recv h⟩

def heard : Bytes := IdleTimeout.heard h.ctx (p.timed h)

end PortPoll

/-- When bytes were appended last, the poll `p` included. -/
def lastAppend (h : Host σ) (p : PortPoll) : Option Nat :=
  if p.heard h = [] then h.appended else some p.clock.nanos

def lastTouch (h : Host σ) (p : PortPoll) : Option Nat :=
  if p.heard h = [] then h.touched else some p.clock.nanos

def step (h : Host σ) (p : PortPoll) : Option (Host σ) :=
  ((p.op h).run h.ctx).map fun out =>
    { ctx := out.ctx
      unread := (h.unread ++ p.arrived).drop
        (if Asks h.ctx (p.timed h) then (p.read h).2.length else 0)
      time := p.clock.nanos
      appended := lastAppend h p
      touched := if out.dispatched = none then lastTouch h p else some p.clock.nanos }

def OnTime (h : Host σ) (p : PortPoll) : Prop := h.time ≤ p.clock.nanos

/-- Bytes that are given up, but for the reasons of a full buffer, are older than `idle`
milliseconds less one. -/
def NeverEarly (idle : UInt32) (h : Host σ) (p : PortPoll) : Prop :=
  ∀ out, (p.op h).run h.ctx = some out → out.ret = paErrTimeout ∨ Forgets h.ctx (p.timed h) out →
    ∃ t, lastAppend h p = some t ∧ t + idle.toNat * 1000000 < p.clock.nanos + 1000000

/-- After `idle` milliseconds without a byte the first poll gives up. -/
def NeverLate (idle : UInt32) (h : Host σ) (p : PortPoll) : Prop :=
  ∀ t ∈ h.touched, Asks h.ctx (p.timed h) → p.recv h = some [] → accumulator h.ctx ≠ [] →
    (accumulator h.ctx).length < h.ctx.rxbuf.cells.length → Incomplete h.ctx p.via →
    t + idle.toNat * 1000000 ≤ p.clock.nanos → p.clock.nanos - t < (2 ^ 32 - 1) * 1000000 →
    ∃ out, (p.op h).run h.ctx = some out ∧ out.ret = paErrTimeout ∧ accumulator out.ctx = []

variable {idle : UInt32} {h : Host σ} {p : PortPoll}

end Pamodbus.HostPolls
