import NodeConnect.Gbn.Messages
import NodeConnect.Lib.Window
import NodeConnect.Lib.Fallible

/-! The sender's queue: a ring of `s` slots with a window from `sequenceBase` to
`sequenceTop` modulo `s`. All arithmetic is the byte arithmetic of the source.
Run-time panics are outcomes of their own; the clock enters `resend` only through
the answer to its own question, whether the last resend was too recent. -/
namespace NodeConnect.Gbn
open Lib (Bytes)

inductive Fault where
  | indexOutOfRange
  | divideByZero
  | nilDereference
  | diverges
  deriving DecidableEq, Repr

def modulo (a b : UInt8) : Except Fault UInt8 :=
  if b = 0 then .error .divideByZero else .ok (a % b)

inductive SyncState where
  | idle
  | resending
  deriving DecidableEq, Repr

/-- `timers` counts the `proceedAfterTime` goroutines that are still waiting. -/
structure Syncer where
  s : UInt8
  state : SyncState
  expectedACK : UInt8
  expectedNACK : UInt8
  timers : Nat
  deriving DecidableEq, Repr

def newSyncer (s : UInt8) : Syncer := ⟨s,.idle,0,0,0⟩

namespace Syncer

def reset (c : Syncer) : Syncer := {c with state := .idle}

def initResendUpTo (c : Syncer) (top : UInt8) : Except Fault Syncer := do
  let expectedACK ← modulo (c.s + top - 1) c.s
  return {c with state := .resending, expectedACK := expectedACK, expectedNACK := top}

theorem initResendUpTo_ok {c started : Syncer} {top : UInt8} (ok : c.initResendUpTo top = .ok started) :
    started = {c with state := .resending, expectedACK := (c.s + top - 1) % c.s, expectedNACK := top} := by
  obtain ⟨expected,computed,ok⟩ := Lib.Fallible.except_bind_ok ok
  unfold modulo at computed
  split_ifs at computed
  cases computed
  cases ok
  rfl

def processACK (c : Syncer) (seq : UInt8) : Syncer :=
  if c.state ≠ .resending then c
  else if seq ≠ c.expectedACK then c
  else {c with timers := c.timers + 1}

def processNACK (c : Syncer) (seq : UInt8) : Syncer :=
  if c.state ≠ .resending then c
  else if seq ≠ c.expectedNACK then c
  else c.reset

def proceedAfterTime (c : Syncer) : Syncer :=
  let c := {c with timers := c.timers - 1}
  if c.state ≠ .resending then c else c.reset

end Syncer

/-- A slot is `none` until its first packet; slots outside the window keep stale packets. -/
structure Queue where
  s : UInt8
  content : List (Option PacketData)
  sequenceBase : UInt8
  sequenceTop : UInt8
  syncer : Syncer
  deriving DecidableEq, Repr

def newQueue (s : UInt8) : Queue := ⟨s,List.replicate s.toNat none,0,0,newSyncer s⟩

def containsSequence (base top seq : UInt8) : Bool :=
  if base = top then false
  else if base < top then
    if base ≤ seq ∧ seq < top then true else false
  else if seq < top ∨ base ≤ seq then true
  else false

structure Resent where
  packets : List PacketData
  failed : Bool
  deriving DecidableEq, Repr

namespace Queue

def size (q : Queue) : UInt8 :=
  if q.sequenceBase ≤ q.sequenceTop then q.sequenceTop - q.sequenceBase
  else q.sequenceTop + (q.s - q.sequenceBase)

def addPacket (q : Queue) (packet : PacketData) : Except Fault Queue :=
  if q.sequenceTop.toNat < q.content.length then do
    let content := q.content.set q.sequenceTop.toNat (some {packet with seq := q.sequenceTop})
    let top ← modulo (q.sequenceTop + 1) q.s
    return {q with content := content, sequenceTop := top}
  else .error .indexOutOfRange

/-- The body of the resend loop: the packet at `base`, and the index after it. -/
def resendNext (q : Queue) (base : UInt8) : Except Fault (PacketData × UInt8) :=
  match q.content[base.toNat]? with
  | none => .error .indexOutOfRange
  | some none => .error .nilDereference
  | some (some packet) => do
    let next ← modulo (base + 1) q.s
    return (packet,next)

/-- `sendPkt` lists the outcomes of the sends to come; past its end they succeed.
An index is a byte, so a loop that has not met `top` after 256 rounds never does. -/
def resendLoop (q : Queue) (top : UInt8) : Nat → List Bool → UInt8 → Except Fault Resent
  | 0, _, _ => .error .diverges
  | fuel + 1, sendPkt, base =>
    if base = top then .ok ⟨[],false⟩
    else do
      let (packet,next) ← q.resendNext base
      match sendPkt with
      | false :: _ => return ⟨[],true⟩
      | _ =>
        let rest ← q.resendLoop top fuel sendPkt.tail next
        return {rest with packets := packet :: rest.packets}

def resend (q : Queue) (recent : Bool) (sendPkt : List Bool) : Except Fault (Queue × Resent) :=
  if recent then .ok (q,⟨[],false⟩)
  else if q.size = 0 then .ok (q,⟨[],false⟩)
  else if q.sequenceBase = q.sequenceTop then .ok (q,⟨[],false⟩)
  else do
    let syncer ← q.syncer.initResendUpTo q.sequenceTop
    let q := {q with syncer := syncer}
    let sent ← q.resendLoop q.sequenceTop 257 sendPkt q.sequenceBase
    -- An error returns before `waitForSync`, which ends by resetting the syncer.
    if sent.failed then return (q,sent)
    return ({q with syncer := q.syncer.reset},sent)

/-- The part of `processACK` under the base lock, after the check of the size. -/
def processACKLocked (q : Queue) (seq : UInt8) : Except Fault (Bool × Queue) := do
  let q := {q with syncer := q.syncer.processACK seq}
  if seq = q.sequenceBase then
    let base ← modulo (q.sequenceBase + 1) q.s
    return (true,{q with sequenceBase := base})
  else if containsSequence q.sequenceBase q.sequenceTop seq then
    let base ← modulo (seq + 1) q.s
    return (true,{q with sequenceBase := base})
  else return (false,q)

def processACK (q : Queue) (seq : UInt8) : Except Fault (Bool × Queue) :=
  if q.size = 0 then .ok (false,q) else q.processACKLocked seq

/-- Returns whether to resend the queue, and whether the base was bumped. -/
def processNACK (q : Queue) (seq : UInt8) : (Bool × Bool) × Queue :=
  let q := {q with syncer := q.syncer.processNACK seq}
  if seq = q.sequenceTop then ((false,true),{q with sequenceBase := q.sequenceTop})
  else if ¬ containsSequence q.sequenceBase q.sequenceTop seq then ((false,false),q)
  else ((true,q.sequenceBase ≠ seq),{q with sequenceBase := seq})

/-- The labels of the packets that are sent and not yet acknowledged, oldest first. -/
def window (q : Queue) : List Nat := Lib.labels q.s.toNat q.sequenceBase.toNat q.size.toNat

end Queue

end NodeConnect.Gbn
