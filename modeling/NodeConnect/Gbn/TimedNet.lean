import NodeConnect.Gbn.Connection
import NodeConnect.Gbn.TimeoutManager
import Mathlib.Data.Nat.Find

/-! Two connections with their timeout managers. `sendPacket` puts a packet on the stream and
then calls `Sent`; the receive loop calls `Received` before it works on a message. Between the two
halves of `sendPacket` everything else goes on. Each call takes its readings of the clock, which
are not ordered by the model. -/
namespace NodeConnect.Gbn
open Lib (Bytes)

/-- The number of the packet that was added last under the sequence number; it is the one in that
slot of the queue. -/
def position (added : List PacketData) (seq : UInt8) : Nat :=
  Nat.findGreatest (fun i => added[i]?.map (·.seq) = some seq) added.length

/-- A packet that is on the stream and for which `Sent` has not been called. -/
structure Unrecorded where
  packet : PacketData
  resent : Bool
  position : Nat
  deriving DecidableEq, Repr

/-- `noted` says that `Received` has been called for the oldest message in flight. `log i` is a
history: the transmissions of packet `i` in order, each with the time that `Sent` noted for it. -/
structure Clock where
  manager : TimeoutManager
  pending : Option Unrecorded := none
  noted : Bool := false
  log : Nat → List (Option Int) := fun _ => []

namespace Clock

/-- The first half of `sendPacket`, when the send loop sent the messages. -/
def transmit (c : Clock) (added : List PacketData) (resent : Bool) : List Message → Clock
  | [.data packet] =>
    let i := position added packet.seq
    {c with pending := some ⟨packet,resent,i⟩, log := Function.update c.log i (c.log i ++ [none])}
  | _ => c

/-- The second half. -/
def sent (c : Clock) (sentAt boostAt : Int) : Option Clock :=
  c.pending.map fun u =>
    {c with
      manager := c.manager.sent sentAt boostAt (.data u.packet) u.resent, pending := none
      log := Function.update c.log u.position ((c.log u.position).dropLast ++ [some sentAt])}

def received (c : Clock) (receivedAt resetAt : Int) (bytes : Bytes) : Clock :=
  match deserialize bytes with
  | .error _ => {c with noted := true}
  | .ok msg => {c with noted := true, manager := c.manager.received receivedAt resetAt msg}

end Clock

def SendLoop.resends : SendLoop → Bool
  | .resending _ _ _ => true
  | _ => false

/-- The number of the accepted packet for which a message is sent, if it is an ACK. -/
def Message.acknowledges (accepted : Nat) : Message → Option Nat
  | .ack _ => some accepted
  | _ => none

/-- `origins x` is a history that goes with `wire x`: which packet each ACK was sent for. -/
structure TimedNet where
  net : Net
  clocks : Side → Clock
  origins : Side → List (Option Nat)

inductive TimedEvent where
  | send (side : Side) (action : SendAction)
  | sent (side : Side) (sentAt boostAt : Int)
  | received (side : Side) (receivedAt resetAt : Int)
  | deliver (side : Side) (keep recentlySent : Bool)
  | lose (side : Side) (index : Nat)
  | receive (side : Side)
  | drain (side : Side)
  | timer (side : Side)
  deriving DecidableEq, Repr

namespace TimedNet

def start (n : UInt8) (managers : Side → TimeoutManager) : TimedNet where
  net := Net.initial n
  clocks x := {manager := managers x}
  origins _ := []

/-- The messages that a side sends, with what they acknowledge. -/
def answer (t : TimedNet) (side : Side) (messages : List Message) : Side → List (Option Nat) :=
  Function.update t.origins side.other
    (t.origins side.other ++ messages.map (·.acknowledges (t.net.ends side).accepted.length))

def step (t : TimedNet) : TimedEvent → Option TimedNet
  | .send side action =>
    if (t.clocks side).pending = none then
      ((t.net.ends side).sendStep action).map fun (e,messages) =>
        let clock := (t.clocks side).transmit e.added (t.net.ends side).sendLoop.resends messages
        ⟨t.net.update side e messages,Function.update t.clocks side clock,t.answer side messages⟩
    else none
  | .sent side sentAt boostAt =>
    ((t.clocks side).sent sentAt boostAt).map fun clock => {t with clocks := Function.update t.clocks side clock}
  | .received side receivedAt resetAt =>
    match (t.net.ends side).receiveLoop, t.net.wire side, (t.clocks side).noted with
    | .ready, bytes :: _, false =>
      some {t with clocks := Function.update t.clocks side ((t.clocks side).received receivedAt resetAt bytes)}
    | _, _, _ => none
  | .deliver side keep recentlySent =>
    match t.net.wire side, (t.clocks side).noted with
    | bytes :: _, true =>
      (t.net.step (.deliver side keep recentlySent)).map fun net =>
        let origins := t.answer side ((t.net.ends side).deliver bytes recentlySent).2
        {net
         clocks := Function.update t.clocks side {t.clocks side with noted := false}
         origins := if keep then origins else Function.update origins side (origins side).tail}
    | _, _ => none
  | .lose side index =>
    -- A message that was taken from the stream is not lost any more.
    if (t.clocks side).noted = true ∧ index = 0 then none
    else
      (t.net.step (.lose side index)).map fun net =>
        {t with net, origins := Function.update t.origins side ((t.origins side).eraseIdx index)}
  | .receive side => (t.net.step (.receive side)).map fun net => {t with net}
  | .drain side => (t.net.step (.drain side)).map fun net => {t with net}
  | .timer side => (t.net.step (.timer side)).map fun net => {t with net}

end TimedNet

end NodeConnect.Gbn
