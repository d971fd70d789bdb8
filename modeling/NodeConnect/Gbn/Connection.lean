import NodeConnect.Gbn.Queue
import NodeConnect.Lib.Run

/-! Two connections in the data phase. Each endpoint runs a send loop and a receive
loop that interleave at every shared access: a loop's place between two accesses is
part of the state. Clocks, tickers and failing transports only decide when a loop
moves or stops, so they enter as choices of the run. `taken`, `added`, `accepted`
and `handed` are histories; no step reads them. -/
namespace NodeConnect.Gbn
open Lib (Bytes)

inductive Caller where
  | outer
  | full
  deriving DecidableEq, Repr

/-- The loop is in its outer select; it has a packet that is not yet in the queue (`holding`) or not yet sent (`added`);
it is about to compare `size()` with `n`, or has found the queue full and is before (`parking`) or in (`parked`) the
select for that; or it is inside `resend`, up to the wait at its end. -/
inductive SendLoop where
  | select
  | holding (packet : PacketData)
  | added (packet : PacketData)
  | check
  | parking
  | parked
  | resend (caller : Caller)
  | resendBase (caller : Caller)
  | resendTop (caller : Caller) (base : UInt8)
  | resending (caller : Caller) (base top : UInt8)
  | waitForSync (caller : Caller)
  | crashed (fault : Fault)
  deriving DecidableEq, Repr

/-- The loop is in `recvFromStream`; it has sent the ACK of a packet and not yet bumped `recvSeq`, or is about to pass the
packet to `recvDataChan`; it is in `processACK`, past the check of the size (`sized`), or about to offer its signals. -/
inductive ReceiveLoop where
  | ready
  | acknowledged (packet : PacketData)
  | handing (packet : PacketData)
  | sized (seq : UInt8)
  | signalACK (thenResend : Bool)
  | signalResend
  | stopped
  | crashed (fault : Fault)
  deriving DecidableEq, Repr

structure Endpoint where
  n : UInt8
  s : UInt8
  queue : Queue
  recvSeq : UInt8
  lastNackSeq : UInt8
  recvDataChan : List PacketData
  resendSignal : Bool
  sendLoop : SendLoop
  receiveLoop : ReceiveLoop
  taken : List PacketData
  added : List PacketData
  accepted : List PacketData
  handed : List PacketData
  deriving DecidableEq, Repr

def newEndpoint (n : UInt8) : Endpoint where
  n := n
  s := n + 1
  queue := newQueue (n + 1)
  recvSeq := 0
  lastNackSeq := 0
  recvDataChan := []
  resendSignal := false
  sendLoop := .select
  receiveLoop := .ready
  taken := []
  added := []
  accepted := []
  handed := []

/-- What the send loop finds ready in a select; `proceed` is its next step elsewhere. -/
inductive SendAction where
  | take (payload : Bytes) (finalChunk : Bool)
  | ping
  | resendSignal
  | resendTicker
  | proceed (recent : Bool)
  deriving DecidableEq, Repr

def Caller.back : Caller → SendLoop
  | .outer => .select
  | .full => .check

def SendLoop.mayAdd : SendLoop → Prop
  | .select | .holding _ => True
  | .resend caller | .resendBase caller | .resendTop caller _ | .resending caller _ _
  | .waitForSync caller => caller = .outer
  | _ => False

namespace Endpoint

def sendProceed (e : Endpoint) (recent : Bool) : Option (Endpoint × List Message) :=
  match e.sendLoop with
  | .select | .parked | .crashed _ => none
  | .holding packet =>
    match e.queue.addPacket packet with
    | .error fault => some ({e with sendLoop := .crashed fault},[])
    | .ok queue =>
      let packet := {packet with seq := e.queue.sequenceTop}
      some ({e with queue := queue, sendLoop := .added packet, added := e.added ++ [packet]},[])
  | .added packet => some ({e with sendLoop := .check},[.data packet])
  | .check => some ({e with sendLoop := if e.queue.size < e.n then .select else .parking},[])
  | .parking => some ({e with sendLoop := .parked},[])
  | .resend caller =>
    if recent ∨ e.queue.size = 0 then some ({e with sendLoop := caller.back},[])
    else some ({e with sendLoop := .resendBase caller},[])
  | .resendBase caller => some ({e with sendLoop := .resendTop caller e.queue.sequenceBase},[])
  | .resendTop caller base =>
    if base = e.queue.sequenceTop then some ({e with sendLoop := caller.back},[])
    else
      match e.queue.syncer.initResendUpTo e.queue.sequenceTop with
      | .error fault => some ({e with sendLoop := .crashed fault},[])
      | .ok syncer =>
        let queue := {e.queue with syncer := syncer}
        some ({e with queue := queue, sendLoop := .resending caller base queue.sequenceTop},[])
  | .resending caller base top =>
    if base = top then some ({e with sendLoop := .waitForSync caller},[])
    else
      match e.queue.resendNext base with
      | .error fault => some ({e with sendLoop := .crashed fault},[])
      | .ok (packet,next) => some ({e with sendLoop := .resending caller next top},[.data packet])
  | .waitForSync caller =>
    let queue := {e.queue with syncer := e.queue.syncer.reset}
    some ({e with queue := queue, sendLoop := caller.back},[])

def sendStep (e : Endpoint) (action : SendAction) : Option (Endpoint × List Message) :=
  match action, e.sendLoop with
  | .take payload finalChunk, .select =>
    let packet : PacketData := {payload := payload, finalChunk := finalChunk}
    some ({e with sendLoop := .holding packet, taken := e.taken ++ [packet]},[])
  | .ping, .select => some ({e with sendLoop := .holding {isPing := true}},[])
  | .resendSignal, .select =>
    if e.resendSignal then some ({e with sendLoop := .resend .outer, resendSignal := false},[]) else none
  | .resendSignal, .parked =>
    if e.resendSignal then some ({e with sendLoop := .resend .full, resendSignal := false},[]) else none
  | .resendTicker, .select => some ({e with sendLoop := .resend .outer},[])
  | .resendTicker, .parked => some ({e with sendLoop := .resend .full},[])
  | .proceed recent, _ => e.sendProceed recent
  | _, _ => none

def deliver (e : Endpoint) (bytes : Bytes) (recentlySent : Bool) : Endpoint × List Message :=
  match deserialize bytes with
  | .error _ => ({e with receiveLoop := .stopped},[])
  | .ok (.data packet) =>
    if packet.seq = e.recvSeq then
      ({e with receiveLoop := .acknowledged packet, accepted := e.accepted ++ [packet]},[.ack packet.seq])
    else if e.lastNackSeq = e.recvSeq ∧ recentlySent then (e,[])
    else ({e with lastNackSeq := e.recvSeq},[.nack e.recvSeq])
  | .ok (.ack seq) =>
    if e.queue.size = 0 then (e,[]) else ({e with receiveLoop := .sized seq},[])
  | .ok (.nack seq) =>
    let ((shouldResend,bumped),queue) := e.queue.processNACK seq
    let e := {e with queue := queue}
    if ¬ shouldResend then (e,[])
    else if bumped then ({e with receiveLoop := .signalACK true},[])
    else ({e with receiveLoop := .signalResend},[])
  | .ok (.fin) | .ok (.syn _) | .ok (.synack) => ({e with receiveLoop := .stopped},[])

def receiveStep (e : Endpoint) : Option Endpoint :=
  match e.receiveLoop with
  | .ready | .stopped | .crashed _ => none
  | .acknowledged packet =>
    match modulo (e.recvSeq + 1) e.s with
    | .error fault => some {e with receiveLoop := .crashed fault}
    | .ok recvSeq =>
      some {e with recvSeq := recvSeq, receiveLoop := if packet.isPing then .ready else .handing packet}
  | .handing packet =>
    -- With `n = 0` the channel has no buffer and hands over by rendezvous; that is left out, and this place blocks.
    if e.recvDataChan.length < e.n.toNat then
      some {e with receiveLoop := .ready, recvDataChan := e.recvDataChan ++ [packet], handed := e.handed ++ [packet]}
    else none
  | .sized seq =>
    match e.queue.processACKLocked seq with
    | .error fault => some {e with receiveLoop := .crashed fault}
    | .ok (gotValidACK,queue) =>
      some {e with queue := queue, receiveLoop := if gotValidACK then .signalACK false else .ready}
  | .signalACK thenResend =>
    -- The channel has no buffer: the signal is received by a parked send loop or by nobody.
    let e := if e.sendLoop = .parked then {e with sendLoop := .check} else e
    some {e with receiveLoop := if thenResend then .signalResend else .ready}
  | .signalResend => some {e with receiveLoop := .ready, resendSignal := true}

end Endpoint

inductive Side where
  | client
  | server
  deriving DecidableEq, Repr

def Side.other : Side → Side
  | .client => .server
  | .server => .client

theorem Side.other_other (side : Side) : side.other.other = side := by cases side <;> rfl

theorem Side.other_ne (side : Side) : side.other ≠ side := by cases side <;> simp [Side.other]

theorem Side.forall_of_both {property : Side → Prop} (side : Side) (own : property side)
    (opposite : property side.other) : ∀ x, property x := by
  intro x
  cases side <;> cases x <;> assumption

/-- `wire x` holds the messages in flight towards `x`, oldest first. -/
structure Net where
  ends : Side → Endpoint
  wire : Side → List Bytes

/-- A message that is kept when it is delivered arrives again. The application takes a packet from `recvDataChan` at
`drain`, and a `proceedAfterTime` goroutine of the syncer ends its wait at `timer`. -/
inductive Event where
  | send (side : Side) (action : SendAction)
  | deliver (side : Side) (keep recentlySent : Bool)
  | receive (side : Side)
  | drain (side : Side)
  | timer (side : Side)
  | lose (side : Side) (index : Nat)
  deriving DecidableEq, Repr

namespace Net

def initial (n : UInt8) : Net := ⟨fun _ => newEndpoint n,fun _ => []⟩

def update (net : Net) (side : Side) (e : Endpoint) (messages : List Message) : Net where
  ends := Function.update net.ends side e
  wire := Function.update net.wire side.other (net.wire side.other ++ messages.map serialize)

def step (net : Net) : Event → Option Net
  | .send side action => ((net.ends side).sendStep action).map fun (e,messages) => net.update side e messages
  | .deliver side keep recentlySent =>
    match (net.ends side).receiveLoop, net.wire side with
    | .ready, bytes :: rest =>
      let (e,messages) := (net.ends side).deliver bytes recentlySent
      let wire := Function.update net.wire side (if keep then bytes :: rest else rest)
      some ({net with wire := wire}.update side e messages)
    | _, _ => none
  | .receive side => (net.ends side).receiveStep.map fun e => net.update side e []
  | .drain side =>
    match (net.ends side).recvDataChan with
    | _ :: rest => some (net.update side {net.ends side with recvDataChan := rest} [])
    | [] => none
  | .timer side =>
    if 0 < (net.ends side).queue.syncer.timers then
      let queue := {(net.ends side).queue with syncer := (net.ends side).queue.syncer.proceedAfterTime}
      some (net.update side {net.ends side with queue := queue} [])
    else none
  | .lose side index =>
    if index < (net.wire side).length then
      some {net with wire := Function.update net.wire side ((net.wire side).eraseIdx index)}
    else none

end Net

end NodeConnect.Gbn
