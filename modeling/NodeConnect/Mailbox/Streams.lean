import NodeConnect.Gbn.ArbitraryPeer
import NodeConnect.Mailbox.ConnKit

/-! The streams under a go-back-N connection, and its end. Both loops, and `Close` with its
FIN, send through one stream to the mailbox, and try again on a new one until the mailbox
takes the message; a stream that fails may have passed the message on before. The client
holds its mutex through a whole call, the server only while it connects or makes one
attempt, so that its calls can overtake each other between two attempts. A mailbox keeps the
order in which it took the messages; it may lose them or hand one out again. -/
namespace NodeConnect.Mailbox
open Lib Gbn

/-- The goroutines of a connection: its two loops, and whichever one runs `Close`. -/
inductive Loop where
  | sender
  | receiver
  | closer
  deriving DecidableEq, Repr

/-- A call of `send` or `sendToStream` looks for a stream (`enter`), makes one in `createSendMailBox`, and goes through the
select (`check`) and the attempts of the retry loop. -/
inductive SendPlace where
  | enter
  | connect
  | check
  | attempt
  | failed
  deriving DecidableEq, Repr

structure SendCall where
  payload : Bytes
  place : SendPlace := .enter
  deriving DecidableEq, Repr

inductive RecvPlace where
  | enter
  | connect
  | check
  | receive
  | failed
  deriving DecidableEq, Repr

inductive Attempt where
  | ok
  | retry
  | fatal
  deriving DecidableEq, Repr

/-- What the surroundings decide: which ready case a select takes, whether a new stream is made, whether
the mailbox gets the message, and how the call of the transport ends. -/
structure Outcome where
  quits : Bool
  connects : Bool
  reaches : Bool
  result : Attempt
  deriving DecidableEq, Repr

/-- It has `faulted` once a stream was used that there is not. -/
structure Streams where
  impl : ControlConn
  quit : Bool := false
  ctxDone : Bool := false
  finExpired : Bool := false
  sendConnected : Bool := false
  receiveConnected : Bool := false
  sendMu : Option Loop := none
  calls : Loop → Option SendCall := fun _ => none
  recv : Option RecvPlace := none
  faulted : Bool := false

namespace Streams

def setCall (st : Streams) (loop : Loop) (call : Option SendCall) : Streams :=
  {st with calls := Function.update st.calls loop call}

def done (st : Streams) : Loop → Bool
  | .sender | .receiver => st.ctxDone
  | .closer => st.ctxDone || st.finExpired

/-- The client keeps its mutex until the call returns. -/
def betweenAttempts (st : Streams) (loop : Loop) : Option Loop :=
  match st.impl with
  | .client => some loop
  | .server => none

def released (st : Streams) : Option Loop :=
  match st.impl with
  | .client => none
  | .server => st.sendMu

/-- One move of the call that a loop has in progress, and what the mailbox gets from it. -/
def sendMove (st : Streams) (loop : Loop) (outcome : Outcome) : Option (Streams × List Bytes) :=
  match st.calls loop with
  | none => none
  | some ⟨payload,place⟩ =>
    let goto (place : SendPlace) (sendMu : Option Loop) : Streams :=
      {st.setCall loop (some ⟨payload,place⟩) with sendMu := sendMu}
    let returns (sendMu : Option Loop) : Streams := {st.setCall loop none with sendMu := sendMu}
    match place with
    | .failed => none
    | .enter =>
      if st.sendMu = none then
        if st.sendConnected then some (goto .check (st.betweenAttempts loop),[]) else some (goto .connect (some loop),[])
      else none
    | .connect =>
      if st.quit ∨ st.done loop then some (goto .check (st.betweenAttempts loop),[])
      else if outcome.connects then some ({goto .check (st.betweenAttempts loop) with sendConnected := true},[])
      else some (st,[])
    | .check =>
      if st.quit ∧ (¬ st.done loop ∨ outcome.quits) then some (returns st.released,[])
      else if st.done loop then some (goto .failed st.released,[])
      else some (goto .attempt st.sendMu,[])
    | .attempt =>
      -- The server locks the mutex here.
      if st.impl = .server ∧ st.sendMu ≠ none then none
      else if ¬ st.sendConnected then some ({st with faulted := true},[])
      else
        let reached := if outcome.reaches then [payload] else []
        match outcome.result, st.impl with
        | .ok, _ => some (returns none,reached)
        | .retry, _ | .fatal, .server => some (goto .connect (some loop),reached)
        | .fatal, .client => some (goto .failed none,reached)

def recvMove (st : Streams) (outcome : Outcome) : Option Streams :=
  match st.recv with
  | none | some .failed => none
  | some .enter => some {st with recv := some (if st.receiveConnected then .check else .connect)}
  | some .connect =>
    if st.quit ∨ st.ctxDone then some {st with recv := some .check}
    else if outcome.connects then some {st with receiveConnected := true, recv := some .check}
    else some st
  | some .check =>
    -- On quit there is no message and no error, and the parser rejects what is no message.
    if st.quit ∨ st.ctxDone then some {st with recv := some .failed} else some {st with recv := some .receive}
  | some .receive =>
    if ¬ st.receiveConnected then some {st with faulted := true}
    else
      match outcome.result, st.impl with
      | .ok, _ => some {st with recv := none}
      | .retry, _ | .fatal, .server => some {st with recv := some .connect}
      | .fatal, .client => some {st with recv := some .failed}

inductive Sends (st : Streams) (loop : Loop) (payload : Bytes) : SendPlace → Streams → List Bytes → Prop
  | finds (free : st.sendMu = none) (connected : st.sendConnected = true) :
    Sends st loop payload .enter {st.setCall loop (some ⟨payload,.check⟩) with sendMu := st.betweenAttempts loop} []
  | misses (free : st.sendMu = none) (missing : ¬ st.sendConnected = true) :
    Sends st loop payload .enter {st.setCall loop (some ⟨payload,.connect⟩) with sendMu := some loop} []
  | givesUp (stopping : st.quit = true ∨ st.done loop = true) :
    Sends st loop payload .connect {st.setCall loop (some ⟨payload,.check⟩) with sendMu := st.betweenAttempts loop} []
  | connects : Sends st loop payload .connect
      {st.setCall loop (some ⟨payload,.check⟩) with sendMu := st.betweenAttempts loop, sendConnected := true} []
  | waits : Sends st loop payload .connect st []
  | quits (quit : st.quit = true) : Sends st loop payload .check {st.setCall loop none with sendMu := st.released} []
  | fails (finished : st.done loop = true) :
    Sends st loop payload .check {st.setCall loop (some ⟨payload,.failed⟩) with sendMu := st.released} []
  | tries (going : ¬ (st.quit = true ∨ st.done loop = true)) :
    Sends st loop payload .check (st.setCall loop (some ⟨payload,.attempt⟩)) []
  | faults (missing : ¬ st.sendConnected = true) : Sends st loop payload .attempt {st with faulted := true} []
  | sent (free : ¬ (st.impl = .server ∧ st.sendMu ≠ none)) (reaches : Bool) :
    Sends st loop payload .attempt {st.setCall loop none with sendMu := none} (if reaches then [payload] else [])
  | retries (free : ¬ (st.impl = .server ∧ st.sendMu ≠ none)) (reaches : Bool) :
    Sends st loop payload .attempt {st.setCall loop (some ⟨payload,.connect⟩) with sendMu := some loop}
      (if reaches then [payload] else [])
  | rejected (client : st.impl = .client) (reaches : Bool) :
    Sends st loop payload .attempt {st.setCall loop (some ⟨payload,.failed⟩) with sendMu := none}
      (if reaches then [payload] else [])

theorem sendMove_sends {st st' : Streams} {loop : Loop} {outcome : Outcome} {reached : List Bytes}
    (moved : st.sendMove loop outcome = some (st',reached)) :
    ∃ payload place, st.calls loop = some ⟨payload,place⟩ ∧ st.Sends loop payload place st' reached := by
  unfold sendMove at moved
  split at moved
  next => contradiction
  next payload place called =>
    refine ⟨payload,place,called,?_⟩
    cases place with
    | failed => contradiction
    | enter =>
      simp only at moved
      split_ifs at moved with free connected <;> cases moved
      · exact .finds free connected
      · exact .misses free connected
    | connect =>
      simp only at moved
      split_ifs at moved with stopping connects <;> cases moved
      · exact .givesUp stopping
      · exact .connects
      · exact .waits
    | check =>
      simp only at moved
      split_ifs at moved with quitting finished <;> cases moved
      · exact .quits quitting.1
      · exact .fails finished
      · exact .tries fun stopping => stopping.elim (fun quit => quitting ⟨quit,.inl finished⟩) finished
    | attempt =>
      simp only at moved
      split at moved
      next => contradiction
      next free =>
        split at moved
        next missing =>
          cases moved
          exact .faults missing
        next connected =>
          split at moved <;> cases moved
          · exact .sent free outcome.reaches
          · exact .retries free outcome.reaches
          · exact .retries free outcome.reaches
          · exact .rejected ‹_› outcome.reaches

end Streams

def SendCall.pending : SendCall → List Bytes
  | ⟨_,.failed⟩ => []
  | ⟨payload,.enter⟩ | ⟨payload,.connect⟩ | ⟨payload,.check⟩ | ⟨payload,.attempt⟩ => [payload]

def Streams.trying (st : Streams) (loop : Loop) : List Bytes := ((st.calls loop).map SendCall.pending).getD []

def begins (messages : List Message) : Option SendCall := messages.head?.map fun message => {payload := serialize message}

inductive ClosePlace where
  | idle
  | check
  | fin
  | cancel
  | stop
  | wait
  | closed
  deriving DecidableEq, Repr

structure Closing where
  quit : Bool := false
  remoteClosed : Bool := false
  queueQuit : Bool := false
  sendReturned : Bool := false
  receiveReturned : Bool := false
  place : ClosePlace := .idle
  deriving DecidableEq, Repr

/-- Whether the send loop can return: from a select on `quit` or the pong ticker, or because a packet could not be sent. -/
def sendEnds (e : Endpoint) (st : Streams) (c : Closing) : Bool :=
  match st.calls .sender with
  | some call => call.place = .failed
  | none =>
    match e.sendLoop with
    | .select => true
    | .parked => c.quit
    | _ => false

def receiveEnds (e : Endpoint) (st : Streams) (c : Closing) : Bool :=
  match st.calls .receiver, st.recv with
  | some call, _ => call.place = .failed
  | none, some place => place = .failed
  | none, none =>
    match e.receiveLoop with
    | .ready | .handing _ => c.quit
    | .stopped => true
    | _ => false

def sendReturns (e : Endpoint) : Endpoint := if e.sendLoop = .parked then {e with sendLoop := .parking} else e

def syncQuits (e : Endpoint) : Option Endpoint :=
  match e.sendLoop with
  | .waitForSync caller => some {e with sendLoop := caller.back}
  | _ => none

def closeMove (st : Streams) (c : Closing) : Option (Streams × Closing) :=
  match c.place with
  | .idle | .closed => none
  | .check =>
    if c.remoteClosed then some (st,{c with place := .cancel})
    else some (st.setCall .closer (begins [.fin]),{c with place := .fin})
  | .fin =>
    match st.calls .closer with
    | none | some ⟨_,.failed⟩ => some (st.setCall .closer none,{c with place := .cancel})
    | some _ => none
  | .cancel => some ({st with ctxDone := true},{c with place := .stop})
  | .stop => some (st,{c with queueQuit := true, place := .wait})
  | .wait => if c.sendReturned ∧ c.receiveReturned then some (st,{c with place := .closed}) else none

/-- Two connections with their streams; `wire x` is what the mailbox holds for `x`, oldest first. -/
structure Mail where
  ends : Side → Endpoint
  wire : Side → List Bytes
  streams : Side → Streams
  closing : Side → Closing

/-- The mailbox connection closes its own `quit` when the go-back-N connection is closed (`quit`); `cancel` ends the
context that the connection was made with. -/
inductive MailEvent where
  | send (side : Side) (action : SendAction)
  | receive (side : Side)
  | drain (side : Side)
  | timer (side : Side)
  | call (side : Side) (loop : Loop) (outcome : Outcome)
  | recvBegins (side : Side)
  | recv (side : Side) (outcome : Outcome) (keep recentlySent : Bool)
  | lose (side : Side) (index : Nat)
  | sendReturns (side : Side)
  | receiveReturns (side : Side)
  | syncQuits (side : Side)
  | close (side : Side)
  | closeMove (side : Side)
  | finExpires (side : Side)
  | quit (side : Side)
  | cancel (side : Side)
  deriving DecidableEq, Repr

namespace Mail

def implOf : Side → ControlConn
  | .client => .client
  | .server => .server

def initial (n : UInt8) : Mail := ⟨fun _ => newEndpoint n,fun _ => [],fun x => {impl := implOf x},fun _ => {}⟩

def setStreams (s : Mail) (side : Side) (st : Streams) : Mail := {s with streams := Function.update s.streams side st}

def setEnd (s : Mail) (side : Side) (e : Endpoint) : Mail := {s with ends := Function.update s.ends side e}

def setClosing (s : Mail) (side : Side) (c : Closing) : Mail := {s with closing := Function.update s.closing side c}

def isFin (bytes : Bytes) : Bool := bytes == serialize .fin

def step (s : Mail) : MailEvent → Option Mail
  | .send side action =>
    if (s.closing side).sendReturned = false ∧ (s.streams side).calls .sender = none then
      ((s.ends side).sendStep action).map fun (e,messages) =>
        (s.setEnd side e).setStreams side ((s.streams side).setCall .sender (begins messages))
    else none
  | .receive side =>
    if (s.closing side).receiveReturned = false ∧ (s.streams side).calls .receiver = none then
      (s.ends side).receiveStep.map (s.setEnd side)
    else none
  | .drain side => ((s.ends side).step .drain).map (s.setEnd side)
  | .timer side => ((s.ends side).step .timer).map (s.setEnd side)
  | .call side loop outcome =>
    ((s.streams side).sendMove loop outcome).map fun (st,reached) =>
      {s.setStreams side st with wire := Function.update s.wire side.other (s.wire side.other ++ reached)}
  | .recvBegins side =>
    if ((s.closing side).receiveReturned = false ∧ (s.closing side).quit = false) ∧
        (s.ends side).receiveLoop = .ready ∧ (s.streams side).calls .receiver = none ∧ (s.streams side).recv = none then
      some (s.setStreams side {s.streams side with recv := some .enter})
    else none
  | .recv side outcome keep recentlySent =>
    match (s.streams side).recvMove outcome with
    | none => none
    | some st =>
      if st.recv = none then
        match (s.ends side).receiveLoop, s.wire side with
        | .ready, bytes :: rest =>
          let (e,messages) := (s.ends side).deliver bytes recentlySent
          let c := if isFin bytes then {s.closing side with remoteClosed := true} else s.closing side
          some {((s.setEnd side e).setStreams side (st.setCall .receiver (begins messages))).setClosing side c with
            wire := Function.update s.wire side (if keep then bytes :: rest else rest)}
        | _, _ => none
      else some (s.setStreams side st)
  | .lose side index =>
    if index < (s.wire side).length then
      some {s with wire := Function.update s.wire side ((s.wire side).eraseIdx index)}
    else none
  | .sendReturns side =>
    if (s.closing side).sendReturned = false ∧ sendEnds (s.ends side) (s.streams side) (s.closing side) then
      some ((s.setEnd side (Mailbox.sendReturns (s.ends side))).setClosing side {s.closing side with sendReturned := true})
    else none
  | .receiveReturns side =>
    if (s.closing side).receiveReturned = false ∧ receiveEnds (s.ends side) (s.streams side) (s.closing side) then
      some (s.setClosing side {s.closing side with receiveReturned := true})
    else none
  | .syncQuits side =>
    if (s.closing side).sendReturned = false ∧ (s.closing side).queueQuit then
      (Mailbox.syncQuits (s.ends side)).map (s.setEnd side)
    else none
  | .close side =>
    if (s.closing side).place = .idle then some (s.setClosing side {s.closing side with quit := true, place := .check})
    else none
  | .closeMove side =>
    (Mailbox.closeMove (s.streams side) (s.closing side)).map fun (st,c) => (s.setStreams side st).setClosing side c
  | .finExpires side =>
    if (s.closing side).place = .fin then some (s.setStreams side {s.streams side with finExpired := true}) else none
  | .quit side =>
    if (s.closing side).place = .closed then some (s.setStreams side {s.streams side with quit := true}) else none
  | .cancel side => some (s.setStreams side {s.streams side with ctxDone := true})

end Mail

end NodeConnect.Mailbox
