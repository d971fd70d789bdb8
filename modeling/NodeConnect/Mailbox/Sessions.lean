import NodeConnect.Lib.ByteStream
import NodeConnect.Lib.Run
import NodeConnect.Lib.Succession
import Mathlib.Data.Finset.Basic

/-! The connections of a session, one after the other. On the server's side gRPC calls `Accept`
for the next connection as soon as it has one, on the client's side it calls `Dial` when it has
lost one; both wait until the connection before is closed, look up the stream ID again, and make
a new connection or refresh the old one. The server creates the mailboxes for both directions on
the mailbox server, and has to delete them when the ID changes and when the session ends; `Close`
of the server runs at any time beside `Accept`. -/
namespace NodeConnect.Mailbox
open Lib

/-- The streams of the two directions differ in the last bit. -/
def getSID (sid : Bytes) (serverToClient : Bool) : Bytes := if serverToClient then sid else sid.modify 63 (· ^^^ 0x01)

/-- `ctx` is the number of the context that it was given. A connection is made while the handshake of its
go-back-N connection runs, and closed when `quit` is; when the handshake returns an error the object is dropped. -/
structure ServerConn where
  receiveSID : Bytes
  sendSID : Bytes
  receiveBoxCreated : Bool := false
  sendBoxCreated : Bool := false
  ctx : Nat
  place : Phase := .making
  deriving DecidableEq, Repr

inductive StopPlace where
  | close
  | delReceive
  | delSend
  | cancel
  deriving DecidableEq, Repr

/-- `Accept` waits at its select on `quit` and the end of the last connection; at `stop` it is in `Stop` of the connection
`conn`, as the ID has changed to `sid`. -/
inductive AcceptPlace where
  | idle
  | wait
  | compare
  | stop (sid : Bytes) (conn : Nat) (place : StopPlace)
  | stopped (sid : Bytes)
  | make (conn : Nat)
  deriving DecidableEq, Repr

/-- `Close` closes `quit` and reads the field `mailboxConn`; when it has found a connection, it reads the field again to
stop it. -/
inductive ServerClosePlace where
  | idle
  | read
  | found
  | stop (conn : Nat) (place : StopPlace)
  | cancel (stopped : Option Nat)
  | returned (stopped : Option Nat)
  deriving DecidableEq, Repr

/-- `connSID` is what `SID` of the connection data returns now, `conns` lists all connections made so far, and `boxes` are
the mailboxes on the mailbox server that come from this server. -/
structure Server where
  sid : Bytes
  connSID : Option Bytes
  mailboxConn : Option Nat := none
  quit : Bool := false
  ctxDone : Bool := false
  accept : AcceptPlace := .idle
  close : ServerClosePlace := .idle
  conns : List ServerConn := []
  contexts : Nat := 0
  cancelled : Finset Nat := ∅
  boxes : Finset Bytes := ∅
  panicked : Bool := false

/-- How `NewCipherBox` ends; a call that fails may have created the box. -/
inductive BoxOutcome where
  | created
  | alreadyExists
  | failed (applied : Bool)
  deriving DecidableEq, Repr

/-- `deletes` says whether the deletion in a move of `Stop` succeeds. gRPC closes a connection at `connCloses`, and a
handshake on a connection stores a key of the client at `rekeys`. -/
inductive ServerEvent where
  | accept
  | acceptQuits
  | acceptDone
  | compare
  | acceptStops (deletes : Bool)
  | acceptReplaces
  | made
  | makeFails
  | creates (conn : Nat) (receive : Bool) (outcome : BoxOutcome)
  | connCloses (conn : Nat)
  | connClosed (conn : Nat)
  | rekeys (sid : Option Bytes)
  | close
  | closeReads
  | closeCalls
  | closeStops (deletes : Bool)
  | closeCancels
  deriving DecidableEq, Repr

namespace Server

def newServer (sid : Bytes) : Server := {sid, connSID := some sid}

def ctxAlive (s : Server) (c : ServerConn) : Bool := ¬ s.ctxDone ∧ c.ctx ∉ s.cancelled

def setConn (s : Server) (i : Nat) (c : ServerConn) : Server := {s with conns := s.conns.set i c}

/-- `NewServerConn` for the first connection, and `RefreshServerConn` after that. -/
def makes (s : Server) (sid : Bytes) : Server :=
  let s := {s with sid := sid, accept := .make s.conns.length}
  match s.mailboxConn.bind (s.conns[·]?) with
  | none =>
    {s with
      conns := s.conns ++ [{receiveSID := getSID sid false, sendSID := getSID sid true, ctx := s.contexts}]
      contexts := s.contexts + 1}
  | some old => {s with conns := s.conns ++ [{old with place := .making}]}

def delBox (s : Server) (c : ServerConn) (isCreated : Bool) (sid : Bytes) (deletes : Bool) : Option Server :=
  if ¬ isCreated then some s
  else if ¬ deletes then some s
  -- No deletion succeeds after the context has ended.
  else if s.ctxAlive c then some {s with boxes := s.boxes.erase sid} else none

def stopMove (s : Server) (i : Nat) (place : StopPlace) (deletes : Bool) : Option (Server × Option StopPlace) :=
  match s.conns[i]? with
  | none => none
  | some c =>
    match place with
    | .close =>
      -- `Close` runs once, and every other call waits for that one.
      match c.place with
      | .running => some (s.setConn i {c with place := .closing},some .close)
      | .closed => some (s,some .delReceive)
      | _ => none
    | .delReceive => (s.delBox c c.receiveBoxCreated c.receiveSID deletes).map (·,some .delSend)
    | .delSend => (s.delBox c c.sendBoxCreated c.sendSID deletes).map (·,some .cancel)
    | .cancel => some ({s with cancelled := insert c.ctx s.cancelled},none)

def createBox (s : Server) (i : Nat) (c : ServerConn) (receive : Bool) (outcome : BoxOutcome) : Option Server :=
  let sid := if receive then c.receiveSID else c.sendSID
  let marked := if receive then {c with receiveBoxCreated := true} else {c with sendBoxCreated := true}
  match outcome with
  | .failed false => some s
  | .failed true => if s.ctxAlive c then some {s with boxes := insert sid s.boxes} else none
  | .created => if s.ctxAlive c ∧ sid ∉ s.boxes then some {s.setConn i marked with boxes := insert sid s.boxes} else none
  | .alreadyExists => if s.ctxAlive c ∧ sid ∈ s.boxes then some (s.setConn i marked) else none

def move (s : Server) : ServerEvent → Option Server
  | .accept =>
    if s.accept = .idle then
      if s.ctxDone then some s else some {s with accept := if s.mailboxConn = none then .compare else .wait}
    else none
  | .acceptQuits => if s.accept = .wait ∧ s.quit then some {s with accept := .idle} else none
  | .acceptDone =>
    match s.accept, s.mailboxConn.bind (s.conns[·]?) with
    | .wait, some c => if c.place = .closed then some {s with accept := .compare} else none
    | _, _ => none
  | .compare =>
    if s.accept = .compare then
      match s.connSID, s.mailboxConn with
      | none, _ => some {s with accept := .idle}
      | some sid, some i => if s.sid ≠ sid then some {s with accept := .stop sid i .close} else some (s.makes sid)
      | some sid, none => some (s.makes sid)
    else none
  | .acceptStops deletes =>
    match s.accept with
    | .stop sid i place =>
      match s.stopMove i place deletes with
      | none => none
      | some (s,some place) => some {s with accept := .stop sid i place}
      | some (s,none) => some {s with accept := .stopped sid}
    | _ => none
  | .acceptReplaces =>
    match s.accept with
    | .stopped sid => some ({s with mailboxConn := none}.makes sid)
    | _ => none
  | .made =>
    match s.accept with
    | .make i =>
      match s.conns[i]? with
      | none => none
      | some c =>
        -- A handshake has received from the one box and sent to the other. It also ends with the context,
        -- and then without an error.
        if c.receiveBoxCreated ∧ c.sendBoxCreated ∨ ¬ s.ctxAlive c then
          some {s.setConn i {c with place := .running} with mailboxConn := some i, accept := .idle}
        else none
    | _ => none
  | .makeFails =>
    match s.accept with
    | .make i =>
      match s.conns[i]? with
      | none => none
      | some c => some {s.setConn i {c with place := .failed} with accept := .idle}
    | _ => none
  | .creates i receive outcome =>
    match s.conns[i]? with
    | none => none
    | some c => if c.place = .closed then none else s.createBox i c receive outcome
  | .connCloses i =>
    match s.conns[i]? with
    | none => none
    | some c => if c.place = .running then some (s.setConn i {c with place := .closing}) else none
  | .connClosed i =>
    match s.conns[i]? with
    | none => none
    | some c => if c.place = .closing then some (s.setConn i {c with place := .closed}) else none
  | .rekeys sid => if s.mailboxConn = none then none else some {s with connSID := sid}
  | .close => if s.close = .idle then some {s with quit := true, close := .read} else none
  | .closeReads =>
    if s.close = .read then
      some {s with close := match s.mailboxConn with | none => .cancel none | some _ => .found}
    else none
  | .closeCalls =>
    if s.close = .found then
      match s.mailboxConn with
      -- `Accept` has set the field to nil meanwhile.
      | none => some {s with panicked := true}
      | some i => some {s with close := .stop i .close}
    else none
  | .closeStops deletes =>
    match s.close with
    | .stop i place =>
      match s.stopMove i place deletes with
      | none => none
      | some (s,some place) => some {s with close := .stop i place}
      | some (s,none) => some {s with close := .cancel (some i)}
    | _ => none
  | .closeCancels =>
    match s.close with
    | .cancel stopped => some {s with ctxDone := true, close := .returned stopped}
    | _ => none

def step (s : Server) (event : ServerEvent) : Option Server := if s.panicked then none else s.move event

end Server

structure ClientConn where
  receiveSID : Bytes
  sendSID : Bytes
  place : Phase := .making
  deriving DecidableEq, Repr

inductive DialPlace where
  | idle
  | wait
  | compare
  | make (conn : Nat)
  deriving DecidableEq, Repr

structure Client where
  sid : Bytes
  connSID : Option Bytes
  mailboxConn : Option Nat := none
  dial : DialPlace := .idle
  conns : List ClientConn := []
  deriving DecidableEq, Repr

inductive ClientEvent where
  | dial
  | dialDone
  | compare
  | made
  | makeFails
  | connCloses (conn : Nat)
  | connClosed (conn : Nat)
  | rekeys (sid : Option Bytes)
  deriving DecidableEq, Repr

namespace Client

def newClient (sid : Bytes) : Client := {sid, connSID := some sid}

def setConn (c : Client) (i : Nat) (conn : ClientConn) : Client := {c with conns := c.conns.set i conn}

def makes (c : Client) (sid : Bytes) : Client :=
  let c := {c with sid := sid, dial := .make c.conns.length}
  match c.mailboxConn.bind (c.conns[·]?) with
  | none => {c with conns := c.conns ++ [{receiveSID := getSID sid true, sendSID := getSID sid false}]}
  | some old => {c with conns := c.conns ++ [{old with place := .making}]}

def step (c : Client) : ClientEvent → Option Client
  | .dial => if c.dial = .idle then some {c with dial := if c.mailboxConn = none then .compare else .wait} else none
  | .dialDone =>
    match c.dial, c.mailboxConn.bind (c.conns[·]?) with
    | .wait, some conn => if conn.place = .closed then some {c with dial := .compare} else none
    | _, _ => none
  | .compare =>
    if c.dial = .compare then
      match c.connSID with
      | none => some {c with dial := .idle}
      -- `Close` of the last connection does nothing here, as it is closed.
      | some sid => some ((if c.sid ≠ sid then {c with mailboxConn := none} else c).makes sid)
    else none
  | .made =>
    match c.dial with
    | .make i =>
      match c.conns[i]? with
      | none => none
      | some conn => some {c.setConn i {conn with place := .running} with mailboxConn := some i, dial := .idle}
    | _ => none
  | .makeFails =>
    match c.dial with
    | .make i =>
      match c.conns[i]? with
      | none => none
      | some conn => some {c.setConn i {conn with place := .failed} with dial := .idle}
    | _ => none
  | .connCloses i =>
    match c.conns[i]? with
    | none => none
    | some conn => if conn.place = .running then some (c.setConn i {conn with place := .closing}) else none
  | .connClosed i =>
    match c.conns[i]? with
    | none => none
    | some conn => if conn.place = .closing then some (c.setConn i {conn with place := .closed}) else none
  | .rekeys sid => if c.mailboxConn = none then none else some {c with connSID := sid}

end Client

end NodeConnect.Mailbox
