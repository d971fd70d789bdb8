import NodeConnect.Gbn.ServerHandshake

/-! The opening of a connection: both handshakes, the goroutine that reads for each of
them, and the connection that each one starts when it completes. A reader is asked for
one message at a time and may outlive its handshake, and then reads beside the receive
loop of the connection. `got` and `written` are histories; no step reads them. -/
namespace NodeConnect.Gbn
open Lib

inductive ClientPlace where
  /-- At the head of the loop, where the SYN is sent. -/
  | sendSYN
  | waitSYN
  | complete
  | failed (err : HandshakeError)
  deriving DecidableEq, Repr

structure ClientHandshake where
  n : UInt8
  place : ClientPlace
  sent : List Bytes
  deriving DecidableEq, Repr

namespace ClientHandshake

def start (n : UInt8) : ClientHandshake := ⟨n,.sendSYN,[]⟩

def sendSYN (h : ClientHandshake) (sendOk : Bool) : Option ClientHandshake :=
  if h.place = .sendSYN then
    if sendOk then some {h with place := .waitSYN, sent := h.sent ++ [serialize (.syn h.n)]}
    else some {h with place := .failed .sendToStream}
  else none

def step (h : ClientHandshake) (event : HandshakeEvent) : Option ClientHandshake :=
  match h.place, event with
  | .waitSYN, .packet bytes sendOk =>
    match deserialize bytes with
    | .error _ => some {h with place := .failed .eof}
    | .ok (.syn n) =>
      if n ≠ h.n then some {h with place := .failed .eof}
      else if sendOk then some {h with place := .complete, sent := h.sent ++ [serialize .synack]}
      else some {h with place := .failed .sendToStream}
    -- It may be a message of an earlier connection.
    | .ok _ => some h
  | .waitSYN, .timeout => some {h with place := .sendSYN}
  | .waitSYN, .recvError => some {h with place := .failed .recvFromStream}
  | _, _ => none

end ClientHandshake

inductive Handshake where
  | client (h : ClientHandshake)
  | server (h : ServerHandshake)
  deriving DecidableEq, Repr

namespace Handshake

def sendSYN : Handshake → Bool → Option Handshake
  | .client h, sendOk => (h.sendSYN sendOk).map .client
  | .server _, _ => none

def step : Handshake → HandshakeEvent → Option Handshake
  | .client h, event => (h.step event).map .client
  | .server h, event => (h.step event).map .server

def sent : Handshake → List Bytes
  | .client h => h.sent
  | .server h => h.sent

def Waits : Handshake → Prop
  | .client h => h.place = .waitSYN
  | .server h => h.place = .waitSYN ∨ h.place = .waitSYNACK

def Completed : Handshake → Prop
  | .client h => h.place = .complete
  | .server h => h.place = .complete

/-- The handshake has returned, with or without an error. -/
def Finished : Handshake → Prop
  | .client h => h.place ≠ .sendSYN ∧ h.place ≠ .waitSYN
  | .server h => h.place ≠ .waitSYN ∧ h.place ≠ .waitSYNACK

instance : (h : Handshake) → Decidable h.Waits
  | .client _ => inferInstanceAs (Decidable (_ = _))
  | .server _ => inferInstanceAs (Decidable (_ ∨ _))

instance : (h : Handshake) → Decidable h.Completed
  | .client _ => inferInstanceAs (Decidable (_ = _))
  | .server _ => inferInstanceAs (Decidable (_ = _))

instance : (h : Handshake) → Decidable h.Finished
  | .client _ => inferInstanceAs (Decidable (_ ∧ _))
  | .server _ => inferInstanceAs (Decidable (_ ∧ _))

/-- The connection that is started when the handshake returns without an error. -/
def conn (h : Handshake) : Option Endpoint :=
  if h.Completed then
    match h with
    | .client h => some (newEndpoint h.n)
    | .server h => some ((newEndpoint DefaultN).setN h.n)
  else none

end Handshake

inductive ReaderPlace where
  | idle
  /-- In `recvFromStream`. -/
  | reading
  /-- About to pass the bytes to `recvChan`. -/
  | offering (bytes : Bytes)
  | gone
  deriving DecidableEq, Repr

structure Reader where
  place : ReaderPlace
  recvNext : Bool
  errChan : Bool
  deriving DecidableEq, Repr

def Reader.offered (r : Reader) : List Bytes :=
  match r.place with
  | .offering bytes => [bytes]
  | _ => []

structure Party where
  handshake : Handshake
  /-- The handshake is about to ask its reader for a message. -/
  asking : Bool
  reader : Reader
  conn : Option Endpoint
  closed : Bool
  got : List Bytes
  written : List Bytes
  deriving DecidableEq, Repr

inductive PartyEvent where
  | sendSYN (sendOk : Bool)
  | ask
  | timeout
  /-- The handshake takes what its reader offers. -/
  | packet (sendOk : Bool)
  | recvError
  /-- The reader takes the request. -/
  | token
  | readError
  /-- The reader sees that the handshake is complete. -/
  | leave
  | send (action : SendAction)
  | receive
  | drain
  | timer
  /-- `fin` is unset when the peer closed first, or when the FIN is not sent in time. -/
  | close (fin : Bool)
  deriving DecidableEq, Repr

/-- Who takes the next message of the stream. -/
inductive Intake where
  | reader
  | loop (recentlySent : Bool)
  deriving DecidableEq, Repr

namespace Party

def advance (p : Party) (next : Handshake) : Party × List Bytes :=
  let out := next.sent.drop p.handshake.sent.length
  ({p with handshake := next, asking := true, conn := next.conn, written := p.written ++ out},out)

def emit (p : Party) (messages : List Message) : Party × List Bytes :=
  ({p with written := p.written ++ messages.map serialize},messages.map serialize)

def running (p : Party) : Option Endpoint := if p.closed then none else p.conn

def step (p : Party) : PartyEvent → Option (Party × List Bytes)
  | .sendSYN sendOk => (p.handshake.sendSYN sendOk).map p.advance
  -- The request has one slot, and is dropped when the slot is taken.
  | .ask =>
    if p.asking ∧ p.handshake.Waits then some ({p with asking := false, reader := {p.reader with recvNext := true}},[])
    else none
  | .timeout => if p.asking then none else (p.handshake.step .timeout).map p.advance
  | .packet sendOk =>
    match p.asking, p.reader.place with
    | false, .offering bytes =>
      (p.handshake.step (.packet bytes sendOk)).map
        {p with reader := {p.reader with place := .idle}, got := p.got ++ [bytes]}.advance
    | _, _ => none
  | .recvError =>
    if ¬ p.asking ∧ p.reader.errChan then
      (p.handshake.step .recvError).map {p with reader := {p.reader with errChan := false}}.advance
    else none
  | .token =>
    if p.reader.place = .idle ∧ p.reader.recvNext then
      some ({p with reader := {p.reader with place := .reading, recvNext := false}},[])
    else none
  | .readError =>
    if p.reader.place = .reading then some ({p with reader := {p.reader with place := .gone, errChan := true}},[])
    else none
  | .leave =>
    if p.handshake.Finished ∧ p.reader.place ≠ .reading then some ({p with reader := {p.reader with place := .gone}},[])
    else none
  | .send action => do
    let e ← p.running
    let (e,messages) ← e.sendStep action
    return {p with conn := some e}.emit messages
  | .receive => do
    let e ← p.running
    let e ← e.step .receive
    return ({p with conn := some e},[])
  | .drain => do
    let e ← p.running
    let e ← e.step .drain
    return ({p with conn := some e},[])
  | .timer => do
    let e ← p.running
    let e ← e.step .timer
    return ({p with conn := some e},[])
  | .close fin =>
    if p.handshake.Finished ∧ ¬ p.closed then some ({p with closed := true}.emit (if fin then [.fin] else [])) else none

def intake (p : Party) (bytes : Bytes) : Intake → Option (Party × List Bytes)
  | .reader =>
    if p.reader.place = .reading then some ({p with reader := {p.reader with place := .offering bytes}},[]) else none
  | .loop recentlySent => do
    let e ← p.running
    if e.receiveLoop = .ready then
      let (e,messages) := e.deliver bytes recentlySent
      return {p with conn := some e}.emit messages
    else none

def start (handshake : Handshake) : Party := ⟨handshake,true,⟨.idle,false,false⟩,none,false,[],[]⟩

end Party

/-- `wire x` holds the messages in flight towards `x`, oldest first. -/
structure Opening where
  party : Side → Party
  wire : Side → List Bytes

inductive OpeningEvent where
  | own (side : Side) (event : PartyEvent)
  /-- The oldest message arrives; when it is kept, it arrives again. -/
  | arrive (side : Side) (intake : Intake) (keep : Bool)
  | lose (side : Side) (index : Nat)
  deriving DecidableEq, Repr

namespace Opening

def initial (n : UInt8) : Opening where
  party
    | .client => .start (.client (.start n))
    | .server => .start (.server .start)
  wire _ := []

def update (o : Opening) (side : Side) (p : Party) (out : List Bytes) : Opening where
  party := Function.update o.party side p
  wire := Function.update o.wire side.other (o.wire side.other ++ out)

def step (o : Opening) : OpeningEvent → Option Opening
  | .own side event => ((o.party side).step event).map fun (p,out) => o.update side p out
  | .arrive side intake keep =>
    match o.wire side with
    | bytes :: rest =>
      let wire := Function.update o.wire side (if keep then bytes :: rest else rest)
      ((o.party side).intake bytes intake).map fun (p,out) => {o with wire := wire}.update side p out
    | [] => none
  | .lose side index =>
    if index < (o.wire side).length then
      some {o with wire := Function.update o.wire side ((o.wire side).eraseIdx index)}
    else none

end Opening

theorem ClientHandshake.sendSYN_cases (h next : ClientHandshake) (sendOk : Bool)
    (stepped : h.sendSYN sendOk = some next) :
    h.place = .sendSYN ∧ next.n = h.n ∧
      ((next.place = .waitSYN ∧ next.sent = h.sent ++ [serialize (.syn h.n)]) ∨
        ((∃ err, next.place = .failed err) ∧ next.sent = h.sent)) := by
  unfold sendSYN at stepped
  split_ifs at stepped with sending ok <;> cases stepped
  · exact ⟨sending,rfl,.inl ⟨rfl,rfl⟩⟩
  · exact ⟨sending,rfl,.inr ⟨⟨_,rfl⟩,rfl⟩⟩

/-- The client completes on a SYN with its own window and on nothing else. -/
theorem ClientHandshake.step_cases (h next : ClientHandshake) (event : HandshakeEvent)
    (stepped : h.step event = some next) :
    h.place = .waitSYN ∧ next.n = h.n ∧
      ((∃ bytes sendOk, event = .packet bytes sendOk ∧ deserialize bytes = .ok (.syn h.n) ∧
          next.place = .complete ∧ next.sent = h.sent ++ [serialize .synack]) ∨
        (event = .timeout ∧ next.place = .sendSYN ∧ next.sent = h.sent) ∨
        ((∃ err, next.place = .failed err) ∧ next.sent = h.sent) ∨
        (∃ bytes sendOk, event = .packet bytes sendOk ∧ (∀ n, deserialize bytes ≠ .ok (.syn n)) ∧ next = h)) := by
  unfold step at stepped
  split at stepped
  next bytes sendOk waiting =>
    refine ⟨waiting,?_⟩
    cases parsed : deserialize bytes with
    | error fault =>
      simp only [parsed,Option.some.injEq] at stepped
      subst stepped
      exact ⟨rfl,.inr (.inr (.inl ⟨⟨_,rfl⟩,rfl⟩))⟩
    | ok message =>
      cases message <;> simp only [parsed] at stepped
      case syn n =>
        split_ifs at stepped with other ok <;> cases stepped
        · exact ⟨rfl,.inr (.inr (.inl ⟨⟨_,rfl⟩,rfl⟩))⟩
        · rw [not_ne_iff.mp other] at parsed
          exact ⟨rfl,.inl ⟨bytes,sendOk,rfl,parsed,rfl,rfl⟩⟩
        · exact ⟨rfl,.inr (.inr (.inl ⟨⟨_,rfl⟩,rfl⟩))⟩
      all_goals
        cases stepped
        exact ⟨rfl,.inr (.inr (.inr ⟨bytes,sendOk,rfl,by simp [parsed],rfl⟩))⟩
  next waiting =>
    cases stepped
    exact ⟨waiting,rfl,.inr (.inl ⟨rfl,rfl,rfl⟩)⟩
  next waiting =>
    cases stepped
    exact ⟨waiting,rfl,.inr (.inr (.inl ⟨⟨_,rfl⟩,rfl⟩))⟩
  next => contradiction

/-- What one event does to the server's handshake. -/
inductive ServerHandshake.Cases (h : ServerHandshake) : HandshakeEvent → ServerHandshake → Prop
  | echoed (bytes : Bytes) (sendOk : Bool) (next : ServerHandshake) (parsed : deserialize bytes = .ok (.syn next.n))
      (place : next.place = .waitSYNACK) (sent : next.sent = h.sent ++ [serialize (.syn next.n)]) :
      Cases h (.packet bytes sendOk) next
  | completed (bytes : Bytes) (sendOk : Bool) (heard : h.Heard)
      (parsed : deserialize bytes = .ok .synack ∨ ∃ packet, deserialize bytes = .ok (.data packet)) :
      Cases h (.packet bytes sendOk) {h with place := .complete}
  | failed (event : HandshakeEvent) (next : ServerHandshake) (err : HandshakeError) (place : next.place = .failed err)
      (sent : next.sent = h.sent) (n : next.n = event.syn.getD h.n) (heard : next.Heard → h.Heard) : Cases h event next
  | restarted (heard : h.Heard) : Cases h .timeout {h with resent := true, place := .waitSYN}
  | ignored (bytes : Bytes) (sendOk : Bool) (parsed : ∀ n, deserialize bytes ≠ .ok (.syn n))
      (unheard : deserialize bytes = .ok .synack → ¬ h.Heard) : Cases h (.packet bytes sendOk) h

theorem ServerHandshake.recvClientSYN_cases (h : ServerHandshake) (resent : Bool) (before : resent = true → h.Heard)
    (bytes : Bytes) (n : UInt8) (sendOk : Bool) (parsed : deserialize bytes = .ok (.syn n)) :
    h.Cases (.packet bytes sendOk) ({h with resent := resent}.recvClientSYN n sendOk) := by
  unfold recvClientSYN
  split_ifs
  · exact .echoed bytes sendOk _ parsed rfl rfl
  · exact .failed _ _ .sendToStream rfl rfl (by simp [HandshakeEvent.syn,parsed])
      fun again => before (again.resolve_right (by simp))

theorem ServerHandshake.step_cases (h next : ServerHandshake) (event : HandshakeEvent)
    (stepped : h.step event = some next) :
    (h.place = .waitSYN ∨ h.place = .waitSYNACK) ∧ h.Cases event next := by
  unfold step at stepped
  split at stepped
  next bytes sendOk waiting =>
    refine ⟨.inl waiting,?_⟩
    have heard : h.Heard ↔ h.resent = true := by simp [Heard,waiting]
    cases parsed : deserialize bytes with
    | error fault =>
      simp only [parsed,Option.some.injEq] at stepped
      subst stepped
      exact .failed _ _ .eof rfl rfl (by simp [HandshakeEvent.syn,parsed]) fun again => .inl (again.resolve_right (by simp))
    | ok message =>
      cases message <;> simp only [parsed] at stepped
      case syn n =>
        cases stepped
        exact h.recvClientSYN_cases h.resent (fun again => .inl again) bytes n sendOk parsed
      case synack =>
        split_ifs at stepped with resent <;> cases stepped
        · exact .completed bytes sendOk (heard.mpr resent) (.inl parsed)
        · exact .ignored bytes sendOk (by simp [parsed]) fun _ => by simpa [heard] using resent
      case data packet =>
        split_ifs at stepped with resent <;> cases stepped
        · exact .completed bytes sendOk (heard.mpr resent) (.inr ⟨packet,parsed⟩)
        · exact .ignored bytes sendOk (by simp [parsed]) fun _ => by simpa [heard] using resent
      all_goals
        cases stepped
        exact .ignored bytes sendOk (by simp [parsed]) (by simp [parsed])
  next bytes sendOk waiting =>
    have heard : h.Heard := .inr (.inl waiting)
    refine ⟨.inr waiting,?_⟩
    cases parsed : deserialize bytes with
    | error fault =>
      simp only [parsed,Option.some.injEq] at stepped
      subst stepped
      exact .failed _ _ .eof rfl rfl (by simp [HandshakeEvent.syn,parsed]) fun _ => heard
    | ok message =>
      cases message <;> simp only [parsed,Option.some.injEq] at stepped <;> subst stepped
      case syn n => exact h.recvClientSYN_cases true (fun _ => heard) bytes n sendOk parsed
      case synack => exact .completed bytes sendOk heard (.inl parsed)
      all_goals exact .failed _ _ .eof rfl rfl (by simp [HandshakeEvent.syn,parsed]) fun _ => heard
  next waiting =>
    cases stepped
    exact ⟨.inr waiting,.restarted (.inr (.inl waiting))⟩
  next waiting =>
    cases stepped
    exact ⟨.inr waiting,.failed _ _ .recvFromStream rfl rfl rfl fun _ => .inr (.inl waiting)⟩
  next => contradiction

theorem Endpoint.deliver_messages {e : Endpoint} (bytes : Bytes) (recentlySent : Bool) (message : Message)
    (member : message ∈ (e.deliver bytes recentlySent).2) : ∃ seq, message = .ack seq ∨ message = .nack seq := by
  cases parsed : deserialize bytes with
  | error fault => simp [deliver,parsed] at member
  | ok received =>
    cases received with
    | nack seq =>
      rw [deliver_nack bytes recentlySent seq parsed] at member
      dsimp only at member
      split_ifs at member <;> contradiction
    | data packet =>
      simp only [deliver,parsed] at member
      split_ifs at member
      · exact ⟨_,.inl (List.mem_singleton.mp member)⟩
      · contradiction
      · exact ⟨_,.inr (List.mem_singleton.mp member)⟩
    | ack seq =>
      simp only [deliver,parsed] at member
      split_ifs at member <;> contradiction
    | syn n => simp [deliver,parsed] at member
    | fin => simp [deliver,parsed] at member
    | synack => simp [deliver,parsed] at member

namespace Party

/-- What one step does to a side that consumes the given bytes, and what it sends;
`late` says whether the step may be a timeout of the handshake. -/
inductive Moves (p : Party) (late : Prop) : Option Bytes → Party × List Bytes → Prop
  | reader (r : Reader) (asking : Bool)
      (offered : r.offered = p.reader.offered ∨ p.handshake.Finished ∧ r.offered = []) :
      Moves p late none ({p with reader := r, asking := asking},[])
  | read (r : Reader) (bytes : Bytes) (before : p.reader.offered = []) (after : r.offered = [bytes]) :
      Moves p late (some bytes) ({p with reader := r},[])
  | sendSYN (sendOk : Bool) (next : Handshake) (stepped : p.handshake.sendSYN sendOk = some next) :
      Moves p late none (p.advance next)
  | wait (r : Reader) (event : HandshakeEvent) (next : Handshake) (offered : r.offered = p.reader.offered)
      (own : event = .recvError ∨ event = .timeout ∧ late) (stepped : p.handshake.step event = some next) :
      Moves p late none ({p with reader := r}.advance next)
  | packet (r : Reader) (bytes : Bytes) (sendOk : Bool) (next : Handshake) (before : p.reader.offered = [bytes])
      (after : r.offered = []) (stepped : p.handshake.step (.packet bytes sendOk) = some next) :
      Moves p late none ({p with reader := r, got := p.got ++ [bytes]}.advance next)
  | send (e e' : Endpoint) (action : SendAction) (messages : List Message) (before : p.conn = some e)
      (stepped : e.sendStep action = some (e',messages)) : Moves p late none ({p with conn := some e'}.emit messages)
  | conn (e e' : Endpoint) (event : LocalEvent) (own : event = .receive ∨ event = .drain ∨ event = .timer)
      (before : p.conn = some e) (stepped : e.step event = some e') : Moves p late none ({p with conn := some e'},[])
  | deliver (bytes : Bytes) (e : Endpoint) (recentlySent : Bool) (before : p.conn = some e)
      (ready : e.receiveLoop = .ready) :
      Moves p late (some bytes)
        ({p with conn := some (e.deliver bytes recentlySent).1}.emit (e.deliver bytes recentlySent).2)
  | close (fin : Bool) (finished : p.handshake.Finished) :
      Moves p late none ({p with closed := true}.emit (if fin then [.fin] else []))

variable {p : Party} {result : Party × List Bytes}

theorem running_some (e : Endpoint) (runs : p.running = some e) : p.conn = some e := by
  unfold running at runs
  split_ifs at runs
  exact runs

theorem conn_moves (late : Prop) (event : LocalEvent) (own : event = .receive ∨ event = .drain ∨ event = .timer)
    (stepped : (do
      let e ← p.running
      let e ← e.step event
      return ({p with conn := some e},[])) = some result) : p.Moves late none result := by
  obtain ⟨e,runs,rest⟩ := Option.bind_eq_some_iff.mp stepped
  obtain ⟨e',moved,done⟩ := Option.bind_eq_some_iff.mp rest
  cases done
  exact .conn e e' event own (running_some e runs) moved

theorem step_moves (event : PartyEvent) (stepped : p.step event = some result) :
    p.Moves (event = .timeout) none result := by
  cases event with
  | sendSYN sendOk =>
    obtain ⟨next,moved,done⟩ := Option.map_eq_some_iff.mp stepped
    rw [← done]
    exact .sendSYN sendOk next moved
  | ask =>
    simp only [step] at stepped
    split_ifs at stepped
    cases stepped
    exact .reader _ _ (.inl rfl)
  | timeout =>
    simp only [step] at stepped
    split_ifs at stepped
    obtain ⟨next,moved,done⟩ := Option.map_eq_some_iff.mp stepped
    rw [← done]
    exact .wait p.reader .timeout next rfl (.inr ⟨rfl,rfl⟩) moved
  | packet sendOk =>
    simp only [step] at stepped
    split at stepped
    next bytes _ offering =>
      obtain ⟨next,moved,done⟩ := Option.map_eq_some_iff.mp stepped
      rw [← done]
      exact .packet _ bytes sendOk next (by simp [Reader.offered,offering]) rfl moved
    next => contradiction
  | recvError =>
    simp only [step] at stepped
    split_ifs at stepped
    obtain ⟨next,moved,done⟩ := Option.map_eq_some_iff.mp stepped
    rw [← done]
    exact .wait _ .recvError next rfl (.inl rfl) moved
  | token =>
    simp only [step] at stepped
    split_ifs at stepped with idle
    cases stepped
    exact .reader _ p.asking (.inl (by simp [Reader.offered,idle.1]))
  | readError =>
    simp only [step] at stepped
    split_ifs at stepped with reading
    cases stepped
    exact .reader _ p.asking (.inl (by simp [Reader.offered,reading]))
  | leave =>
    simp only [step] at stepped
    split_ifs at stepped with finished
    cases stepped
    exact .reader _ p.asking (.inr ⟨finished.1,rfl⟩)
  | send action =>
    obtain ⟨e,runs,rest⟩ := Option.bind_eq_some_iff.mp stepped
    obtain ⟨⟨e',messages⟩,moved,done⟩ := Option.bind_eq_some_iff.mp rest
    cases done
    exact .send e e' action messages (running_some e runs) moved
  | receive => exact conn_moves _ .receive (.inl rfl) stepped
  | drain => exact conn_moves _ .drain (.inr (.inl rfl)) stepped
  | timer => exact conn_moves _ .timer (.inr (.inr rfl)) stepped
  | close fin =>
    simp only [step] at stepped
    split at stepped
    next finished =>
      cases stepped
      exact .close fin finished.1
    next => contradiction

theorem intake_moves (bytes : Bytes) (intake : Intake) (stepped : p.intake bytes intake = some result) :
    p.Moves False (some bytes) result := by
  cases intake with
  | reader =>
    simp only [Party.intake] at stepped
    split_ifs at stepped with reading
    cases stepped
    exact .read _ bytes (by simp [Reader.offered,reading]) rfl
  | loop recentlySent =>
    obtain ⟨e,runs,rest⟩ := Option.bind_eq_some_iff.mp stepped
    split_ifs at rest with ready
    cases rest
    exact .deliver bytes e recentlySent (running_some e runs) ready

end Party

/-- What one step does to the two sides and the channels: a message is lost, or one side moves
by itself, or it takes the oldest message, which stays when the channel repeats it. -/
inductive Opening.Cases (o : Opening) : OpeningEvent → Opening → Prop
  | lost (side : Side) (index : Nat) :
      Cases o (.lose side index) {o with wire := Function.update o.wire side ((o.wire side).eraseIdx index)}
  | moved (side : Side) (event : PartyEvent) (result : Party × List Bytes)
      (moves : (o.party side).Moves (event = .timeout) none result) :
      Cases o (.own side event) (o.update side result.1 result.2)
  | arrived (side : Side) (intake : Intake) (keep : Bool) (bytes : Bytes) (rest : List Bytes)
      (result : Party × List Bytes) (wire : o.wire side = bytes :: rest)
      (moves : (o.party side).Moves False (some bytes) result) :
      Cases o (.arrive side intake keep)
        (Opening.update {o with wire := Function.update o.wire side (if keep then bytes :: rest else rest)} side
          result.1 result.2)

theorem Opening.step_cases (o next : Opening) (event : OpeningEvent) (stepped : o.step event = some next) :
    o.Cases event next := by
  cases event with
  | own side event =>
    obtain ⟨result,moved,rfl⟩ := Option.map_eq_some_iff.mp stepped
    exact .moved side event result (Party.step_moves event moved)
  | arrive side intake keep =>
    simp only [step] at stepped
    split at stepped
    next bytes rest wire =>
      obtain ⟨result,moved,rfl⟩ := Option.map_eq_some_iff.mp stepped
      exact .arrived side intake keep bytes rest result wire (Party.intake_moves bytes intake moved)
    next => contradiction
  | lose side index =>
    simp only [step] at stepped
    split at stepped
    next =>
      cases Option.some.inj stepped
      exact .lost side index
    next => contradiction

end NodeConnect.Gbn
