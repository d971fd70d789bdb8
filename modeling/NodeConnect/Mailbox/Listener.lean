import NodeConnect.Lib.Pool
import NodeConnect.Lib.Run
import NodeConnect.Noise.Mismatch

/-! The listener of Noise connections over TCP. One goroutine takes a token and waits for the
next TCP connection; each connection has a goroutine of its own that runs the handshake, offers
the result to whoever calls `Accept`, and gives the token back. `Close` closes a channel that
all of them look at. The steps of these goroutines, of the calls of `Accept` and of the calls
of `Close` are interleaved in any order.

The handshake waits for the peer in every act: in the Reads of an act of the dialer, until the
read deadline passes, and in the Write of an act of its own, which has no deadline. The Reads of
an act are one step, taken when the last of them returns. -/
namespace NodeConnect.Mailbox
open Lib Noise

def MinHandshakeVersion : UInt8 := HandshakeVersion0
def MaxHandshakeVersion : UInt8 := HandshakeVersion2
def defaultHandshakes : Nat := 1000

inductive RejectCause where
  | newBrontideMachine (err : HandshakeError)
  | setReadDeadline
  | doHandshake (err : HandshakeError)
  deriving DecidableEq, Repr

/-- What `Accept` of the TCP listener returns, or "unable to accept connection from ..." with the address and the cause. -/
inductive AcceptError where
  | tcp
  | rejected (remoteAddr : String) (cause : RejectCause)
  deriving DecidableEq, Repr

inductive MaybeConn (Point Key : Type) where
  | conn (noise : Machine Point Key)
  | err (err : AcceptError)

inductive ListenPlace where
  | acquire
  | accept
  | offer (err : AcceptError)
  | release
  | returned
  deriving DecidableEq, Repr

/-- Where the goroutine `doHandshake` of a connection is. It looks at `quit` at `enter` and `check`. In `DoHandshake` it
has the acts of `later` before it and `p` is what the machine has come to; `expired` says that the read deadline has passed. -/
inductive HandshakePlace (Point Key : Type) where
  | enter
  | create
  | setDeadline (noise : Machine Point Key)
  | handshake (noise : Machine Point Key) (expired : Bool) (later : List MessagePattern) (p : Party Point Key)
  | check (noise : Machine Point Key)
  | clearDeadline (noise : Machine Point Key)
  | offer (result : MaybeConn Point Key)
  | release
  | returned

/-- A TCP connection that the listener has accepted, with what its Reads and Writes will come to and the ephemeral keys
that will be drawn for it. `closed` says that the listener has closed it, and `reported` lists what calls of `Accept` have
returned for it. -/
structure TcpConn (Point Key : Type) where
  remoteAddr : String
  link : Link
  ephemeralGen : List (Option Key)
  place : HandshakePlace Point Key := .enter
  closed : Bool := false
  reported : List (MaybeConn Point Key) := []

structure ListenerConfig (Key : Type) where
  localStatic : Key
  passphrase : Bytes
  authData : Bytes

def ListenerConfig.machineConfig {Point Key : Type} (cfg : ListenerConfig Key) (ephemeralGen : List (Option Key)) :
    BrontideMachineConfig Point Key :=
  let connData : ConnData Point Key := ⟨cfg.localStatic,none,cfg.passphrase,cfg.authData,none,none,[]⟩
  {connData, initiator := false, handshakePattern := connData.handshakePattern
   minHandshakeVersion := MinHandshakeVersion, maxHandshakeVersion := MaxHandshakeVersion, ephemeralGen}

structure DialConfig (Key : Type) where
  localPriv : Key
  passphrase : Bytes

def DialConfig.machineConfig {Point Key : Type} (cfg : DialConfig Key) (ephemeralGen : List (Option Key)) :
    BrontideMachineConfig Point Key :=
  let connData : ConnData Point Key := ⟨cfg.localPriv,none,cfg.passphrase,[],none,none,[]⟩
  {connData, initiator := true, handshakePattern := connData.handshakePattern
   minHandshakeVersion := MinHandshakeVersion, maxHandshakeVersion := MaxHandshakeVersion, ephemeralGen}

/-- `accepting` counts the calls of `Accept` that wait, `closingQuit` the calls of `Close` that found `quit` open, and
`closingTcp` those that are about to close the TCP listener. It has `panicked` once a channel was closed twice. -/
structure Listener (Point Key : Type) where
  handshakeSema : Nat := defaultHandshakes
  quit : Bool := false
  tcpClosed : Bool := false
  listen : ListenPlace := .acquire
  conns : List (TcpConn Point Key) := []
  accepting : Nat := 0
  closingQuit : Nat := 0
  closingTcp : Nat := 0
  panicked : Bool := false

/-- `succeeds` is the outcome of `SetReadDeadline`. The clock brings `expires`, and the peer brings `reads` and `writes`. -/
inductive TcpConnEvent where
  | advances (succeeds : Bool)
  | expires
  | reads
  | timesOut
  | writes
  deriving DecidableEq, Repr

inductive ListenerEvent (Key : Type) where
  | acquire
  | listenQuits
  | tcpAccepts (remoteAddr : String) (link : Link) (ephemeralGen : List (Option Key))
  | tcpFails
  | listenReports
  | listenGivesUp
  | listenReleases
  | handshake (i : Nat) (event : TcpConnEvent)
  | reports (i : Nat)
  | givesUp (i : Nat)
  | releases (i : Nat)
  | accept
  | acceptQuits
  | close
  | closeQuits
  | closeTcp

section

variable {Point Key : Type} [AddCommGroup Point] (suite : Suite Point Key) (cfg : ListenerConfig Key)

def finish (m : Machine Point Key) (p : Party Point Key) : Noise.Outcome Point Key :=
  let m := m.completed suite p
  match m.store m.connData with
  | .ok () connData => ⟨none,{m with connData := connData},p.toLink⟩
  | .error err connData => ⟨some err,{m with connData := connData},p.toLink⟩

/-- An act of its own gets as far as its Write. -/
def reachesWrite (mp : MessagePattern) (p : Party Point Key) : Bool :=
  match Handshake.writeMsgPattern suite mp p with
  | .ok _ _ | .error .write _ => true
  | .error _ _ => false

namespace TcpConn

def reject (c : TcpConn Point Key) (cause : RejectCause) : TcpConn Point Key :=
  {c with place := .offer (.err (.rejected c.remoteAddr cause))}

def closeRejected (c : TcpConn Point Key) (cause : RejectCause) : TcpConn Point Key := {c.reject cause with closed := true}

def acted (c : TcpConn Point Key) (noise : Machine Point Key) (expired : Bool) (later : List MessagePattern) :
    EStateM.Result HandshakeError (Party Point Key) Unit → TcpConn Point Key
  | .ok () p => {c with place := .handshake noise expired later p}
  | .error err _ => c.closeRejected (.doHandshake err)

/-- What `doHandshake` does without waiting for anybody before it offers a result. -/
def advance (c : TcpConn Point Key) (quit : Bool) (succeeds : Bool) : Option (TcpConn Point Key) :=
  match c.place with
  | .enter => some {c with place := if quit then .release else .create}
  | .create =>
    match newBrontideMachine suite (cfg.machineConfig c.ephemeralGen) with
    | .error err => some (c.reject (.newBrontideMachine err))
    | .ok noise => some {c with place := .setDeadline noise}
  | .setDeadline noise =>
    if succeeds then some {c with place := .handshake noise false noise.pattern.pattern (noise.party c.link)}
    else some (c.closeRejected .setReadDeadline)
  | .handshake noise _ [] p =>
    match (finish suite noise p).err with
    | some err => some (c.closeRejected (.doHandshake err))
    | none => some {c with place := .check (finish suite noise p).machine}
  | .handshake noise expired (mp :: later) p =>
    -- An act of its own that fails before the Write.
    if mp.initiator = p.initiator ∧ ¬ reachesWrite suite mp p then
      some (c.acted noise expired later (Handshake.writeMsgPattern suite mp p))
    else none
  | .check noise => some {c with place := if quit then .release else .clearDeadline noise}
  | .clearDeadline noise =>
    if succeeds then some {c with place := .offer (.conn noise)} else some (c.closeRejected .setReadDeadline)
  | .offer _ | .release | .returned => none

/-- In `DoHandshake`, the steps of the clock and those that end a Read or a Write. -/
def exchange (c : TcpConn Point Key) (noise : Machine Point Key) (expired : Bool) (later : List MessagePattern)
    (p : Party Point Key) : TcpConnEvent → Option (TcpConn Point Key)
  | .advances _ => none
  | .expires => if expired then none else some {c with place := .handshake noise true later p}
  | .reads =>
    match later with
    | [] => none
    | mp :: later =>
      if mp.initiator ≠ p.initiator ∧ ¬ expired then
        some (c.acted noise expired later (Handshake.readMsgPattern suite mp p))
      else none
  | .timesOut =>
    match later with
    | [] => none
    | mp :: _ =>
      if mp.initiator ≠ p.initiator ∧ expired then some (c.closeRejected (.doHandshake .read)) else none
  | .writes =>
    match later with
    | [] => none
    | mp :: later =>
      if mp.initiator = p.initiator ∧ reachesWrite suite mp p then
        some (c.acted noise expired later (Handshake.writeMsgPattern suite mp p))
      else none

def move (c : TcpConn Point Key) (quit : Bool) (event : TcpConnEvent) : Option (TcpConn Point Key) :=
  match event,c.place with
  | .advances succeeds,_ => c.advance suite cfg quit succeeds
  | event,.handshake noise expired later p => c.exchange suite noise expired later p event
  | _,_ => none

end TcpConn

namespace Listener

def setConn (l : Listener Point Key) (i : Nat) (c : TcpConn Point Key) : Listener Point Key := {l with conns := l.conns.set i c}

def step (l : Listener Point Key) (event : ListenerEvent Key) : Option (Listener Point Key) :=
  if l.panicked then none
  else
    match event with
    | .acquire =>
      if l.listen = .acquire ∧ 0 < l.handshakeSema then
        some {l with listen := .accept, handshakeSema := l.handshakeSema - 1}
      else none
    | .listenQuits => if l.listen = .acquire ∧ l.quit then some {l with listen := .returned} else none
    | .tcpAccepts remoteAddr link ephemeralGen =>
      if l.listen = .accept ∧ ¬ l.tcpClosed then
        some {l with listen := .acquire, conns := l.conns ++ [{remoteAddr, link, ephemeralGen}]}
      else none
    | .tcpFails => if l.listen = .accept then some {l with listen := .offer .tcp} else none
    | .listenReports =>
      match l.listen with
      | .offer _ => if 0 < l.accepting then some {l with listen := .release, accepting := l.accepting - 1} else none
      | _ => none
    | .listenGivesUp =>
      match l.listen with
      | .offer _ => if l.quit then some {l with listen := .release} else none
      | _ => none
    | .listenReleases =>
      if l.listen = .release ∧ l.handshakeSema < defaultHandshakes then
        some {l with listen := .acquire, handshakeSema := l.handshakeSema + 1}
      else none
    | .handshake i event =>
      match l.conns[i]? with
      | none => none
      | some c => (c.move suite cfg l.quit event).map (l.setConn i)
    | .reports i =>
      match l.conns[i]? with
      | none => none
      | some c =>
        match c.place with
        | .offer result =>
          if 0 < l.accepting then
            some {l.setConn i {c with place := .release, reported := c.reported ++ [result]} with accepting := l.accepting - 1}
          else none
        | _ => none
    | .givesUp i =>
      match l.conns[i]? with
      | none => none
      | some c =>
        match c.place with
        | .offer _ => if l.quit then some (l.setConn i {c with place := .release}) else none
        | _ => none
    | .releases i =>
      match l.conns[i]? with
      | none => none
      | some c =>
        match c.place with
        | .release =>
          if l.handshakeSema < defaultHandshakes then
            some {l.setConn i {c with place := .returned} with handshakeSema := l.handshakeSema + 1}
          else none
        | _ => none
    | .accept => some {l with accepting := l.accepting + 1}
    | .acceptQuits => if 0 < l.accepting ∧ l.quit then some {l with accepting := l.accepting - 1} else none
    | .close =>
      if l.quit then some {l with closingTcp := l.closingTcp + 1} else some {l with closingQuit := l.closingQuit + 1}
    | .closeQuits =>
      if 0 < l.closingQuit then
        let l := {l with closingQuit := l.closingQuit - 1}
        if l.quit then some {l with panicked := true} else some {l with quit := true, closingTcp := l.closingTcp + 1}
      else none
    | .closeTcp =>
      if 0 < l.closingTcp then some {l with closingTcp := l.closingTcp - 1, tcpClosed := true} else none

end Listener

def HandshakePlace.MayFail : HandshakePlace Point Key → Prop
  | .setDeadline _ | .handshake _ _ _ _ | .clearDeadline _ => True
  | _ => False

namespace TcpConn

def Made (c : TcpConn Point Key) (noise : Machine Point Key) : Prop :=
  newBrontideMachine suite (cfg.machineConfig c.ephemeralGen) = .ok noise

inductive Proceeds (quit : Bool) (c : TcpConn Point Key) : TcpConn Point Key → Prop
  | drops (looks : c.place = .enter ∨ ∃ noise, c.place = .check noise) (over_ : quit = true) :
    Proceeds quit c {c with place := .release}
  | enters (place : c.place = .enter) : Proceeds quit c {c with place := .create}
  | creates {noise : Machine Point Key} (place : c.place = .create) (made : c.Made suite cfg noise) :
    Proceeds quit c {c with place := .setDeadline noise}
  | starts {noise : Machine Point Key} (place : c.place = .setDeadline noise) :
    Proceeds quit c {c with place := .handshake noise false noise.pattern.pattern (noise.party c.link)}
  | expires {noise : Machine Point Key} {later : List MessagePattern} {p : Party Point Key}
    (place : c.place = .handshake noise false later p) : Proceeds quit c {c with place := .handshake noise true later p}
  | acts {noise : Machine Point Key} {expired : Bool} {mp : MessagePattern} {later : List MessagePattern}
    {p q : Party Point Key} (place : c.place = .handshake noise expired (mp :: later) p)
    (act : (if mp.initiator = p.initiator then Handshake.writeMsgPattern suite mp else Handshake.readMsgPattern suite mp) p =
      .ok () q) : Proceeds quit c {c with place := .handshake noise expired later q}
  | finishes {noise : Machine Point Key} {expired : Bool} {p : Party Point Key}
    (place : c.place = .handshake noise expired [] p) (ok : (finish suite noise p).ok) :
    Proceeds quit c {c with place := .check (finish suite noise p).machine}
  | checks {noise : Machine Point Key} (place : c.place = .check noise) : Proceeds quit c {c with place := .clearDeadline noise}
  | clears {noise : Machine Point Key} (place : c.place = .clearDeadline noise) :
    Proceeds quit c {c with place := .offer (.conn noise)}
  | rejects {err : HandshakeError} (place : c.place = .create) : Proceeds quit c (c.reject (.newBrontideMachine err))
  | closes {cause : RejectCause} (fails : c.place.MayFail) : Proceeds quit c (c.closeRejected cause)

inductive Moves (quit : Bool) (c : TcpConn Point Key) : TcpConn Point Key → Prop
  | proceeds {c' : TcpConn Point Key} (went : c.Proceeds suite cfg quit c') : Moves quit c c'
  | reports {result : MaybeConn Point Key} (offers : c.place = .offer result) :
    Moves quit c {c with place := .release, reported := c.reported ++ [result]}
  | givesUp {result : MaybeConn Point Key} (offers : c.place = .offer result) (over_ : quit = true) :
    Moves quit c {c with place := .release}
  | releases (releasing : c.place = .release) : Moves quit c {c with place := .returned}

end TcpConn

end

section

variable {Point Key : Type}

def ListenPlace.tokens : ListenPlace → Nat
  | .accept | .offer _ | .release => 1
  | .acquire | .returned => 0

def HandshakePlace.tokens : HandshakePlace Point Key → Nat
  | .returned => 0
  | _ => 1

def Listener.inHandshake (l : Listener Point Key) : Nat := Pool.weigh (·.place.tokens) l.conns

end

section

variable {Point Key : Type} [AddCommGroup Point] {suite : Suite Point Key} {cfg : ListenerConfig Key}

namespace TcpConn

variable {c c' : TcpConn Point Key} {quit : Bool}

theorem acted_proceeds {noise : Machine Point Key} {expired : Bool} {mp : MessagePattern} {later : List MessagePattern}
    {p : Party Point Key} (place : c.place = .handshake noise expired (mp :: later) p)
    {result : EStateM.Result HandshakeError (Party Point Key) Unit}
    (act : (if mp.initiator = p.initiator then Handshake.writeMsgPattern suite mp else Handshake.readMsgPattern suite mp) p =
      result) : c.Proceeds suite cfg quit (c.acted noise expired later result) := by
  cases result with
  | ok value q => exact .acts place act
  | error err q => exact .closes (by rw [place]; trivial)

theorem advance_proceeds {succeeds : Bool} (advanced : c.advance suite cfg quit succeeds = some c') :
    c.Proceeds suite cfg quit c' := by
  unfold advance at advanced
  split at advanced
  case h_1 place =>
    cases advanced
    cases quit with
    | true => exact .drops (.inl place) rfl
    | false => exact .enters place
  case h_2 place =>
    split at advanced <;> cases advanced
    · exact .rejects place
    · exact .creates place ‹_›
  case h_3 place =>
    split at advanced <;> cases advanced
    · exact .starts place
    · exact .closes (by rw [place]; trivial)
  case h_4 place =>
    split at advanced <;> cases advanced
    · exact .closes (by rw [place]; trivial)
    · exact .finishes place ‹_›
  case h_5 place =>
    obtain ⟨⟨mine,_⟩,⟨⟩⟩ := Option.ite_none_right_eq_some.mp advanced
    exact acted_proceeds place (by rw [if_pos mine])
  case h_6 noise place =>
    cases advanced
    cases quit with
    | true => exact .drops (.inr ⟨noise,place⟩) rfl
    | false => exact .checks place
  case h_7 place =>
    split at advanced <;> cases advanced
    · exact .clears place
    · exact .closes (by rw [place]; trivial)
  all_goals contradiction

theorem exchange_proceeds {noise : Machine Point Key} {expired : Bool} {later : List MessagePattern} {p : Party Point Key}
    {event : TcpConnEvent} (place : c.place = .handshake noise expired later p)
    (exchanged : c.exchange suite noise expired later p event = some c') : c.Proceeds suite cfg quit c' := by
  cases event with
  | advances succeeds => contradiction
  | expires =>
    obtain ⟨early,⟨⟩⟩ := Option.ite_none_left_eq_some.mp exchanged
    cases expired with
    | true => contradiction
    | false => exact .expires place
  | reads =>
    cases later with
    | nil => contradiction
    | cons mp later =>
      obtain ⟨⟨theirs,_⟩,⟨⟩⟩ := Option.ite_none_right_eq_some.mp exchanged
      exact acted_proceeds place (by rw [if_neg theirs])
  | timesOut =>
    cases later with
    | nil => contradiction
    | cons mp later =>
      obtain ⟨_,⟨⟩⟩ := Option.ite_none_right_eq_some.mp exchanged
      exact .closes (by rw [place]; trivial)
  | writes =>
    cases later with
    | nil => contradiction
    | cons mp later =>
      obtain ⟨⟨mine,_⟩,⟨⟩⟩ := Option.ite_none_right_eq_some.mp exchanged
      exact acted_proceeds place (by rw [if_pos mine])

theorem move_proceeds {event : TcpConnEvent} (moved : c.move suite cfg quit event = some c') : c.Proceeds suite cfg quit c' := by
  unfold move at moved
  split at moved
  · exact advance_proceeds moved
  · exact exchange_proceeds ‹_› moved
  · contradiction

theorem Proceeds.tokens (went : c.Proceeds suite cfg quit c') : c'.place.tokens = c.place.tokens := by
  cases went with
  | drops looks => rcases looks with place | ⟨noise,place⟩ <;> rw [place] <;> rfl
  | closes fails => cases place : c.place <;> rw [place] at fails <;> first | rfl | exact fails.elim
  | _ => simp only [‹c.place = _›]; rfl

end TcpConn

namespace Listener

variable {l l' : Listener Point Key}

inductive Change (suite : Suite Point Key) (cfg : ListenerConfig Key) (l l' : Listener Point Key) : Prop
  | idle (conns : l'.conns = l.conns)
    (tokens : l'.handshakeSema + l'.listen.tokens = l.handshakeSema + l.listen.tokens)
  | arrives (remoteAddr : String) (link : Link) (ephemeralGen : List (Option Key))
    (conns : l'.conns = l.conns ++ [{remoteAddr := remoteAddr, link := link, ephemeralGen := ephemeralGen}])
    (tokens : l'.handshakeSema + l'.listen.tokens + 1 = l.handshakeSema + l.listen.tokens)
  | moves {i : Nat} {c c' : TcpConn Point Key} (found : l.conns[i]? = some c) (moved : c.Moves suite cfg l.quit c')
    (conns : l'.conns = l.conns.set i c')
    (tokens : l'.handshakeSema + l'.listen.tokens + c'.place.tokens = l.handshakeSema + l.listen.tokens + c.place.tokens)

theorem step_change {event : ListenerEvent Key} (stepped : l.step suite cfg event = some l') :
    Change suite cfg l l' := by
  unfold step at stepped
  split at stepped
  · contradiction
  cases event with
  | acquire =>
    obtain ⟨⟨place,free⟩,⟨⟩⟩ := Option.ite_none_right_eq_some.mp stepped
    refine .idle rfl ?_
    simp only [place,ListenPlace.tokens]
    omega
  | listenQuits =>
    obtain ⟨⟨place,_⟩,⟨⟩⟩ := Option.ite_none_right_eq_some.mp stepped
    exact .idle rfl (by simp only [place,ListenPlace.tokens])
  | tcpAccepts remoteAddr link ephemeralGen =>
    obtain ⟨⟨place,_⟩,⟨⟩⟩ := Option.ite_none_right_eq_some.mp stepped
    exact .arrives remoteAddr link ephemeralGen rfl (by simp only [place,ListenPlace.tokens])
  | tcpFails =>
    obtain ⟨place,⟨⟩⟩ := Option.ite_none_right_eq_some.mp stepped
    exact .idle rfl (by simp only [place,ListenPlace.tokens])
  | listenReports | listenGivesUp =>
    dsimp only at stepped
    split at stepped
    · rename_i place
      obtain ⟨_,⟨⟩⟩ := Option.ite_none_right_eq_some.mp stepped
      exact .idle rfl (by simp only [place,ListenPlace.tokens])
    · contradiction
  | listenReleases =>
    obtain ⟨⟨place,_⟩,⟨⟩⟩ := Option.ite_none_right_eq_some.mp stepped
    exact .idle rfl (by simp only [place,ListenPlace.tokens])
  | handshake i event =>
    dsimp only at stepped
    split at stepped
    · contradiction
    · rename_i c found
      obtain ⟨c',moved,rfl⟩ := Option.map_eq_some_iff.mp stepped
      have went := TcpConn.move_proceeds moved
      exact .moves found (.proceeds went) rfl (congrArg (_ + ·) went.tokens)
  | reports i | givesUp i =>
    dsimp only at stepped
    split at stepped
    · contradiction
    · rename_i c found
      split at stepped
      · rename_i result offers
        obtain ⟨ready,⟨⟩⟩ := Option.ite_none_right_eq_some.mp stepped
        first
        | exact .moves found (.reports offers) rfl (by rw [offers]; rfl)
        | exact .moves found (.givesUp offers ready) rfl (by rw [offers]; rfl)
      · contradiction
  | releases i =>
    dsimp only at stepped
    split at stepped
    · contradiction
    · rename_i c found
      split at stepped
      · rename_i releasing
        obtain ⟨_,⟨⟩⟩ := Option.ite_none_right_eq_some.mp stepped
        refine .moves found (.releases releasing) rfl ?_
        simp only [releasing,HandshakePlace.tokens,setConn]
        omega
      · contradiction
  | accept =>
    cases stepped
    exact .idle rfl rfl
  | acceptQuits =>
    obtain ⟨_,⟨⟩⟩ := Option.ite_none_right_eq_some.mp stepped
    exact .idle rfl rfl
  | close =>
    dsimp only at stepped
    split at stepped <;> cases stepped <;> exact .idle rfl rfl
  | closeQuits =>
    obtain ⟨_,stepped⟩ := Option.ite_none_right_eq_some.mp stepped
    dsimp only at stepped
    split at stepped <;> cases stepped <;> exact .idle rfl rfl
  | closeTcp =>
    obtain ⟨_,⟨⟩⟩ := Option.ite_none_right_eq_some.mp stepped
    exact .idle rfl rfl

theorem step_quit {event : ListenerEvent Key} (stepped : l.step suite cfg event = some l') (quit : l.quit = true) :
    l'.quit = true := by
  cases event <;> grind [step,setConn,Option.map_eq_some_iff]

theorem Change.tokens (change : Change suite cfg l l') :
    l'.handshakeSema + l'.inHandshake + l'.listen.tokens = l.handshakeSema + l.inHandshake + l.listen.tokens := by
  unfold inHandshake
  cases change with
  | idle conns tokens =>
    rw [conns]
    omega
  | arrives remoteAddr link ephemeralGen conns tokens =>
    rw [conns,Pool.weigh_start]
    simp only [HandshakePlace.tokens]
    omega
  | moves found moved conns tokens =>
    have weighs := Pool.weigh_move (fun c : TcpConn Point Key => c.place.tokens) found
    rw [conns]
    specialize weighs ‹_›
    omega

theorem run_tokens {events : List (ListenerEvent Key)} (reached : run (step suite cfg) {} events = some l) :
    l.handshakeSema + l.inHandshake + l.listen.tokens = defaultHandshakes := by
  refine run_invariant (step suite cfg) (fun l => l.handshakeSema + l.inHandshake + l.listen.tokens = defaultHandshakes)
    ?_ events {} l rfl reached
  intro l event l' balanced stepped
  rw [(step_change stepped).tokens]
  exact balanced

/-- No more than `defaultHandshakes` handshakes are ever under way, every token is in the channel
or held by one goroutine, and giving one back never blocks. -/
theorem handshakes_bounded {events : List (ListenerEvent Key)} (reached : run (step suite cfg) {} events = some l) :
    l.handshakeSema + l.inHandshake + l.listen.tokens = defaultHandshakes ∧
    (l.panicked = false → l.listen = .release → (l.step suite cfg .listenReleases).isSome) ∧
    (l.panicked = false → ∀ i c, l.conns[i]? = some c → c.place = .release →
      (l.step suite cfg (.releases i)).isSome) := by
  have balanced := run_tokens reached
  refine ⟨balanced,?_,?_⟩
  · intro alive releasing
    have room : l.handshakeSema < defaultHandshakes := by
      rw [releasing] at balanced
      simp only [ListenPlace.tokens] at balanced
      omega
    simp [step,alive,releasing,room]
  · intro alive i c found releasing
    have room : l.handshakeSema < defaultHandshakes := by
      have held : c.place.tokens ≤ l.inHandshake :=
        Pool.weight_le_weigh (fun c : TcpConn Point Key => c.place.tokens) found
      rw [releasing] at held
      simp only [HandshakePlace.tokens] at held
      omega
    simp [step,alive,found,releasing,room]

end Listener

def TcpConn.Completed (suite : Suite Point Key) (cfg : ListenerConfig Key) (c : TcpConn Point Key) (noise : Machine Point Key) :
    Prop :=
  ∃ made, c.Made suite cfg made ∧ (made.doHandshake suite c.link).ok ∧ noise = (made.doHandshake suite c.link).machine

namespace TcpConn

variable {c c' : TcpConn Point Key} {quit : Bool}

theorem Completed.of_made {noise R : Machine Point Key} (completed : c.Completed suite cfg noise) (made : c.Made suite cfg R) :
    (R.doHandshake suite c.link).ok ∧ noise = (R.doHandshake suite c.link).machine := by
  obtain ⟨R',made',handshake⟩ := completed
  cases Except.ok.inj (made.symm.trans made')
  exact handshake

def Reports (suite : Suite Point Key) (cfg : ListenerConfig Key) (c : TcpConn Point Key) : MaybeConn Point Key → Prop
  | .conn noise => c.Completed suite cfg noise ∧ c.closed = false
  | .err err => ∃ cause, err = .rejected c.remoteAddr cause ∧ (c.closed = true ∨ ∃ err, cause = .newBrontideMachine err)

def Pending (c : TcpConn Point Key) : Prop := c.closed = false ∧ c.reported = []

def Sound (suite : Suite Point Key) (cfg : ListenerConfig Key) (quit : Bool) (c : TcpConn Point Key) : Prop :=
  match c.place with
  | .enter | .create => c.Pending
  | .setDeadline noise => c.Made suite cfg noise ∧ c.Pending
  | .handshake noise _ later p =>
    (c.Made suite cfg noise ∧
      Handshake.acts suite noise.pattern.pattern (noise.party c.link) = Handshake.acts suite later p) ∧ c.Pending
  | .check noise | .clearDeadline noise => c.Completed suite cfg noise ∧ c.Pending
  | .offer result => c.Reports suite cfg result ∧ c.reported = []
  | .release | .returned =>
    (∃ result, c.reported = [result] ∧ c.Reports suite cfg result) ∨ (quit = true ∧ c.reported = [])

theorem Sound.later {quit' : Bool} (sound : c.Sound suite cfg quit) (closed : quit = true → quit' = true) :
    c.Sound suite cfg quit' := by
  unfold Sound at sound ⊢
  cases place : c.place <;> simp only [place] at sound ⊢
  case release | returned => exact sound.imp_right fun dropped => ⟨closed dropped.1,dropped.2⟩
  all_goals exact sound

theorem Sound.reported (sound : c.Sound suite cfg quit) :
    c.reported = [] ∨ ∃ result, c.reported = [result] ∧ c.Reports suite cfg result := by
  unfold Sound at sound
  cases place : c.place <;> simp only [place] at sound
  case enter | create => exact .inl sound.2
  case setDeadline | handshake | check | clearDeadline => exact .inl sound.2.2
  case offer => exact .inl sound.2
  case release | returned =>
    rcases sound with reported | dropped
    · exact .inr reported
    · exact .inl dropped.2

theorem Sound.returned (sound : c.Sound suite cfg false) (returned : c.place.tokens = 0) : c.reported.length = 1 := by
  unfold Sound at sound
  cases place : c.place <;> simp only [place] at sound returned
  case returned =>
    rcases sound with ⟨result,reported,_⟩ | ⟨isOpen,_⟩
    · rw [reported]
      rfl
    · contradiction
  all_goals exact absurd returned Nat.one_ne_zero

theorem finish_eq {noise : Machine Point Key} {link : Link} {p : Party Point Key}
    (ran : Handshake.acts suite noise.pattern.pattern (noise.party link) = .ok () p) :
    finish suite noise p = noise.doHandshake suite link := by
  simp only [Machine.doHandshake,ran]
  rfl

/-- The acts that are left still lead to what the whole handshake comes to. -/
theorem Proceeds.sound (went : c.Proceeds suite cfg quit c') (sound : c.Sound suite cfg quit) : c'.Sound suite cfg quit := by
  unfold Sound at sound
  cases went with
  | drops looks over_ =>
    refine .inr ⟨over_,?_⟩
    rcases looks with place | ⟨noise,place⟩ <;> simp only [place] at sound
    · exact sound.2
    · exact sound.2.2
  | enters place =>
    simp only [place] at sound
    exact sound
  | creates place made =>
    simp only [place] at sound
    exact ⟨made,sound⟩
  | starts place =>
    simp only [place] at sound
    exact ⟨⟨sound.1,rfl⟩,sound.2⟩
  | expires place =>
    simp only [place] at sound
    exact sound
  | acts place act =>
    simp only [place] at sound
    obtain ⟨⟨made,same⟩,pending⟩ := sound
    refine ⟨⟨made,same.trans ?_⟩,pending⟩
    rw [acts_cons]
    exact Fallible.bind_ok _ _ _ _ _ act
  | @finishes noise expired p place ok =>
    simp only [place] at sound
    obtain ⟨⟨made,ran⟩,pending⟩ := sound
    rw [finish_eq ran] at ok ⊢
    exact ⟨⟨noise,made,ok,rfl⟩,pending⟩
  | checks place =>
    simp only [place] at sound
    exact sound
  | clears place =>
    simp only [place] at sound
    exact ⟨⟨sound.1,sound.2.1⟩,sound.2.2⟩
  | rejects place =>
    simp only [place] at sound
    exact ⟨⟨_,rfl,.inr ⟨_,rfl⟩⟩,sound.2⟩
  | closes fails =>
    refine ⟨⟨_,rfl,.inl rfl⟩,?_⟩
    cases place : c.place <;> simp only [place] at sound fails <;> first | exact sound.2.2 | exact fails.elim

theorem Moves.sound (moved : c.Moves suite cfg quit c') (sound : c.Sound suite cfg quit) : c'.Sound suite cfg quit := by
  cases moved with
  | proceeds went => exact went.sound sound
  | @reports result offers =>
    unfold Sound at sound
    simp only [offers] at sound
    refine .inl ⟨result,?_,sound.1⟩
    rw [sound.2]
    rfl
  | givesUp offers over_ =>
    unfold Sound at sound
    simp only [offers] at sound
    exact .inr ⟨over_,sound.2⟩
  | releases releasing =>
    unfold Sound at sound
    simp only [releasing] at sound
    exact sound

end TcpConn

namespace Listener

variable {l l' : Listener Point Key}

theorem step_sound {event : ListenerEvent Key} (sound : ∀ c ∈ l.conns, c.Sound suite cfg l.quit)
    (stepped : l.step suite cfg event = some l') : ∀ c ∈ l'.conns, c.Sound suite cfg l'.quit := by
  have later : ∀ c : TcpConn Point Key, c.Sound suite cfg l.quit → c.Sound suite cfg l'.quit :=
    fun c sound => sound.later (step_quit stepped)
  cases step_change stepped with
  | idle conns =>
    rw [conns]
    exact fun c member => later c (sound c member)
  | arrives remoteAddr link ephemeralGen conns =>
    rw [conns]
    intro c member
    rcases List.mem_append.mp member with before | new
    · exact later c (sound c before)
    · rw [List.mem_singleton.mp new]
      exact ⟨rfl,rfl⟩
  | moves found moved conns =>
    rw [conns]
    refine Pool.forall_move (fun c member => later c (sound c member)) _ (later _ ?_)
    exact moved.sound (sound _ (List.mem_of_getElem? found))

theorem run_sound {events : List (ListenerEvent Key)} (reached : run (step suite cfg) {} events = some l) :
    ∀ c ∈ l.conns, c.Sound suite cfg l.quit :=
  run_invariant (step suite cfg) (fun l => ∀ c ∈ l.conns, c.Sound suite cfg l.quit)
    (fun _ _ _ sound stepped => step_sound sound stepped) events {} l (by simp) reached

/-- At most one call of `Accept` returns for a connection. It returns a connection only after its
handshake has succeeded and leaves it open, or an error that names the address after the
connection was closed; only if there is no machine it is not closed. As long as the listener is
open, no `doHandshake` ends before its result was returned. -/
theorem accept_reports_once {events : List (ListenerEvent Key)} (reached : run (step suite cfg) {} events = some l)
    (c : TcpConn Point Key) (member : c ∈ l.conns) :
    c.reported.length ≤ 1 ∧
    (∀ noise, .conn noise ∈ c.reported → c.Completed suite cfg noise ∧ c.closed = false) ∧
    (∀ err, .err err ∈ c.reported → ∃ cause, err = .rejected c.remoteAddr cause ∧
      (c.closed = true ∨ ∃ err, cause = .newBrontideMachine err)) ∧
    (l.quit = false → c.place.tokens = 0 → c.reported.length = 1) := by
  have sound := run_sound reached c member
  have returned : l.quit = false → c.place.tokens = 0 → c.reported.length = 1 :=
    fun isOpen => (isOpen ▸ sound).returned
  rcases sound.reported with none | ⟨result,reported,reports⟩
  · rw [none]
    exact ⟨Nat.zero_le _,by simp,by simp,none ▸ returned⟩
  · rw [reported]
    refine ⟨Nat.le_refl _,?_,?_,fun _ _ => rfl⟩
    · intro noise member
      cases List.mem_singleton.mp member
      exact reports
    · intro err member
      cases List.mem_singleton.mp member
      exact reports

theorem accepted_completed {events : List (ListenerEvent Key)} (reached : run (step suite cfg) {} events = some l)
    {c : TcpConn Point Key} (member : c ∈ l.conns) {noise : Machine Point Key} (handed : .conn noise ∈ c.reported) :
    c.Completed suite cfg noise := by
  rcases (run_sound reached c member).reported with none | ⟨result,reported,reports⟩
  · rw [none] at handed
    contradiction
  · rw [reported] at handed
    cases List.mem_singleton.mp handed
    exact reports.1

/-- The other end of the stream is a `Dial` that gets `toDialer`: the listener gets what it writes, in whole Reads. -/
structure Dialled (suite : Suite Point Key) (dialer : DialConfig Key) (link : Link) (I : Machine Point Key) (toDialer : Bytes) :
    Prop where
  made : ∃ ephemeralGen, newBrontideMachine suite (dialer.machineConfig ephemeralGen) = .ok I
  whole : link = {incoming := ⟨link.incoming.data,[]⟩}
  sent : (I.handshakeOn suite toDialer).link.written.flatten = link.incoming.data

theorem Dialled.of_bytes {dialer : DialConfig Key} {link : Link} {I : Machine Point Key} {toDialer bytes : Bytes}
    (made : ∃ ephemeralGen, newBrontideMachine suite (dialer.machineConfig ephemeralGen) = .ok I)
    (whole : link = {incoming := ⟨bytes,[]⟩}) (sent : (I.handshakeOn suite toDialer).link.written.flatten = bytes) :
    Dialled suite dialer link I toDialer := by
  subst whole
  exact ⟨made,rfl,sent⟩

/-- A connection that `Accept` returns is not one to a dialer with another passphrase. -/
theorem accept_authenticates (lawful : suite.Lawful)
    (distinct : ∀ first second, suite.modNScalar first • suite.N = suite.modNScalar second • suite.N →
      suite.modNScalar first = suite.modNScalar second)
    {events : List (ListenerEvent Key)} (reached : run (step suite cfg) {} events = some l) (c : TcpConn Point Key)
    (member : c ∈ l.conns) (noise : Machine Point Key) (handed : .conn noise ∈ c.reported) (R : Machine Point Key)
    (made : c.Made suite cfg R) (dialer : DialConfig Key) (I : Machine Point Key) (toDialer : Bytes)
    (dialled : Dialled suite dialer c.link I toDialer)
    (ideal : Ideal suite ((I.handshakeOn suite toDialer).machine.calls ++ noise.calls)) :
    ∃ stretched stretched', suite.scrypt dialer.passphrase = some stretched ∧
      suite.scrypt cfg.passphrase = some stretched' ∧ suite.modNScalar stretched = suite.modNScalar stretched' := by
  obtain ⟨ok,rfl⟩ := (accepted_completed reached member handed).of_made made
  obtain ⟨⟨ephemeralGen,madeI⟩,whole,sent⟩ := dialled
  have builtI := newBrontideMachine_built _ I madeI
  have builtR := newBrontideMachine_built _ R made
  refine ⟨I.passphraseEntropy,R.passphraseEntropy,builtI.passphrase rfl,builtR.passphrase rfl,?_⟩
  by_contra apart
  have ends : Ends suite _ _ I R := ⟨madeI,made,rfl,rfl⟩
  have handshake : R.doHandshake suite c.link = R.handshakeOn suite c.link.incoming.data :=
    congrArg (R.doHandshake suite) whole
  rw [handshake] at ok ideal
  obtain ⟨mp,later,shape,opens,_,refused⟩ :=
    act1_refused lawful ends (.passphrase builtI.pattern builtR.pattern apart) distinct sent ideal
  obtain ⟨p,ran,_⟩ := doHandshake_ok R _ ok
  rw [shape] at ran
  obtain ⟨middle,act,_⟩ := acts_cons_ok mp later _ p ran
  rw [if_neg (by simp [opens,Machine.party,ends.roles.2.1])] at act
  exact refused middle act

end Listener

end

section Closing

variable {Point Key : Type}

def ListenPlace.rank : ListenPlace → Nat
  | .accept => 4
  | .offer _ => 3
  | .release => 2
  | .acquire => 1
  | .returned => 0

def HandshakePlace.rank : HandshakePlace Point Key → Nat
  | .enter => 12
  | .create => 11
  | .setDeadline noise => 7 + noise.pattern.pattern.length
  | .handshake _ expired later _ => 5 + later.length + if expired then 0 else 1
  | .check _ => 4
  | .clearDeadline _ => 3
  | .offer _ => 2
  | .release => 1
  | .returned => 0

/-- What an event adds to the steps that are left: `listen` takes another token, or there is a new call. -/
def ListenerEvent.cost : ListenerEvent Key → Nat
  | .acquire => 4
  | .accept | .close => 2
  | _ => 0

/-- Neither a peer nor a caller has to do anything for the event. -/
def ListenerEvent.unaided : ListenerEvent Key → Bool
  | .tcpAccepts _ _ _ | .handshake _ .reads | .handshake _ .writes | .accept | .close => false
  | _ => true

namespace Listener

def rank (l : Listener Point Key) : Nat :=
  l.listen.rank + Pool.weigh (·.place.rank) l.conns + l.accepting + l.closingTcp

/-- A call of `Close` has returned, and no other one is about to close `quit` again. -/
structure Shut (l : Listener Point Key) : Prop where
  quit : l.quit = true
  tcpClosed : l.tcpClosed = true
  closingQuit : l.closingQuit = 0
  panicked : l.panicked = false

variable [AddCommGroup Point]

def Writing (suite : Suite Point Key) : HandshakePlace Point Key → Prop
  | .handshake _ _ (mp :: _) p => mp.initiator = p.initiator ∧ reachesWrite suite mp p
  | _ => False

instance (suite : Suite Point Key) (place : HandshakePlace Point Key) : Decidable (Writing suite place) := by
  unfold Writing
  split <;> infer_instance

/-- No call waits, and every goroutine has returned but for those that wait in a Write. -/
structure Ended (suite : Suite Point Key) (l : Listener Point Key) : Prop where
  listen : l.listen = .returned
  conns : ∀ c ∈ l.conns, c.place = .returned ∨ Writing suite c.place
  accepting : l.accepting = 0
  closingTcp : l.closingTcp = 0

variable {suite : Suite Point Key} {cfg : ListenerConfig Key} {l l' : Listener Point Key}

omit [AddCommGroup Point] in
/-- The machines of the listener have no key of the remote side, and run three acts. -/
theorem made_pattern {c : TcpConn Point Key} {noise : Machine Point Key} (made : c.Made suite cfg noise) :
    noise.pattern.pattern.length = 3 := by
  have built := newBrontideMachine_built _ noise made
  rw [built.pattern]
  rfl

theorem proceeds_rank {c c' : TcpConn Point Key} {quit : Bool} (went : c.Proceeds suite cfg quit c') :
    c'.place.rank < c.place.rank := by
  cases went with
  | drops looks => rcases looks with place | ⟨noise,place⟩ <;> simp [place,HandshakePlace.rank]
  | creates place made => simp [place,HandshakePlace.rank,made_pattern made]
  | starts place =>
    simp only [place,HandshakePlace.rank,Bool.false_eq_true,if_false]
    omega
  | finishes place ok =>
    simp only [place,HandshakePlace.rank]
    omega
  | closes fails =>
    cases place : c.place <;> rw [place] at fails
    case setDeadline | handshake | clearDeadline =>
      simp only [TcpConn.closeRejected,TcpConn.reject,HandshakePlace.rank]
      omega
    all_goals exact fails.elim
  | _ => simp [‹c.place = _›,HandshakePlace.rank,TcpConn.reject]

omit [AddCommGroup Point] in
theorem moved_rank {i : Nat} {c c' : TcpConn Point Key} (found : l.conns[i]? = some c)
    (falls : c'.place.rank < c.place.rank) (conns : l'.conns = l.conns.set i c') (listen : l'.listen = l.listen)
    (accepting : l'.accepting ≤ l.accepting) (closingTcp : l'.closingTcp = l.closingTcp) : l'.rank + 1 ≤ l.rank := by
  have weighs := Pool.weigh_move (fun c : TcpConn Point Key => c.place.rank) found c'
  rw [rank,rank,conns,listen,closingTcp]
  omega

theorem step_shut {event : ListenerEvent Key} (shut : l.Shut) (stepped : l.step suite cfg event = some l') :
    l'.Shut ∧ l'.rank + 1 ≤ l.rank + event.cost := by
  obtain ⟨quit,tcpClosed,closingQuit,panicked⟩ := shut
  unfold step at stepped
  rw [if_neg (by simp [panicked])] at stepped
  unfold rank
  cases event with
  | acquire | listenQuits | listenReleases =>
    obtain ⟨⟨place,_⟩,⟨⟩⟩ := Option.ite_none_right_eq_some.mp stepped
    refine ⟨⟨quit,tcpClosed,closingQuit,panicked⟩,?_⟩
    simp only [place,ListenPlace.rank,ListenerEvent.cost]
    omega
  | tcpAccepts remoteAddr link ephemeralGen =>
    obtain ⟨⟨_,isOpen⟩,_⟩ := Option.ite_none_right_eq_some.mp stepped
    contradiction
  | tcpFails =>
    obtain ⟨place,⟨⟩⟩ := Option.ite_none_right_eq_some.mp stepped
    refine ⟨⟨quit,tcpClosed,closingQuit,panicked⟩,?_⟩
    simp only [place,ListenPlace.rank,ListenerEvent.cost]
    omega
  | listenReports | listenGivesUp =>
    dsimp only at stepped
    split at stepped
    · rename_i place
      obtain ⟨_,⟨⟩⟩ := Option.ite_none_right_eq_some.mp stepped
      refine ⟨⟨quit,tcpClosed,closingQuit,panicked⟩,?_⟩
      simp only [place,ListenPlace.rank,ListenerEvent.cost]
      omega
    · contradiction
  | handshake i event =>
    dsimp only at stepped
    split at stepped
    · contradiction
    · rename_i c found
      obtain ⟨c',moved,rfl⟩ := Option.map_eq_some_iff.mp stepped
      have falls := proceeds_rank (TcpConn.move_proceeds moved)
      exact ⟨⟨quit,tcpClosed,closingQuit,panicked⟩,moved_rank found falls rfl rfl (Nat.le_refl _) rfl⟩
  | reports i | givesUp i | releases i =>
    dsimp only at stepped
    split at stepped
    · contradiction
    · rename_i c found
      split at stepped
      · rename_i place
        obtain ⟨_,⟨⟩⟩ := Option.ite_none_right_eq_some.mp stepped
        refine ⟨⟨quit,tcpClosed,closingQuit,panicked⟩,moved_rank found ?_ rfl rfl ?_ rfl⟩
        · rw [place]
          exact Nat.lt_succ_self _
        · simp [setConn]
      · contradiction
  | accept =>
    cases stepped
    refine ⟨⟨quit,tcpClosed,closingQuit,panicked⟩,?_⟩
    simp only [ListenerEvent.cost]
    omega
  | acceptQuits =>
    obtain ⟨⟨waiting,_⟩,⟨⟩⟩ := Option.ite_none_right_eq_some.mp stepped
    refine ⟨⟨quit,tcpClosed,closingQuit,panicked⟩,?_⟩
    simp only [ListenerEvent.cost]
    omega
  | close =>
    dsimp only at stepped
    rw [if_pos quit] at stepped
    cases stepped
    refine ⟨⟨quit,tcpClosed,closingQuit,panicked⟩,?_⟩
    simp only [ListenerEvent.cost]
    omega
  | closeQuits =>
    obtain ⟨some_,_⟩ := Option.ite_none_right_eq_some.mp stepped
    rw [closingQuit] at some_
    contradiction
  | closeTcp =>
    obtain ⟨closing,⟨⟩⟩ := Option.ite_none_right_eq_some.mp stepped
    refine ⟨⟨quit,rfl,closingQuit,panicked⟩,?_⟩
    simp only [ListenerEvent.cost]
    omega

def Unaided (suite : Suite Point Key) (cfg : ListenerConfig Key) (l : Listener Point Key) : Prop :=
  ∃ event : ListenerEvent Key, event.unaided ∧ event.cost = 0 ∧ (l.step suite cfg event).isSome

/-- An act of the dialer ends by the deadline, and one of the listener only if it fails before the Write. -/
theorem handshake_progress {c : TcpConn Point Key} {quit : Bool} {noise : Machine Point Key} {expired : Bool}
    {later : List MessagePattern} {p : Party Point Key} (place : c.place = .handshake noise expired later p)
    (reads : ¬ Writing suite c.place) :
    ∃ event, (event ≠ .reads ∧ event ≠ .writes) ∧ (c.move suite cfg quit event).isSome := by
  cases later with
  | nil =>
    refine ⟨.advances true,by simp,?_⟩
    simp only [TcpConn.move,TcpConn.advance,place]
    split <;> rfl
  | cons mp later =>
    by_cases mine : mp.initiator = p.initiator
    · have early : ¬ reachesWrite suite mp p := fun reaches => reads (place ▸ ⟨mine,reaches⟩)
      exact ⟨.advances true,by simp,by simp [TcpConn.move,TcpConn.advance,place,mine,early]⟩
    · cases expired with
      | true => exact ⟨.timesOut,by simp,by simp [TcpConn.move,TcpConn.exchange,place,mine]⟩
      | false => exact ⟨.expires,by simp,by simp [TcpConn.move,TcpConn.exchange,place]⟩

theorem move_unaided (shut : l.Shut) {i : Nat} {c : TcpConn Point Key} (found : l.conns[i]? = some c) (event : TcpConnEvent)
    (alone : event ≠ .reads ∧ event ≠ .writes) (more : (c.move suite cfg l.quit event).isSome) : l.Unaided suite cfg := by
  refine ⟨.handshake i event,?_,rfl,?_⟩
  · cases event with
    | reads | writes => simp at alone
    | _ => rfl
  · simpa [step,shut.panicked,found] using more

theorem conn_progress (shut : l.Shut) (room : l.handshakeSema < defaultHandshakes) {i : Nat} {c : TcpConn Point Key}
    (found : l.conns[i]? = some c) (busy : 0 < c.place.rank) (reads : ¬ Writing suite c.place) : l.Unaided suite cfg := by
  cases place : c.place with
  | enter | check noise | clearDeadline noise | setDeadline noise =>
    exact move_unaided shut found (.advances true) (by simp) (by simp [TcpConn.move,TcpConn.advance,place])
  | create =>
    refine move_unaided shut found (.advances true) (by simp) ?_
    simp only [TcpConn.move,TcpConn.advance,place]
    split <;> rfl
  | handshake noise expired later p =>
    obtain ⟨event,alone,more⟩ := handshake_progress place reads
    exact move_unaided shut found event alone more
  | offer result => exact ⟨.givesUp i,rfl,rfl,by simp [step,shut.panicked,shut.quit,found,place]⟩
  | release => exact ⟨.releases i,rfl,rfl,by simp [step,shut.panicked,found,place,room]⟩
  | returned =>
    rw [place] at busy
    contradiction

omit [AddCommGroup Point] in
theorem returned_of_rank {place : HandshakePlace Point Key} (none_ : ¬ 0 < place.rank) : place = .returned := by
  cases place with
  | returned => rfl
  | _ =>
    simp only [HandshakePlace.rank] at none_
    omega

omit [AddCommGroup Point] in
theorem tokens_of_rank {place : HandshakePlace Point Key} (busy : 0 < place.rank) : place.tokens = 1 := by
  cases place with
  | returned => contradiction
  | _ => rfl

theorem Shut.progress (shut : l.Shut) (balanced : l.handshakeSema + l.inHandshake + l.listen.tokens = defaultHandshakes)
    (busy : ¬ l.Ended suite) : l.Unaided suite cfg := by
  cases place : l.listen with
  | acquire => exact ⟨.listenQuits,rfl,rfl,by simp [step,shut.panicked,shut.quit,place]⟩
  | accept => exact ⟨.tcpFails,rfl,rfl,by simp [step,shut.panicked,place]⟩
  | offer err => exact ⟨.listenGivesUp,rfl,rfl,by simp [step,shut.panicked,shut.quit,place]⟩
  | release =>
    rw [place] at balanced
    have room : l.handshakeSema < defaultHandshakes := by
      simp only [ListenPlace.tokens] at balanced
      omega
    exact ⟨.listenReleases,rfl,rfl,by simp [step,shut.panicked,place,room]⟩
  | returned =>
    by_cases waiting : 0 < l.accepting
    · exact ⟨.acceptQuits,rfl,rfl,by simp [step,shut.panicked,shut.quit,waiting]⟩
    by_cases closing : 0 < l.closingTcp
    · exact ⟨.closeTcp,rfl,rfl,by simp [step,shut.panicked,closing]⟩
    by_contra none_
    refine busy ⟨place,?_,by omega,by omega⟩
    intro c member
    by_contra neither
    obtain ⟨notReturned,reads⟩ := not_or.mp neither
    obtain ⟨i,found⟩ := List.getElem?_of_mem member
    have positive : 0 < c.place.rank := Nat.pos_of_ne_zero fun zero => notReturned (returned_of_rank (by omega))
    have held : c.place.tokens ≤ l.inHandshake :=
      Pool.weight_le_weigh (fun c : TcpConn Point Key => c.place.tokens) found
    rw [tokens_of_rank positive] at held
    exact none_ (conn_progress shut (by omega) found positive reads)

theorem writing_step (shut : l.Shut) {i : Nat} {c : TcpConn Point Key} (found : l.conns[i]? = some c)
    (writing : Writing suite c.place) : (l.step suite cfg (.handshake i .writes)).isSome := by
  unfold Writing at writing
  split at writing
  · rename_i place
    simp [step,shut.panicked,found,TcpConn.move,TcpConn.exchange,place,writing]
  · contradiction

/-- Once `Close` has returned, and no other call of `Close` is about to close `quit` a second time, the listener winds
down without any call of `Accept`: until no call waits and every goroutine has returned or waits in the Write of a
handshake, which has no deadline, there is a step to take for which neither a peer nor a caller has to do anything. The
number of steps is bounded, but for those of the tokens that `listen` still takes when its select prefers them to
`quit`, and of new calls. A handshake that waits in a Write goes on once that Write returns. -/
theorem closed_winds_down {events later : List (ListenerEvent Key)} {final : Listener Point Key}
    (reached : run (step suite cfg) {} events = some l) (shut : l.Shut)
    (continued : run (step suite cfg) l later = some final) :
    later.length + final.rank ≤ l.rank + (later.map ListenerEvent.cost).sum ∧
    (final.Ended suite ∨
      ∃ event : ListenerEvent Key, event.unaided ∧ event.cost = 0 ∧ (final.step suite cfg event).isSome) ∧
    (∀ i c, final.conns[i]? = some c → Writing suite c.place → (final.step suite cfg (.handshake i .writes)).isSome) := by
  have shut' := run_invariant (step suite cfg) Shut (fun _ _ _ shut stepped => (step_shut shut stepped).1) later l final
    shut continued
  have balanced := run_invariant (step suite cfg) (fun l => l.handshakeSema + l.inHandshake + l.listen.tokens = defaultHandshakes)
    (fun _ _ _ balanced stepped => (step_change stepped).tokens ▸ balanced) later l final (run_tokens reached) continued
  refine ⟨?_,?_,fun i c found writing => writing_step shut' found writing⟩
  · exact run_length_le (step suite cfg) Shut rank ListenerEvent.cost
      (fun _ _ _ shut stepped => step_shut shut stepped) later l final shut continued
  · by_cases ended : final.Ended suite
    · exact .inl ended
    · exact .inr (shut'.progress balanced ended)

end Listener

end Closing

section Served

def plainListener : ListenerConfig UInt8 := ⟨9,[1,7],ascii "macaroon"⟩

def plainDialer : DialConfig UInt8 := ⟨5,[1,7]⟩

def dialing : Machine UInt8 UInt8 := plainMachine (plainDialer.machineConfig [some 11])

def serving : Machine UInt8 UInt8 := plainMachine (plainListener.machineConfig [some 13])

def servedBytes : Bytes × Bytes :=
  let first := (dialing.handshakeOn plainSuite []).link.written.flatten
  let second := (serving.handshakeOn plainSuite first).link.written.flatten
  (second,(dialing.handshakeOn plainSuite second).link.written.flatten)

theorem servedBytes_ideal : Ideal plainSuite ((dialing.handshakeOn plainSuite servedBytes.1).machine.calls ++
    (serving.handshakeOn plainSuite servedBytes.2).machine.calls) := by
  decide +kernel

theorem plainMachine_made {config : BrontideMachineConfig UInt8 UInt8} (succeeds : (newBrontideMachine plainSuite config).isOk) :
    newBrontideMachine plainSuite config = .ok (plainMachine config) := by
  unfold plainMachine
  cases made : newBrontideMachine plainSuite config with
  | ok m => rfl
  | error err =>
    rw [made] at succeeds
    contradiction

def beginning (i : Nat) : List (ListenerEvent UInt8) := List.replicate 3 (.handshake i (.advances true))

/-- One dialer is served, and another one sends nothing until the deadline passes. -/
def servesOne : List (ListenerEvent UInt8) :=
  List.flatten [[.accept,.acquire,.tcpAccepts "10.0.0.7:40000" {incoming := ⟨servedBytes.2,[]⟩} [some 13]],
    [.acquire,.tcpAccepts "10.0.0.8:40001" {incoming := ⟨[],[]⟩} [some 14]],
    beginning 0,[.handshake 0 .reads,.handshake 0 .writes,.handshake 0 .reads],List.replicate 3 (.handshake 0 (.advances true)),
    beginning 1,[.handshake 1 .expires,.handshake 1 .timesOut],[.reports 0,.accept,.reports 1,.releases 0]]

theorem handshakes_bounded_two : ∃ l, run (Listener.step plainSuite plainListener) {} servesOne = some l ∧
    l.inHandshake = 1 ∧ l.handshakeSema + l.inHandshake + l.listen.tokens = defaultHandshakes := by
  have found : ∃ l ∈ run (Listener.step plainSuite plainListener) {} servesOne, l.inHandshake = 1 := by decide +kernel
  obtain ⟨l,reached,one⟩ := found
  exact ⟨l,reached,one,(Listener.handshakes_bounded reached).1⟩

theorem accept_reports_once_rejected : ∃ l, run (Listener.step plainSuite plainListener) {} servesOne = some l ∧
    l.quit = false ∧ ∃ c ∈ l.conns, c.remoteAddr = "10.0.0.8:40001" ∧ c.closed = true ∧ c.reported.length ≤ 1 := by
  have found : ∃ l ∈ run (Listener.step plainSuite plainListener) {} servesOne, l.quit = false ∧
      ∃ c ∈ l.conns, c.remoteAddr = "10.0.0.8:40001" ∧ c.closed = true := by decide +kernel
  obtain ⟨l,reached,isOpen,c,member,address,closed⟩ := found
  exact ⟨l,reached,isOpen,c,member,address,closed,(Listener.accept_reports_once reached c member).1⟩

def MaybeConn.noise? {Point Key : Type} : MaybeConn Point Key → Option (Machine Point Key)
  | .conn noise => some noise
  | .err _ => none

theorem MaybeConn.eq_conn {Point Key : Type} {result : MaybeConn Point Key} (isConn : result.noise?.isSome) :
    ∃ noise, result = .conn noise := by
  cases result with
  | conn noise => exact ⟨noise,rfl⟩
  | err err => contradiction

theorem accept_authenticates_served : ∃ l, run (Listener.step plainSuite plainListener) {} servesOne = some l ∧
    ∃ c ∈ l.conns, ∃ noise, .conn noise ∈ c.reported ∧ c.Made plainSuite plainListener serving ∧
      Listener.Dialled plainSuite plainDialer c.link dialing servedBytes.1 ∧
      ∃ stretched stretched', plainSuite.scrypt plainDialer.passphrase = some stretched ∧
        plainSuite.scrypt plainListener.passphrase = some stretched' ∧
        plainSuite.modNScalar stretched = plainSuite.modNScalar stretched' := by
  have found : ∃ l ∈ run (Listener.step plainSuite plainListener) {} servesOne, ∃ c ∈ l.conns,
      c.link = {incoming := ⟨servedBytes.2,[]⟩} ∧ c.ephemeralGen = [some 13] ∧
      ∃ result ∈ c.reported, result.noise?.isSome := by
    decide +kernel
  obtain ⟨l,reached,c,member,link,ephemeralGen,result,reported,isConn⟩ := found
  obtain ⟨noise,rfl⟩ := MaybeConn.eq_conn isConn
  have made : c.Made plainSuite plainListener serving := by
    unfold TcpConn.Made
    rw [ephemeralGen]
    exact plainMachine_made (by decide +kernel)
  have dialled : Listener.Dialled plainSuite plainDialer c.link dialing servedBytes.1 :=
    .of_bytes ⟨[some 11],plainMachine_made (by decide +kernel)⟩ link (by decide +kernel)
  have ideal : Ideal plainSuite ((dialing.handshakeOn plainSuite servedBytes.1).machine.calls ++ noise.calls) := by
    have whole : serving.doHandshake plainSuite c.link = serving.handshakeOn plainSuite servedBytes.2 :=
      congrArg (serving.doHandshake plainSuite) link
    rw [((Listener.accepted_completed reached member reported).of_made made).2,whole]
    exact servedBytes_ideal
  exact ⟨l,reached,c,member,noise,reported,made,dialled,Listener.accept_authenticates plainSuite_lawful plainSuite_distinct
    reached c member noise reported serving made plainDialer dialing servedBytes.1 dialled ideal⟩

/-- `Close` returns while a call of `Accept` waits. One dialer has sent the first act and reads nothing, and another one
has sent nothing. -/
def closesEarly : List (ListenerEvent UInt8) :=
  List.flatten [[.accept,.acquire,.tcpAccepts "10.0.0.7:40000" {incoming := ⟨servedBytes.2,[]⟩} [some 13]],
    [.acquire,.tcpAccepts "10.0.0.8:40001" {incoming := ⟨[],[]⟩} [some 14]],
    beginning 0,[.handshake 0 .reads],beginning 1,[.close,.closeQuits,.closeTcp]]

/-- The deadline ends the second handshake, and `listen` takes one more token before it sees `quit`. -/
def windsDown : List (ListenerEvent UInt8) :=
  List.flatten [[.handshake 1 .expires,.handshake 1 .timesOut,.givesUp 1,.releases 1],
    [.acceptQuits,.acquire,.tcpFails,.listenGivesUp,.listenReleases,.listenQuits]]

theorem closed_winds_down_early : ∃ l final : Listener UInt8 UInt8,
    run (Listener.step plainSuite plainListener) {} closesEarly = some l ∧ l.Shut ∧ l.rank = 19 ∧
    run (Listener.step plainSuite plainListener) l windsDown = some final ∧ windsDown.length = 10 ∧
    windsDown.length + final.rank ≤ l.rank + (windsDown.map ListenerEvent.cost).sum ∧
    ∃ c, final.conns[0]? = some c ∧ Listener.Writing plainSuite c.place ∧
      (final.step plainSuite plainListener (.handshake 0 .writes)).isSome := by
  have found : ∃ l ∈ run (Listener.step plainSuite plainListener) {} closesEarly,
      l.quit = true ∧ l.tcpClosed = true ∧ l.closingQuit = 0 ∧ l.panicked = false ∧ l.rank = 19 ∧
      ∃ final ∈ run (Listener.step plainSuite plainListener) l windsDown,
      ∃ c ∈ final.conns[0]?, Listener.Writing plainSuite c.place := by
    decide +kernel
  obtain ⟨l,reached,quit,tcpClosed,closingQuit,panicked,rank,final,continued,c,conn,writing⟩ := found
  have shut : l.Shut := ⟨quit,tcpClosed,closingQuit,panicked⟩
  obtain ⟨bounded,_,goesOn⟩ := Listener.closed_winds_down reached shut continued
  exact ⟨l,final,reached,shut,rank,continued,rfl,bounded,c,conn,writing,goesOn 0 c conn writing⟩

end Served

end NodeConnect.Mailbox
