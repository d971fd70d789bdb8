import NodeConnect.Lib.Run

/-! The keepalive of a connection: the ping ticker and the pong ticker with a goroutine each, the
send loop, which receives their ticks, and the receive loop, which resets the one and pauses the
other at every packet. When the clocks fire and what the loops do between two uses of a ticker
are choices of the run. -/
namespace NodeConnect.Gbn
open Lib

/-- Where the goroutine of a ticker is. A tick was read at `ticked`, `isActive` was read as true
at `checked`, and at `offering` the goroutine blocks on `Force`, `skip` and `quit`. -/
inductive TickerPlace where
  | clock
  | ticked
  | checked
  | offering
  | returned
  deriving DecidableEq, Repr

/-- The channel `quit` is closed exactly while a reset holds `opsMu`. -/
structure Ticker where
  isActive : Bool
  goroutine : TickerPlace := .clock
  quit : Bool := false
  deriving DecidableEq, Repr

inductive TickerMove where
  | tick
  | check
  | offer
  | quit
  deriving DecidableEq, Repr

namespace Ticker

/-- A stopped clock may have left a tick in its channel. -/
def move (t : Ticker) : TickerMove → Option Ticker
  | .tick => if t.goroutine = .clock then some {t with goroutine := .ticked} else none
  | .check =>
    if t.goroutine = .ticked then some {t with goroutine := if t.isActive then .checked else .clock} else none
  | .offer => if t.goroutine = .checked then some {t with goroutine := .offering} else none
  | .quit =>
    if (t.goroutine = .clock ∨ t.goroutine = .offering) ∧ t.quit = true then some {t with goroutine := .returned}
    else none

def receive (t : Ticker) : Option Ticker :=
  if t.goroutine = .offering then some {t with goroutine := .clock} else none

def resume (t : Ticker) : Ticker := {t with isActive := true}

def pause (t : Ticker) : Ticker := {t with isActive := false}

/-- The non-blocking send of `Pause`: only a goroutine that already blocks receives it. -/
def skip (t : Ticker) : Ticker := if t.goroutine = .offering then {t with goroutine := .clock} else t

def stop (t : Ticker) : Option Ticker := if t.quit = false then some {t with quit := true} else none

def restart (t : Ticker) : Option Ticker :=
  if t.quit = true ∧ t.goroutine = .returned then some {t with goroutine := .clock, quit := false} else none

variable {t ticker : Ticker} {kind : TickerMove}

/-- Paused, and no tick is on its way. -/
def Silenced (t : Ticker) : Prop := t.isActive = false ∧ t.goroutine ≠ .checked ∧ t.goroutine ≠ .offering

theorem move_keeps (moved : t.move kind = some ticker) : ticker.isActive = t.isActive ∧ ticker.quit = t.quit := by
  cases kind with
  | tick | check | offer | quit =>
    obtain ⟨_,⟨⟩⟩ := Option.ite_none_right_eq_some.mp moved
    exact ⟨rfl,rfl⟩

theorem Silenced.move (silenced : t.Silenced) (moved : t.move kind = some ticker) : ticker.Silenced := by
  cases kind with
  | tick =>
    obtain ⟨_,⟨⟩⟩ := Option.ite_none_right_eq_some.mp moved
    exact ⟨silenced.1,nofun,nofun⟩
  | check =>
    obtain ⟨_,⟨⟩⟩ := Option.ite_none_right_eq_some.mp moved
    exact ⟨silenced.1,by simp [silenced.1],by simp [silenced.1]⟩
  | offer => exact absurd (Option.ite_none_right_eq_some.mp moved).1 silenced.2.1
  | quit =>
    obtain ⟨_,⟨⟩⟩ := Option.ite_none_right_eq_some.mp moved
    exact ⟨silenced.1,nofun,nofun⟩

theorem Silenced.receive (silenced : t.Silenced) : t.receive = none := if_neg silenced.2.2

theorem Silenced.skip (inactive : t.isActive = false) (unchecked : t.goroutine ≠ .checked) : t.skip.Silenced := by
  unfold Ticker.skip
  split_ifs with offering
  · exact ⟨inactive,nofun,nofun⟩
  · exact ⟨inactive,unchecked,offering⟩

theorem skip_isActive (t : Ticker) : t.skip.isActive = t.isActive := by
  unfold skip
  split_ifs <;> rfl

theorem stop_eq_some (stopped : t.stop = some ticker) : t.quit = false ∧ ticker = {t with quit := true} := by
  obtain ⟨free,⟨⟩⟩ := Option.ite_none_right_eq_some.mp stopped
  exact ⟨free,rfl⟩

theorem restart_eq_some (restarted : t.restart = some ticker) :
    (t.quit = true ∧ t.goroutine = .returned) ∧ ticker = {t with goroutine := .clock, quit := false} := by
  obtain ⟨ended,⟨⟩⟩ := Option.ite_none_right_eq_some.mp restarted
  exact ⟨ended,rfl⟩

theorem move_returned (moved : t.move kind = some ticker) (returned : ticker.goroutine = .returned) : t.quit = true := by
  cases kind with
  | tick | offer =>
    obtain ⟨_,⟨⟩⟩ := Option.ite_none_right_eq_some.mp moved
    cases returned
  | check =>
    obtain ⟨_,⟨⟩⟩ := Option.ite_none_right_eq_some.mp moved
    split_ifs at returned
  | quit => exact (Option.ite_none_right_eq_some.mp moved).1.2

theorem skip_quit (t : Ticker) : t.skip.quit = t.quit := by
  unfold skip
  split_ifs <;> rfl

theorem skip_returned (returned : t.skip.goroutine = .returned) : t.goroutine = .returned := by
  unfold skip at returned
  split_ifs at returned
  exact returned

theorem skip_coming (unsettled : ¬ (t.isActive = false ∧ t.goroutine ≠ .checked)) :
    t.skip.isActive = true ∨ t.skip.goroutine = .checked := by
  cases active : t.isActive with
  | true => exact .inl (t.skip_isActive.trans active)
  | false =>
    have checked : t.goroutine = .checked := by
      by_contra unchecked
      exact unsettled ⟨active,unchecked⟩
    have kept : t.skip = t := if_neg (by rw [checked]; exact nofun)
    exact .inr (kept.symm ▸ checked)

theorem returns (quit : t.quit = true) : Leads move (fun _ => True) t {t with goroutine := .returned} := by
  obtain ⟨isActive,goroutine,_⟩ := t
  subst quit
  have clock : Leads move (fun _ => True) ⟨isActive,.clock,true⟩ ⟨isActive,.returned,true⟩ :=
    Leads.single .quit trivial rfl
  have offering : Leads move (fun _ => True) ⟨isActive,.offering,true⟩ ⟨isActive,.returned,true⟩ :=
    Leads.single .quit trivial rfl
  have checked : Leads move (fun _ => True) ⟨isActive,.checked,true⟩ ⟨isActive,.returned,true⟩ :=
    Leads.cons .offer trivial rfl offering
  cases goroutine with
  | clock => exact clock
  | ticked =>
    cases isActive with
    | false => exact Leads.cons .check trivial rfl clock
    | true => exact Leads.cons .check trivial rfl checked
  | checked => exact checked
  | offering => exact offering
  | returned => exact Leads.refl _

/-- A tick can come as long as the goroutine runs, unless it still has to find the ticker paused. -/
theorem offers (coming : t.isActive = true ∨ t.goroutine = .checked) (running : t.goroutine ≠ .returned) :
    Leads move (fun _ => True) t {t with goroutine := .offering} := by
  obtain ⟨isActive,goroutine,quit⟩ := t
  have checked : Leads move (fun _ => True) ⟨isActive,.checked,quit⟩ ⟨isActive,.offering,quit⟩ :=
    Leads.single .offer trivial rfl
  have ticked (active : isActive = true) :
      Leads move (fun _ => True) ⟨isActive,.ticked,quit⟩ ⟨isActive,.offering,quit⟩ := by
    subst active
    exact Leads.cons .check trivial rfl checked
  cases goroutine with
  | clock => exact Leads.cons .tick trivial rfl (ticked (coming.resolve_right nofun))
  | ticked => exact ticked (coming.resolve_right nofun)
  | checked => exact checked
  | offering => exact Leads.refl _
  | returned => exact absurd rfl running

end Ticker

/-- No ticker is used while the loop is `busy`; at `pinged` the ping ticker has ticked and the pong ticker is looked at. -/
inductive SendPlace where
  | select
  | busy
  | pinged
  | restarting
  | restarted
  | resuming
  | resetting
  | reset
  | pinging
  | keepaliveTimeout
  | returned
  deriving DecidableEq, Repr

/-- Between `Resume` and the ping that follows it, or returned. -/
def SendPlace.Away : SendPlace → Prop
  | .resetting | .reset | .pinging | .returned => True
  | _ => False

/-- The loop can receive a tick of the pong ticker before it next resumes it. -/
def SendPlace.Listens : SendPlace → Prop
  | .restarting | .restarted | .resuming | .keepaliveTimeout | .returned => False
  | _ => True

inductive ReceivePlace where
  | receiving
  | received
  | reset
  | checking
  | pausing
  | skipping
  | returned
  deriving DecidableEq, Repr

/-- `ticks` counts what the pong ticker delivered. `paused` lasts from a return of `Pause` to the
next `Resume`. `unanswered` says that a ping was sent and that no reset and pause which began
afterwards is through; `fresh` tells whether the current one began afterwards. -/
structure Keepalive where
  pingTicker : Ticker := {isActive := true}
  pongTicker : Ticker := {isActive := false}
  sender : SendPlace := .select
  receiver : ReceivePlace := .receiving
  ticks : Nat := 0
  paused : Bool := false
  unanswered : Bool := false
  fresh : Bool := false
  deriving DecidableEq, Repr

inductive KeepaliveEvent where
  | ping (move : TickerMove)
  | pong (move : TickerMove)
  | wake
  | rest
  | pingTick
  | pongTick
  | checkPong
  | stopPong
  | restartPong
  | resume
  | stopPing
  | restartPing
  | sendPing
  | sendReturns
  | packet
  | packetStopsPing
  | packetRestartsPing
  | isActive
  | pause
  | skip
  | receiveReturns
  deriving DecidableEq, Repr

namespace Keepalive

def processed (c : Keepalive) : Keepalive := {c with receiver := .receiving, unanswered := c.unanswered && !c.fresh}

def step (c : Keepalive) : KeepaliveEvent → Option Keepalive
  | .ping move => (c.pingTicker.move move).map fun pingTicker => {c with pingTicker}
  | .pong move => (c.pongTicker.move move).map fun pongTicker => {c with pongTicker}
  | .wake => if c.sender = .select then some {c with sender := .busy} else none
  | .rest => if c.sender = .busy then some {c with sender := .select} else none
  | .pingTick =>
    if c.sender = .select then c.pingTicker.receive.map fun pingTicker => {c with pingTicker, sender := .pinged}
    else none
  | .pongTick =>
    if c.sender = .select then
      c.pongTicker.receive.map fun pongTicker => {c with pongTicker, ticks := c.ticks + 1, sender := .keepaliveTimeout}
    else none
  | .checkPong =>
    if c.sender = .pinged then
      match c.pongTicker.receive with
      | some pongTicker => some {c with pongTicker, ticks := c.ticks + 1, sender := .keepaliveTimeout}
      | none => some {c with sender := .restarting}
    else none
  | .stopPong =>
    if c.sender = .restarting then c.pongTicker.stop.map fun pongTicker => {c with pongTicker, sender := .restarted}
    else none
  | .restartPong =>
    if c.sender = .restarted then c.pongTicker.restart.map fun pongTicker => {c with pongTicker, sender := .resuming}
    else none
  | .resume =>
    if c.sender = .resuming then
      some {c with pongTicker := c.pongTicker.resume, sender := .resetting, paused := false}
    else none
  | .stopPing =>
    if c.sender = .resetting then c.pingTicker.stop.map fun pingTicker => {c with pingTicker, sender := .reset}
    else none
  | .restartPing =>
    if c.sender = .reset then c.pingTicker.restart.map fun pingTicker => {c with pingTicker, sender := .pinging}
    else none
  | .sendPing =>
    if c.sender = .pinging then some {c with sender := .busy, unanswered := true, fresh := false} else none
  | .sendReturns =>
    if c.sender = .select ∨ c.sender = .busy ∨ c.sender = .pinging then some {c with sender := .returned} else none
  | .packet => if c.receiver = .receiving then some {c with receiver := .received} else none
  | .packetStopsPing =>
    if c.receiver = .received then
      c.pingTicker.stop.map fun pingTicker => {c with pingTicker, receiver := .reset, fresh := true}
    else none
  | .packetRestartsPing =>
    if c.receiver = .reset then c.pingTicker.restart.map fun pingTicker => {c with pingTicker, receiver := .checking}
    else none
  | .isActive =>
    if c.receiver = .checking then
      if c.pongTicker.isActive then some {c with receiver := .pausing} else some c.processed
    else none
  | .pause =>
    if c.receiver = .pausing then some {c with pongTicker := c.pongTicker.pause, receiver := .skipping} else none
  | .skip =>
    if c.receiver = .skipping then some {c.processed with pongTicker := c.pongTicker.skip, paused := true} else none
  | .receiveReturns => if c.receiver = .receiving then some {c with receiver := .returned} else none

def start : Keepalive := {}

inductive Moves (c : Keepalive) : KeepaliveEvent → Keepalive → Prop
  | ping (move : TickerMove) (ticker : Ticker) (moved : c.pingTicker.move move = some ticker) :
      Moves c (.ping move) {c with pingTicker := ticker}
  | pong (move : TickerMove) (ticker : Ticker) (moved : c.pongTicker.move move = some ticker) :
      Moves c (.pong move) {c with pongTicker := ticker}
  | wake (at_ : c.sender = .select) : Moves c .wake {c with sender := .busy}
  | rest (at_ : c.sender = .busy) : Moves c .rest {c with sender := .select}
  | pingTick (ticker : Ticker) (at_ : c.sender = .select) (received : c.pingTicker.receive = some ticker) :
      Moves c .pingTick {c with pingTicker := ticker, sender := .pinged}
  | pongTick (ticker : Ticker) (at_ : c.sender = .select) (received : c.pongTicker.receive = some ticker) :
      Moves c .pongTick {c with pongTicker := ticker, ticks := c.ticks + 1, sender := .keepaliveTimeout}
  | lateTick (ticker : Ticker) (at_ : c.sender = .pinged) (received : c.pongTicker.receive = some ticker) :
      Moves c .checkPong {c with pongTicker := ticker, ticks := c.ticks + 1, sender := .keepaliveTimeout}
  | noTick (at_ : c.sender = .pinged) (silent : c.pongTicker.receive = none) :
      Moves c .checkPong {c with sender := .restarting}
  | stopPong (ticker : Ticker) (at_ : c.sender = .restarting) (stopped : c.pongTicker.stop = some ticker) :
      Moves c .stopPong {c with pongTicker := ticker, sender := .restarted}
  | restartPong (ticker : Ticker) (at_ : c.sender = .restarted) (restarted : c.pongTicker.restart = some ticker) :
      Moves c .restartPong {c with pongTicker := ticker, sender := .resuming}
  | resume (at_ : c.sender = .resuming) :
      Moves c .resume {c with pongTicker := c.pongTicker.resume, sender := .resetting, paused := false}
  | stopPing (ticker : Ticker) (at_ : c.sender = .resetting) (stopped : c.pingTicker.stop = some ticker) :
      Moves c .stopPing {c with pingTicker := ticker, sender := .reset}
  | restartPing (ticker : Ticker) (at_ : c.sender = .reset) (restarted : c.pingTicker.restart = some ticker) :
      Moves c .restartPing {c with pingTicker := ticker, sender := .pinging}
  | sendPing (at_ : c.sender = .pinging) :
      Moves c .sendPing {c with sender := .busy, unanswered := true, fresh := false}
  | sendReturns (at_ : c.sender = .select ∨ c.sender = .busy ∨ c.sender = .pinging) :
      Moves c .sendReturns {c with sender := .returned}
  | packet (at_ : c.receiver = .receiving) : Moves c .packet {c with receiver := .received}
  | packetStopsPing (ticker : Ticker) (at_ : c.receiver = .received) (stopped : c.pingTicker.stop = some ticker) :
      Moves c .packetStopsPing {c with pingTicker := ticker, receiver := .reset, fresh := true}
  | packetRestartsPing (ticker : Ticker) (at_ : c.receiver = .reset) (restarted : c.pingTicker.restart = some ticker) :
      Moves c .packetRestartsPing {c with pingTicker := ticker, receiver := .checking}
  | active (at_ : c.receiver = .checking) (active : c.pongTicker.isActive = true) :
      Moves c .isActive {c with receiver := .pausing}
  | inactive (at_ : c.receiver = .checking) (inactive : c.pongTicker.isActive = false) : Moves c .isActive c.processed
  | pause (at_ : c.receiver = .pausing) :
      Moves c .pause {c with pongTicker := c.pongTicker.pause, receiver := .skipping}
  | skip (at_ : c.receiver = .skipping) :
      Moves c .skip {c.processed with pongTicker := c.pongTicker.skip, paused := true}
  | receiveReturns (at_ : c.receiver = .receiving) : Moves c .receiveReturns {c with receiver := .returned}

variable {c next : Keepalive} {event : KeepaliveEvent}

theorem step_moves (stepped : c.step event = some next) : Moves c event next := by
  cases event with
  | ping move =>
    obtain ⟨ticker,moved,rfl⟩ := Option.map_eq_some_iff.mp stepped
    exact .ping move ticker moved
  | pong move =>
    obtain ⟨ticker,moved,rfl⟩ := Option.map_eq_some_iff.mp stepped
    exact .pong move ticker moved
  | wake =>
    obtain ⟨at_,⟨⟩⟩ := Option.ite_none_right_eq_some.mp stepped
    exact .wake at_
  | rest =>
    obtain ⟨at_,⟨⟩⟩ := Option.ite_none_right_eq_some.mp stepped
    exact .rest at_
  | pingTick =>
    obtain ⟨at_,done⟩ := Option.ite_none_right_eq_some.mp stepped
    obtain ⟨ticker,received,rfl⟩ := Option.map_eq_some_iff.mp done
    exact .pingTick ticker at_ received
  | pongTick =>
    obtain ⟨at_,done⟩ := Option.ite_none_right_eq_some.mp stepped
    obtain ⟨ticker,received,rfl⟩ := Option.map_eq_some_iff.mp done
    exact .pongTick ticker at_ received
  | checkPong =>
    obtain ⟨at_,done⟩ := Option.ite_none_right_eq_some.mp stepped
    cases received : c.pongTicker.receive with
    | some ticker =>
      rw [received] at done
      cases done
      exact .lateTick ticker at_ received
    | none =>
      rw [received] at done
      cases done
      exact .noTick at_ received
  | stopPong =>
    obtain ⟨at_,done⟩ := Option.ite_none_right_eq_some.mp stepped
    obtain ⟨ticker,stopped,rfl⟩ := Option.map_eq_some_iff.mp done
    exact .stopPong ticker at_ stopped
  | restartPong =>
    obtain ⟨at_,done⟩ := Option.ite_none_right_eq_some.mp stepped
    obtain ⟨ticker,restarted,rfl⟩ := Option.map_eq_some_iff.mp done
    exact .restartPong ticker at_ restarted
  | resume =>
    obtain ⟨at_,⟨⟩⟩ := Option.ite_none_right_eq_some.mp stepped
    exact .resume at_
  | stopPing =>
    obtain ⟨at_,done⟩ := Option.ite_none_right_eq_some.mp stepped
    obtain ⟨ticker,stopped,rfl⟩ := Option.map_eq_some_iff.mp done
    exact .stopPing ticker at_ stopped
  | restartPing =>
    obtain ⟨at_,done⟩ := Option.ite_none_right_eq_some.mp stepped
    obtain ⟨ticker,restarted,rfl⟩ := Option.map_eq_some_iff.mp done
    exact .restartPing ticker at_ restarted
  | sendPing =>
    obtain ⟨at_,⟨⟩⟩ := Option.ite_none_right_eq_some.mp stepped
    exact .sendPing at_
  | sendReturns =>
    obtain ⟨at_,⟨⟩⟩ := Option.ite_none_right_eq_some.mp stepped
    exact .sendReturns at_
  | packet =>
    obtain ⟨at_,⟨⟩⟩ := Option.ite_none_right_eq_some.mp stepped
    exact .packet at_
  | packetStopsPing =>
    obtain ⟨at_,done⟩ := Option.ite_none_right_eq_some.mp stepped
    obtain ⟨ticker,stopped,rfl⟩ := Option.map_eq_some_iff.mp done
    exact .packetStopsPing ticker at_ stopped
  | packetRestartsPing =>
    obtain ⟨at_,done⟩ := Option.ite_none_right_eq_some.mp stepped
    obtain ⟨ticker,restarted,rfl⟩ := Option.map_eq_some_iff.mp done
    exact .packetRestartsPing ticker at_ restarted
  | isActive =>
    obtain ⟨at_,done⟩ := Option.ite_none_right_eq_some.mp stepped
    split_ifs at done with active
    · cases done
      exact .active at_ active
    · cases done
      exact .inactive at_ (eq_false_of_ne_true active)
  | pause =>
    obtain ⟨at_,⟨⟩⟩ := Option.ite_none_right_eq_some.mp stepped
    exact .pause at_
  | skip =>
    obtain ⟨at_,⟨⟩⟩ := Option.ite_none_right_eq_some.mp stepped
    exact .skip at_
  | receiveReturns =>
    obtain ⟨at_,⟨⟩⟩ := Option.ite_none_right_eq_some.mp stepped
    exact .receiveReturns at_

end Keepalive

end NodeConnect.Gbn
