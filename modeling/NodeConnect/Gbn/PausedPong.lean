import NodeConnect.Gbn.Keepalive

/-! What a `Pause` of the pong ticker is worth. Its attempt to drop a tick reaches only a goroutine
that already offers one; a goroutine that has checked `isActive` and not yet come so far keeps its
tick, and a paused ticker ticks. -/
namespace NodeConnect.Gbn
open Lib

namespace Keepalive

variable {c next : Keepalive} {event : KeepaliveEvent}

/-- No step delivers a tick of the pong ticker. -/
def Silent (c : Keepalive) : Prop := ∀ event next, c.step event = some next → next.ticks = c.ticks

/-- The send loop is where it receives a tick of the pong ticker. -/
def Listening (c : Keepalive) : Prop := c.sender = .select ∨ c.sender = .pinged

theorem Moves.ticks (moves : Moves c event next) : next.ticks = c.ticks ∧ next.sender ≠ .keepaliveTimeout ∨
    next.ticks = c.ticks ∧ next.sender = c.sender ∨ c.pongTicker.goroutine = .offering ∧ c.Listening := by
  cases moves with
  | pongTick ticker at_ received => exact .inr (.inr ⟨(Option.ite_none_right_eq_some.mp received).1,.inl at_⟩)
  | lateTick ticker at_ received => exact .inr (.inr ⟨(Option.ite_none_right_eq_some.mp received).1,.inr at_⟩)
  | ping | pong | packet | packetStopsPing | packetRestartsPing | active | inactive | pause | skip | receiveReturns =>
    exact .inr (.inl ⟨rfl,rfl⟩)
  | _ => exact .inl ⟨rfl,nofun⟩

theorem silent_iff : c.Silent ↔ ¬ (c.pongTicker.goroutine = .offering ∧ c.Listening) := by
  constructor
  · rintro silent ⟨offering,listening⟩
    have received : c.pongTicker.receive = some {c.pongTicker with goroutine := .clock} := if_pos offering
    rcases listening with select | pinged
    · have stepped := silent .pongTick _ (by rw [step,if_pos select,received]; rfl)
      exact absurd stepped (Nat.succ_ne_self _)
    · have stepped := silent .checkPong _ (by rw [step,if_pos pinged,received])
      exact absurd stepped (Nat.succ_ne_self _)
  · intro unheard event next stepped
    rcases (step_moves stepped).ticks with ⟨same,_⟩ | ⟨same,_⟩ | heard
    · exact same
    · exact same
    · exact absurd heard unheard

theorem silenced_moves (silenced : c.pongTicker.Silenced) (moves : Moves c event next) (kept : event ≠ .resume) :
    next.pongTicker.Silenced := by
  cases moves with
  | pong move ticker moved => exact silenced.move moved
  | pongTick ticker at_ received | lateTick ticker at_ received =>
    exact absurd (silenced.receive.symm.trans received) nofun
  | stopPong ticker at_ stopped =>
    obtain ⟨_,rfl⟩ := Ticker.stop_eq_some stopped
    exact silenced
  | restartPong ticker at_ restarted =>
    obtain ⟨_,rfl⟩ := Ticker.restart_eq_some restarted
    exact ⟨silenced.1,nofun,nofun⟩
  | resume => exact absurd rfl kept
  | pause => exact ⟨rfl,silenced.2⟩
  | skip => exact Ticker.Silenced.skip silenced.1 silenced.2.1
  | _ => exact silenced

/-- A `Pause` makes its attempt to drop a tick, and the goroutine does not hold one that it will
still offer. -/
def Drops (c : Keepalive) (event : KeepaliveEvent) : Prop := event = .skip → c.pongTicker.goroutine ≠ .checked

/-- A `Pause` returns, and the ticker has neither been resumed meanwhile nor will it offer a tick. -/
def Settles (c : Keepalive) (event : KeepaliveEvent) : Prop :=
  event = .skip → c.pongTicker.isActive = false ∧ c.pongTicker.goroutine ≠ .checked

def Rested (c : Keepalive) : Prop := c.paused = true → c.pongTicker.Silenced

theorem Rested.moves (rested : c.Rested) (moves : Moves c event next) (settles : c.Settles event) : next.Rested := by
  have silenced (paused : c.paused = true) := silenced_moves (rested paused) moves
  cases moves with
  | resume => exact nofun
  | skip => exact fun _ => Ticker.Silenced.skip (settles rfl).1 (settles rfl).2
  | _ => exact fun paused => silenced paused nofun

/-- A paused ticker is silenced once the `Pause` is over. -/
def Quiet (c : Keepalive) : Prop := c.pongTicker.isActive = false → c.receiver ≠ .skipping → c.pongTicker.Silenced

theorem Quiet.moves (quiet : c.Quiet) (moves : Moves c event next) (drops : c.Drops event) : next.Quiet := by
  have silenced (inactive : c.pongTicker.isActive = false) (returned : c.receiver ≠ .skipping) :=
    silenced_moves (quiet inactive returned) moves
  cases moves with
  | pong move ticker moved =>
    exact fun inactive returned => silenced ((Ticker.move_keeps moved).1.symm.trans inactive) returned nofun
  | pongTick ticker at_ received | lateTick ticker at_ received =>
    obtain ⟨_,⟨⟩⟩ := Option.ite_none_right_eq_some.mp received
    exact fun inactive _ => ⟨inactive,nofun,nofun⟩
  | stopPong ticker at_ stopped =>
    obtain ⟨_,rfl⟩ := Ticker.stop_eq_some stopped
    exact quiet
  | restartPong ticker at_ restarted =>
    obtain ⟨_,rfl⟩ := Ticker.restart_eq_some restarted
    exact fun inactive _ => ⟨inactive,nofun,nofun⟩
  | resume => exact nofun
  | pause => exact fun _ returned => absurd rfl returned
  | skip => exact fun inactive _ => Ticker.Silenced.skip ((Ticker.skip_isActive _).symm.trans inactive) (drops rfl)
  | packet at_ | packetStopsPing ticker at_ | packetRestartsPing ticker at_ | active at_ | inactive at_
  | receiveReturns at_ =>
    exact fun inactive _ => silenced inactive (by rw [at_]; exact nofun) nofun
  | _ => exact fun inactive returned => silenced inactive returned nofun

/-- After an answer the pong ticker is paused until the next ping; a `Pause` of a reset and pause
that began after the last ping is not undone before the next. -/
structure Answered (c : Keepalive) : Prop where
  answered : c.unanswered = false →
    c.sender.Away ∨ c.pongTicker.isActive = false ∧ c.receiver ≠ .pausing ∧ c.receiver ≠ .skipping
  pausing : c.fresh = true → c.receiver = .skipping → c.sender.Away ∨ c.pongTicker.isActive = false

/-- The send loop moves on, at places where it has not resumed the ticker for a new ping. -/
theorem Answered.sends (answered : c.Answered) (here : ¬ c.sender.Away)
    (active : next.pongTicker.isActive = c.pongTicker.isActive) (receiver : next.receiver = c.receiver)
    (unanswered : next.unanswered = c.unanswered) (fresh : next.fresh = c.fresh) : next.Answered := by
  refine ⟨?_,?_⟩
  · rw [active,receiver,unanswered]
    exact fun answer => .inr ((answered.answered answer).resolve_left here)
  · rw [active,receiver,fresh]
    exact fun arrived skipping => .inr ((answered.pausing arrived skipping).resolve_left here)

/-- The receive loop moves on before its check of the pong ticker, or ends. -/
theorem Answered.receives (answered : c.Answered) (pausing : next.receiver ≠ .pausing)
    (skipping : next.receiver ≠ .skipping) (active : next.pongTicker.isActive = c.pongTicker.isActive)
    (sender : next.sender = c.sender) (unanswered : next.unanswered = c.unanswered) : next.Answered := by
  refine ⟨?_,fun _ same => absurd same skipping⟩
  rw [active,sender,unanswered]
  exact fun answer => (answered.answered answer).imp_right fun paused => ⟨paused.1,pausing,skipping⟩

theorem Answered.moves (answered : c.Answered) (moves : Moves c event next) : next.Answered := by
  cases moves with
  | ping => exact ⟨answered.answered,answered.pausing⟩
  | pong move ticker moved =>
    have active := (Ticker.move_keeps moved).1
    exact ⟨fun answer => by simpa only [active] using answered.answered answer,
      fun arrived skipping => by simpa only [active] using answered.pausing arrived skipping⟩
  | wake at_ | rest at_ | pingTick ticker at_ | noTick at_ =>
    exact answered.sends (by rw [at_]; exact id) rfl rfl rfl rfl
  | pongTick ticker at_ received | lateTick ticker at_ received =>
    obtain ⟨_,⟨⟩⟩ := Option.ite_none_right_eq_some.mp received
    exact answered.sends (by rw [at_]; exact id) rfl rfl rfl rfl
  | stopPong ticker at_ stopped =>
    obtain ⟨_,rfl⟩ := Ticker.stop_eq_some stopped
    exact answered.sends (by rw [at_]; exact id) rfl rfl rfl rfl
  | restartPong ticker at_ restarted =>
    obtain ⟨_,rfl⟩ := Ticker.restart_eq_some restarted
    exact answered.sends (by rw [at_]; exact id) rfl rfl rfl rfl
  | resume | stopPing | restartPing | sendReturns => exact ⟨fun _ => .inl trivial,fun _ _ => .inl trivial⟩
  | sendPing => exact ⟨nofun,nofun⟩
  | packet | packetStopsPing | packetRestartsPing | receiveReturns =>
    exact answered.receives nofun nofun rfl rfl rfl
  | active at_ active =>
    refine ⟨fun answer => ?_,nofun⟩
    rcases answered.answered answer with away | ⟨inactive,_⟩
    · exact .inl away
    · exact absurd (inactive.symm.trans active) nofun
  | inactive at_ inactive => exact ⟨fun _ => .inr ⟨inactive,nofun,nofun⟩,nofun⟩
  | pause at_ =>
    refine ⟨fun answer => ?_,fun _ _ => .inr rfl⟩
    rcases answered.answered answer with away | ⟨_,pausing,_⟩
    · exact .inl away
    · exact absurd at_ pausing
  | skip at_ =>
    refine ⟨fun answer => ?_,nofun⟩
    have earlier : c.sender.Away ∨ c.pongTicker.isActive = false := by
      rcases Bool.and_eq_false_iff.mp answer with before | arrived
      · exact (answered.answered before).imp_right (·.1)
      · exact answered.pausing (by simpa using arrived) at_
    refine earlier.imp_right fun inactive => ⟨?_,nofun,nofun⟩
    exact (Ticker.skip_isActive _).trans inactive

/-- The locks of the tickers: a reset of the pong ticker is the send loop's, a reset of the ping
ticker is one of the two loops'. -/
structure Wired (c : Keepalive) : Prop where
  returned : c.pongTicker.goroutine = .returned → c.pongTicker.quit = true
  pong : c.pongTicker.quit = true → c.sender = .restarted
  ping : c.pingTicker.quit = true ↔ c.sender = .reset ∨ c.receiver = .reset
  one : c.sender = .reset → c.receiver ≠ .reset

/-- The send loop moves between places where it holds no lock. -/
theorem Wired.sends (wired : c.Wired) (here : c.sender ≠ .restarted ∧ c.sender ≠ .reset) (there : next.sender ≠ .reset)
    (returned : next.pongTicker.goroutine = .returned → c.pongTicker.goroutine = .returned)
    (pong : next.pongTicker.quit = c.pongTicker.quit) (ping : next.pingTicker.quit = c.pingTicker.quit)
    (receiver : next.receiver = c.receiver) : next.Wired := by
  refine ⟨?_,?_,?_,?_⟩
  · exact fun ended => pong.trans (wired.returned (returned ended))
  · exact fun quit => absurd (wired.pong (pong.symm.trans quit)) here.1
  · rw [ping,receiver,wired.ping]
    simp only [here.2,there]
  · exact fun same => absurd same there

theorem Wired.receives (wired : c.Wired) (here : c.receiver ≠ .reset) (there : next.receiver ≠ .reset)
    (returned : next.pongTicker.goroutine = .returned → c.pongTicker.goroutine = .returned)
    (pong : next.pongTicker.quit = c.pongTicker.quit) (ping : next.pingTicker.quit = c.pingTicker.quit)
    (sender : next.sender = c.sender) : next.Wired := by
  refine ⟨?_,?_,?_,?_⟩
  · exact fun ended => pong.trans (wired.returned (returned ended))
  · exact fun quit => sender.trans (wired.pong (pong.symm.trans quit))
  · rw [ping,sender,wired.ping]
    simp only [here,there]
  · exact fun _ => there

theorem Wired.moves (wired : c.Wired) (moves : Moves c event next) : next.Wired := by
  cases moves with
  | ping move ticker moved =>
    have quit := (Ticker.move_keeps moved).2
    exact ⟨wired.returned,wired.pong,by rw [quit]; exact wired.ping,wired.one⟩
  | pong move ticker moved =>
    have quit := (Ticker.move_keeps moved).2
    refine ⟨fun returned => ?_,by rw [quit]; exact wired.pong,wired.ping,wired.one⟩
    exact quit.trans (Ticker.move_returned moved returned)
  | wake at_ | rest at_ | noTick at_ | resume at_ | sendPing at_ =>
    exact wired.sends (by rw [at_]; decide) nofun id rfl rfl rfl
  | sendReturns at_ =>
    exact wired.sends (by rcases at_ with at_ | at_ | at_ <;> rw [at_] <;> decide) nofun id rfl rfl rfl
  | pingTick ticker at_ received =>
    obtain ⟨_,⟨⟩⟩ := Option.ite_none_right_eq_some.mp received
    exact wired.sends (by rw [at_]; decide) nofun id rfl rfl rfl
  | pongTick ticker at_ received | lateTick ticker at_ received =>
    obtain ⟨_,⟨⟩⟩ := Option.ite_none_right_eq_some.mp received
    exact wired.sends (by rw [at_]; decide) nofun nofun rfl rfl rfl
  | stopPong ticker at_ stopped =>
    obtain ⟨_,rfl⟩ := Ticker.stop_eq_some stopped
    exact ⟨fun _ => rfl,fun _ => rfl,wired.ping.trans (by simp [at_]),nofun⟩
  | restartPong ticker at_ restarted =>
    obtain ⟨_,rfl⟩ := Ticker.restart_eq_some restarted
    exact ⟨nofun,nofun,wired.ping.trans (by simp [at_]),nofun⟩
  | stopPing ticker at_ stopped =>
    obtain ⟨free,rfl⟩ := Ticker.stop_eq_some stopped
    refine ⟨wired.returned,fun quit => ?_,by simp,fun _ resetting => ?_⟩
    · exact absurd (at_.symm.trans (wired.pong quit)) nofun
    · exact absurd (free.symm.trans (wired.ping.mpr (.inr resetting))) nofun
  | restartPing ticker at_ restarted =>
    obtain ⟨_,rfl⟩ := Ticker.restart_eq_some restarted
    refine ⟨wired.returned,fun quit => ?_,by simp [wired.one at_],nofun⟩
    exact absurd (at_.symm.trans (wired.pong quit)) nofun
  | packet at_ | active at_ | inactive at_ | pause at_ | receiveReturns at_ =>
    exact wired.receives (by rw [at_]; decide) nofun id rfl rfl rfl
  | skip at_ => exact wired.receives (by rw [at_]; decide) nofun Ticker.skip_returned (Ticker.skip_quit _) rfl rfl
  | packetStopsPing ticker at_ stopped =>
    obtain ⟨free,rfl⟩ := Ticker.stop_eq_some stopped
    have away (resetting : c.sender = .reset) : False :=
      absurd (free.symm.trans (wired.ping.mpr (.inl resetting))) nofun
    exact ⟨wired.returned,wired.pong,by simp,fun resetting => (away resetting).elim⟩
  | packetRestartsPing ticker at_ restarted =>
    obtain ⟨_,rfl⟩ := Ticker.restart_eq_some restarted
    have away (resetting : c.sender = .reset) : False := wired.one resetting at_
    exact ⟨wired.returned,wired.pong,by simpa using away,fun resetting => (away resetting).elim⟩

/-- The steps up to the next `Resume`. -/
def Unresumed (event : KeepaliveEvent) : Prop := event ≠ .resume

/-- The send loop can come to receive a tick, whatever the pong ticker does. -/
def Hears (c : Keepalive) : Prop := ∃ last, Leads step Unresumed c last ∧ last.Listening ∧ last.pongTicker = c.pongTicker

theorem Hears.earlier (hears : next.Hears) (leads : Leads step Unresumed c next)
    (same : next.pongTicker = c.pongTicker) : c.Hears := by
  obtain ⟨last,later,listening,kept⟩ := hears
  exact ⟨last,leads.trans later,listening,kept.trans same⟩

theorem busy_hears (at_ : c.sender = .busy) : c.Hears := by
  refine ⟨{c with sender := .select},Leads.single .rest nofun ?_,.inl rfl,rfl⟩
  rw [step,if_pos at_]

theorem pinging_hears (at_ : c.sender = .pinging) : c.Hears := by
  let sent : Keepalive := {c with sender := .busy, unanswered := true, fresh := false}
  have stepped : c.step .sendPing = some sent := by rw [step,if_pos at_]
  exact (busy_hears (c := sent) rfl).earlier (Leads.single .sendPing nofun stepped) rfl

theorem reset_hears (at_ : c.sender = .reset) (quit : c.pingTicker.quit = true) : c.Hears := by
  let stopped : Keepalive := {c with pingTicker := {c.pingTicker with goroutine := .returned}}
  let restarted : Keepalive := {c with pingTicker := {c.pingTicker with goroutine := .clock, quit := false}, sender := .pinging}
  have returns : Leads step Unresumed c stopped := by
    refine (Ticker.returns quit).lift (fun pingTicker => {c with pingTicker}) KeepaliveEvent.ping ?_ ?_
    · exact fun kind => (nofun : KeepaliveEvent.ping kind ≠ .resume)
    · intro ticker kind ticker' moved
      simp only [step,moved,Option.map_some]
  have stepped : stopped.step .restartPing = some restarted := by
    have ended : stopped.pingTicker.restart = some restarted.pingTicker := if_pos ⟨quit,rfl⟩
    rw [step,if_pos at_,ended]
    rfl
  exact (pinging_hears (c := restarted) rfl).earlier (returns.trans (Leads.single .restartPing nofun stepped)) rfl

theorem resetting_hears (at_ : c.sender = .resetting) (free : c.pingTicker.quit = false) : c.Hears := by
  let stopped : Keepalive := {c with pingTicker := {c.pingTicker with quit := true}, sender := .reset}
  have stepped : c.step .stopPing = some stopped := by
    have begun : c.pingTicker.stop = some stopped.pingTicker := if_pos free
    rw [step,if_pos at_,begun]
    rfl
  exact (reset_hears (c := stopped) rfl rfl).earlier (Leads.single .stopPing nofun stepped) rfl

theorem Wired.hears (wired : c.Wired) (listens : c.sender.Listens) (released : c.receiver ≠ .reset) : c.Hears := by
  cases at_ : c.sender with
  | select => exact ⟨c,Leads.refl c,.inl at_,rfl⟩
  | pinged => exact ⟨c,Leads.refl c,.inr at_,rfl⟩
  | busy => exact busy_hears at_
  | pinging => exact pinging_hears at_
  | reset => exact reset_hears at_ (wired.ping.mpr (.inl at_))
  | resetting =>
    refine resetting_hears at_ (eq_false_of_ne_true fun quit => ?_)
    rcases wired.ping.mp quit with resetting | resetting
    · exact absurd (at_.symm.trans resetting) nofun
    · exact released resetting
  | restarting | restarted | resuming | keepaliveTimeout | returned =>
    rw [at_] at listens
    exact listens.elim

/-- A tick that can still come reaches a send loop that can still listen. -/
theorem Wired.ticks (wired : c.Wired) (listens : c.sender.Listens) (released : c.receiver ≠ .reset)
    (coming : c.pongTicker.isActive = true ∨ c.pongTicker.goroutine = .checked) :
    ∃ last, Leads step Unresumed c last ∧ ¬ last.Silent := by
  have running : c.pongTicker.goroutine ≠ .returned := by
    intro returned
    rw [wired.pong (wired.returned returned)] at listens
    exact listens
  obtain ⟨heard,leads,listening,same⟩ := wired.hears listens released
  have offers : Leads step Unresumed heard {heard with pongTicker := {heard.pongTicker with goroutine := .offering}} := by
    refine (Ticker.offers ?_ ?_).lift (fun pongTicker => {heard with pongTicker}) KeepaliveEvent.pong ?_ ?_
    · rw [same]
      exact coming
    · rw [same]
      exact running
    · exact fun kind => (nofun : KeepaliveEvent.pong kind ≠ .resume)
    · intro ticker kind ticker' moved
      simp only [step,moved,Option.map_some]
  exact ⟨_,leads.trans offers,fun silent => silent_iff.mp silent ⟨rfl,listening⟩⟩

/-- A send loop that has to resume the ticker first, or has returned, receives nothing before. -/
theorem deaf_moves (deaf : ¬ c.sender.Listens) (moves : Moves c event next) (unresumed : Unresumed event) :
    ¬ next.sender.Listens := by
  cases moves with
  | wake at_ | rest at_ | pingTick ticker at_ | noTick at_ | stopPing ticker at_ | restartPing ticker at_ | sendPing at_ =>
    rw [at_] at deaf
    exact absurd trivial deaf
  | pongTick | lateTick | stopPong | restartPong | sendReturns => exact id
  | resume => exact absurd rfl unresumed
  | ping | pong | packet | packetStopsPing | packetRestartsPing | active | inactive | pause | skip | receiveReturns =>
    exact deaf

theorem Listening.listens (listening : c.Listening) : c.sender.Listens := by
  rcases listening with at_ | at_
  · rw [at_]
    exact trivial
  · rw [at_]
    exact trivial

theorem silenced_stays (leads : Leads step Unresumed c next) (silenced : c.pongTicker.Silenced) :
    next.pongTicker.Silenced := by
  refine leads.invariant (fun c => c.pongTicker.Silenced) ?_ silenced
  exact fun c event next silenced unresumed stepped => silenced_moves silenced (step_moves stepped) unresumed

theorem deaf_stays (leads : Leads step Unresumed c next) (deaf : ¬ c.sender.Listens) : ¬ next.sender.Listens := by
  refine leads.invariant (fun c => ¬ c.sender.Listens) ?_ deaf
  exact fun c event next deaf unresumed stepped => deaf_moves deaf (step_moves stepped) unresumed

theorem start_answered : start.Answered := ⟨fun _ => .inr ⟨rfl,nofun,nofun⟩,nofun⟩

theorem start_wired : start.Wired := ⟨nofun,nofun,by decide,nofun⟩

/-- Suppose that whenever a `Pause` of the pong ticker attempts to drop a tick, the goroutine is not
between its check and its offer. Then the send loop returns `errKeepaliveTimeout` only for a ping
after which no reset and pause began and came to its end. If, besides, no `Resume` falls into a `Pause`, no tick is
delivered between a `Pause` and the next `Resume`. And this is what it takes: from the return of a
`Pause` on, that holds exactly if both were so or the send loop was about to resume or had returned. -/
theorem pong_paused_silent_iff (events : List KeepaliveEvent) (c : Keepalive)
    (reached : run step start events = some c) :
    (Along step Settles start events → c.paused = true → c.Silent) ∧
    (Along step Drops start events → ∀ event next, c.step event = some next → c.sender ≠ .keepaliveTimeout →
      next.sender = .keepaliveTimeout → c.unanswered = true) ∧
    ∀ next, c.step .skip = some next →
      ((∀ last, Leads step Unresumed next last → last.Silent) ↔
        (c.sender.Listens → c.pongTicker.isActive = false ∧ c.pongTicker.goroutine ≠ .checked)) := by
  refine ⟨fun settles paused => ?_,fun drops event next stepped running timedOut => ?_,fun next stepped => ?_⟩
  · have rested : c.Rested := along_invariant step Settles Rested
      (fun _ _ _ rested settles stepped => rested.moves (step_moves stepped) settles) events start c nofun settles reached
    exact silent_iff.mpr fun heard => (rested paused).2.2 heard.1
  · have quiet : c.Quiet := along_invariant step Drops Quiet
      (fun _ _ _ quiet drops stepped => quiet.moves (step_moves stepped) drops) events start c
      (fun _ _ => ⟨rfl,nofun,nofun⟩) drops reached
    have answered : c.Answered := run_invariant step Answered
      (fun _ _ _ answered stepped => answered.moves (step_moves stepped)) events start c start_answered reached
    rcases (step_moves stepped).ticks with ⟨_,elsewhere⟩ | ⟨_,same⟩ | ⟨offering,listening⟩
    · exact absurd timedOut elsewhere
    · exact absurd (same.symm.trans timedOut) running
    · by_contra answer
      rcases answered.answered (eq_false_of_ne_true answer) with away | ⟨inactive,_,returned⟩
      · rcases listening with at_ | at_
        · rw [at_] at away
          exact away
        · rw [at_] at away
          exact away
      · exact (quiet inactive returned).2.2 offering
  · have wired : c.Wired := run_invariant step Wired
      (fun _ _ _ wired stepped => wired.moves (step_moves stepped)) events start c start_wired reached
    have after := wired.moves (step_moves stepped)
    cases step_moves stepped with
    | skip at_ =>
      constructor
      · intro silent listens
        by_contra unsettled
        obtain ⟨last,leads,ticks⟩ := after.ticks listens nofun (Ticker.skip_coming unsettled)
        exact ticks (silent last leads)
      · intro settled last leads
        refine silent_iff.mpr fun heard => ?_
        by_cases listens : c.sender.Listens
        · have silenced := Ticker.Silenced.skip (settled listens).1 (settled listens).2
          exact (silenced_stays leads silenced).2.2 heard.1
        · exact deaf_stays leads listens heard.2.listens

instance (c : Keepalive) (event : KeepaliveEvent) : Decidable (c.Drops event) :=
  inferInstanceAs (Decidable (event = .skip → c.pongTicker.goroutine ≠ .checked))

instance (c : Keepalive) (event : KeepaliveEvent) : Decidable (c.Settles event) :=
  inferInstanceAs (Decidable (event = .skip → c.pongTicker.isActive = false ∧ c.pongTicker.goroutine ≠ .checked))

/-- The ping ticker ticks, the pong ticker is started, the ping is sent. -/
def pingSent : List KeepaliveEvent :=
  [.ping .tick,.ping .check,.ping .offer,.pingTick,.checkPong,.stopPong,.pong .quit,.restartPong,.resume,
    .stopPing,.ping .quit,.restartPing,.sendPing,.rest]

/-- A packet arrives, up to the attempt to drop a tick. -/
def packetPauses : List KeepaliveEvent :=
  [.packet,.packetStopsPing,.ping .quit,.packetRestartsPing,.isActive,.pause]

/-- The tick is dropped: the goroutine had already offered it. -/
theorem pong_paused_silent_dropped : ∃ events c next, run step start events = some c ∧
    c.pongTicker.goroutine = .offering ∧ c.step .skip = some next ∧ Along step Settles start (events ++ [.skip]) ∧
    next.paused = true ∧ next.unanswered = false ∧ next.Silent ∧
      ∀ last, Leads step Unresumed next last → last.Silent := by
  let events := pingSent ++ [.pong .tick,.pong .check,.pong .offer] ++ packetPauses
  have facts : ((run step start events).bind fun c => (c.step .skip).map fun next => (c.pongTicker.isActive,
      c.pongTicker.goroutine,next.paused,next.unanswered,decide (run step start (events ++ [.skip]) = some next))) =
        some (false,.offering,true,false,true) := by decide
  have settles : Along step Settles start (events ++ [.skip]) := by decide
  obtain ⟨c,reached,facts⟩ := Option.bind_eq_some_iff.mp facts
  obtain ⟨next,stepped,facts⟩ := Option.map_eq_some_iff.mp facts
  simp only [Prod.mk.injEq,decide_eq_true_eq] at facts
  obtain ⟨inactive,offering,paused,answered,continued⟩ := facts
  have silent := (pong_paused_silent_iff _ next continued).1 settles paused
  have later := ((pong_paused_silent_iff events c reached).2.2 next stepped).mpr fun _ =>
    ⟨inactive,by rw [offering]; exact nofun⟩
  exact ⟨events,c,next,reached,offering,stepped,settles,paused,answered,silent,later⟩

/-- The goroutine has checked `isActive` and not yet offered its tick when `Pause` tries to drop it.
The tick is offered afterwards, and the connection closes though its ping was answered. -/
theorem checked_tick_survives : ∃ c last, run step start (pingSent ++ [.pong .tick,.pong .check] ++ packetPauses ++
      [.skip,.pong .offer]) = some c ∧ c.paused = true ∧ c.unanswered = false ∧
    c.step .pongTick = some last ∧ last.ticks = c.ticks + 1 ∧ last.sender = .keepaliveTimeout :=
  ⟨_,_,rfl,rfl,rfl,rfl,rfl,rfl⟩

end Keepalive

end NodeConnect.Gbn
