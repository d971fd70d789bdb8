import NodeConnect.Gbn.Syncing

/-! Timers that outlive their round. A `proceedAfterTime` goroutine looks at the state only; if
the next resend has begun before it returns, it takes that one for its own. -/
namespace NodeConnect.Gbn
open Lib

namespace Sync

variable {c next : Sync} {event : SyncEvent}

/-- Up to its own timeout the round is completed only by its NACK or by a timer of its own:
before the wait ends the state, and after a signal the wait itself. -/
def Undisturbed (c : Sync) : Prop :=
  match c.sender with
  | .resending | .waiting => c.syncer.state = .idle → c.completed = true
  | .released true => c.completed = true
  | _ => True

/-- Every timer of an earlier round has returned. -/
def Clean (c : Sync) : Prop := ∀ timer ∈ c.timers, timer.place = .returned

/-- The round has begun and neither its timeout nor a signal has ended the wait. -/
def Pending (c : Sync) : Prop := c.sender = .resending ∨ c.sender = .waiting

/-- What holds while only timers of the current round are around: until the wait times out, an idle
state, a timer that passes a signal on and a wait that was signalled all follow from a completion. -/
structure Own (c : Sync) : Prop where
  timers : ∀ timer ∈ c.timers, timer.place ≠ .returned → timer.round = c.round
  idle : c.Pending → c.syncer.state = .idle → c.completed = true
  relaying : c.Pending → c.HasTimer .relaying → c.completed = true
  released : c.sender = .released true → c.completed = true

theorem Own.undisturbed (own : c.Own) : c.Undisturbed := by
  unfold Undisturbed
  split
  next here => exact own.idle (.inl here)
  next here => exact own.idle (.inr here)
  next here => exact own.released here
  next => trivial

theorem mem_setPlace {i : Nat} {place : TimerPlace} {timer : SyncTimer} (member : timer ∈ (c.setPlace i place).timers) :
    timer ∈ c.timers ∨ ∃ old ∈ c.timers, c.place i = some old.place ∧ timer = {old with place} := by
  obtain ⟨j,found⟩ := List.mem_iff_getElem?.mp member
  simp only [setPlace,List.getElem?_modify] at found
  split_ifs at found with same
  · obtain ⟨old,held,rfl⟩ := Option.map_eq_some_iff.mp found
    subst same
    exact .inr ⟨old,List.mem_of_getElem? held,by rw [Sync.place,held]; rfl,rfl⟩
  · obtain ⟨old,held,rfl⟩ := Option.map_eq_some_iff.mp found
    exact .inl (List.mem_of_getElem? held)

/-- Timers keep their rounds when one of them that has not returned moves. -/
theorem timers_setPlace {i : Nat} {place old : TimerPlace} {round : Nat}
    (timers : ∀ timer ∈ c.timers, timer.place ≠ .returned → timer.round = round) (at_ : c.place i = some old)
    (running : old ≠ .returned) :
    ∀ timer ∈ (c.setPlace i place).timers, timer.place ≠ .returned → timer.round = round := by
  intro timer member _
  rcases mem_setPlace member with kept | ⟨before,inside,here,rfl⟩
  · exact timers timer kept ‹_›
  · rw [at_] at here
    exact timers before inside (by rw [← Option.some.inj here]; exact running)

/-- A signal sent when the round is completed, or over, keeps what holds of it. -/
theorem Signals.own (signals : Signals c next)
    (timers : ∀ timer ∈ c.timers, timer.place ≠ .returned → timer.round = c.round)
    (completed : c.Pending ∨ c.sender = .released true → c.completed = true) : next.Own := by
  cases signals with
  | wait waiting =>
    have done := completed (.inl (.inr waiting))
    exact ⟨timers,fun _ _ => done,fun _ _ => done,fun _ => done⟩
  | timer i listens =>
    refine ⟨timers_setPlace timers listens (by decide),?_,?_,?_⟩
    · exact fun pending _ => completed (.inl pending)
    · exact fun pending _ => completed (.inl pending)
    · exact fun released => completed (.inr released)
  | nobody busy quiet =>
    exact ⟨timers,fun pending _ => completed (.inl pending),fun pending _ => completed (.inl pending),
      fun released => completed (.inr released)⟩

/-- A round that begins when no timer is left. -/
theorem Clean.own (clean : c.Clean) {syncer : Syncer} (resending : syncer.state = .resending) :
    Own {c with syncer, sender := .resending, round := c.round + 1, completed := false} := by
  refine ⟨?_,?_,?_,nofun⟩
  · exact fun timer member running => absurd (clean timer member) running
  · exact fun _ idle => absurd (resending.symm.trans idle) (by decide)
  · rintro _ ⟨timer,member,relaying⟩
    exact absurd ((clean timer member).symm.trans relaying) (by decide)

/-- A step of a timer that neither takes a signal nor gives one. -/
theorem Own.setPlace (own : c.Own) {i : Nat} {old place : TimerPlace} (at_ : c.place i = some old)
    (running : old ≠ .returned) (left : old ≠ .relaying) (reached : place ≠ .relaying) : (c.setPlace i place).Own := by
  refine ⟨timers_setPlace own.timers at_ running,own.idle,?_,own.released⟩
  exact fun pending relaying => own.relaying pending ((hasTimer_moved at_ left reached).mp relaying)

theorem Own.ended (own : c.Own) {sender : SyncPlace} (outside : ¬ (sender = .resending ∨ sender = .waiting))
    (unsignalled : sender ≠ .released true) : Own {c with sender} := by
  refine ⟨own.timers,?_,?_,fun released => absurd released unsignalled⟩
  · exact fun pending => absurd pending outside
  · exact fun pending => absurd pending outside

theorem Own.moves (own : c.Own) (moves : Moves c event next)
    (clean : ∀ top, event = .initResendUpTo top → c.Clean) : next.Own := by
  cases moves with
  | init top syncer sending started => exact (clean top rfl).own (by rw [Syncer.initResendUpTo_ok started])
  | sendFails => exact own.ended nofun nofun
  | awaitSync resending =>
    exact ⟨own.timers,fun _ => own.idle (.inl resending),fun _ => own.relaying (.inl resending),nofun⟩
  | waitTimesOut => exact own.ended nofun nofun
  | waitQuits => exact own.ended nofun nofun
  | waitReturns target signalled next released signals =>
    exact signals.own own.timers fun pending => by simp [Pending] at pending
  | ackIgnored => exact own
  | ackStarts seq resending =>
    have state : (c.syncer.processACK seq).state = .resending := by
      unfold Syncer.processACK
      split_ifs <;> exact resending
    refine ⟨?_,?_,?_,own.released⟩
    · intro timer member running
      rcases List.mem_append.mp member with early | new
      · exact own.timers timer early running
      · rw [List.mem_singleton.mp new]
    · exact fun _ idle => absurd (state.symm.trans idle) (by decide)
    · exact fun pending relaying => own.relaying pending ((hasTimer_started (by decide) _).mp relaying)
  | nackIgnored => exact own
  | nackCompletes seq target next resending expected signals => exact signals.own own.timers fun _ => rfl
  | timerListens i started => exact own.setPlace started (by decide) (by decide) (by decide)
  | timerTimesOut i selecting => exact own.setPlace selecting (by decide) (by decide) (by decide)
  | timerQuits i selecting => exact own.setPlace selecting (by decide) (by decide) (by decide)
  | timerRelays i target next relaying signals =>
    refine signals.own (timers_setPlace own.timers relaying (by decide)) ?_
    rintro (pending | released)
    · exact own.relaying pending (hasTimer_at relaying)
    · exact own.released released
  | timerLate i target syncer timedOut passed same =>
    have moved : (c.setPlace i .returned).Own := own.setPlace timedOut (by decide) (by decide) (by decide)
    exact ⟨moved.timers,fun pending idle => moved.idle pending (same.symm.trans idle),moved.relaying,moved.released⟩
  | timerCompletes i target syncer next timedOut resending idle signals =>
    refine signals.own (timers_setPlace own.timers timedOut (by decide)) fun _ => ?_
    obtain ⟨timer,held,here⟩ := Option.map_eq_some_iff.mp timedOut
    have round := own.timers timer (List.mem_of_getElem? held) (by rw [here]; decide)
    simp [held,round]
  | quit => exact ⟨own.timers,own.idle,own.relaying,own.released⟩

def Numbered (c : Sync) : Prop := ∀ timer ∈ c.timers, timer.round ≤ c.round

theorem Numbered.setPlace (numbered : c.Numbered) {i : Nat} {place : TimerPlace} : (c.setPlace i place).Numbered := by
  intro timer member
  rcases mem_setPlace member with kept | ⟨old,inside,_,rfl⟩
  · exact numbered timer kept
  · exact numbered old inside

theorem Signals.numbered (signals : Signals c next) (numbered : c.Numbered) : next.Numbered := by
  cases signals with
  | wait => exact numbered
  | timer => exact numbered.setPlace
  | nobody => exact numbered

theorem Numbered.moves (numbered : c.Numbered) (moves : Moves c event next) : next.Numbered := by
  cases moves with
  | init => exact fun timer member => Nat.le_succ_of_le (numbered timer member)
  | sendFails | awaitSync | waitTimesOut | waitQuits | ackIgnored | nackIgnored | quit => exact numbered
  | waitReturns target signalled next released signals => exact signals.numbered numbered
  | ackStarts =>
    intro timer member
    rcases List.mem_append.mp member with early | new
    · exact numbered timer early
    · rw [List.mem_singleton.mp new]
  | nackCompletes seq target next resending expected signals => exact signals.numbered numbered
  | timerListens | timerTimesOut | timerQuits | timerLate => exact numbered.setPlace
  | timerRelays i target next relaying signals => exact signals.numbered numbered.setPlace
  | timerCompletes i target syncer next timedOut resending idle signals => exact signals.numbered numbered.setPlace

/-- The steps inside one round. -/
def Within (event : SyncEvent) : Prop := ∀ top, event ≠ .initResendUpTo top

/-- A signal that is sent while the send loop resends leaves the round with an idle state. -/
theorem Signals.disturbed (signals : Signals c next) (resending : c.sender = .resending) (idle : c.syncer.state = .idle)
    (incomplete : c.completed = false) : ¬ next.Undisturbed := by
  have unchanged : next.sender = .resending ∧ next.syncer.state = .idle ∧ next.completed = false := by
    cases signals with
    | wait waiting => exact absurd (resending.symm.trans waiting) (by decide)
    | timer => exact ⟨resending,idle,incomplete⟩
    | nobody => exact ⟨resending,idle,incomplete⟩
  obtain ⟨sender,state,completed⟩ := unchanged
  simp [Undisturbed,sender,state,completed]

/-- The round has begun and nothing has completed it. -/
def Begun (c : Sync) : Prop := c.sender = .resending ∧ c.syncer.state = .resending ∧ c.completed = false

/-- A timer of another round stands at the place. -/
def Leftover (c : Sync) (i : Nat) (place : TimerPlace) : Prop :=
  ∃ timer, c.timers[i]? = some timer ∧ timer.place = place ∧ timer.round ≠ c.round

theorem Leftover.at {i : Nat} {place : TimerPlace} (left : c.Leftover i place) : c.place i = some place := by
  obtain ⟨timer,held,rfl,_⟩ := left
  rw [Sync.place,held]
  rfl

theorem Leftover.setPlace {i : Nat} {old : TimerPlace} (left : c.Leftover i old) (place : TimerPlace) :
    (c.setPlace i place).Leftover i place := by
  obtain ⟨timer,held,_,other⟩ := left
  refine ⟨{timer with place},?_,rfl,other⟩
  rw [Sync.setPlace,List.getElem?_modify_eq,held]
  rfl

theorem timedOut_disturbs {i : Nat} (begun : c.Begun) (left : c.Leftover i .timedOut) :
    ∃ last, Leads step Within c last ∧ ¬ last.Undisturbed := by
  obtain ⟨resending,state,incomplete⟩ := begun
  obtain ⟨timer,held,_,other⟩ := id left
  let ended : Sync := {c.setPlace i .returned with
    syncer := c.syncer.proceedAfterTime, completed := c.completed || c.timers[i]?.map (·.round) == some c.round}
  obtain ⟨target,last,signalled⟩ := ended.signal_exists
  have stepped : c.step (.timerProceeds i target) = some last := by
    rw [step,if_pos left.at]
    exact (if_pos state).trans signalled
  refine ⟨last,Leads.single (.timerProceeds i target) (by rintro _ ⟨⟩) stepped,?_⟩
  refine (signal_signals signalled).disturbed resending ?_ ?_
  · simp [ended,Syncer.proceedAfterTime,state,Syncer.reset]
  · simp [ended,incomplete,held,other]

theorem relaying_disturbs {i : Nat} (begun : c.Begun) (left : c.Leftover i .relaying) :
    ∃ last, Leads step Within c last ∧ ¬ last.Undisturbed := by
  obtain ⟨resending,state,incomplete⟩ := begun
  obtain ⟨target,last,signalled⟩ := signal_exists {c.setPlace i .returned with syncer := c.syncer.reset}
  have stepped : c.step (.timerRelays i target) = some last := by
    rw [step,if_pos left.at]
    exact signalled
  refine ⟨last,Leads.single (.timerRelays i target) (by rintro _ ⟨⟩) stepped,?_⟩
  exact (signal_signals signalled).disturbed resending rfl incomplete

theorem selecting_disturbs {i : Nat} (begun : c.Begun) (left : c.Leftover i .selecting) :
    ∃ last, Leads step Within c last ∧ ¬ last.Undisturbed := by
  obtain ⟨last,leads,disturbed⟩ := timedOut_disturbs (c := c.setPlace i .timedOut) begun (left.setPlace .timedOut)
  exact ⟨last,Leads.cons (.timerTimesOut i) (by rintro _ ⟨⟩) (by rw [step,if_pos left.at]) leads,disturbed⟩

theorem started_disturbs {i : Nat} (begun : c.Begun) (left : c.Leftover i .started) :
    ∃ last, Leads step Within c last ∧ ¬ last.Undisturbed := by
  obtain ⟨last,leads,disturbed⟩ := selecting_disturbs (c := c.setPlace i .selecting) begun (left.setPlace .selecting)
  exact ⟨last,Leads.cons (.timerListens i) (by rintro _ ⟨⟩) (by rw [step,if_pos left.at]) leads,disturbed⟩

/-- A timer of another round that is still running can complete the round, wherever it stands. -/
theorem Leftover.disturbs {i : Nat} {place : TimerPlace} (left : c.Leftover i place) (begun : c.Begun)
    (running : place ≠ .returned) : ∃ last, Leads step Within c last ∧ ¬ last.Undisturbed := by
  cases place with
  | started => exact started_disturbs begun left
  | selecting => exact selecting_disturbs begun left
  | timedOut => exact timedOut_disturbs begun left
  | relaying => exact relaying_disturbs begun left
  | returned => exact absurd rfl running

theorem start_own (s : UInt8) : (start s).Own := ⟨nofun,nofun,nofun,nofun⟩

theorem numbered_reached {s : UInt8} {events : List SyncEvent} (reached : run step (start s) events = some c) :
    c.Numbered :=
  run_invariant step Numbered (fun _ _ _ numbered stepped => numbered.moves (step_moves stepped)) events (start s) c nofun
    reached

/-- In every interleaving in which each resend begins after the timers of the earlier ones have
returned, a round is completed before its own timeout only by its own NACK or timer. And this is
what it takes: from the begin of a round on that holds exactly if no timer was left. -/
theorem sync_rounds_undisturbed_iff (s : UInt8) (events : List SyncEvent) (c : Sync)
    (reached : run step (start s) events = some c) :
    (Along step (fun c event => ∀ top, event = .initResendUpTo top → c.Clean) (start s) events → c.Undisturbed) ∧
    ∀ top next, c.step (.initResendUpTo top) = some next →
      ((∀ last, Leads step Within next last → last.Undisturbed) ↔ c.Clean) := by
  constructor
  · intro clean
    have own : c.Own := along_invariant step _ Own (fun _ _ _ own clean stepped => own.moves (step_moves stepped) clean)
      events (start s) c (start_own s) clean reached
    exact own.undisturbed
  · intro top next stepped
    cases step_moves stepped with
    | init _ syncer sending started =>
      have resending : syncer.state = .resending := by rw [Syncer.initResendUpTo_ok started]
      constructor
      · intro undisturbed timer member
        by_contra running
        obtain ⟨i,held⟩ := List.mem_iff_getElem?.mp member
        have earlier : timer.round ≠ c.round + 1 := by
          have bound := numbered_reached reached timer member
          omega
        have left : Leftover {c with syncer, sender := .resending, round := c.round + 1, completed := false} i timer.place :=
          ⟨timer,held,rfl,earlier⟩
        obtain ⟨last,leads,disturbed⟩ := left.disturbs ⟨rfl,resending,rfl⟩ running
        exact disturbed (undisturbed last leads)
      · intro clean last leads
        refine (leads.invariant Own ?_ (clean.own resending)).undisturbed
        exact fun _ _ _ own within stepped => own.moves (step_moves stepped) fun top same => absurd same (within top)

instance (c : Sync) : Decidable c.Clean := inferInstanceAs (Decidable (∀ timer ∈ c.timers, timer.place = .returned))

instance (c : Sync) : (event : SyncEvent) → Decidable (∀ top, event = .initResendUpTo top → c.Clean)
  | .initResendUpTo top => decidable_of_iff c.Clean ⟨fun clean _ _ => clean,fun clean => clean top rfl⟩
  | .sendFails | .awaitSync | .waitTimesOut | .waitQuits | .waitReturns _ | .processACK _ | .processNACK _ _
  | .timerListens _ | .timerTimesOut _ | .timerQuits _ | .timerRelays _ _ | .timerProceeds _ _ | .quit => isTrue nofun

/-- A round that the timer of its own ACK has ended; then the next one begins. -/
theorem sync_rounds_undisturbed_timer : ∃ events c next, run step (start 3) events = some c ∧ c.completed = true ∧
    c.Undisturbed ∧ c.step (.initResendUpTo 2) = some next ∧ ∀ last, Leads step Within next last → last.Undisturbed := by
  let events : List SyncEvent := [.initResendUpTo 1,.awaitSync,.processACK 0,.timerListens 0,.timerTimesOut 0,
    .timerProceeds 0 (some .waitForSync),.waitReturns none]
  have ended : (run step (start 3) events).map (fun c => (c.completed,(c.step (.initResendUpTo 2)).isSome)) =
      some (true,true) := by decide
  have clean : (run step (start 3) events).map (fun c => decide c.Clean) = some true := by decide
  obtain ⟨c,reached,facts⟩ := Option.map_eq_some_iff.mp ended
  obtain ⟨completed,may⟩ := Prod.mk.inj facts
  obtain ⟨next,stepped⟩ := Option.isSome_iff_exists.mp may
  rw [reached] at clean
  have rounds := sync_rounds_undisturbed_iff 3 events c reached
  refine ⟨events,c,next,reached,completed,rounds.1 (by decide),stepped,?_⟩
  exact (rounds.2 2 next stepped).mpr (of_decide_eq_true (Option.some.inj clean))

/-- The goroutine started for the ACK has not reached its select when the NACK completes the round.
Its time runs in the next round, which it completes though nothing was received. -/
theorem late_timer_disturbs : ∃ c, run step (start 3) [.initResendUpTo 1,.awaitSync,.processACK 0,
      .processNACK 1 (some .waitForSync),.waitReturns none,.timerListens 0,
      .initResendUpTo 2,.awaitSync,.timerTimesOut 0,.timerProceeds 0 (some .waitForSync)] = some c ∧
    c.round = 2 ∧ c.sender = .released true ∧ c.completed = false ∧ ¬ c.Undisturbed :=
  ⟨_,rfl,rfl,rfl,rfl,fun undisturbed => Bool.false_ne_true undisturbed⟩

end Sync

end NodeConnect.Gbn
