import NodeConnect.Gbn.Queue
import NodeConnect.Lib.Run

/-! The end of a resend as its goroutines see it: the send loop, which resends and then waits
for the sync, the receive loop, which processes the answers, and one `proceedAfterTime` for
every expected ACK. They share the state under the mutex and a channel without a buffer; a
signal is sent on it only if someone is listening at that instant. -/
namespace NodeConnect.Gbn
open Lib

/-- Where the send loop is. `resending` lasts until `waitForSync` listens; `released` says
whether a signal ended the wait or its timeout. -/
inductive SyncPlace where
  | sending
  | resending
  | waiting
  | released (signalled : Bool)
  | failed
  deriving DecidableEq, Repr

inductive TimerPlace where
  | started
  | selecting
  | timedOut
  | relaying
  | returned
  deriving DecidableEq, Repr

/-- A `proceedAfterTime` goroutine; `round` is the resend in which it was started. -/
structure SyncTimer where
  place : TimerPlace
  round : Nat
  deriving DecidableEq, Repr

/-- `round` counts the resends. `completed` notes that the state was set to idle by the expected
NACK of the current round or by a timer started in it. -/
structure Sync where
  syncer : Syncer
  sender : SyncPlace := .sending
  timers : List SyncTimer := []
  closed : Bool := false
  round : Nat := 0
  completed : Bool := false
  deriving DecidableEq, Repr

inductive Listener where
  | waitForSync
  | timer (i : Nat)
  deriving DecidableEq, Repr

/-- A call that resets the syncer carries the listener that its signal reaches. -/
inductive SyncEvent where
  | initResendUpTo (top : UInt8)
  | sendFails
  | awaitSync
  | waitTimesOut
  | waitQuits
  | waitReturns (target : Option Listener)
  | processACK (seq : UInt8)
  | processNACK (seq : UInt8) (target : Option Listener)
  | timerListens (i : Nat)
  | timerTimesOut (i : Nat)
  | timerQuits (i : Nat)
  | timerRelays (i : Nat) (target : Option Listener)
  | timerProceeds (i : Nat) (target : Option Listener)
  | quit
  deriving DecidableEq, Repr

namespace Sync

def place (c : Sync) (i : Nat) : Option TimerPlace := c.timers[i]?.map (·.place)

def setPlace (c : Sync) (i : Nat) (place : TimerPlace) : Sync :=
  {c with timers := c.timers.modify i ({· with place})}

def HasTimer (c : Sync) (place : TimerPlace) : Prop := ∃ timer ∈ c.timers, timer.place = place

instance (c : Sync) (place : TimerPlace) : Decidable (c.HasTimer place) :=
  inferInstanceAs (Decidable (∃ timer ∈ c.timers, timer.place = place))

/-- The non-blocking send on the channel: it reaches one listener if there is one. -/
def signal (c : Sync) : Option Listener → Option Sync
  | some .waitForSync => if c.sender = .waiting then some {c with sender := .released true} else none
  | some (.timer i) => if c.place i = some .selecting then some (c.setPlace i .relaying) else none
  | none => if c.sender = .waiting ∨ c.HasTimer .selecting then none else some c

def step (c : Sync) : SyncEvent → Option Sync
  | .initResendUpTo top =>
    -- Nobody blocks in a send on the channel, so there is nothing to drain.
    if c.sender = .sending then
      (c.syncer.initResendUpTo top).toOption.map fun syncer =>
        {c with syncer, sender := .resending, round := c.round + 1, completed := false}
    else none
  | .sendFails => if c.sender = .resending then some {c with sender := .failed} else none
  | .awaitSync => if c.sender = .resending then some {c with sender := .waiting} else none
  | .waitTimesOut => if c.sender = .waiting then some {c with sender := .released false} else none
  | .waitQuits => if c.sender = .waiting ∧ c.closed = true then some {c with sender := .sending} else none
  | .waitReturns target =>
    match c.sender with
    | .released _ => signal {c with sender := .sending, syncer := c.syncer.reset} target
    | _ => none
  | .processACK seq =>
    let syncer := c.syncer.processACK seq
    if syncer.timers = c.syncer.timers then some c
    else some {c with syncer, timers := c.timers ++ [⟨.started,c.round⟩]}
  | .processNACK seq target =>
    let syncer := c.syncer.processNACK seq
    if c.syncer.state = .resending ∧ seq = c.syncer.expectedNACK then signal {c with syncer, completed := true} target
    else some {c with syncer}
  | .timerListens i => if c.place i = some .started then some (c.setPlace i .selecting) else none
  | .timerTimesOut i => if c.place i = some .selecting then some (c.setPlace i .timedOut) else none
  | .timerQuits i => if c.place i = some .selecting ∧ c.closed = true then some (c.setPlace i .returned) else none
  | .timerRelays i target =>
    if c.place i = some .relaying then signal {c.setPlace i .returned with syncer := c.syncer.reset} target else none
  | .timerProceeds i target =>
    if c.place i = some .timedOut then
      let next := {c.setPlace i .returned with syncer := c.syncer.proceedAfterTime}
      if c.syncer.state = .resending then
        signal {next with completed := c.completed || c.timers[i]?.map (·.round) == some c.round} target
      else some next
    else none
  | .quit => some {c with closed := true}

def start (s : UInt8) : Sync := {syncer := newSyncer s}

variable {c next : Sync} {i j : Nat} {new old other : TimerPlace}

theorem place_setPlace (c : Sync) (i j : Nat) (new : TimerPlace) :
    (c.setPlace i new).place j = if i = j then (c.place j).map fun _ => new else c.place j := by
  simp only [place,setPlace,List.getElem?_modify]
  split_ifs
  · cases c.timers[j]? <;> rfl
  · cases c.timers[j]? <;> rfl

theorem hasTimer_iff : c.HasTimer other ↔ ∃ i, c.place i = some other := by
  constructor
  · rintro ⟨timer,member,rfl⟩
    obtain ⟨i,bound,rfl⟩ := List.mem_iff_getElem.mp member
    exact ⟨i,by rw [place,List.getElem?_eq_getElem bound]; rfl⟩
  · rintro ⟨i,at_⟩
    obtain ⟨timer,found,rfl⟩ := Option.map_eq_some_iff.mp at_
    exact ⟨timer,List.mem_of_getElem? found,rfl⟩

theorem hasTimer_at (at_ : c.place i = some other) : c.HasTimer other := hasTimer_iff.mpr ⟨i,at_⟩

/-- A timer that moves leaves the others where they are. -/
theorem hasTimer_setPlace (different : new ≠ other) :
    (c.setPlace i new).HasTimer other ↔ ∃ j, j ≠ i ∧ c.place j = some other := by
  rw [hasTimer_iff]
  refine exists_congr fun j => ?_
  rw [place_setPlace]
  split_ifs with same
  · subst same
    cases c.place i <;> simp [different]
  · simp [Ne.symm same]

theorem hasTimer_moved (at_ : c.place i = some old) (left : old ≠ other) (reached : new ≠ other) :
    (c.setPlace i new).HasTimer other ↔ c.HasTimer other := by
  rw [hasTimer_setPlace reached,hasTimer_iff]
  refine exists_congr fun j => ⟨fun here => here.2,fun here => ⟨?_,here⟩⟩
  rintro rfl
  exact left (Option.some.inj (at_.symm.trans here))

theorem hasTimer_started (different : other ≠ .started) (syncer : Syncer) :
    HasTimer {c with syncer, timers := c.timers ++ [⟨.started,c.round⟩]} other ↔ c.HasTimer other := by
  simp [HasTimer,Ne.symm different]

/-- Whom a signal reaches. -/
inductive Signals (c : Sync) : Sync → Prop
  | wait (waiting : c.sender = .waiting) : Signals c {c with sender := .released true}
  | timer (i : Nat) (listens : c.place i = some .selecting) : Signals c (c.setPlace i .relaying)
  | nobody (busy : c.sender ≠ .waiting) (quiet : ¬ c.HasTimer .selecting) : Signals c c

theorem signal_signals {target : Option Listener} (signalled : c.signal target = some next) : Signals c next := by
  unfold signal at signalled
  split at signalled
  · split_ifs at signalled with waiting
    cases signalled
    exact .wait waiting
  · split_ifs at signalled with listens
    cases signalled
    exact .timer _ listens
  · split_ifs at signalled with listening
    cases signalled
    rw [not_or] at listening
    exact .nobody listening.1 listening.2

theorem signal_exists (c : Sync) : ∃ target next, c.signal target = some next := by
  by_cases waiting : c.sender = .waiting
  · exact ⟨some .waitForSync,_,if_pos waiting⟩
  · by_cases selecting : c.HasTimer .selecting
    · obtain ⟨i,listens⟩ := hasTimer_iff.mp selecting
      exact ⟨some (.timer i),_,if_pos listens⟩
    · exact ⟨none,c,if_neg (not_or.mpr ⟨waiting,selecting⟩)⟩

/-- What a step can do. -/
inductive Moves (c : Sync) : SyncEvent → Sync → Prop
  | init (top : UInt8) (syncer : Syncer) (sending : c.sender = .sending)
    (started : c.syncer.initResendUpTo top = .ok syncer) :
    Moves c (.initResendUpTo top) {c with syncer, sender := .resending, round := c.round + 1, completed := false}
  | sendFails (resending : c.sender = .resending) : Moves c .sendFails {c with sender := .failed}
  | awaitSync (resending : c.sender = .resending) : Moves c .awaitSync {c with sender := .waiting}
  | waitTimesOut (waiting : c.sender = .waiting) : Moves c .waitTimesOut {c with sender := .released false}
  | waitQuits (waiting : c.sender = .waiting) (closed : c.closed = true) : Moves c .waitQuits {c with sender := .sending}
  | waitReturns (target : Option Listener) (signalled : Bool) (next : Sync) (released : c.sender = .released signalled)
    (signals : Signals {c with sender := .sending, syncer := c.syncer.reset} next) : Moves c (.waitReturns target) next
  | ackIgnored (seq : UInt8) : Moves c (.processACK seq) c
  | ackStarts (seq : UInt8) (resending : c.syncer.state = .resending) :
    Moves c (.processACK seq)
      {c with syncer := c.syncer.processACK seq, timers := c.timers ++ [⟨.started,c.round⟩]}
  | nackIgnored (seq : UInt8) (target : Option Listener)
    (other : ¬ (c.syncer.state = .resending ∧ seq = c.syncer.expectedNACK)) : Moves c (.processNACK seq target) c
  | nackCompletes (seq : UInt8) (target : Option Listener) (next : Sync) (resending : c.syncer.state = .resending)
    (expected : seq = c.syncer.expectedNACK)
    (signals : Signals {c with syncer := c.syncer.reset, completed := true} next) : Moves c (.processNACK seq target) next
  | timerListens (i : Nat) (started : c.place i = some .started) : Moves c (.timerListens i) (c.setPlace i .selecting)
  | timerTimesOut (i : Nat) (selecting : c.place i = some .selecting) :
    Moves c (.timerTimesOut i) (c.setPlace i .timedOut)
  | timerQuits (i : Nat) (selecting : c.place i = some .selecting) (closed : c.closed = true) :
    Moves c (.timerQuits i) (c.setPlace i .returned)
  | timerRelays (i : Nat) (target : Option Listener) (next : Sync) (relaying : c.place i = some .relaying)
    (signals : Signals {c.setPlace i .returned with syncer := c.syncer.reset} next) : Moves c (.timerRelays i target) next
  | timerLate (i : Nat) (target : Option Listener) (syncer : Syncer) (timedOut : c.place i = some .timedOut)
    (passed : c.syncer.state ≠ .resending) (same : syncer.state = c.syncer.state) :
    Moves c (.timerProceeds i target) {c.setPlace i .returned with syncer}
  | timerCompletes (i : Nat) (target : Option Listener) (syncer : Syncer) (next : Sync)
    (timedOut : c.place i = some .timedOut) (resending : c.syncer.state = .resending) (idle : syncer.state = .idle)
    (signals : Signals {c.setPlace i .returned with
      syncer, completed := c.completed || c.timers[i]?.map (·.round) == some c.round} next) :
    Moves c (.timerProceeds i target) next
  | quit : Moves c .quit {c with closed := true}

theorem step_moves {event : SyncEvent} (stepped : c.step event = some next) : Moves c event next := by
  cases event with
  | initResendUpTo top =>
    simp only [step] at stepped
    split_ifs at stepped with sending
    obtain ⟨syncer,started,rfl⟩ := Option.map_eq_some_iff.mp stepped
    cases outcome : c.syncer.initResendUpTo top with
    | error fault =>
      rw [outcome] at started
      cases started
    | ok syncer' =>
      rw [outcome] at started
      cases started
      exact .init top syncer sending outcome
  | sendFails =>
    obtain ⟨resending,⟨⟩⟩ := Option.ite_none_right_eq_some.mp stepped
    exact .sendFails resending
  | awaitSync =>
    obtain ⟨resending,⟨⟩⟩ := Option.ite_none_right_eq_some.mp stepped
    exact .awaitSync resending
  | waitTimesOut =>
    obtain ⟨waiting,⟨⟩⟩ := Option.ite_none_right_eq_some.mp stepped
    exact .waitTimesOut waiting
  | waitQuits =>
    obtain ⟨waiting,⟨⟩⟩ := Option.ite_none_right_eq_some.mp stepped
    exact .waitQuits waiting.1 waiting.2
  | waitReturns target =>
    simp only [step] at stepped
    split at stepped
    next signalled released => exact .waitReturns target signalled next released (signal_signals stepped)
    next => cases stepped
  | processACK seq =>
    simp only [step] at stepped
    split_ifs at stepped with same
    · cases stepped
      exact .ackIgnored seq
    · cases stepped
      refine .ackStarts seq ?_
      by_contra idle
      exact same (by rw [Syncer.processACK,if_pos idle])
  | processNACK seq target =>
    simp only [step] at stepped
    split_ifs at stepped with expected
    · have reset : c.syncer.processNACK seq = c.syncer.reset := by simp [Syncer.processNACK,expected]
      rw [reset] at stepped
      exact .nackCompletes seq target next expected.1 expected.2 (signal_signals stepped)
    · have same : c.syncer.processNACK seq = c.syncer := by
        rw [not_and_or] at expected
        unfold Syncer.processNACK
        rcases expected with idle | stray
        · rw [if_pos idle]
        · rw [if_pos stray,ite_self]
      cases stepped
      rw [same]
      exact .nackIgnored seq target expected
  | timerListens i =>
    obtain ⟨started,⟨⟩⟩ := Option.ite_none_right_eq_some.mp stepped
    exact .timerListens i started
  | timerTimesOut i =>
    obtain ⟨selecting,⟨⟩⟩ := Option.ite_none_right_eq_some.mp stepped
    exact .timerTimesOut i selecting
  | timerQuits i =>
    obtain ⟨selecting,⟨⟩⟩ := Option.ite_none_right_eq_some.mp stepped
    exact .timerQuits i selecting.1 selecting.2
  | timerRelays i target =>
    simp only [step] at stepped
    split_ifs at stepped with relaying
    exact .timerRelays i target next relaying (signal_signals stepped)
  | timerProceeds i target =>
    simp only [step] at stepped
    split_ifs at stepped with timedOut resending
    · refine .timerCompletes i target c.syncer.proceedAfterTime next timedOut resending ?_ (signal_signals stepped)
      simp [Syncer.proceedAfterTime,resending,Syncer.reset]
    · cases stepped
      refine .timerLate i target c.syncer.proceedAfterTime timedOut resending ?_
      simp [Syncer.proceedAfterTime,resending]
  | quit =>
    cases stepped
    exact .quit

end Sync

end NodeConnect.Gbn
