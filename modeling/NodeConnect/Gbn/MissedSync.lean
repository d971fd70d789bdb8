import NodeConnect.Gbn.Syncing

/-! Signals that nobody hears. A round may be completed while the send loop is still resending;
unless a timer picks the signal up and passes it on, `waitForSync` then waits for its
timeout. -/
namespace NodeConnect.Gbn
open Lib

namespace Sync

variable {c next : Sync} {event : SyncEvent}

/-- The round is completed, `waitForSync` has not noticed, and no timer is left that will signal. -/
def Missed (c : Sync) : Prop :=
  (c.sender = .resending ∨ c.sender = .waiting) ∧ c.closed = false ∧ c.completed = true ∧ ¬ c.HasTimer .relaying

/-- The send loop is still resending, so that a signal reaches only a timer that listens. -/
def Unheard (c : Sync) : Prop := c.sender = .resending ∧ c.closed = false ∧ ¬ c.HasTimer .selecting

/-- The step completes the round, or passes the signal on, and nobody hears it. -/
def Loses (c : Sync) : SyncEvent → Prop
  | .processNACK seq _ => c.Unheard ∧ ¬ c.HasTimer .relaying ∧ c.syncer.state = .resending ∧ seq = c.syncer.expectedNACK
  | .timerProceeds i _ => c.Unheard ∧ ¬ c.HasTimer .relaying ∧ c.syncer.state = .resending ∧
      c.timers[i]?.map (·.round) = some c.round
  | .timerRelays i _ => c.Unheard ∧ c.completed = true ∧ ¬ (c.setPlace i .returned).HasTimer .relaying
  | _ => False

instance (c : Sync) : Decidable c.Missed := inferInstanceAs (Decidable (_ ∧ _ ∧ _ ∧ _))

instance (c : Sync) : Decidable c.Unheard := inferInstanceAs (Decidable (_ ∧ _ ∧ _))

instance (c : Sync) : (event : SyncEvent) → Decidable (c.Loses event)
  | .processNACK _ _ | .timerProceeds _ _ => inferInstanceAs (Decidable (_ ∧ _ ∧ _ ∧ _))
  | .timerRelays _ _ => inferInstanceAs (Decidable (_ ∧ _ ∧ _))
  | .initResendUpTo _ | .sendFails | .awaitSync | .waitTimesOut | .waitQuits | .waitReturns _ | .processACK _
  | .timerListens _ | .timerTimesOut _ | .timerQuits _ | .quit => isFalse id

/-- A completed round leaves the state idle until the next one begins. -/
def Settled (c : Sync) : Prop := c.completed = true → c.syncer.state = .idle

theorem Signals.fields (signals : Signals c next) :
    next.syncer = c.syncer ∧ next.completed = c.completed ∧ next.round = c.round ∧ next.closed = c.closed := by
  cases signals with
  | wait => exact ⟨rfl,rfl,rfl,rfl⟩
  | timer => exact ⟨rfl,rfl,rfl,rfl⟩
  | nobody => exact ⟨rfl,rfl,rfl,rfl⟩

/-- After a signal the round is missed exactly if it is completed and nobody heard or passes on. -/
theorem Signals.missed_iff (signals : Signals c next) :
    next.Missed ↔ c.Unheard ∧ c.completed = true ∧ ¬ c.HasTimer .relaying := by
  cases signals with
  | wait waiting => simp [Missed,Unheard,waiting]
  | timer i listens =>
    have relays : (c.setPlace i .relaying).HasTimer .relaying := by
      refine hasTimer_at (i := i) ?_
      rw [place_setPlace,if_pos rfl,listens]
      rfl
    have hears : c.HasTimer .selecting := hasTimer_at listens
    simp [Missed,Unheard,relays,hears]
  | nobody busy quiet =>
    simp only [Missed,Unheard,busy,quiet,or_false,not_false_eq_true,and_true]
    tauto

theorem Moves.settled (settled : c.Settled) (moves : Moves c event next) : next.Settled := by
  cases moves with
  | init => exact nofun
  | sendFails | awaitSync | waitTimesOut | waitQuits | ackIgnored | nackIgnored | timerListens | timerTimesOut | timerQuits
  | quit => exact settled
  | waitReturns target signalled next released signals =>
    intro _
    rw [signals.fields.1]
    rfl
  | ackStarts seq resending =>
    intro completed
    exact absurd (settled completed) (by rw [resending]; decide)
  | nackCompletes seq target next resending expected signals =>
    intro _
    rw [signals.fields.1]
    rfl
  | timerRelays i target next relaying signals =>
    intro _
    rw [signals.fields.1]
    rfl
  | timerLate i target syncer timedOut passed same =>
    intro completed
    exact same.trans (settled completed)
  | timerCompletes i target syncer next timedOut resending idle signals =>
    intro _
    rw [signals.fields.1]
    exact idle

/-- A timer that returns was not listening. -/
theorem unheard_returned {i : Nat} {old : TimerPlace} (at_ : c.place i = some old) (deaf : old ≠ .selecting)
    (syncer : Syncer) (completed : Bool) : Unheard {c.setPlace i .returned with syncer, completed} ↔ c.Unheard := by
  have same : (c.setPlace i .returned).HasTimer .selecting ↔ c.HasTimer .selecting :=
    hasTimer_moved at_ deaf (by decide)
  exact and_congr_right fun _ => and_congr_right fun _ => same.not

/-- Each step leads to a missed round exactly if it is one that loses a signal. -/
theorem Moves.missed_iff (settled : c.Settled) (noticed : ¬ c.Missed) (moves : Moves c event next) :
    next.Missed ↔ c.Loses event := by
  cases moves with
  | init top syncer sending started => exact iff_of_false (fun missed => nomatch missed.2.2.1) id
  | sendFails => exact iff_of_false (fun missed => nomatch missed.1) id
  | awaitSync resending => exact iff_of_false (fun missed => noticed ⟨.inl resending,missed.2⟩) id
  | waitTimesOut => exact iff_of_false (fun missed => nomatch missed.1) id
  | waitQuits => exact iff_of_false (fun missed => nomatch missed.1) id
  | waitReturns target signalled next released signals =>
    rw [signals.missed_iff]
    exact iff_of_false (fun missed => nomatch missed.1.1) id
  | ackIgnored => exact iff_of_false noticed id
  | ackStarts seq resending =>
    refine iff_of_false (fun missed => ?_) id
    exact absurd (settled missed.2.2.1) (by rw [resending]; decide)
  | nackIgnored seq target other =>
    exact iff_of_false noticed fun loses => other loses.2.2
  | nackCompletes seq target next resending expected signals =>
    rw [signals.missed_iff]
    exact ⟨fun missed => ⟨missed.1,missed.2.2,resending,expected⟩,fun loses => ⟨loses.1,rfl,loses.2.1⟩⟩
  | timerListens i started =>
    refine iff_of_false (fun missed => noticed ⟨missed.1,missed.2.1,missed.2.2.1,?_⟩) id
    exact (hasTimer_moved started (by decide) (by decide)).not.mp missed.2.2.2
  | timerTimesOut i selecting =>
    refine iff_of_false (fun missed => noticed ⟨missed.1,missed.2.1,missed.2.2.1,?_⟩) id
    exact (hasTimer_moved selecting (by decide) (by decide)).not.mp missed.2.2.2
  | timerQuits i selecting closed =>
    refine iff_of_false (fun missed => ?_) id
    have open_ : c.closed = false := missed.2.1
    exact absurd (closed.symm.trans open_) (by decide)
  | timerRelays i target next relaying signals =>
    rw [signals.missed_iff,unheard_returned relaying (by decide)]
    exact Iff.rfl
  | timerLate i target syncer timedOut passed same =>
    have others : (c.setPlace i .returned).HasTimer .relaying ↔ c.HasTimer .relaying :=
      hasTimer_moved timedOut (by decide) (by decide)
    refine iff_of_false (fun missed => noticed ⟨missed.1,missed.2.1,missed.2.2.1,others.not.mp missed.2.2.2⟩) ?_
    exact fun loses => passed loses.2.2.1
  | timerCompletes i target syncer next timedOut resending idle signals =>
    have others : (c.setPlace i .returned).HasTimer .relaying ↔ c.HasTimer .relaying :=
      hasTimer_moved timedOut (by decide) (by decide)
    have open_ : c.completed = false := by
      rw [← Bool.not_eq_true]
      exact fun completed => absurd (settled completed) (by rw [resending]; decide)
    rw [signals.missed_iff,unheard_returned timedOut (by decide)]
    change c.Unheard ∧ (c.completed || _) = true ∧ ¬ (c.setPlace i .returned).HasTimer .relaying ↔ _
    rw [others,open_,Bool.false_or,beq_iff_eq]
    exact ⟨fun ⟨unheard,own,quiet⟩ => ⟨unheard,quiet,resending,own⟩,
      fun ⟨unheard,quiet,_,own⟩ => ⟨unheard,own,quiet⟩⟩
  | quit => exact iff_of_false (fun missed => nomatch missed.2.1) id

/-- A missed round stays so until the wait times out, a send fails or the connection is closed. -/
theorem Moves.stays_missed (settled : c.Settled) (missed : c.Missed) (moves : Moves c event next)
    (none_ : event ≠ .waitTimesOut ∧ event ≠ .sendFails ∧ event ≠ .quit) : next.Missed := by
  obtain ⟨place,open_,completed,quiet⟩ := id missed
  have idle := settled completed
  cases moves with
  | init top syncer sending started => simp [sending] at place
  | sendFails => exact absurd rfl none_.2.1
  | awaitSync => exact ⟨.inr rfl,open_,completed,quiet⟩
  | waitTimesOut => exact absurd rfl none_.1
  | waitQuits waiting closed => simp [closed] at open_
  | waitReturns target signalled next released signals => simp [released] at place
  | ackIgnored => exact missed
  | ackStarts seq resending => simp [resending] at idle
  | nackIgnored => exact missed
  | nackCompletes seq target next resending => simp [resending] at idle
  | timerListens i started => exact ⟨place,open_,completed,(hasTimer_moved started (by decide) (by decide)).not.mpr quiet⟩
  | timerTimesOut i selecting =>
    exact ⟨place,open_,completed,(hasTimer_moved selecting (by decide) (by decide)).not.mpr quiet⟩
  | timerQuits i selecting closed => simp [closed] at open_
  | timerRelays i target next relaying => exact absurd (hasTimer_at relaying) quiet
  | timerLate i target syncer timedOut =>
    exact ⟨place,open_,completed,(hasTimer_moved timedOut (by decide) (by decide)).not.mpr quiet⟩
  | timerCompletes i target syncer next timedOut resending => simp [resending] at idle
  | quit => exact absurd rfl none_.2.2

theorem settled_reached {s : UInt8} {events : List SyncEvent} {final : Sync} (reached : run step (start s) events = some final) :
    final.Settled :=
  run_invariant step Settled (fun _ _ _ settled stepped => (step_moves stepped).settled settled) events (start s) final
    nofun reached

/-- In every interleaving, no completed round is missed exactly if no step completes a round, or
passes its signal on, while the send loop is still resending and no timer listens or passes on.
A missed round can end only by the timeout. -/
theorem sync_missed_iff (s : UInt8) (events : List SyncEvent) (final : Sync) (reached : run step (start s) events = some final) :
    ((∀ shorter middle, shorter <+: events → run step (start s) shorter = some middle → ¬ middle.Missed) ↔
      Along step (fun c event => ¬ c.Loses event) (start s) events) ∧
    (final.Missed → ∀ later last, run step final later = some last →
      (∀ event ∈ later, event ≠ .waitTimesOut ∧ event ≠ .sendFails ∧ event ≠ .quit) → last.Missed) := by
  constructor
  · apply visits_iff_along step (fun c => ¬ c.Missed) Settled Loses
    · exact fun c event next settled stepped => (step_moves stepped).settled settled
    · exact fun c event next settled noticed stepped => ((step_moves stepped).missed_iff settled noticed).not
    · exact nofun
    · exact fun missed => nomatch missed.2.2.1
    · exact reached
  · intro missed later last ran others
    have leads : Leads step (fun event => event ≠ .waitTimesOut ∧ event ≠ .sendFails ∧ event ≠ .quit) final last :=
      ⟨later,others,ran⟩
    refine (leads.invariant (fun c => c.Settled ∧ c.Missed) ?_ ⟨settled_reached reached,missed⟩).2
    rintro c event next ⟨settled,missed⟩ none_ stepped
    exact ⟨(step_moves stepped).settled settled,(step_moves stepped).stays_missed settled missed none_⟩

/-- A timer takes the signal of the expected NACK and passes it on to `waitForSync`. -/
theorem sync_missed_relayed : ∃ events final, run step (start 3) events = some final ∧ events.length = 6 ∧
    final.sender = .released true ∧ Along step (fun c event => ¬ c.Loses event) (start 3) events ∧
    ∀ shorter middle, shorter <+: events → run step (start 3) shorter = some middle → ¬ middle.Missed := by
  let events : List SyncEvent := [.initResendUpTo 1,.processACK 0,.timerListens 0,.processNACK 1 (some (.timer 0)),
    .awaitSync,.timerRelays 0 (some .waitForSync)]
  have harmless : Along step (fun c event => ¬ c.Loses event) (start 3) events := by decide
  have last : (run step (start 3) events).map (·.sender) = some (.released true) := by decide
  obtain ⟨final,reached,sender⟩ := Option.map_eq_some_iff.mp last
  exact ⟨events,final,reached,rfl,sender,harmless,(sync_missed_iff 3 events final reached).1.mpr harmless⟩

/-- The expected NACK is processed while the packet is being resent: the state is idle, nobody heard
the signal, and the wait that follows lasts until its timeout. -/
theorem early_nack_missed : ∃ final, run step (start 3) [.initResendUpTo 1,.processNACK 1 none,.awaitSync] = some final ∧
    final.sender = .waiting ∧ final.syncer.state = .idle ∧ final.timers = [] ∧ final.Missed :=
  ⟨_,rfl,by decide⟩

end Sync

end NodeConnect.Gbn
