import NodeConnect.Gbn.ArbitraryPeer

/-! Waking the send loop of a full window. Whoever shrinks the window is the receive
loop, and it tells the send loop by an unbuffered `receivedACKSignal` or a buffered
`resendSignal`. The send loop reads the size and then waits, so a signal without a
buffer may find nobody, and a NACK for `sequenceTop` shrinks the window without any
signal. These are the only two ways in which a waiting send loop is left behind. -/
namespace NodeConnect.Gbn
open Lib

/-- The receive loop has changed the queue and is about to say so. -/
def ReceiveLoop.Signals : ReceiveLoop → Prop
  | .signalACK _ | .signalResend => True
  | _ => False

/-- An ACK for nothing in the window leaves the window as it was. -/
theorem Queue.processACKLocked_refused (q : Queue) (seq : UInt8) (next : Queue)
    (processed : q.processACKLocked seq = .ok (false,next)) : next.size = q.size := by
  have accepted (base : UInt8) : (do
      let base ← modulo base q.s
      return (true,{q with sequenceBase := base, syncer := q.syncer.processACK seq})) ≠ Except.ok (false,next) := by
    cases modulo base q.s <;> simp [bind,Except.bind,pure,Except.pure]
  simp only [processACKLocked] at processed
  split at processed
  next => exact absurd processed (accepted _)
  next =>
    split at processed
    next => exact absurd processed (accepted _)
    next =>
      cases processed
      rfl

namespace Endpoint

/-- The send loop read the size of a full queue and waits, or is about to wait, in the inner select. -/
def Waiting (e : Endpoint) : Prop := e.sendLoop = .parking ∨ e.sendLoop = .parked

/-- A waiting send loop whose window has room is woken by more than the resend timer. -/
def Guarded (e : Endpoint) : Prop :=
  e.Waiting → e.queue.size < e.n → e.resendSignal = true ∨ e.receiveLoop.Signals

/-- The steps that give a waiting send loop room and leave it no wake-up: a NACK for
`sequenceTop` has no signal, and `receivedACKSignal` is offered before the select begins. -/
def Misses (e : Endpoint) : LocalEvent → Prop
  | .deliver bytes _ =>
    e.Waiting ∧ e.resendSignal = false ∧ deserialize bytes = .ok (.nack e.queue.sequenceTop)
  | .receive => e.sendLoop = .parking ∧ e.resendSignal = false ∧ e.receiveLoop = .signalACK false ∧
      e.queue.size < e.n
  | _ => False

/-- Parked beside a window with room, and nothing under way that would tell it. -/
structure Stalled (e : Endpoint) : Prop where
  parked : e.sendLoop = .parked
  room : e.queue.size < e.n
  noSignal : e.resendSignal = false
  ready : e.receiveLoop = .ready

variable {e e' : Endpoint}

theorem Stalled.not_guarded (stalled : e.Stalled) : ¬ e.Guarded := by
  intro guarded
  rcases guarded (.inr stalled.parked) stalled.room with token | signals
  · rw [stalled.noSignal] at token
    contradiction
  · rw [stalled.ready] at signals
    exact signals

/-- The two steps of the send loop that end in front of or in the inner select. -/
theorem SendMoves.waiting {action : SendAction} {messages : List Message} (moves : e.SendMoves action e' messages)
    (waiting : e'.Waiting) :
    (e.sendLoop = .check ∧ ¬ e.queue.size < e.n ∧ e' = {e with sendLoop := .parking}) ∨
    (e.sendLoop = .parking ∧ e' = {e with sendLoop := .parked}) := by
  have back (caller : Caller) : ¬ (caller.back = .parking ∨ caller.back = .parked) := by
    cases caller <;> simp [Caller.back]
  cases moves with
  | full recent loop full => exact .inl ⟨loop,full,rfl⟩
  | park recent loop => exact .inr ⟨loop,rfl⟩
  | _ => simp [Waiting,back] at waiting

/-- Steps that leave the queue and the signal alone leave a waiting send loop as well off
as it was, unless the receive loop was about to signal. -/
theorem Guarded.frame (guarded : e.Guarded) (quiet : ¬ e.receiveLoop.Signals) (sendLoop : e'.sendLoop = e.sendLoop)
    (size : e'.queue.size = e.queue.size) (n : e'.n = e.n) (signal : e'.resendSignal = e.resendSignal) :
    e'.Guarded := by
  intro waiting room
  rw [Waiting,sendLoop] at waiting
  rw [size,n] at room
  rw [signal]
  exact .inl ((guarded waiting room).resolve_right quiet)

theorem guarded_of_signals (signals : e.receiveLoop.Signals) : e.Guarded := fun _ _ => .inr signals

theorem Guarded.sendStep (guarded : e.Guarded) (action : SendAction) (messages : List Message)
    (stepped : e.sendStep action = some (e',messages)) : e'.Guarded := by
  intro waiting room
  rcases (sendStep_moves action messages stepped).waiting waiting with ⟨_,full,rfl⟩ | ⟨parking,rfl⟩
  · exact absurd room full
  · exact guarded (.inl parking) room

/-- A NACK inside the window announces itself; one outside of it changes nothing. -/
theorem Guarded.nack (guarded : e.Guarded) (ready : e.receiveLoop = .ready) (positive : 0 < e.n) (seq : UInt8)
    (bytes : Bytes) (recentlySent : Bool) (parsed : deserialize bytes = .ok (.nack seq)) :
    (e.deliver bytes recentlySent).1.Guarded ↔
      ¬ (e.Waiting ∧ e.resendSignal = false ∧ seq = e.queue.sequenceTop) := by
  have quiet : ¬ e.receiveLoop.Signals := by simp [ready,ReceiveLoop.Signals]
  by_cases last : seq = e.queue.sequenceTop
  · have emptied : (e.deliver bytes recentlySent).1 =
        {e with queue := {e.queue with syncer := e.queue.syncer.processNACK seq,
                                       sequenceBase := e.queue.sequenceTop}} := by
      simp [deliver,parsed,Queue.processNACK,last]
    have zero : (e.deliver bytes recentlySent).1.queue.size = 0 := by simp [emptied,Queue.size]
    simp only [Guarded,zero,last,and_true]
    simp only [emptied,Waiting,positive,quiet,or_false,forall_const]
    cases e.resendSignal <;> simp
  · have announced : (e.deliver bytes recentlySent).1.Guarded := by
      by_cases inside : containsSequence e.queue.sequenceBase e.queue.sequenceTop seq = true
      · apply guarded_of_signals
        simp only [Endpoint.deliver,parsed,Queue.processNACK,if_neg last,inside,not_true_eq_false,if_false]
        split_ifs <;> trivial
      · apply guarded.frame quiet <;> simp [deliver,parsed,Queue.processNACK,last,inside,Queue.size]
    simp [announced,last]

theorem Guarded.deliver (guarded : e.Guarded) (ready : e.receiveLoop = .ready) (positive : 0 < e.n)
    (bytes : Bytes) (recentlySent : Bool) :
    (e.deliver bytes recentlySent).1.Guarded ↔ ¬ e.Misses (.deliver bytes recentlySent) := by
  have quiet : ¬ e.receiveLoop.Signals := by simp [ready,ReceiveLoop.Signals]
  unfold Misses
  cases parsed : deserialize bytes with
  | error fault =>
    have kept : (e.deliver bytes recentlySent).1.Guarded := by
      apply guarded.frame quiet <;> simp [Endpoint.deliver,parsed]
    simp [kept,parsed]
  | ok message =>
    cases message with
    | nack seq => simpa [parsed] using guarded.nack ready positive seq bytes recentlySent parsed
    | _ =>
      have kept : (e.deliver bytes recentlySent).1.Guarded := by
        apply guarded.frame quiet <;> simp only [Endpoint.deliver,parsed] <;> split_ifs <;> rfl
      simp [kept,parsed]

theorem Guarded.receiveMoves (guarded : e.Guarded) (moves : e.ReceiveMoves e') :
    e'.Guarded ↔ ¬ e.Misses .receive := by
  have kept (calm : ∀ again, e.receiveLoop ≠ .signalACK again) (after : e'.Guarded) :
      e'.Guarded ↔ ¬ e.Misses .receive := by
    simp [after,Misses,calm]
  cases moves with
  | bump packet recvSeq loop _ =>
    exact kept (by simp [loop]) (guarded.frame (by simp [loop,ReceiveLoop.Signals]) rfl rfl rfl rfl)
  | bumpFails packet fault loop _ =>
    exact kept (by simp [loop]) (guarded.frame (by simp [loop,ReceiveLoop.Signals]) rfl rfl rfl rfl)
  | hand packet loop _ =>
    exact kept (by simp [loop]) (guarded.frame (by simp [loop,ReceiveLoop.Signals]) rfl rfl rfl rfl)
  | acknowledge seq gotValidACK queue loop processed =>
    refine kept (by simp [loop]) ?_
    cases gotValidACK with
    | true => exact guarded_of_signals trivial
    | false =>
      have size := e.queue.processACKLocked_refused seq queue processed
      exact guarded.frame (by simp [loop,ReceiveLoop.Signals]) rfl size rfl rfl
  | acknowledgeFails seq fault loop _ =>
    exact kept (by simp [loop]) (guarded.frame (by simp [loop,ReceiveLoop.Signals]) rfl rfl rfl rfl)
  | wake thenResend loop parked => simp [Guarded,Waiting,Misses,parked]
  | unheard thenResend loop busy =>
    cases thenResend with
    | true => exact iff_of_true (guarded_of_signals trivial) (by simp [Misses,loop])
    | false =>
      simp only [Guarded,Waiting,Misses,busy,loop,ReceiveLoop.Signals,or_false,if_false,true_and,Bool.false_eq_true]
      cases e.resendSignal <;> simp
  | askResend loop => exact kept (by simp [loop]) fun _ _ => .inl rfl

theorem Guarded.step (guarded : e.Guarded) (positive : 0 < e.n) (event : LocalEvent)
    (stepped : e.step event = some e') : e'.Guarded ↔ ¬ e.Misses event := by
  cases event with
  | send action =>
    obtain ⟨⟨sent,messages⟩,moved,rfl⟩ := Option.map_eq_some_iff.mp stepped
    exact iff_of_true (guarded.sendStep action messages moved) id
  | deliver bytes recentlySent =>
    simp only [Endpoint.step] at stepped
    split at stepped <;> cases stepped
    next ready => exact guarded.deliver ready positive bytes recentlySent
  | receive => exact guarded.receiveMoves (receiveStep_moves stepped)
  | drain =>
    simp only [Endpoint.step] at stepped
    split at stepped <;> cases stepped
    exact iff_of_true guarded id
  | timer =>
    simp only [Endpoint.step] at stepped
    split at stepped <;> cases stepped
    exact iff_of_true guarded id

end Endpoint

/-- Against every peer and in every interleaving, the send loop is never left waiting
beside a window with room exactly when no step of the run misses it. -/
theorem wakeUp_pending_iff (n : UInt8) (positive : 0 < n) (events : List LocalEvent) (final : Endpoint)
    (reached : run Endpoint.step (newEndpoint n) events = some final) :
    (∀ shorter e, shorter <+: events → run Endpoint.step (newEndpoint n) shorter = some e → e.Guarded) ↔
      Along Endpoint.step (fun e event => ¬ e.Misses event) (newEndpoint n) events := by
  refine visits_iff_along Endpoint.step Endpoint.Guarded (fun e => 0 < e.n) Endpoint.Misses ?_ ?_ events _ final
    positive ?_ reached
  · intro e event next held stepped
    rw [(Endpoint.step_kept event stepped).1]
    exact held
  · intro e event next held guarded stepped
    exact guarded.step held event stepped
  · rintro (parking | parked)
    · contradiction
    · contradiction

instance (e : Endpoint) : Decidable e.Waiting := inferInstanceAs (Decidable (_ ∨ _))

instance (e : Endpoint) : (event : LocalEvent) → Decidable (e.Misses event)
  | .deliver _ _ => inferInstanceAs (Decidable (_ ∧ _ ∧ _))
  | .receive => inferInstanceAs (Decidable (_ ∧ _ ∧ _ ∧ _))
  | .send _ | .drain | .timer => isFalse id

/-- Fills a window of one packet and goes on for the given number of steps. -/
def fillWindow (steps : Nat) : List LocalEvent :=
  .send (.take [7] true) :: List.replicate steps (.send (.proceed false))

theorem wakeUp_pending_acknowledged : ∃ final,
    run Endpoint.step (newEndpoint 1)
      (fillWindow 4 ++ [.deliver (serialize (.ack 0)) false,.receive,.receive,.send (.proceed false)]) = some final ∧
    final.sendLoop = .select ∧
    ∀ shorter e, shorter <+: fillWindow 4 ++ [.deliver (serialize (.ack 0)) false,.receive,.receive,
      .send (.proceed false)] → run Endpoint.step (newEndpoint 1) shorter = some e → e.Guarded := by
  have result : (run Endpoint.step (newEndpoint 1) (fillWindow 4 ++ [.deliver (serialize (.ack 0)) false,.receive,.receive,
      .send (.proceed false)])).map Endpoint.sendLoop = some .select := by decide
  obtain ⟨final,reached,loop⟩ := Option.map_eq_some_iff.mp result
  exact ⟨final,reached,loop,(wakeUp_pending_iff 1 (by decide) _ final reached).mpr (by decide)⟩

/-- A NACK for `sequenceTop` empties the window of a parked send loop without a signal, and an
ACK between the check of the size and the select is signalled to nobody. -/
theorem wakeUp_missed :
    (∃ e, run Endpoint.step (newEndpoint 1) (fillWindow 4 ++ [.deliver (serialize (.nack 1)) false]) = some e ∧
      e.Stalled ∧ ¬ e.Guarded) ∧
    (∃ e, run Endpoint.step (newEndpoint 1) (fillWindow 3 ++ [.deliver (serialize (.ack 0)) false,.receive,.receive,
      .send (.proceed false)]) = some e ∧ e.Stalled ∧ ¬ e.Guarded) := by
  have stalled (events : List LocalEvent)
      (view : (run Endpoint.step (newEndpoint 1) events).map
        (fun e => (e.sendLoop,decide (e.queue.size < e.n),e.resendSignal,e.receiveLoop)) =
        some (.parked,true,false,.ready)) :
      ∃ e, run Endpoint.step (newEndpoint 1) events = some e ∧ e.Stalled ∧ ¬ e.Guarded := by
    obtain ⟨e,reached,fields⟩ := Option.map_eq_some_iff.mp view
    simp only [Prod.mk.injEq,decide_eq_true_eq] at fields
    have stalled : e.Stalled := ⟨fields.1,fields.2.1,fields.2.2.1,fields.2.2.2⟩
    exact ⟨e,reached,stalled,stalled.not_guarded⟩
  exact ⟨stalled _ (by decide),stalled _ (by decide)⟩

end NodeConnect.Gbn
