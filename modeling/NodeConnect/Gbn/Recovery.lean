import NodeConnect.Gbn.ArbitraryPeer
import NodeConnect.Gbn.Delivery

/-! Recovery. Whatever was lost, the two endpoints can go on without losing anything
more until the receiver has every packet and the sender knows it: the send loops come
to rest, the channels run empty, each side resends its window once, and what that
puts in flight is answered. A message costs its receiver a bounded number of steps,
so one measure shows that the channels run empty. -/
namespace NodeConnect.Gbn
open Lib

/-- Timeouts and the work of the loops and of the applications. Nothing new is taken,
and every message arrives once. -/
def Event.Recovery : Event → Prop
  | .send _ (.take _ _) | .send _ .ping | .lose _ _ => False
  | .send _ _ | .receive _ | .drain _ | .timer _ => True
  | .deliver _ keep _ => keep = false

abbrev Recovers (net final : Net) : Prop := Leads Net.step Event.Recovery net final

theorem Side.sum_eq (amount : Side → Nat) (side : Side) :
    amount .client + amount .server = amount side + amount side.other := by
  cases side with
  | client => rfl
  | server => exact Nat.add_comm _ _

namespace Net

variable (net : Net) (side : Side) (e : Endpoint) (messages : List Message)

@[simp]
theorem update_ends : (net.update side e messages).ends side = e := by simp [update]

@[simp]
theorem update_ends_other : (net.update side e messages).ends side.other = net.ends side.other := by
  simp [update,side.other_ne]

@[simp]
theorem update_wire : (net.update side e messages).wire side = net.wire side := by
  simp [update,side.other_ne.symm]

@[simp]
theorem update_wire_other :
    (net.update side e messages).wire side.other = net.wire side.other ++ messages.map serialize := by
  simp [update]

theorem update_update (e' : Endpoint) : (net.update side e []).update side e' messages = net.update side e' messages := by
  simp [update,Function.update_idem]

end Net

theorem Recovers.taken {net final : Net} (recovers : Recovers net final) (x : Side) :
    (final.ends x).taken = (net.ends x).taken := by
  refine Leads.relates (fun net next : Net => (next.ends x).taken = (net.ends x).taken) (fun _ => rfl)
    (fun _ _ _ first second => second.trans first) ?_ recovers
  intro net event next allowed stepped
  obtain same | ⟨own,projects,moved⟩ := net.step_local next event stepped x
  · rw [same]
  · refine (Endpoint.step_kept own moved).2.2 fun payload finalChunk taking => ?_
    subst taking
    cases projects
    exact allowed

theorem deserialize_encode (s : Nat) (added : List PacketData) (tag : Tag) :
    ∃ message, deserialize (encode s added tag) = .ok message ∧
      match tag with
      | .data _ => ∃ packet, message = .data packet
      | .ack _ => ∃ seq, message = .ack seq
      | .nack _ => ∃ seq, message = .nack seq := by
  cases tag with
  | data i => exact ⟨_,deserialize_serialize (.data _),_,rfl⟩
  | ack i => exact ⟨_,deserialize_serialize (.ack _),_,rfl⟩
  | nack a => exact ⟨_,deserialize_serialize (.nack _),_,rfl⟩

section Load

/-- An answer is worth more than all the steps it takes, and a packet more than its answer. -/
def weigh (bytes : Bytes) : Nat :=
  match deserialize bytes with
  | .ok (.data _) => 10
  | _ => 6

def ReceiveLoop.load : ReceiveLoop → Nat
  | .signalResend => 1
  | .handing _ => 2
  | .acknowledged _ => 3
  | .signalACK _ => 4
  | .sized _ => 5
  | .ready | .stopped | .crashed _ => 0

def SendLoop.load : SendLoop → Nat
  | .parking => 1
  | .check => 2
  | .waitForSync _ => 3
  | _ => 0

def wireLoad (wire : List Bytes) : Nat := (wire.map weigh).sum

def Net.load (net : Net) (x : Side) : Nat :=
  wireLoad (net.wire x) + (net.ends x).receiveLoop.load + (net.ends x).sendLoop.load + (net.ends x).recvDataChan.length

theorem wireLoad_append (first second : List Bytes) : wireLoad (first ++ second) = wireLoad first + wireLoad second := by
  simp [wireLoad]

theorem wireLoad_cons (bytes : Bytes) (rest : List Bytes) : wireLoad (bytes :: rest) = weigh bytes + wireLoad rest := by
  simp [wireLoad]

theorem weigh_encode (s : Nat) (added : List PacketData) (tag : Tag) :
    weigh (encode s added tag) = match tag with | .data _ => 10 | _ => 6 := by
  obtain ⟨message,parsed,kind⟩ := deserialize_encode s added tag
  cases tag <;> obtain ⟨_,rfl⟩ := kind <;> simp [weigh,parsed]

theorem weigh_answer (message : Message) (answer : ∀ packet, message ≠ .data packet) : weigh (serialize message) = 6 := by
  rw [weigh,deserialize_serialize]
  cases message with
  | data packet => exact absurd rfl (answer packet)
  | _ => rfl

end Load

namespace Endpoint

variable {e e' : Endpoint}

theorem deliver_running (s : Nat) (added : List PacketData) (tag : Tag) (recentlySent : Bool)
    (ready : e.receiveLoop = .ready) : (e.deliver (encode s added tag) recentlySent).1.receiveLoop ≠ .stopped := by
  obtain ⟨message,parsed,kind⟩ := deserialize_encode s added tag
  cases tag with
  | data i =>
    obtain ⟨packet,rfl⟩ := kind
    simp only [deliver,parsed]
    split_ifs <;> simp [ready]
  | ack i =>
    obtain ⟨seq,rfl⟩ := kind
    simp only [deliver,parsed]
    split_ifs <;> simp [ready]
  | nack a =>
    obtain ⟨seq,rfl⟩ := kind
    rw [deliver_nack _ recentlySent seq parsed]
    dsimp only
    split_ifs <;> simp [ready]

theorem deliver_load (s : Nat) (added : List PacketData) (tag : Tag) (ready : e.receiveLoop = .ready) :
    (e.deliver (encode s added tag) false).1.receiveLoop.load +
      wireLoad ((e.deliver (encode s added tag) false).2.map serialize) < weigh (encode s added tag) := by
  obtain ⟨message,parsed,kind⟩ := deserialize_encode s added tag
  rw [weigh_encode]
  cases tag with
  | data i =>
    obtain ⟨packet,rfl⟩ := kind
    simp only [deliver,parsed]
    split_ifs with next
    · simp [wireLoad,weigh_answer,ReceiveLoop.load]
    · simp_all
    · simp [wireLoad,weigh_answer,ReceiveLoop.load,ready]
  | ack i =>
    obtain ⟨seq,rfl⟩ := kind
    simp only [deliver,parsed]
    split_ifs with empty <;> simp [wireLoad,ReceiveLoop.load,ready]
  | nack a =>
    obtain ⟨seq,rfl⟩ := kind
    rw [deliver_nack _ false seq parsed]
    dsimp only
    split_ifs <;> simp [wireLoad,ReceiveLoop.load,ready]

theorem ReceiveMoves.load (moves : e.ReceiveMoves e') :
    e'.receiveLoop ≠ .stopped ∧ (e'.sendLoop = e.sendLoop ∨ e'.sendLoop = .check) ∧
      e'.receiveLoop.load + e'.sendLoop.load + e'.recvDataChan.length <
        e.receiveLoop.load + e.sendLoop.load + e.recvDataChan.length := by
  cases moves with
  | bump packet recvSeq loop _ => split <;> simp [loop,ReceiveLoop.load]
  | bumpFails packet fault loop _ => simp [loop,ReceiveLoop.load]
  | hand packet loop _ =>
    simp [loop,ReceiveLoop.load]
    omega
  | acknowledge seq gotValidACK queue loop _ => cases gotValidACK <;> simp [loop,ReceiveLoop.load]
  | acknowledgeFails seq fault loop _ => simp [loop,ReceiveLoop.load]
  | wake thenResend loop parked => cases thenResend <;> simp [parked,loop,ReceiveLoop.load,SendLoop.load]
  | unheard thenResend loop _ => cases thenResend <;> simp [loop,ReceiveLoop.load]
  | askResend loop => simp [loop,ReceiveLoop.load]

end Endpoint

def Net.Running (net : Net) : Prop := ∀ x, (net.ends x).receiveLoop ≠ .stopped

theorem Net.step_running (n : UInt8) (net : Net) (event : Event) (next : Net) (safe : net.Safe n) (running : net.Running)
    (stepped : net.step event = some next) : next.Running := by
  intro x
  obtain same | ⟨own,projects,moved⟩ := net.step_local next event stepped x
  · rw [same]
    exact running x
  · cases projects with
    | send action =>
      obtain ⟨⟨sent,messages⟩,went,moved⟩ := Option.map_eq_some_iff.mp moved
      rw [← moved,(Endpoint.sendStep_moves action messages went).kept.1.receiveLoop]
      exact running x
    | deliver bytes rest keep recentlySent wire =>
      obtain ⟨base,held,tags,sound⟩ := safe
      have onWire := sound.wire x
      rw [wire] at onWire
      obtain ⟨tag,later,tagged,rfl,rfl⟩ := List.map_eq_cons_iff.mp onWire.symm
      simp only [Endpoint.step] at moved
      split at moved
      next ready => rw [← Option.some.inj moved]; exact Endpoint.deliver_running _ _ tag recentlySent ready
      next => contradiction
    | receive => exact (Endpoint.receiveStep_moves moved).load.1
    | drain =>
      simp only [Endpoint.step] at moved
      split at moved
      next => rw [← Option.some.inj moved]; exact running x
      next => contradiction
    | timer =>
      simp only [Endpoint.step] at moved
      split at moved
      next => rw [← Option.some.inj moved]; exact running x
      next => contradiction

def Net.Live (n : UInt8) (net : Net) : Prop := net.Safe n ∧ net.Running

theorem Net.step_live (n : UInt8) (positive : 1 ≤ n.toNat) (net : Net) (event : Event) (next : Net) (live : net.Live n)
    (stepped : net.step event = some next) : next.Live n :=
  ⟨net.step_safe n positive event next live.1 stepped,net.step_running n event next live.1 live.2 stepped⟩

theorem Net.run_live (n : UInt8) (positive : 1 ≤ n.toNat) (bound : n.toNat ≤ 254) (events : List Event) (net : Net)
    (reached : run Net.step (Net.initial n) events = some net) : net.Live n :=
  run_invariant Net.step (Net.Live n) (Net.step_live n positive) events _ net
    ⟨Net.initial_safe n positive bound,fun x => by simp [Net.initial,newEndpoint]⟩ reached

def SendLoop.Calm : SendLoop → Prop
  | .select | .check | .parking | .parked | .waitForSync _ => True
  | _ => False

def SendLoop.AtRest (loop : SendLoop) : Prop := loop = .select ∨ loop = .parked

def Net.Quiet (net : Net) : Prop :=
  ∀ x, net.wire x = [] ∧ (net.ends x).receiveLoop = .ready ∧ (net.ends x).sendLoop.AtRest

namespace Endpoint

variable (e : Endpoint)

/-- Only a full `recvDataChan` holds the receive loop up. -/
theorem receiveStep_enabled (positive : 1 ≤ e.n.toNat) (busy : e.receiveLoop ≠ .ready) (running : e.receiveLoop ≠ .stopped)
    (intact : ∀ fault, e.receiveLoop ≠ .crashed fault) :
    (∃ e', e.receiveStep = some e') ∨ ∃ first rest, e.recvDataChan = first :: rest := by
  cases loop : e.receiveLoop with
  | ready => exact absurd loop busy
  | stopped => exact absurd loop running
  | crashed fault => exact absurd loop (intact fault)
  | acknowledged packet =>
    left
    simp only [receiveStep,loop]
    split <;> exact ⟨_,rfl⟩
  | handing packet =>
    by_cases room : e.recvDataChan.length < e.n.toNat
    · exact .inl ⟨_,by simp only [receiveStep,loop,if_pos room]; rfl⟩
    · right
      cases chan : e.recvDataChan with
      | nil =>
        rw [chan] at room
        simp only [List.length_nil] at room
        omega
      | cons first rest => exact ⟨first,rest,rfl⟩
  | sized seq =>
    left
    simp only [receiveStep,loop]
    split <;> exact ⟨_,rfl⟩
  | signalACK thenResend => exact .inl ⟨_,by simp only [receiveStep,loop]; rfl⟩
  | signalResend => exact .inl ⟨_,by simp only [receiveStep,loop]; rfl⟩

theorem sendProceed_calm (calm : e.sendLoop.Calm) (restless : ¬ e.sendLoop.AtRest) :
    ∃ e', e.sendProceed false = some (e',[]) ∧ e'.sendLoop.Calm ∧ e'.sendLoop.load < e.sendLoop.load ∧
      SameReceiver e e' ∧ e'.added = e.added ∧ e'.recvDataChan = e.recvDataChan := by
  cases loop : e.sendLoop with
  | select => exact absurd (.inl loop) restless
  | parked => exact absurd (.inr loop) restless
  | check =>
    refine ⟨{e with sendLoop := if e.queue.size < e.n then .select else .parking},by simp only [sendProceed,loop],?_,?_,
      ⟨rfl,rfl,rfl,rfl,rfl⟩,rfl,rfl⟩
    · dsimp only
      split_ifs <;> trivial
    · dsimp only
      split_ifs <;> simp [SendLoop.load]
  | parking =>
    exact ⟨{e with sendLoop := .parked},by simp only [sendProceed,loop],trivial,Nat.one_pos,⟨rfl,rfl,rfl,rfl,rfl⟩,rfl,rfl⟩
  | waitForSync caller =>
    refine ⟨{e with queue := {e.queue with syncer := e.queue.syncer.reset}, sendLoop := caller.back},
      by simp only [sendProceed,loop],?_,?_,⟨rfl,rfl,rfl,rfl,rfl⟩,rfl,rfl⟩
    · cases caller <;> trivial
    · cases caller <;> simp [Caller.back,SendLoop.load]
  | holding packet => rw [loop] at calm; exact calm.elim
  | added packet => rw [loop] at calm; exact calm.elim
  | resend caller => rw [loop] at calm; exact calm.elim
  | resendBase caller => rw [loop] at calm; exact calm.elim
  | resendTop caller base => rw [loop] at calm; exact calm.elim
  | resending caller base top => rw [loop] at calm; exact calm.elim
  | crashed fault => rw [loop] at calm; exact calm.elim

end Endpoint

def Net.view (net : Net) (base : Side → Nat) (held : Side → List Nat) (tags : Side → List Tag) (x : Side) :
    GoBackN.View := Gbn.view (net.ends x) (net.ends x.other) (base x) (held x) (tags x.other) (tags x)

/-- No send loop is about to send, and the directions of the `covered` sides are recovering. -/
structure Settling (n : UInt8) (covered : Side → Prop) (net : Net) (base : Side → Nat) (held : Side → List Nat)
    (tags : Side → List Tag) : Prop where
  sound : Sound n net base held tags
  running : net.Running
  calm : ∀ x, (net.ends x).sendLoop.Calm
  recovering : ∀ x, covered x → GoBackN.Recovering (net.view base held tags x)

def Net.Settles (n : UInt8) (covered : Side → Prop) (net : Net) : Prop :=
  ∃ base held tags, Settling n covered net base held tags

namespace Settling

variable {n : UInt8} {covered : Side → Prop} {net next : Net} {base base' : Side → Nat} {held held' : Side → List Nat}
variable {tags tags' : Side → List Tag}

theorem step (settling : Settling n covered net base held tags) (event : Event) (stepped : net.step event = some next)
    (side : Side) (sound : Sound n next base' held' tags') (calm : (next.ends side).sendLoop.Calm)
    (elsewhere : (next.ends side.other).sendLoop = (net.ends side.other).sendLoop)
    (own : GoBackN.Move (net.view base held tags side) (next.view base' held' tags' side))
    (opposite : GoBackN.Move (net.view base held tags side.other) (next.view base' held' tags' side.other)) :
    Settling n covered next base' held' tags' where
  sound := sound
  running := net.step_running n event next ⟨_,_,_,settling.sound⟩ settling.running stepped
  calm := Side.forall_of_both side calm (elsewhere ▸ settling.calm side.other)
  recovering := by
    refine Side.forall_of_both side (fun inside => ?_) (fun inside => ?_)
    · exact (settling.recovering side inside).move (settling.sound.direction side).inv own
    · exact (settling.recovering side.other inside).move (settling.sound.direction side.other).inv opposite

theorem deliver (settling : Settling n covered net base held tags) (positive : 1 ≤ n.toNat) (side : Side)
    (ready : (net.ends side).receiveLoop = .ready) (bytes : Bytes) (rest : List Bytes)
    (wire : net.wire side = bytes :: rest) :
    ∃ next, net.step (.deliver side false false) = some next ∧ next.Settles n covered ∧
      next.load side + next.load side.other < net.load side + net.load side.other := by
  have apart := side.other_ne
  have sound := settling.sound
  obtain ⟨tag,later,out,base',held',tagged,rfl,rfl,effect,moves⟩ := sound.arrives positive side ready wire false
  have moves := moves rfl
  have kept := Endpoint.deliver_kept (e := net.ends side) (encode (n.toNat + 1) (net.ends side.other).added tag) false
  have lighter := Endpoint.deliver_load (e := net.ends side) (n.toNat + 1) (net.ends side.other).added tag ready
  have stepped : net.step (.deliver side false false) = some (Net.update {net with
      wire := Function.update net.wire side (later.map (encode (n.toNat + 1) (net.ends side.other).added))} side
      ((net.ends side).deliver (encode (n.toNat + 1) (net.ends side.other).added tag) false).1
      ((net.ends side).deliver (encode (n.toNat + 1) (net.ends side.other).added tag) false).2) := by
    simp [Net.step,ready,wire]
  refine ⟨_,stepped,⟨_,_,_,settling.step _ stepped side
    (sound.deliver side _ _ wire tag later tagged _ _ out base' held' effect) ?_ ?_ ?_ ?_⟩,?_⟩
  · rw [Net.update_ends,kept.2.2.2.1]
    exact settling.calm side
  · rw [Net.update_ends_other]
  · simpa [Net.view,apart,apart.symm,tagged] using moves.own
  · simpa [Net.view,apart,apart.symm,tagged,Side.other_other] using moves.opposite
  · simp only [Net.load,Net.update_ends,Net.update_ends_other,Net.update_wire,Net.update_wire_other,wire,kept.2.2.2.1,
      kept.2.2.2.2,
      Function.update_self,Function.update_of_ne apart,wireLoad_append,wireLoad_cons,ready]
    have zero : ReceiveLoop.ready.load = 0 := rfl
    omega

theorem receive (settling : Settling n covered net base held tags) (positive : 1 ≤ n.toNat) (side : Side)
    (e : Endpoint) (moved : (net.ends side).receiveStep = some e) :
    ∃ next, net.step (.receive side) = some next ∧ next.Settles n covered ∧
      next.load side + next.load side.other < net.load side + net.load side.other := by
  have apart := side.other_ne
  have sound := settling.sound
  obtain ⟨base',held',effect,moves⟩ := receiveMoves_effect positive (sound.sender side) (sound.receiver side)
    (sound.direction side) (sound.opposite side) e (Endpoint.receiveStep_moves moved)
  obtain ⟨_,waking,lighter⟩ := (Endpoint.receiveStep_moves moved).load
  have stepped : net.step (.receive side) = some (net.update side e []) := by simp [Net.step,moved]
  refine ⟨_,stepped,⟨_,_,_,
    settling.step _ stepped side (sound.receiveEffect side e [] [] base' held' effect) ?_ ?_ ?_ ?_⟩,?_⟩
  · rw [Net.update_ends]
    rcases waking with same | woken
    · rw [same]
      exact settling.calm side
    · rw [woken]
      trivial
  · rw [Net.update_ends_other]
  · simpa [Net.view,apart,apart.symm] using moves.own
  · simpa [Net.view,apart,apart.symm,Side.other_other] using moves.opposite
  · simp only [Net.load,Net.update_ends,Net.update_ends_other,Net.update_wire,Net.update_wire_other,List.map_nil,
      List.append_nil]
    omega

/-- A step after which the other side, the histories and the positions are as before. -/
theorem quietly (settling : Settling n covered net base held tags) (side : Side) (e : Endpoint) (event : Event)
    (stepped : net.step event = some (net.update side e [])) (sender : Sender n e (base side))
    (receiver : SameReceiver (net.ends side) e) (added : e.added = (net.ends side).added) (calm : e.sendLoop.Calm) :
    Settling n covered (net.update side e []) base held tags := by
  have apart := side.other_ne
  refine settling.step event stepped side (settling.sound.frame side e sender receiver added) ?_ ?_ ?_ ?_
  · rw [Net.update_ends]
    exact calm
  · rw [Net.update_ends_other]
  · have same : (net.update side e []).view base held tags side = net.view base held tags side := by
      simp [Net.view,Gbn.view,added]
    rw [same]
    exact .stay _
  · have same : (net.update side e []).view base held tags side.other = net.view base held tags side.other := by
      simp [Net.view,Gbn.view,receiver.accepted,Side.other_other]
    rw [same]
    exact .stay _

theorem drain (settling : Settling n covered net base held tags) (side : Side) (first : PacketData)
    (rest : List PacketData) (queued : (net.ends side).recvDataChan = first :: rest) :
    ∃ next, net.step (.drain side) = some next ∧ next.Settles n covered ∧
      next.load side + next.load side.other < net.load side + net.load side.other := by
  have stepped : net.step (.drain side) = some (net.update side {net.ends side with recvDataChan := rest} []) := by
    simp [Net.step,queued]
  refine ⟨_,stepped,⟨_,_,_,settling.quietly side _ _ stepped ((settling.sound.sender side).frame _ rfl rfl rfl rfl rfl)
    ⟨rfl,rfl,rfl,rfl,rfl⟩ rfl (settling.calm side)⟩,?_⟩
  simp only [Net.load,Net.update_ends,Net.update_ends_other,Net.update_wire,Net.update_wire_other,List.map_nil,
    List.append_nil,queued,List.length_cons]
  omega

theorem proceed (settling : Settling n covered net base held tags) (positive : 1 ≤ n.toNat) (side : Side)
    (restless : ¬ (net.ends side).sendLoop.AtRest) :
    ∃ next, net.step (.send side (.proceed false)) = some next ∧ next.Settles n covered ∧
      next.load side + next.load side.other < net.load side + net.load side.other := by
  have sound := settling.sound
  obtain ⟨e,moved,calm,lighter,receiver,added,chan⟩ := (net.ends side).sendProceed_calm (settling.calm side) restless
  obtain ⟨_,effect⟩ := sendMoves_effect positive (sound.sender side) (sound.direction side) (.proceed false) e []
    (Endpoint.sendProceed_moves false [] moved)
  have stepped : net.step (.send side (.proceed false)) = some (net.update side e []) := by
    simp [Net.step,Endpoint.sendStep,moved]
  refine ⟨_,stepped,⟨_,_,_,settling.quietly side _ _ stepped effect.sender receiver added calm⟩,?_⟩
  simp only [Net.load,Net.update_ends,Net.update_ends_other,Net.update_wire,Net.update_wire_other,List.map_nil,
    List.append_nil,chan,receiver.loop]
  omega

/-- Unless everything is quiet, some loop goes on and the load shrinks. -/
theorem progress (settling : Settling n covered net base held tags) (positive : 1 ≤ n.toNat) (noisy : ¬ net.Quiet) :
    ∃ next, Recovers net next ∧ next.Settles n covered ∧
      next.load .client + next.load .server < net.load .client + net.load .server := by
  obtain ⟨side,busy⟩ := not_forall.mp noisy
  rw [Side.sum_eq net.load side]
  have sound := settling.sound
  have size : 1 ≤ (net.ends side).n.toNat := (sound.sender side).window ▸ positive
  have done (event : Event) (allowed : event.Recovery)
      (step : ∃ next, net.step event = some next ∧ next.Settles n covered ∧
        next.load side + next.load side.other < net.load side + net.load side.other) :
      ∃ next, Recovers net next ∧ next.Settles n covered ∧
        next.load .client + next.load .server < net.load side + net.load side.other := by
    obtain ⟨next,stepped,settles,lighter⟩ := step
    exact ⟨next,.single event allowed stepped,settles,Side.sum_eq next.load side ▸ lighter⟩
  by_cases ready : (net.ends side).receiveLoop = .ready
  · cases wire : net.wire side with
    | cons bytes rest => exact done (.deliver side false false) rfl (settling.deliver positive side ready bytes rest wire)
    | nil =>
      exact done (.send side (.proceed false)) trivial
        (settling.proceed positive side fun resting => busy ⟨wire,ready,resting⟩)
  · have intact : ∀ fault, (net.ends side).receiveLoop ≠ .crashed fault := by
      intro fault crashed
      have place := (sound.receiver side).place
      rw [crashed] at place
      exact place
    obtain ⟨e,moved⟩ | ⟨first,rest,queued⟩ :=
      (net.ends side).receiveStep_enabled size ready (settling.running side) intact
    · exact done (.receive side) trivial (settling.receive positive side e moved)
    · exact done (.drain side) trivial (settling.drain side first rest queued)

end Settling

theorem Net.Settles.quiet {n : UInt8} {covered : Side → Prop} {net : Net} (settles : net.Settles n covered)
    (positive : 1 ≤ n.toNat) : ∃ final, Recovers net final ∧ final.Settles n covered ∧ final.Quiet := by
  refine Leads.descend (Net.Settles n covered) Net.Quiet (fun net => net.load .client + net.load .server) ?_ net settles
  rintro net ⟨base,held,tags,settling⟩ noisy
  exact settling.progress positive noisy

/-- How far the send loop is from its next select. -/
def Endpoint.sendLoad (e : Endpoint) : Nat :=
  match e.sendLoop with
  | .resend _ => 262
  | .resendBase _ => 261
  | .resendTop _ _ => 260
  | .resending _ base top => 4 + ahead e.queue.s.toNat base.toNat top.toNat
  | .holding _ => 4
  | .added _ => 3
  | loop => loop.load

theorem Queue.resendNext_index {q : Queue} {base next : UInt8} {packet : PacketData}
    (fetched : q.resendNext base = .ok (packet,next)) : modulo (base + 1) q.s = .ok next := by
  unfold Queue.resendNext at fetched
  split at fetched
  next => contradiction
  next => contradiction
  next held =>
    cases computed : modulo (base + 1) q.s with
    | error fault => simp [computed,bind,Except.bind] at fetched
    | ok index =>
      simp only [computed,bind,Except.bind,pure,Except.pure,Except.ok.injEq,Prod.mk.injEq] at fetched
      rw [fetched.2]

namespace Sender

variable {n : UInt8} {e : Endpoint} {base : Nat}

theorem cursor_lt (sender : Sender n e base) {index : UInt8} {top : Nat} (cursor : Cursor (n.toNat + 1) n.toNat top index) :
    index.toNat < e.queue.s.toNat := by
  obtain ⟨k,label,_⟩ := cursor
  rw [label,sender.cycle]
  exact Nat.mod_lt _ (by omega)

/-- Each move of the send loop that nobody has to start takes it closer to its selects. -/
theorem lighter (sender : Sender n e base) (recent : Bool) (e' : Endpoint) (messages : List Message)
    (moves : e.SendMoves (.proceed recent) e' messages) : e'.sendLoad < e.sendLoad := by
  have place := sender.place
  cases moves with
  | skip _ caller loop _ => cases caller <;> simp [Endpoint.sendLoad,loop,Caller.back,SendLoop.load]
  | emptied _ caller loop => cases caller <;> simp [Endpoint.sendLoad,loop,Caller.back,SendLoop.load]
  | synced _ caller loop => cases caller <;> simp [Endpoint.sendLoad,loop,Caller.back,SendLoop.load]
  | start _ caller start syncer loop _ _ =>
    rw [loop] at place
    have close := ahead_lt _ _ _ (sender.cursor_lt place) sender.top_lt
    have bound := e.queue.s.toNat_lt
    simp only [Endpoint.sendLoad,loop]
    omega
  | next _ caller start top next packet loop apart fetched =>
    rw [loop] at place
    have topLt : top.toNat < e.queue.s.toNat := by
      rw [place.2,sender.cycle]
      exact Nat.mod_lt _ (by omega)
    obtain ⟨index,computed,_,closer,_⟩ := Queue.labels_step e.queue.s start top (sender.cursor_lt place.1) topLt apart
    have same : next = index := Except.ok.inj ((Queue.resendNext_index fetched).symm.trans computed)
    simp only [Endpoint.sendLoad,loop,same]
    omega
  | nextFails _ caller start top fault loop _ _ =>
    simp only [Endpoint.sendLoad,loop,SendLoop.load]
    omega
  | resent _ caller top loop =>
    simp only [Endpoint.sendLoad,loop,SendLoop.load]
    omega
  | add _ _ _ loop _ | addFails _ _ _ loop _ | transmit _ _ loop | room _ loop _ | full _ loop _ | park _ loop
  | begin _ _ loop _ | readBase _ _ loop | startFails _ _ _ _ loop _ =>
    simp [Endpoint.sendLoad,loop,SendLoop.load]

/-- Away from the selects the send loop goes on by itself. -/
theorem proceeds (sender : Sender n e base) (restless : ¬ e.sendLoop.AtRest) :
    ∃ e' messages, e.sendProceed false = some (e',messages) := by
  refine Endpoint.sendProceed_enabled false (fun select => restless (.inl select)) (fun parked => restless (.inr parked)) ?_
  intro fault crashed
  have place := sender.place
  rw [crashed] at place
  exact place

end Sender

theorem Net.Live.atRest {n : UInt8} {net : Net} (live : net.Live n) (positive : 1 ≤ n.toNat) :
    ∃ final, Recovers net final ∧ final.Live n ∧ ∀ x, (final.ends x).sendLoop.AtRest := by
  refine Leads.descend (Net.Live n) (fun net => ∀ x, (net.ends x).sendLoop.AtRest)
    (fun net => (net.ends .client).sendLoad + (net.ends .server).sendLoad) ?_ net live
  intro net live restless
  obtain ⟨side,restless⟩ := not_forall.mp restless
  obtain ⟨base,held,tags,sound⟩ := live.1
  obtain ⟨e,messages,moved⟩ := (sound.sender side).proceeds restless
  have lighter := (sound.sender side).lighter false e messages (Endpoint.sendProceed_moves false messages moved)
  have stepped : net.step (.send side (.proceed false)) = some (net.update side e messages) := by
    simp [Net.step,Endpoint.sendStep,moved]
  refine ⟨_,.single (.send side (.proceed false)) trivial stepped,net.step_live n positive _ _ live stepped,?_⟩
  rw [Side.sum_eq (fun x => (net.ends x).sendLoad) side,
    Side.sum_eq (fun x => ((net.update side e messages).ends x).sendLoad) side,Net.update_ends,Net.update_ends_other]
  omega

/-- Only the send loop of `x` worked, and it added nothing to its queue. -/
structure Sent (net next : Net) (x : Side) : Prop where
  recovers : Recovers net next
  other : next.ends x.other = net.ends x.other
  receiver : SameReceiver (net.ends x) (next.ends x)
  added : (next.ends x).added = (net.ends x).added

theorem Sent.trans {net next final : Net} {x : Side} (first : Sent net next x) (second : Sent next final x) :
    Sent net final x where
  recovers := first.recovers.trans second.recovers
  other := second.other.trans first.other
  receiver := ⟨second.receiver.s.trans first.receiver.s,second.receiver.recvSeq.trans first.receiver.recvSeq,
    second.receiver.loop.trans first.receiver.loop,second.receiver.accepted.trans first.receiver.accepted,
    second.receiver.handed.trans first.receiver.handed⟩
  added := second.added.trans first.added

namespace Sound

variable {n : UInt8} {net : Net} {base : Side → Nat} {held : Side → List Nat} {tags : Side → List Tag}

theorem send (sound : Sound n net base held tags) (x : Side) (action : SendAction)
    (allowed : Event.Recovery (.send x action)) (e : Endpoint) (messages : List Message) (out : List Tag)
    (moved : (net.ends x).sendStep action = some (e,messages)) (added : e.added = (net.ends x).added)
    (effect : SendEffect n (net.ends x) e (net.ends x.other) (base x) (held x) (tags x.other) (tags x) out messages) :
    Sent net (net.update x e messages) x ∧
      Sound n (net.update x e messages) base held (Function.update tags x.other (tags x.other ++ out)) := by
  have stepped : net.step (.send x action) = some (net.update x e messages) := by simp [Net.step,moved]
  refine ⟨⟨.single _ allowed stepped,net.update_ends_other x e messages,?_,?_⟩,sound.sendEffect x e messages out effect⟩
  · rw [Net.update_ends]
    exact effect.receiver
  · rw [Net.update_ends]
    exact added

theorem sendQuietly (sound : Sound n net base held tags) (positive : 1 ≤ n.toNat) (x : Side) (action : SendAction)
    (allowed : Event.Recovery (.send x action)) (e : Endpoint)
    (moved : (net.ends x).sendStep action = some (e,[])) (added : e.added = (net.ends x).added) :
    Sent net (net.update x e []) x ∧ Sound n (net.update x e []) base held tags := by
  obtain ⟨out,effect⟩ := sendMoves_effect positive (sound.sender x) (sound.direction x) action e []
    (Endpoint.sendStep_moves action [] moved)
  have nothing : out = [] := List.map_eq_nil_iff.mp effect.encoded.symm
  subst nothing
  have sent := sound.send x action allowed e [] [] moved added effect
  rwa [List.append_nil,Function.update_eq_self] at sent

/-- The resend loop sends every position from its index up to the top. -/
theorem windowSent (sound : Sound n net base held tags) (positive : 1 ≤ n.toNat) (x : Side) (caller : Caller)
    (start top : UInt8) (loop : (net.ends x).sendLoop = .resending caller start top) (k : Nat)
    (label : start.toNat = k % (n.toNat + 1)) (below : k ≤ (net.ends x).added.length)
    (near : (net.ends x).added.length ≤ k + n.toNat) :
    ∃ next, Sent net next x ∧ (next.ends x).sendLoop = .waitForSync caller ∧
      Sound n next base held (Function.update tags x.other
        (tags x.other ++ (List.range' k ((net.ends x).added.length - k)).map Tag.data)) := by
  have place := (sound.sender x).place
  rw [loop] at place
  induction left : (net.ends x).added.length - k generalizing net tags start k with
  | zero =>
    have finished : start = top := by
      apply UInt8.toNat_inj.mp
      rw [label,place.2,show k = (net.ends x).added.length by omega]
    have moved : (net.ends x).sendStep (.proceed false) =
        some ({net.ends x with sendLoop := .waitForSync caller},[]) := by
      simp [Endpoint.sendStep,Endpoint.sendProceed,loop,finished]
    obtain ⟨sent,sound⟩ := sound.sendQuietly positive x (.proceed false) trivial _ moved rfl
    refine ⟨_,sent,by rw [Net.update_ends],?_⟩
    simpa using sound
  | succ left ih =>
    obtain ⟨packet,index,moved,after,effect⟩ := resending_effect (sound.sender x) (sound.direction x) caller start top
      loop place.2 k label (by omega) near false
    have stepped : (net.ends x).sendStep (.proceed false) =
        some ({net.ends x with sendLoop := .resending caller index top},[.data packet]) := by
      rw [Endpoint.sendStep]
      exact moved
    obtain ⟨sent,sound⟩ := sound.send x (.proceed false) trivial _ _ _ stepped rfl effect
    have same := sent.added
    have atIndex : ((net.update x {net.ends x with sendLoop := .resending caller index top} [.data packet]).ends x).sendLoop =
        .resending caller index top := by
      rw [Net.update_ends]
    obtain ⟨next,later,waiting,final⟩ := ih sound index atIndex (k + 1) after (by rw [same]; omega) (by rw [same]; omega)
      (by simpa using (sound.sender x).place) (by rw [same]; omega)
    refine ⟨next,sent.trans later,waiting,?_⟩
    simpa [List.range'_succ] using final

/-- A timeout makes a send loop at rest send its whole window again. -/
theorem resent (sound : Sound n net base held tags) (positive : 1 ≤ n.toNat) (x : Side)
    (resting : (net.ends x).sendLoop.AtRest) (unacknowledged : base x < (net.ends x).added.length) :
    ∃ next caller, Sent net next x ∧ (next.ends x).sendLoop = .waitForSync caller ∧
      Sound n next base held (Function.update tags x.other (tags x.other ++
        (List.range' (base x) ((net.ends x).added.length - base x)).map Tag.data)) := by
  have upper := (sound.direction x).inv.top_le
  have size := (sound.sender x).size (Nat.le_of_lt unacknowledged) upper
  have pending : (net.ends x).queue.size ≠ 0 := by
    intro zero
    rw [zero] at size
    have : (0 : UInt8).toNat = 0 := rfl
    omega
  have apart : (net.ends x).queue.sequenceBase ≠ (net.ends x).queue.sequenceTop := by
    intro same
    apply pending
    simp [Queue.size,same]
  obtain ⟨caller,ticked⟩ : ∃ caller, (net.ends x).sendStep .resendTicker =
      some ({net.ends x with sendLoop := .resend caller},[]) := by
    rcases resting with select | parked
    · exact ⟨.outer,by simp [Endpoint.sendStep,select]⟩
    · exact ⟨.full,by simp [Endpoint.sendStep,parked]⟩
  obtain ⟨syncer,started,_⟩ := (net.ends x).queue.resend_starts (sound.sender x).syncer (sound.sender x).cycle_pos
  obtain ⟨sent1,sound1⟩ := sound.sendQuietly positive x .resendTicker trivial _ ticked rfl
  obtain ⟨sent2,sound2⟩ := sound1.sendQuietly positive x (.proceed false) trivial
    {net.ends x with sendLoop := .resendBase caller}
    (by simp [Endpoint.sendStep,Endpoint.sendProceed,pending]) (by rw [Net.update_ends])
  obtain ⟨sent3,sound3⟩ := sound2.sendQuietly positive x (.proceed false) trivial
    {net.ends x with sendLoop := .resendTop caller (net.ends x).queue.sequenceBase}
    (by simp [Endpoint.sendStep,Endpoint.sendProceed]) (by rw [Net.update_ends])
  obtain ⟨sent4,sound4⟩ := sound3.sendQuietly positive x (.proceed false) trivial
    {net.ends x with
      queue := {(net.ends x).queue with syncer := syncer}
      sendLoop := .resending caller (net.ends x).queue.sequenceBase (net.ends x).queue.sequenceTop}
    (by simp [Endpoint.sendStep,Endpoint.sendProceed,apart,started]) (by rw [Net.update_ends])
  obtain ⟨next,sent,waiting,final⟩ := sound4.windowSent positive x caller _ _ (by rw [Net.update_ends]) (base x)
    (sound.sender x).baseLabel (by rw [Net.update_ends]; exact Nat.le_of_lt unacknowledged)
    (by rw [Net.update_ends]; exact upper)
  rw [Net.update_ends] at final
  exact ⟨next,caller,sent1.trans (sent2.trans (sent3.trans (sent4.trans sent))),waiting,final⟩

end Sound

theorem SendLoop.AtRest.calm {loop : SendLoop} (resting : loop.AtRest) : loop.Calm := by
  rcases resting with rfl | rfl <;> trivial

theorem answers_data (positions : List Nat) : (positions.map Tag.data).filterMap Tag.answer = [] := by
  induction positions with
  | nil => rfl
  | cons i positions ih => exact ih

theorem positions_data (positions : List Nat) : (positions.map Tag.data).filterMap Tag.position = positions := by
  induction positions with
  | nil => rfl
  | cons i positions ih => exact congrArg (i :: ·) ih

namespace Settling

variable {n : UInt8} {covered : Side → Prop} {net : Net} {base : Side → Nat} {held : Side → List Nat}
variable {tags : Side → List Tag}

/-- After a resend the direction is recovering; without one there is nothing left to do. -/
theorem cover (settling : Settling n covered net base held tags) (positive : 1 ≤ n.toNat) (x : Side)
    (resting : (net.ends x).sendLoop.AtRest) : ∃ next, Sent net next x ∧ next.Settles n fun y => covered y ∨ y = x := by
  have inv := (settling.sound.direction x).inv
  have lower := inv.base_le
  have reached := inv.next_le
  have apart := x.other_ne
  by_cases unacknowledged : base x < (net.ends x).added.length
  · obtain ⟨next,caller,sent,waiting,sound⟩ := settling.sound.resent positive x resting unacknowledged
    refine ⟨next,sent,base,held,_,sound,?_,?_,?_⟩
    · refine Side.forall_of_both x ?_ ?_
      · rw [sent.receiver.loop]
        exact settling.running x
      · rw [sent.other]
        exact settling.running x.other
    · refine Side.forall_of_both x ?_ ?_
      · rw [waiting]
        trivial
      · rw [sent.other]
        exact settling.calm x.other
    · refine Side.forall_of_both x (fun _ => ?_) (fun inside => ?_)
      · simp only [Net.view,Gbn.view,Function.update_self,List.filterMap_append,positions_data,sent.added,sent.other]
        exact GoBackN.recovering_window _ _ _ _ _ lower unacknowledged
      · have before := settling.recovering x.other (inside.resolve_right apart)
        simpa [Net.view,Gbn.view,apart,apart.symm,answers_data,sent.receiver.accepted,sent.other,Side.other_other,
          -List.filterMap_map] using before
  · refine ⟨net,⟨.refl net,rfl,⟨rfl,rfl,rfl,rfl,rfl⟩,rfl⟩,base,held,tags,settling.sound,settling.running,
      settling.calm,?_⟩
    intro y inside
    rcases inside with before | rfl
    · exact settling.recovering y before
    · exact .inr ⟨show (net.ends y.other).accepted.length = (net.ends y).added.length by omega,
        .inr (show base y = (net.ends y).added.length by omega)⟩

end Settling

/-- The other side has every packet of `x`, and `x` knows it and can take another one. -/
structure Net.CaughtUp (net : Net) (x : Side) : Prop where
  accepted : (net.ends x.other).accepted = (net.ends x).added
  taken : (payloads (net.ends x.other).accepted).map body = (net.ends x).taken.map body
  empty : (net.ends x).queue.size = 0
  ready : (net.ends x).sendLoop = .select
  silent : net.wire x = []

theorem Settling.done {n : UInt8} {covered : Side → Prop} {net : Net} {base : Side → Nat} {held : Side → List Nat}
    {tags : Side → List Tag} (settling : Settling n covered net base held tags) (quiet : net.Quiet) (x : Side)
    (inside : covered x) :
    (net.ends x.other).accepted = (net.ends x).added ∧ (net.ends x).queue.size = 0 := by
  have sound := settling.sound
  have noTags (y : Side) : tags y = [] := by
    have wire := sound.wire y
    rw [(quiet y).1] at wire
    exact List.map_eq_nil_iff.mp wire.symm
  have noHeld : held x = [] := by
    have place := (sound.receiver x).place
    rw [(quiet x).2.1] at place
    exact place
  have recovering := settling.recovering x inside
  simp only [Net.view,Gbn.view,noTags,noHeld,List.filterMap_nil,List.append_nil] at recovering
  obtain ⟨all,known⟩ := recovering.done
  refine ⟨(sound.direction x).accepted.eq_of_length all,UInt8.toNat_inj.mp ?_⟩
  rw [(sound.sender x).size (Nat.le_of_eq known) (by omega),known,Nat.sub_self]
  rfl

/-- A send loop that is parked with an empty queue goes back to its outer select at the next timeout. -/
theorem Net.unpark (net : Net) (x : Side) (resting : (net.ends x).sendLoop.AtRest) (empty : (net.ends x).queue.size = 0)
    (positive : 1 ≤ (net.ends x).n.toNat) :
    Recovers net (net.update x {net.ends x with sendLoop := .select} []) := by
  have room : (net.ends x).queue.size < (net.ends x).n := by
    rw [empty,UInt8.lt_iff_toNat_lt]
    exact positive
  rcases resting with select | parked
  · have same : net.update x {net.ends x with sendLoop := .select} [] = net := by
      rw [← select]
      simp [Net.update]
    rw [same]
    exact .refl net
  · refine .cons (.send x .resendTicker) trivial
      (show _ = some (net.update x {net.ends x with sendLoop := .resend .full} []) by
        simp [Net.step,Endpoint.sendStep,parked]) ?_
    refine .cons (.send x (.proceed false)) trivial
      (show _ = some (net.update x {net.ends x with sendLoop := .check} []) by
        simp [Net.step,Endpoint.sendStep,Endpoint.sendProceed,empty,Caller.back,Net.update_update]) ?_
    exact .single (.send x (.proceed false)) trivial (by
      simp [Net.step,Endpoint.sendStep,Endpoint.sendProceed,room,Net.update_update])

theorem Net.Live.settled {n : UInt8} {net : Net} (live : net.Live n) (positive : 1 ≤ n.toNat) :
    ∃ final, Recovers net final ∧ final.Settles n (fun _ => True) ∧ final.Quiet := by
  obtain ⟨net1,first,live,resting⟩ := live.atRest positive
  obtain ⟨base,held,tags,sound⟩ := live.1
  have idle : net1.Settles n fun _ => False := ⟨base,held,tags,sound,live.2,fun x => (resting x).calm,fun _ => nofun⟩
  obtain ⟨net2,second,⟨_,_,_,settling⟩,quiet⟩ := idle.quiet positive
  obtain ⟨net3,client,⟨_,_,_,settling⟩⟩ := settling.cover positive .client (quiet .client).2.2
  have serverResting : (net3.ends .server).sendLoop.AtRest := by
    rw [show net3.ends .server = net2.ends .server from client.other]
    exact (quiet .server).2.2
  obtain ⟨net4,server,⟨base,held,tags,settling⟩⟩ := settling.cover positive .server serverResting
  have all : net4.Settles n fun _ => True := by
    refine ⟨base,held,tags,settling.sound,settling.running,settling.calm,fun x _ => settling.recovering x ?_⟩
    cases x with
    | client => exact .inl (.inr rfl)
    | server => exact .inr rfl
  obtain ⟨final,third,settles,quiet⟩ := all.quiet positive
  exact ⟨final,first.trans (second.trans (client.recovers.trans (server.recovers.trans third))),settles,quiet⟩

/-- From every reachable state, whatever was lost before, the two sides can go on without
losing anything more until both are caught up. -/
theorem Net.recovery (n : UInt8) (lower : 1 ≤ n.toNat) (upper : n.toNat ≤ 254) (events : List Event) (net : Net)
    (reached : run Net.step (Net.initial n) events = some net) :
    ∃ continuation final, (∀ event ∈ continuation, event.Recovery) ∧ run Net.step net continuation = some final ∧
      ∀ x, final.CaughtUp x ∧ (final.ends x).taken = (net.ends x).taken := by
  obtain ⟨net1,first,⟨base,held,tags,settling⟩,quiet⟩ := (Net.run_live n lower upper events net reached).settled lower
  have done (x : Side) := settling.done quiet x trivial
  have size (x : Side) : 1 ≤ (net1.ends x).n.toNat := (settling.sound.sender x).window ▸ lower
  let net2 := net1.update .client {net1.ends .client with sendLoop := .select} []
  let final := net2.update .server {net1.ends .server with sendLoop := .select} []
  have second : Recovers net1 net2 := net1.unpark .client (quiet .client).2.2 (done .client).2 (size .client)
  have third : Recovers net2 final := net2.unpark .server (quiet .server).2.2 (done .server).2 (size .server)
  have recovers := first.trans (second.trans third)
  obtain ⟨continuation,allowed,ran⟩ := recovers
  have ends (x : Side) : final.ends x = {net1.ends x with sendLoop := .select} := by cases x <;> rfl
  have wire (x : Side) : final.wire x = [] := by
    have silent := (quiet x).1
    cases x <;> simpa [final,net2,Net.update] using silent
  refine ⟨continuation,final,allowed,ran,fun x => ⟨⟨?_,?_,?_,?_,wire x⟩,
    Recovers.taken ⟨continuation,allowed,ran⟩ x⟩⟩
  · rw [ends,ends]
    exact (done x).1
  · have history := (settling.sound.sender x).taken
    have none : (net1.ends x).sendLoop.pending = [] := by
      rcases (quiet x).2.2 with select | parked
      · rw [select]; rfl
      · rw [parked]; rfl
    rw [none,List.append_nil,← (done x).1] at history
    rw [ends,ends]
    exact history.symm
  · rw [ends]
    exact (done x).2
  · rw [ends]

theorem Net.recovery_lossy :
    ∃ net, run Net.step (Net.initial 2) (lossyEvents.take 10) = some net ∧ (net.ends .server).accepted = [] ∧
      ∃ continuation final, (∀ event ∈ continuation, event.Recovery) ∧ run Net.step net continuation = some final ∧
        final.CaughtUp .client ∧ (final.ends .client).taken.map body = [([7],true),([8],false)] := by
  have result : (run Net.step (Net.initial 2) (lossyEvents.take 10)).map
      (fun net => ((net.ends .server).accepted,(net.ends .client).taken.map body)) =
      some ([],[([7],true),([8],false)]) := by decide
  obtain ⟨net,reached,histories⟩ := Option.map_eq_some_iff.mp result
  obtain ⟨accepted,taken⟩ := Prod.mk.inj histories
  obtain ⟨continuation,final,allowed,ran,caughtUp⟩ := Net.recovery 2 (by decide) (by decide) _ net reached
  exact ⟨net,reached,accepted,continuation,final,allowed,ran,(caughtUp .client).1,
    by rw [(caughtUp .client).2]; exact taken⟩

end NodeConnect.Gbn
