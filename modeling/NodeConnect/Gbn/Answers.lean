import NodeConnect.Gbn.Positions

/-! The receive loop in positions: which packet a label accepts, and which packets
an ACK or a NACK releases. A label taken from the stream is at most one window away
from the fields it is compared with, so each comparison has exactly one meaning. -/
namespace NodeConnect.Gbn
open Lib

section Released

variable {n : UInt8} {e : Endpoint} {base : Nat}

theorem processACKLocked_position (sender : Sender n e base) (positive : 1 ≤ n.toNat) (k : Nat) (seq : UInt8)
    (label : seq.toNat = k % (n.toNat + 1)) (lower : base ≤ k + 1) (upper : k + 1 ≤ e.added.length)
    (limit : e.added.length ≤ base + n.toNat) :
    ∃ answer queue, e.queue.processACKLocked seq = .ok (answer,queue) ∧
      Sender n {e with queue := queue} (k + 1) := by
  have cycle := sender.cycle
  have seqLt : seq.toNat < e.queue.s.toNat := by
    rw [label,cycle]
    exact Nat.mod_lt _ (by omega)
  have advance (target : UInt8) (value : target.toNat = (k + 1) % (n.toNat + 1)) :
      Sender n {e with queue := {e.queue with sequenceBase := target, syncer := e.queue.syncer.processACK seq}} (k + 1) :=
    sender.advance (k + 1) lower _ rfl rfl rfl ((Queue.processACK_syncer _ _).trans sender.syncer) value
  obtain ⟨next,computed,value⟩ := modulo_succ seq e.queue.s seqLt
  have nextValue : next.toNat = (k + 1) % (n.toNat + 1) := by
    rw [value,cycle,label]
    simp
  by_cases expected : seq = e.queue.sequenceBase
  · rw [expected] at computed
    refine ⟨true,_,?_,advance next nextValue⟩
    simp [Queue.processACKLocked,expected,computed,bind,Except.bind,pure,Except.pure]
  · by_cases inside : base ≤ k
    · have found : containsSequence e.queue.sequenceBase e.queue.sequenceTop seq = true := by
        rw [containsSequence_iff _ _ _ _ sender.base_lt sender.top_lt seqLt,cycle,sender.baseLabel,
          sender.topLabel,label,ahead_mod _ _ _ inside (by omega),ahead_mod _ _ _ (by omega) (by omega)]
        omega
      refine ⟨true,_,?_,advance next nextValue⟩
      simp [Queue.processACKLocked,expected,found,computed,bind,Except.bind,pure,Except.pure]
    · -- A stale ACK is for the packet right before the base, one label short of a full cycle.
      have stale : base = k + 1 := by omega
      have missing : ¬ containsSequence e.queue.sequenceBase e.queue.sequenceTop seq = true := by
        have wrap : k % (n.toNat + 1) = (base + n.toNat) % (n.toNat + 1) := by
          rw [stale,show k + 1 + n.toNat = k + (n.toNat + 1) by omega,Nat.add_mod_right]
        rw [containsSequence_iff _ _ _ _ sender.base_lt sender.top_lt seqLt,cycle,sender.baseLabel,
          sender.topLabel,label,wrap,ahead_mod _ _ _ (by omega) (by omega),ahead_mod _ _ _ (by omega) (by omega)]
        omega
      refine ⟨false,{e.queue with syncer := e.queue.syncer.processACK seq},?_,
        advance e.queue.sequenceBase (by rw [sender.baseLabel,stale])⟩
      simp [Queue.processACKLocked,expected,missing,pure,Except.pure]

theorem processNACK_position (sender : Sender n e base) (a : Nat) (seq : UInt8)
    (label : seq.toNat = a % (n.toNat + 1)) (lower : base ≤ a) (upper : a ≤ e.added.length)
    (limit : e.added.length ≤ base + n.toNat) :
    Sender n {e with queue := (e.queue.processNACK seq).2} a := by
  have cycle := sender.cycle
  have seqLt : seq.toNat < e.queue.s.toNat := by
    rw [label,cycle]
    exact Nat.mod_lt _ (by omega)
  have advance (target : UInt8) (value : target.toNat = a % (n.toNat + 1)) :
      Sender n {e with queue := {e.queue with sequenceBase := target, syncer := e.queue.syncer.processNACK seq}} a :=
    sender.advance a lower _ rfl rfl rfl ((Queue.processNACK_syncer _ _).trans sender.syncer) value
  by_cases last : seq = e.queue.sequenceTop
  · have moved := advance e.queue.sequenceTop (by rw [← last,label])
    simpa [Queue.processNACK,last] using moved
  · have inside : a < e.added.length := by
      refine Nat.lt_of_le_of_ne upper fun same => last (UInt8.toNat_inj.mp ?_)
      rw [label,sender.topLabel,same]
    have found : containsSequence e.queue.sequenceBase e.queue.sequenceTop seq = true := by
      rw [containsSequence_iff _ _ _ _ sender.base_lt sender.top_lt seqLt,cycle,sender.baseLabel,
        sender.topLabel,label,ahead_mod _ _ _ lower (by omega),ahead_mod _ _ _ (by omega) (by omega)]
      omega
    have moved := advance seq label
    simpa [Queue.processNACK,last,found] using moved

end Released

/-- What a step of the receive loop does, in positions. `incoming` still holds the
message it works on, `out` is what it sends. -/
structure ReceiveEffect (n : UInt8) (e e' peer : Endpoint) (peerBase : Nat) (peerHeld : List Nat)
    (outgoing incoming out : List Tag) (messages : List Message) (base : Nat) (held : List Nat) : Prop where
  encoded : messages.map serialize = out.map (encode (n.toNat + 1) e'.added)
  noData : out.filterMap Tag.position = []
  added : e'.added = e.added
  sender : Sender n e' base
  receiver : Receiver n e' held
  own : Direction n.toNat e' peer base held outgoing incoming
  opposite : Direction n.toNat peer e' peerBase peerHeld incoming (outgoing ++ out)

/-- Both directions made a move; `incoming'` is what is left on the stream. -/
structure Moves (e e' peer : Endpoint) (base peerBase : Nat) (held peerHeld : List Nat) (outgoing incoming : List Tag)
    (incoming' out : List Tag) (base' : Nat) (held' : List Nat) : Prop where
  own : GoBackN.Move (view e peer base held outgoing incoming) (view e' peer base' held' (outgoing ++ out) incoming')
  opposite : GoBackN.Move (view peer e peerBase peerHeld incoming outgoing)
    (view peer e' peerBase peerHeld incoming' (outgoing ++ out))

theorem view_forward (snd rcv : Endpoint) (base : Nat) (held : List Nat) (forward backward : List Tag) {tag : Tag}
    (silent : tag.position = none) :
    view snd rcv base held (forward ++ [tag]) backward = view snd rcv base held forward backward := by
  unfold view
  rw [List.filterMap_append,List.filterMap_cons_none silent,List.filterMap_nil,List.append_nil]

theorem view_backward (snd rcv : Endpoint) (base : Nat) (held : List Nat) (forward backward : List Tag) {tag : Tag}
    {a : Nat} (answers : tag.answer = some a) :
    view snd rcv base held forward (backward ++ [tag]) = ⟨base,rcv.accepted.length,snd.added.length,
      forward.filterMap Tag.position,(held ++ backward.filterMap Tag.answer) ++ [a]⟩ := by
  unfold view
  rw [List.filterMap_append,List.filterMap_cons_some answers,List.filterMap_nil,List.append_assoc]

section ReceiveSteps

variable {n : UInt8} {e peer : Endpoint} {base peerBase : Nat} {held peerHeld : List Nat}
variable {outgoing incoming : List Tag}

private theorem idle_receiver (receiver : Receiver n e held) (ready : e.receiveLoop = .ready)
    (loop : ReceiveLoop) (next : List Nat) (place : loop.Place (n.toNat + 1) e.accepted next)
    (pending : loop.pending = []) (steady : ∀ packet, loop ≠ .acknowledged packet) :
    Receiver n {e with receiveLoop := loop} next := by
  have count : counted {e with receiveLoop := loop} = counted e := by
    have before : counted e = e.accepted.length := by simp [counted,ready]
    rw [before]
    cases loop with
    | acknowledged packet => exact absurd rfl (steady packet)
    | _ => rfl
  refine ⟨receiver.cycle,?_,place,?_⟩
  · rw [count]
    exact receiver.label
  · have history := receiver.handed
    rw [ready] at history
    change payloads e.accepted = e.handed ++ loop.pending
    rw [pending]
    exact history

private theorem ready_held (receiver : Receiver n e held) (ready : e.receiveLoop = .ready) : held = [] := by
  have place := receiver.place
  rw [ready] at place
  exact place

private theorem accept_data (positive : 1 ≤ n.toNat) (sender : Sender n e base) (receiver : Receiver n e held)
    (ready : e.receiveLoop = .ready) (packet : PacketData) (rest : List Tag)
    (found : peer.added[e.accepted.length]? = some packet)
    (own : Direction n.toNat e peer base held outgoing (.data e.accepted.length :: rest))
    (opposite : Direction n.toNat peer e peerBase peerHeld (.data e.accepted.length :: rest) outgoing) :
    ReceiveEffect n e {e with receiveLoop := .acknowledged packet, accepted := e.accepted ++ [packet]} peer
      peerBase peerHeld outgoing (.data e.accepted.length :: rest) [.ack e.accepted.length] [.ack e.recvSeq]
      base held := by
  obtain ⟨used,rfl⟩ := List.getElem?_eq_some_iff.mp found
  have expected : e.recvSeq.toNat = e.accepted.length % (n.toNat + 1) := by rw [receiver.label,counted,ready]
  refine ⟨?_,rfl,rfl,sender.frame _ rfl rfl rfl rfl rfl,?_,own.congr _ _ rfl rfl,?_,?_⟩
  · simp only [List.map_cons,List.map_nil,encode]
    rw [show e.recvSeq = UInt8.ofNat (e.accepted.length % (n.toNat + 1)) from UInt8.toNat_inj.mp (by
      rw [toNat_ofNat_mod,expected])]
  · refine ⟨receiver.cycle,by simpa [counted] using expected,⟨⟨e.accepted,rfl⟩,ready_held receiver ready⟩,?_⟩
    have history := receiver.handed
    rw [ready] at history
    change payloads (e.accepted ++ [peer.added[e.accepted.length]]) =
      e.handed ++ payloads [peer.added[e.accepted.length]]
    rw [payloads_append,history]
    simp [ReceiveLoop.pending]
  · have before : e.accepted = peer.added.take e.accepted.length := List.prefix_iff_eq_take.mp opposite.accepted
    have extended : e.accepted ++ [peer.added[e.accepted.length]] = peer.added.take (e.accepted.length + 1) := by
      rw [List.take_succ_eq_append_getElem used,← before]
    change e.accepted ++ [peer.added[e.accepted.length]] <+: peer.added
    rw [extended]
    exact List.take_prefix _ _
  · change GoBackN.Inv n.toNat peerBase (e.accepted ++ [peer.added[e.accepted.length]]).length peer.added.length
      (e.accepted.length :: rest.filterMap Tag.position)
      (peerHeld ++ (outgoing ++ [Tag.ack e.accepted.length]).filterMap Tag.answer)
    rw [List.filterMap_append,← List.append_assoc,List.length_append]
    exact GoBackN.Inv.accept opposite.inv positive

private theorem refuse_data (sender : Sender n e base) (receiver : Receiver n e held)
    (ready : e.receiveLoop = .ready) (own : Direction n.toNat e peer base held outgoing incoming)
    (opposite : Direction n.toNat peer e peerBase peerHeld incoming outgoing) (e' : Endpoint)
    (asked : e' = {e with lastNackSeq := e.recvSeq}) :
    ReceiveEffect n e e' peer peerBase peerHeld outgoing incoming [.nack e.accepted.length] [.nack e.recvSeq]
      base held := by
  subst asked
  have expected : e.recvSeq.toNat = e.accepted.length % (n.toNat + 1) := by rw [receiver.label,counted,ready]
  refine ⟨?_,rfl,rfl,sender.frame _ rfl rfl rfl rfl rfl,receiver.frame _ ⟨rfl,rfl,rfl,rfl,rfl⟩,
    own.congr _ _ rfl rfl,opposite.accepted,?_⟩
  · simp only [List.map_cons,List.map_nil,encode]
    rw [show e.recvSeq = UInt8.ofNat (e.accepted.length % (n.toNat + 1)) from UInt8.toNat_inj.mp (by
      rw [toNat_ofNat_mod,expected])]
  · rw [List.filterMap_append,← List.append_assoc]
    exact opposite.inv.answer

private theorem deliver_data (positive : 1 ≤ n.toNat) (sender : Sender n e base) (receiver : Receiver n e held)
    (ready : e.receiveLoop = .ready) (peerSender : Sender n peer peerBase) (i : Nat) (rest : List Tag)
    (own : Direction n.toNat e peer base held outgoing (.data i :: rest))
    (opposite : Direction n.toNat peer e peerBase peerHeld (.data i :: rest) outgoing) (recent : Bool) :
    ∃ out, ReceiveEffect n e (e.deliver (encode (n.toNat + 1) peer.added (.data i)) recent).1 peer peerBase peerHeld
      outgoing (.data i :: rest) out (e.deliver (encode (n.toNat + 1) peer.added (.data i)) recent).2 base held ∧
      (recent = false → Moves e (e.deliver (encode (n.toNat + 1) peer.added (.data i)) recent).1 peer base peerBase
        held peerHeld outgoing (.data i :: rest) rest out base held) := by
  have inv : GoBackN.Inv n.toNat peerBase e.accepted.length peer.added.length
    (i :: rest.filterMap Tag.position) (peerHeld ++ outgoing.filterMap Tag.answer) := opposite.inv
  obtain ⟨packet,found⟩ : ∃ packet, peer.added[i]? = some packet :=
    ⟨_,List.getElem?_eq_getElem (inv.data_lt i (by simp))⟩
  have parsed : deserialize (encode (n.toNat + 1) peer.added (.data i)) = .ok (.data packet) := by
    simp only [encode,List.getD_eq_getElem?_getD,found,Option.getD_some]
    exact deserialize_serialize _
  have expected : (i % (n.toNat + 1) = e.accepted.length % (n.toNat + 1)) ↔ packet.seq = e.recvSeq := by
    rw [← peerSender.labelled i _ found,← UInt8.toNat_inj,receiver.label,counted,ready]
  by_cases next : packet.seq = e.recvSeq
  · -- Positions in flight are less than a cycle apart, so the expected label is the expected position.
    have position : i = e.accepted.length := by
      apply inv.position_eq i (by simp)
      exact expected.mpr next
    subst position
    refine ⟨[.ack e.accepted.length],?_⟩
    simp only [Endpoint.deliver,parsed,next,if_true]
    refine ⟨accept_data positive sender receiver ready packet rest found own opposite,fun _ => ⟨?_,?_⟩⟩
    · rw [view_forward _ _ _ _ _ _ rfl]
      exact .stay _
    · rw [view_backward _ _ _ _ _ _ rfl,List.length_append,List.length_singleton]
      exact .answer _ _ _ _ _ _ _ (by rw [if_pos rfl])
  · have other : i ≠ e.accepted.length := fun same => next (expected.mp (by rw [same]))
    by_cases quiet : e.lastNackSeq = e.recvSeq ∧ recent = true
    · refine ⟨[],?_⟩
      simp only [Endpoint.deliver,parsed,next,if_false,if_pos quiet]
      refine ⟨⟨rfl,rfl,rfl,sender,receiver,own,by rwa [List.append_nil]⟩,fun slow => ?_⟩
      exact absurd (slow.symm.trans quiet.2) Bool.false_ne_true
    · refine ⟨[.nack e.accepted.length],?_⟩
      simp only [Endpoint.deliver,parsed,next,if_false,if_neg quiet]
      refine ⟨refuse_data sender receiver ready own opposite _ rfl,fun _ => ⟨?_,?_⟩⟩
      · rw [view_forward _ _ _ _ _ _ rfl]
        exact .stay _
      · rw [view_backward _ _ _ _ _ _ rfl]
        exact .answer _ _ _ _ _ _ _ (by rw [if_neg other])

private theorem deliver_ack (sender : Sender n e base) (receiver : Receiver n e held)
    (ready : e.receiveLoop = .ready) (k : Nat) (rest : List Tag)
    (own : Direction n.toNat e peer base held outgoing (.ack k :: rest))
    (opposite : Direction n.toNat peer e peerBase peerHeld (.ack k :: rest) outgoing) (recent : Bool) :
    ∃ held', ReceiveEffect n e (e.deliver (encode (n.toNat + 1) peer.added (.ack k)) recent).1 peer peerBase peerHeld
      outgoing (.ack k :: rest) [] (e.deliver (encode (n.toNat + 1) peer.added (.ack k)) recent).2 base held' ∧
      Moves e (e.deliver (encode (n.toNat + 1) peer.added (.ack k)) recent).1 peer base peerBase
        held peerHeld outgoing (.ack k :: rest) rest [] base held' := by
  have parsed : deserialize (encode (n.toNat + 1) peer.added (.ack k)) =
      .ok (.ack (UInt8.ofNat (k % (n.toNat + 1)))) := deserialize_serialize (.ack _)
  obtain rfl := ready_held receiver ready
  by_cases empty : e.queue.size = 0
  · refine ⟨[],?_⟩
    simp only [Endpoint.deliver,parsed,if_pos empty]
    refine ⟨⟨rfl,rfl,rfl,sender,receiver,own,by rwa [List.append_nil]⟩,?_,by rw [List.append_nil]; exact .stay _⟩
    -- The window is empty, so the answer names its base.
    have bound := own.inv.acks_bound (k + 1) (by simp [Tag.answer])
    have reached := own.inv.next_le
    have size := sender.size (Nat.le_trans own.inv.base_le own.inv.next_le) own.inv.top_le
    rw [empty] at size
    have answer : base = k + 1 := by
      have zero : (0 : UInt8).toNat = 0 := rfl
      omega
    rw [List.append_nil]
    nth_rewrite 2 [answer]
    exact .acknowledge _ _ _ _ _ _
  · refine ⟨[k + 1],?_⟩
    simp only [Endpoint.deliver,parsed,if_neg empty]
    refine ⟨⟨rfl,rfl,rfl,sender.frame _ rfl rfl rfl rfl rfl,?_,?_,?_⟩,?_,by rw [List.append_nil]; exact .stay _⟩
    · exact idle_receiver receiver ready _ _ ⟨k,rfl,toNat_ofNat_mod n k⟩ rfl (fun _ => by simp)
    · refine ⟨own.accepted,?_⟩
      have inv : GoBackN.Inv n.toNat base peer.accepted.length e.added.length
        (outgoing.filterMap Tag.position) ((k + 1) :: rest.filterMap Tag.answer) := own.inv
      exact inv.repeated
    · rw [List.append_nil]
      exact opposite.congr _ _ rfl rfl
    · rw [List.append_nil]
      exact .stay _

private theorem deliver_nack (sender : Sender n e base) (receiver : Receiver n e held)
    (ready : e.receiveLoop = .ready) (a : Nat) (rest : List Tag)
    (own : Direction n.toNat e peer base held outgoing (.nack a :: rest))
    (opposite : Direction n.toNat peer e peerBase peerHeld (.nack a :: rest) outgoing) (recent : Bool) :
    ReceiveEffect n e (e.deliver (encode (n.toNat + 1) peer.added (.nack a)) recent).1 peer peerBase peerHeld
      outgoing (.nack a :: rest) [] (e.deliver (encode (n.toNat + 1) peer.added (.nack a)) recent).2 a held ∧
      Moves e (e.deliver (encode (n.toNat + 1) peer.added (.nack a)) recent).1 peer base peerBase
        held peerHeld outgoing (.nack a :: rest) rest [] a held := by
  have parsed : deserialize (encode (n.toNat + 1) peer.added (.nack a)) =
      .ok (.nack (UInt8.ofNat (a % (n.toNat + 1)))) := deserialize_serialize (.nack _)
  obtain rfl := ready_held receiver ready
  have inv : GoBackN.Inv n.toNat base peer.accepted.length e.added.length
    (outgoing.filterMap Tag.position) (a :: rest.filterMap Tag.answer) := own.inv
  have bound := inv.acks_bound a (by simp)
  let seq := UInt8.ofNat (a % (n.toNat + 1))
  have released := processNACK_position sender a seq (toNat_ofNat_mod n a) bound.1
    (Nat.le_trans bound.2 inv.next_le) inv.top_le
  let freed : Endpoint := {e with queue := (e.queue.processNACK seq).2}
  have moved (loop : ReceiveLoop) (at_ : loop.Place (n.toNat + 1) e.accepted []) (pending : loop.pending = [])
      (steady : ∀ packet, loop ≠ .acknowledged packet) :
      ReceiveEffect n e {freed with receiveLoop := loop} peer peerBase peerHeld outgoing (.nack a :: rest) [] [] a [] ∧
      Moves e {freed with receiveLoop := loop} peer base peerBase [] peerHeld outgoing (.nack a :: rest) rest [] a [] := by
    refine ⟨⟨rfl,rfl,rfl,released.frame _ rfl rfl rfl rfl rfl,?_,⟨own.accepted,inv.acknowledge⟩,?_⟩,
      by rw [List.append_nil]; exact .acknowledge _ _ _ _ _ _,by rw [List.append_nil]; exact .stay _⟩
    · exact (idle_receiver receiver ready loop [] at_ pending steady).frame _ ⟨rfl,rfl,rfl,rfl,rfl⟩
    · rw [List.append_nil]
      exact opposite.congr _ _ rfl rfl
  have result : e.deliver (encode (n.toNat + 1) peer.added (.nack a)) recent =
      if ¬ (e.queue.processNACK seq).1.1 then (freed,[])
      else if (e.queue.processNACK seq).1.2 then ({freed with receiveLoop := .signalACK true},[])
      else ({freed with receiveLoop := .signalResend},[]) := by
    simp only [Endpoint.deliver,parsed]
    rfl
  rw [result]
  split_ifs with resend bumped
  · exact moved (.signalACK true) rfl rfl (fun _ => by simp)
  · exact moved .signalResend rfl rfl (fun _ => by simp)
  · have idle := moved .ready rfl rfl (fun _ => by simp)
    have same : {freed with receiveLoop := .ready} = freed := by simp [freed,ready]
    rwa [same] at idle

/-- A message that arrives is understood as what it stands for. -/
theorem deliver_effect (positive : 1 ≤ n.toNat) (sender : Sender n e base) (receiver : Receiver n e held)
    (ready : e.receiveLoop = .ready) (peerSender : Sender n peer peerBase) (tag : Tag) (rest : List Tag)
    (own : Direction n.toNat e peer base held outgoing (tag :: rest))
    (opposite : Direction n.toNat peer e peerBase peerHeld (tag :: rest) outgoing) (recent : Bool) :
    ∃ out base' held', ReceiveEffect n e (e.deliver (encode (n.toNat + 1) peer.added tag) recent).1 peer
      peerBase peerHeld outgoing (tag :: rest) out
      (e.deliver (encode (n.toNat + 1) peer.added tag) recent).2 base' held' ∧
      (recent = false → Moves e (e.deliver (encode (n.toNat + 1) peer.added tag) recent).1 peer base peerBase
        held peerHeld outgoing (tag :: rest) rest out base' held') := by
  cases tag with
  | data i =>
    obtain ⟨out,effect⟩ := deliver_data positive sender receiver ready peerSender i rest own opposite recent
    exact ⟨out,base,held,effect⟩
  | ack k =>
    obtain ⟨held',effect,moves⟩ := deliver_ack sender receiver ready k rest own opposite recent
    exact ⟨[],base,held',effect,fun _ => moves⟩
  | nack a =>
    obtain ⟨effect,moves⟩ := deliver_nack sender receiver ready a rest own opposite recent
    exact ⟨[],a,held,effect,fun _ => moves⟩

private theorem still_moves (e' : Endpoint) (added : e'.added = e.added) (accepted : e'.accepted = e.accepted) :
    Moves e e' peer base peerBase held peerHeld outgoing incoming incoming [] base held := by
  refine ⟨?_,?_⟩
  · rw [List.append_nil,view,view,added]
    exact .stay _
  · rw [List.append_nil,view,view,accepted]
    exact .stay _

private theorem recvSeq_bumped (receiver : Receiver n e held) (packet : PacketData)
    (loop : e.receiveLoop = .acknowledged packet) :
    ∃ recvSeq : UInt8, modulo (e.recvSeq + 1) e.s = .ok recvSeq ∧
      recvSeq.toNat = e.accepted.length % (n.toNat + 1) := by
  have place := receiver.place
  rw [loop] at place
  obtain ⟨⟨earlier,split⟩,_⟩ := place
  have before : counted e = earlier.length := by simp [counted,loop,split]
  obtain ⟨recvSeq,computed,value⟩ := modulo_succ e.recvSeq e.s (by
    rw [receiver.label,receiver.cycle]
    exact Nat.mod_lt _ (by omega))
  refine ⟨recvSeq,computed,?_⟩
  rw [value,receiver.label,before,receiver.cycle,split]
  simp

private theorem acknowledged_effect (sender : Sender n e base) (receiver : Receiver n e held)
    (own : Direction n.toNat e peer base held outgoing incoming)
    (opposite : Direction n.toNat peer e peerBase peerHeld incoming (outgoing ++ []))
    (packet : PacketData) (loop : e.receiveLoop = .acknowledged packet) (recvSeq : UInt8)
    (bumped : recvSeq.toNat = e.accepted.length % (n.toNat + 1)) :
    ReceiveEffect n e {e with recvSeq := recvSeq, receiveLoop := if packet.isPing then .ready else .handing packet}
      peer peerBase peerHeld outgoing incoming [] [] base held := by
  have place := receiver.place
  have history := receiver.handed
  rw [loop] at place history
  refine ⟨rfl,rfl,rfl,sender.frame _ rfl rfl rfl rfl rfl,?_,own.congr _ _ rfl rfl,opposite.congr _ _ rfl rfl⟩
  -- The application never sees a ping.
  cases ping : packet.isPing with
  | true =>
    refine ⟨receiver.cycle,bumped,place.2,?_⟩
    simpa [ReceiveLoop.pending,payloads,ping] using history
  | false =>
    refine ⟨receiver.cycle,bumped,⟨ping,place.2⟩,?_⟩
    simpa [ReceiveLoop.pending,payloads,ping] using history

private theorem sized_effect (positive : 1 ≤ n.toNat) (sender : Sender n e base) (receiver : Receiver n e held)
    (own : Direction n.toNat e peer base held outgoing incoming)
    (opposite : Direction n.toNat peer e peerBase peerHeld incoming (outgoing ++ []))
    (seq : UInt8) (loop : e.receiveLoop = .sized seq) :
    ∃ gotValidACK queue, e.queue.processACKLocked seq = .ok (gotValidACK,queue) ∧
      let e' := {e with queue := queue, receiveLoop := if gotValidACK then .signalACK false else .ready}
      ∃ base', ReceiveEffect n e e' peer peerBase peerHeld outgoing incoming [] [] base' [] ∧
        Moves e e' peer base peerBase held peerHeld outgoing incoming incoming [] base' [] := by
  have place := receiver.place
  have history := receiver.handed
  rw [loop] at place history
  obtain ⟨k,rfl,seqLabel⟩ := place
  have inv : GoBackN.Inv n.toNat base peer.accepted.length e.added.length
    (outgoing.filterMap Tag.position) ((k + 1) :: incoming.filterMap Tag.answer) := own.inv
  have bound := inv.acks_bound (k + 1) (by simp)
  obtain ⟨answer,queue,processed,released⟩ := processACKLocked_position sender positive k seq seqLabel
    bound.1 (Nat.le_trans bound.2 inv.next_le) inv.top_le
  refine ⟨answer,queue,processed,k + 1,⟨rfl,rfl,rfl,released.frame _ rfl rfl rfl rfl rfl,?_,⟨own.accepted,?_⟩,
    opposite.congr _ _ rfl rfl⟩,by rw [List.append_nil]; exact .acknowledge _ _ _ _ _ _,
    by rw [List.append_nil]; exact .stay _⟩
  · have count : counted e = e.accepted.length := by simp [counted,loop]
    refine ⟨receiver.cycle,?_,?_,?_⟩
    · rw [receiver.label,count]
      cases answer <;> rfl
    · cases answer <;> rfl
    · cases answer <;> exact history
  · exact inv.acknowledge.lose (List.Sublist.refl _) (List.sublist_cons_self _ _)

private theorem signalled_effect (receiver : Receiver n e held)
    (own : Direction n.toNat e peer base held outgoing incoming)
    (opposite : Direction n.toNat peer e peerBase peerHeld incoming (outgoing ++ [])) (thenResend : Bool)
    (loop : e.receiveLoop = .signalACK thenResend) (woken : Endpoint) (sent : Sender n woken base)
    (same : SameReceiver e woken) (added : woken.added = e.added) :
    ReceiveEffect n e {woken with receiveLoop := if thenResend then .signalResend else .ready}
      peer peerBase peerHeld outgoing incoming [] [] base held := by
  have place := receiver.place
  rw [loop] at place
  refine ⟨rfl,rfl,added,sent.frame _ rfl rfl rfl rfl rfl,?_,own.congr _ _ added rfl,
    opposite.congr _ _ rfl same.accepted⟩
  have kept := receiver.frame woken same
  have history : payloads woken.accepted = woken.handed := by
    simpa [same.loop,loop,ReceiveLoop.pending] using kept.handed
  refine ⟨kept.cycle,?_,?_,?_⟩
  · rw [kept.label,counted,same.loop,loop]
    cases thenResend <;> rfl
  · cases thenResend <;> exact place
  · rw [history]
    cases thenResend <;> simp [ReceiveLoop.pending]

theorem receiveMoves_effect (positive : 1 ≤ n.toNat) (sender : Sender n e base) (receiver : Receiver n e held)
    (own : Direction n.toNat e peer base held outgoing incoming)
    (opposite : Direction n.toNat peer e peerBase peerHeld incoming outgoing) (e' : Endpoint)
    (moves : e.ReceiveMoves e') :
    ∃ base' held', ReceiveEffect n e e' peer peerBase peerHeld outgoing incoming [] [] base' held' ∧
      Moves e e' peer base peerBase held peerHeld outgoing incoming incoming [] base' held' := by
  have place := receiver.place
  have label := receiver.label
  have history := receiver.handed
  have onward : Direction n.toNat peer e peerBase peerHeld incoming (outgoing ++ []) := by rwa [List.append_nil]
  cases moves with
  | bump packet recvSeq loop computed =>
    obtain ⟨_,fits,bumped⟩ := recvSeq_bumped receiver packet loop
    cases fits.symm.trans computed
    exact ⟨base,held,acknowledged_effect sender receiver own onward packet loop recvSeq bumped,still_moves _ rfl rfl⟩
  | bumpFails packet fault loop failed =>
    obtain ⟨_,fits,_⟩ := recvSeq_bumped receiver packet loop
    cases fits.symm.trans failed
  | hand packet loop room =>
    rw [loop] at place history
    refine ⟨base,held,⟨rfl,rfl,rfl,sender.frame _ rfl rfl rfl rfl rfl,?_,own.congr _ _ rfl rfl,
      onward.congr _ _ rfl rfl⟩,still_moves _ rfl rfl⟩
    refine ⟨receiver.cycle,?_,place.2,?_⟩
    · rw [label,counted,counted,loop]
    · simpa [ReceiveLoop.pending] using history
  | acknowledge seq gotValidACK queue loop processed =>
    obtain ⟨_,_,fits,base',effect,moves⟩ := sized_effect positive sender receiver own onward seq loop
    cases fits.symm.trans processed
    exact ⟨base',[],effect,moves⟩
  | acknowledgeFails seq fault loop failed =>
    obtain ⟨_,_,fits,_⟩ := sized_effect positive sender receiver own onward seq loop
    cases fits.symm.trans failed
  | wake thenResend loop parked =>
    -- The woken send loop only goes back to its size check.
    have woken := sender.relocate .check (fun may => may.elim) trivial (by rw [parked]; rfl)
    exact ⟨base,held,signalled_effect receiver own onward thenResend loop _ woken ⟨rfl,rfl,rfl,rfl,rfl⟩ rfl,
      still_moves _ rfl rfl⟩
  | unheard thenResend loop busy =>
    exact ⟨base,held,signalled_effect receiver own onward thenResend loop e sender ⟨rfl,rfl,rfl,rfl,rfl⟩ rfl,
      still_moves _ rfl rfl⟩
  | askResend loop =>
    rw [loop] at place history
    refine ⟨base,held,⟨rfl,rfl,rfl,sender.frame _ rfl rfl rfl rfl rfl,?_,own.congr _ _ rfl rfl,
      onward.congr _ _ rfl rfl⟩,still_moves _ rfl rfl⟩
    refine ⟨receiver.cycle,?_,place,history⟩
    rw [label,counted,counted,loop]

end ReceiveSteps

end NodeConnect.Gbn
