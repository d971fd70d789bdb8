import NodeConnect.Gbn.Answers

/-! The two directions together, over whole runs. Every message in flight has a
tag, every label a position, and each direction satisfies the window protocol's
invariant; the steps of the two endpoints and of the channels keep all of it. -/
namespace NodeConnect.Gbn
open Lib

theorem Direction.lose {n base : Nat} {snd rcv : Endpoint} {held : List Nat} {forward backward : List Tag}
    (direction : Direction n snd rcv base held forward backward) (forward' backward' : List Tag)
    (fewer : forward'.Sublist forward) (fewerBack : backward'.Sublist backward) :
    Direction n snd rcv base held forward' backward' := by
  refine ⟨direction.accepted,direction.inv.lose (fewer.filterMap _) ?_⟩
  exact (List.Sublist.refl held).append (fewerBack.filterMap _)

/-- `base x` is the position of `x`'s window base, `held x` the answer `x` is working
on, and `tags x` what the messages on their way to `x` stand for. -/
structure Sound (n : UInt8) (net : Net) (base : Side → Nat) (held : Side → List Nat)
    (tags : Side → List Tag) : Prop where
  sender : ∀ x, Sender n (net.ends x) (base x)
  receiver : ∀ x, Receiver n (net.ends x) (held x)
  direction : ∀ x, Direction n.toNat (net.ends x) (net.ends x.other) (base x) (held x) (tags x.other) (tags x)
  wire : ∀ x, net.wire x = (tags x).map (encode (n.toNat + 1) (net.ends x.other).added)

def Net.Safe (n : UInt8) (net : Net) : Prop := ∃ base held tags, Sound n net base held tags

namespace Sound

variable {n : UInt8} {net : Net} {base : Side → Nat} {held : Side → List Nat} {tags : Side → List Tag}

theorem opposite (sound : Sound n net base held tags) (side : Side) :
    Direction n.toNat (net.ends side.other) (net.ends side) (base side.other) (held side.other)
      (tags side) (tags side.other) := by
  have direction := sound.direction side.other
  rwa [Side.other_other] at direction

/-- What the oldest message on its way stands for, and what its arrival does. -/
theorem arrives (sound : Sound n net base held tags) (positive : 1 ≤ n.toNat) (side : Side)
    (ready : (net.ends side).receiveLoop = .ready) {bytes : Bytes} {rest : List Bytes}
    (wire : net.wire side = bytes :: rest) (recent : Bool) :
    ∃ tag later out base' held', tags side = tag :: later ∧
      encode (n.toNat + 1) (net.ends side.other).added tag = bytes ∧
      later.map (encode (n.toNat + 1) (net.ends side.other).added) = rest ∧
      ReceiveEffect n (net.ends side) ((net.ends side).deliver bytes recent).1 (net.ends side.other) (base side.other)
        (held side.other) (tags side.other) (tag :: later) out ((net.ends side).deliver bytes recent).2 base' held' ∧
      (recent = false → Moves (net.ends side) ((net.ends side).deliver bytes recent).1 (net.ends side.other) (base side)
        (base side.other) (held side) (held side.other) (tags side.other) (tag :: later) later out base' held') := by
  have onWire := sound.wire side
  rw [wire] at onWire
  obtain ⟨tag,later,tagged,rfl,rfl⟩ := List.map_eq_cons_iff.mp onWire.symm
  have own := sound.direction side
  have opposite := sound.opposite side
  rw [tagged] at own opposite
  obtain ⟨out,base',held',effect,moves⟩ := deliver_effect positive (sound.sender side) (sound.receiver side) ready
    (sound.sender side.other) tag later own opposite recent
  exact ⟨tag,later,out,base',held',tagged,rfl,rfl,effect,moves⟩

theorem update (sound : Sound n net base held tags) (side : Side) (e : Endpoint) (messages : List Message)
    (out : List Tag) (base' : Nat) (held' : List Nat) (sender : Sender n e base') (receiver : Receiver n e held')
    (own : Direction n.toNat e (net.ends side.other) base' held' (tags side.other ++ out) (tags side))
    (opposite : Direction n.toNat (net.ends side.other) e (base side.other) (held side.other)
      (tags side) (tags side.other ++ out))
    (encoded : messages.map serialize = out.map (encode (n.toNat + 1) e.added))
    (added : (net.ends side).added <+: e.added) :
    Sound n (net.update side e messages) (Function.update base side base') (Function.update held side held')
      (Function.update tags side.other (tags side.other ++ out)) := by
  have apart := side.other_ne
  constructor
  · refine Side.forall_of_both side ?_ ?_
    · simpa [Net.update] using sender
    · simpa [Net.update,apart] using sound.sender side.other
  · refine Side.forall_of_both side ?_ ?_
    · simpa [Net.update] using receiver
    · simpa [Net.update,apart] using sound.receiver side.other
  · refine Side.forall_of_both side ?_ ?_
    · simpa [Net.update,apart,apart.symm] using own
    · simpa [Net.update,apart,apart.symm,Side.other_other] using opposite
  · refine Side.forall_of_both side ?_ ?_
    · simpa [Net.update,apart,apart.symm] using sound.wire side
    · obtain ⟨later,grown⟩ := added
      have used := (sound.direction side).inv.data_lt
      have stable := encode_extend (n.toNat + 1) _ later _ used
      have before := sound.wire side.other
      rw [Side.other_other,← stable,grown] at before
      simp [Net.update,Side.other_other,before,encoded]

theorem lose (sound : Sound n net base held tags) (side : Side) (index : Nat) :
    Sound n {net with wire := Function.update net.wire side ((net.wire side).eraseIdx index)} base held
      (Function.update tags side ((tags side).eraseIdx index)) := by
  have apart := side.other_ne
  have fewer := List.eraseIdx_sublist (tags side) index
  refine ⟨sound.sender,sound.receiver,?_,?_⟩
  · refine Side.forall_of_both side ?_ ?_
    · simpa [apart] using (sound.direction side).lose _ _ (List.Sublist.refl _) fewer
    · simpa [apart,Side.other_other] using (sound.opposite side).lose _ _ fewer (List.Sublist.refl _)
  · refine Side.forall_of_both side ?_ ?_
    · simp [sound.wire side,List.eraseIdx_eq_take_drop_succ,List.map_take,List.map_drop]
    · simpa [apart] using sound.wire side.other

theorem sendEffect (sound : Sound n net base held tags) (side : Side) (e : Endpoint) (messages : List Message)
    (out : List Tag)
    (effect : SendEffect n (net.ends side) e (net.ends side.other) (base side) (held side) (tags side.other) (tags side)
      out messages) :
    Sound n (net.update side e messages) base held (Function.update tags side.other (tags side.other ++ out)) := by
  have opposite := (sound.opposite side).congr _ e rfl effect.receiver.accepted
  have silent : Direction n.toNat (net.ends side.other) e (base side.other) (held side.other) (tags side)
      (tags side.other ++ out) := by
    refine ⟨opposite.accepted,?_⟩
    rw [List.filterMap_append,effect.silent,List.append_nil]
    exact opposite.inv
  simpa using sound.update side e messages out _ _ effect.sender ((sound.receiver side).frame e effect.receiver)
    effect.direction silent effect.encoded effect.added

theorem receiveEffect (sound : Sound n net base held tags) (side : Side) (e : Endpoint) (messages : List Message)
    (out : List Tag) (base' : Nat) (held' : List Nat)
    (effect : ReceiveEffect n (net.ends side) e (net.ends side.other) (base side.other) (held side.other)
      (tags side.other) (tags side) out messages base' held') :
    Sound n (net.update side e messages) (Function.update base side base') (Function.update held side held')
      (Function.update tags side.other (tags side.other ++ out)) := by
  refine sound.update side e messages out _ _ effect.sender effect.receiver ?_ effect.opposite
    effect.encoded (effect.added ▸ List.prefix_refl _)
  refine ⟨effect.own.accepted,?_⟩
  rw [List.filterMap_append,effect.noData,List.append_nil]
  exact effect.own.inv

theorem frame (sound : Sound n net base held tags) (side : Side) (e : Endpoint)
    (sender : Sender n e (base side)) (receiver : SameReceiver (net.ends side) e)
    (added : e.added = (net.ends side).added) : Sound n (net.update side e []) base held tags := by
  have effect : ReceiveEffect n (net.ends side) e (net.ends side.other) (base side.other) (held side.other)
      (tags side.other) (tags side) [] [] (base side) (held side) := by
    refine ⟨rfl,rfl,added,sender,(sound.receiver side).frame e receiver,
      (sound.direction side).congr e _ added rfl,?_⟩
    rw [List.append_nil]
    exact (sound.opposite side).congr _ e rfl receiver.accepted
  simpa using sound.receiveEffect side e [] [] _ _ effect

/-- The oldest message is taken from the stream and worked on. -/
theorem deliver (sound : Sound n net base held tags) (side : Side) (bytes : Bytes) (rest : List Bytes)
    (wire : net.wire side = bytes :: rest) (tag : Tag) (later : List Tag) (tagged : tags side = tag :: later)
    (e : Endpoint) (messages : List Message) (out : List Tag) (base' : Nat) (held' : List Nat)
    (effect : ReceiveEffect n (net.ends side) e (net.ends side.other) (base side.other) (held side.other)
      (tags side.other) (tag :: later) out messages base' held') :
    Sound n (Net.update {net with wire := Function.update net.wire side rest} side e messages)
      (Function.update base side base') (Function.update held side held')
      (Function.update (Function.update tags side.other (tags side.other ++ out)) side later) := by
  have apart := side.other_ne
  rw [← tagged] at effect
  have lost := (sound.receiveEffect side e messages out base' held' effect).lose side 0
  simpa [Net.update,apart,apart.symm,wire,tagged,Function.update_comm apart.symm] using lost

end Sound

theorem Net.Safe.lose {n : UInt8} {net : Net} (safe : net.Safe n) (side : Side) (index : Nat) :
    Net.Safe n {net with wire := Function.update net.wire side ((net.wire side).eraseIdx index)} := by
  obtain ⟨base,held,tags,sound⟩ := safe
  exact ⟨base,held,_,sound.lose side index⟩

theorem Net.Safe.deliver {n : UInt8} {net : Net} (safe : net.Safe n) (positive : 1 ≤ n.toNat) (side : Side)
    (ready : (net.ends side).receiveLoop = .ready) (bytes : Bytes) (rest : List Bytes)
    (wire : net.wire side = bytes :: rest) (keep recentlySent : Bool) :
    Net.Safe n (Net.update {net with wire := Function.update net.wire side (if keep then bytes :: rest else rest)} side
      ((net.ends side).deliver bytes recentlySent).1 ((net.ends side).deliver bytes recentlySent).2) := by
  obtain ⟨base,held,tags,sound⟩ := safe
  obtain ⟨tag,later,out,base',held',tagged,rfl,rfl,effect,_⟩ := sound.arrives positive side ready wire recentlySent
  cases keep with
  | true =>
    rw [← tagged] at effect
    rw [if_pos rfl,← wire,Function.update_eq_self]
    exact ⟨_,_,_,sound.receiveEffect side _ _ out base' held' effect⟩
  | false => exact ⟨_,_,_,sound.deliver side _ _ wire tag later tagged _ _ out base' held' effect⟩

theorem Net.initial_safe (n : UInt8) (positive : 1 ≤ n.toNat) (bound : n.toNat ≤ 254) :
    (Net.initial n).Safe n := by
  have cycle : (n + 1).toNat = n.toNat + 1 := toNat_succ n (by omega)
  refine ⟨fun _ => 0,fun _ => [],fun _ => [],?_,?_,?_,?_⟩
  · intro x
    constructor <;> simp [Net.initial,newEndpoint,newQueue,newSyncer,cycle,SendLoop.Place,SendLoop.pending,payloads]
    omega
  · intro x
    exact ⟨cycle,rfl,rfl,rfl⟩
  · intro x
    exact ⟨List.prefix_refl _,GoBackN.inv_init _⟩
  · intro x
    rfl

theorem Net.step_safe (n : UInt8) (positive : 1 ≤ n.toNat) (net : Net) (event : Event) (next : Net)
    (safe : net.Safe n) (stepped : net.step event = some next) : next.Safe n := by
  cases event with
  | send side action =>
    obtain ⟨base,held,tags,sound⟩ := safe
    obtain ⟨⟨e,messages⟩,sent,rfl⟩ := Option.map_eq_some_iff.mp stepped
    obtain ⟨out,effect⟩ := sendMoves_effect positive (sound.sender side) (sound.direction side) action e messages
      (Endpoint.sendStep_moves action messages sent)
    exact ⟨_,_,_,sound.sendEffect side e messages out effect⟩
  | deliver side keep recentlySent =>
    simp only [Net.step] at stepped
    split at stepped
    next bytes rest ready wire =>
      cases Option.some.inj stepped
      exact safe.deliver positive side ready bytes rest wire keep recentlySent
    next => contradiction
  | receive side =>
    obtain ⟨base,held,tags,sound⟩ := safe
    obtain ⟨e,moved,rfl⟩ := Option.map_eq_some_iff.mp stepped
    obtain ⟨base',held',effect,_⟩ := receiveMoves_effect positive (sound.sender side) (sound.receiver side)
      (sound.direction side) (sound.opposite side) e (Endpoint.receiveStep_moves moved)
    exact ⟨_,_,_,sound.receiveEffect side e [] [] base' held' effect⟩
  | drain side =>
    obtain ⟨base,held,tags,sound⟩ := safe
    simp only [Net.step] at stepped
    split at stepped
    next first rest queued =>
      cases Option.some.inj stepped
      exact ⟨_,_,_,sound.frame side _ ((sound.sender side).frame _ rfl rfl rfl rfl rfl) ⟨rfl,rfl,rfl,rfl,rfl⟩ rfl⟩
    next => contradiction
  | timer side =>
    obtain ⟨base,held,tags,sound⟩ := safe
    simp only [Net.step] at stepped
    split at stepped
    next waiting =>
      cases Option.some.inj stepped
      have cycle := (Queue.proceedAfterTime_syncer _).trans (sound.sender side).syncer
      exact ⟨_,_,_,sound.frame side _ ((sound.sender side).resync _ cycle) ⟨rfl,rfl,rfl,rfl,rfl⟩ rfl⟩
    next => contradiction
  | lose side index =>
    simp only [Net.step] at stepped
    split at stepped
    next inside =>
      cases Option.some.inj stepped
      exact safe.lose side index
    next => contradiction

theorem Net.run_safe (n : UInt8) (positive : 1 ≤ n.toNat) (bound : n.toNat ≤ 254) (events : List Event) (net : Net)
    (reached : run Net.step (Net.initial n) events = some net) : net.Safe n :=
  run_invariant Net.step (Net.Safe n) (Net.step_safe n positive) events _ net
    (Net.initial_safe n positive bound) reached

theorem Sound.handed_isPrefix {n : UInt8} {net : Net} {base : Side → Nat} {held : Side → List Nat}
    {tags : Side → List Tag} (sound : Sound n net base held tags) (side : Side) :
    (net.ends side.other).handed.map body <+: (net.ends side).taken.map body := by
  have handed : (net.ends side.other).handed <+: payloads (net.ends side.other).accepted :=
    ⟨_,(sound.receiver side.other).handed.symm⟩
  have accepted := (sound.direction side).accepted
  have sent : (net.ends side.other).accepted <+: (net.ends side).added ++ (net.ends side).sendLoop.pending :=
    accepted.trans (List.prefix_append _ _)
  rw [(sound.sender side).taken]
  exact (handed.trans (sent.filter _)).map body

/-- Whatever the channels lose or repeat and however the loops interleave, what one
side handed to its application is the beginning of what the other took from its own. -/
theorem Net.handed_isPrefix_taken (n : UInt8) (lower : 1 ≤ n.toNat) (upper : n.toNat ≤ 254) (events : List Event)
    (net : Net) (reached : run Net.step (Net.initial n) events = some net) (side : Side) :
    (∀ packet ∈ (net.ends side.other).handed, packet.isPing = false) ∧
      (net.ends side.other).handed.map body <+: (net.ends side).taken.map body := by
  obtain ⟨base,held,tags,sound⟩ := Net.run_safe n lower upper events net reached
  have history := (sound.receiver side.other).handed
  constructor
  · intro packet member
    have kept : packet ∈ payloads (net.ends side.other).accepted := by
      rw [history]
      exact List.mem_append_left _ member
    simpa using List.of_mem_filter kept
  · exact sound.handed_isPrefix side

/-- One packet of two is lost and asked for again, the other arrives twice. -/
def lossyEvents : List Event :=
  let proceed (count : Nat) := List.replicate count (Event.send .client (.proceed false))
  [.send .client (.take [7] true)] ++ proceed 3 ++ [.send .client (.take [8] false)] ++ proceed 4 ++
  [.lose .server 0,.deliver .server false false,.deliver .client false false,.receive .client,
    .send .client .resendSignal] ++ proceed 6 ++
  [.deliver .server true false,.receive .server,.receive .server,.deliver .server false false,
    .deliver .server false false,.receive .server,.receive .server]

theorem Net.handed_isPrefix_taken_lossy : ∃ net, run Net.step (Net.initial 2) lossyEvents = some net ∧
    (net.ends .server).handed.map body = [([7],true),([8],false)] ∧
    (net.ends .server).handed.map body <+: (net.ends .client).taken.map body := by
  have result : (run Net.step (Net.initial 2) lossyEvents).map (fun net => (net.ends .server).handed.map body) =
    some [([7],true),([8],false)] := by decide
  obtain ⟨net,reached,handed⟩ := Option.map_eq_some_iff.mp result
  exact ⟨net,reached,handed,(Net.handed_isPrefix_taken 2 (by decide) (by decide) _ net reached .client).2⟩

/-- A packet the peer has not accepted is in the window and in its slot, and a packet
about to be added has a slot of its own. -/
theorem Net.unaccepted_outstanding (n : UInt8) (lower : 1 ≤ n.toNat) (upper : n.toNat ≤ 254) (events : List Event)
    (net : Net) (reached : run Net.step (Net.initial n) events = some net) (side : Side) :
    (net.ends side.other).accepted <+: (net.ends side).added ∧
    (∀ i packet, (net.ends side).added[i]? = some packet → (net.ends side.other).accepted.length ≤ i →
      packet.seq.toNat ∈ (net.ends side).queue.window ∧
      (net.ends side).queue.content[packet.seq.toNat]? = some (some packet)) ∧
    (∀ packet, (net.ends side).sendLoop = .holding packet →
      (net.ends side).queue.sequenceTop.toNat ∉ (net.ends side).queue.window) := by
  obtain ⟨base,held,tags,sound⟩ := Net.run_safe n lower upper events net reached
  have sender := sound.sender side
  obtain ⟨accepted,inv⟩ := sound.direction side
  have order : base side ≤ (net.ends side).added.length := Nat.le_trans inv.base_le inv.next_le
  have size := sender.size order inv.top_le
  have limit := inv.top_le
  have member (label : Nat) : label ∈ (net.ends side).queue.window ↔ label < n.toNat + 1 ∧
      ahead (n.toNat + 1) (base side % (n.toNat + 1)) label < (net.ends side).added.length - base side := by
    rw [Queue.window,size,sender.baseLabel,sender.cycle]
    exact mem_labels _ _ _ _ (Nat.mod_lt _ (by omega)) (by omega)
  refine ⟨accepted,?_,?_⟩
  · intro i packet found pending
    have used : i < (net.ends side).added.length := (List.getElem?_eq_some_iff.mp found).1
    have released := inv.base_le
    rw [sender.labelled i packet found]
    refine ⟨(member _).mpr ⟨Nat.mod_lt _ (by omega),?_⟩,sender.content i packet found (by omega)⟩
    rw [ahead_mod _ _ _ (by omega) (by omega)]
    omega
  · intro packet holding inside
    have room := sender.room (by rw [holding]; trivial)
    rw [member,sender.topLabel,ahead_mod _ _ _ order (by omega)] at inside
    omega

theorem Net.unaccepted_outstanding_lossy :
    ∃ net, run Net.step (Net.initial 2) (lossyEvents.take 9) = some net ∧
      ∃ first second, (net.ends .client).added = [first,second] ∧ (net.ends .server).accepted = [] ∧
        second.seq.toNat ∈ (net.ends .client).queue.window ∧
        (net.ends .client).queue.content[second.seq.toNat]? = some (some second) := by
  have result : (run Net.step (Net.initial 2) (lossyEvents.take 9)).map
      (fun net => ((net.ends .client).added,(net.ends .server).accepted)) =
      some ([{seq := 0, finalChunk := true, payload := [7]},{seq := 1, payload := [8]}],[]) := by decide
  obtain ⟨net,reached,histories⟩ := Option.map_eq_some_iff.mp result
  obtain ⟨added,accepted⟩ := Prod.mk.inj histories
  have kept := (Net.unaccepted_outstanding 2 (by decide) (by decide) _ net reached .client).2.1 1 _
    (by rw [added]; rfl) (by rw [show (net.ends Side.client.other).accepted = [] from accepted]; simp)
  exact ⟨net,reached,_,_,added,accepted,kept⟩

end NodeConnect.Gbn
