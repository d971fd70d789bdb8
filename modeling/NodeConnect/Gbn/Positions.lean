import NodeConnect.Gbn.Moves
import NodeConnect.Gbn.QueueSafety
import NodeConnect.Lib.GoBackN

/-! Labels read back as positions. The packets a connection adds to its queue are
numbered from zero; the code only keeps those numbers modulo `s = n + 1`. Each
endpoint's fields are related to the positions they stand for, and every step of
one endpoint is shown to keep that relation. -/
namespace NodeConnect.Gbn
open Lib

def body (packet : PacketData) : Bytes × Bool := (packet.payload,packet.finalChunk)

def payloads (packets : List PacketData) : List PacketData := packets.filter fun packet => !packet.isPing

/-- What a message in flight stands for: the packet at a position, the ACK of that
packet, or the NACK that asks for a position. -/
inductive Tag where
  | data (position : Nat)
  | ack (position : Nat)
  | nack (expected : Nat)
  deriving DecidableEq, Repr

def Tag.position : Tag → Option Nat
  | .data i => some i
  | _ => none

/-- The position the sender of an ACK or NACK was waiting for when it sent it. -/
def Tag.answer : Tag → Option Nat
  | .data _ => none
  | .ack i => some (i + 1)
  | .nack a => some a

def encode (s : Nat) (added : List PacketData) : Tag → Bytes
  | .data i => serialize (.data (added.getD i {}))
  | .ack i => serialize (.ack (UInt8.ofNat (i % s)))
  | .nack a => serialize (.nack (UInt8.ofNat (a % s)))

/-- A window index read before the resend loop, and the position it was read at. -/
def Cursor (s n top : Nat) (index : UInt8) : Prop :=
  ∃ k, index.toNat = k % s ∧ k ≤ top ∧ top ≤ k + n

def SendLoop.Place (s n : Nat) (added : List PacketData) : SendLoop → Prop
  | .added packet => ∃ earlier, added = earlier ++ [packet]
  | .resendTop _ base => Cursor s n added.length base
  | .resending _ base top => Cursor s n added.length base ∧ top.toNat = added.length % s
  | .crashed _ => False
  | _ => True

def SendLoop.pending : SendLoop → List PacketData
  | .holding packet => [packet]
  | _ => []

structure Sender (n : UInt8) (e : Endpoint) (base : Nat) : Prop where
  window : e.n = n
  cycle : e.queue.s.toNat = n.toNat + 1
  syncer : e.queue.syncer.s = e.queue.s
  slots : e.queue.content.length = n.toNat + 1
  baseLabel : e.queue.sequenceBase.toNat = base % (n.toNat + 1)
  topLabel : e.queue.sequenceTop.toNat = e.added.length % (n.toNat + 1)
  labelled : ∀ i packet, e.added[i]? = some packet → packet.seq.toNat = i % (n.toNat + 1)
  content : ∀ i packet, e.added[i]? = some packet → e.added.length ≤ i + (n.toNat + 1) →
    e.queue.content[i % (n.toNat + 1)]? = some (some packet)
  room : e.sendLoop.mayAdd → e.added.length < base + n.toNat
  place : e.sendLoop.Place (n.toNat + 1) n.toNat e.added
  taken : e.taken.map body = (payloads (e.added ++ e.sendLoop.pending)).map body

theorem Sender.last_added {n : UInt8} {e : Endpoint} {base : Nat} (sender : Sender n e base) {packet : PacketData}
    (loop : e.sendLoop = .added packet) : ∃ i, e.added[i]? = some packet ∧ e.added.length = i + 1 := by
  have place := sender.place
  rw [loop] at place
  obtain ⟨earlier,split⟩ := place
  refine ⟨earlier.length,?_,?_⟩
  · simp [split]
  · simp [split]

def ReceiveLoop.pending : ReceiveLoop → List PacketData
  | .acknowledged packet => payloads [packet]
  | .handing packet => [packet]
  | _ => []

/-- How many accepted packets `recvSeq` already counts. -/
def counted (e : Endpoint) : Nat :=
  match e.receiveLoop with
  | .acknowledged _ => e.accepted.length - 1
  | _ => e.accepted.length

/-- `held` is the answer of an ACK that was taken from the stream and not yet applied. -/
def ReceiveLoop.Place (s : Nat) (accepted : List PacketData) (held : List Nat) : ReceiveLoop → Prop
  | .acknowledged packet => (∃ earlier, accepted = earlier ++ [packet]) ∧ held = []
  | .handing packet => packet.isPing = false ∧ held = []
  | .sized seq => ∃ k, held = [k + 1] ∧ seq.toNat = k % s
  | .crashed _ => False
  | _ => held = []

structure Receiver (n : UInt8) (e : Endpoint) (held : List Nat) : Prop where
  cycle : e.s.toNat = n.toNat + 1
  label : e.recvSeq.toNat = counted e % (n.toNat + 1)
  place : e.receiveLoop.Place (n.toNat + 1) e.accepted held
  handed : payloads e.accepted = e.handed ++ e.receiveLoop.pending

structure Direction (n : Nat) (snd rcv : Endpoint) (base : Nat) (held : List Nat)
    (forward backward : List Tag) : Prop where
  accepted : rcv.accepted <+: snd.added
  inv : GoBackN.Inv n base rcv.accepted.length snd.added.length
    (forward.filterMap Tag.position) (held ++ backward.filterMap Tag.answer)

/-- The direction from `snd` to `rcv` as the window protocol sees it. -/
def view (snd rcv : Endpoint) (base : Nat) (held : List Nat) (forward backward : List Tag) : GoBackN.View :=
  ⟨base,rcv.accepted.length,snd.added.length,forward.filterMap Tag.position,held ++ backward.filterMap Tag.answer⟩

theorem payloads_append (first second : List PacketData) :
    payloads (first ++ second) = payloads first ++ payloads second :=
  List.filter_append first second

theorem toNat_ofNat_mod (n : UInt8) (i : Nat) : (UInt8.ofNat (i % (n.toNat + 1))).toNat = i % (n.toNat + 1) := by
  have bound := n.toNat_lt
  have small : i % (n.toNat + 1) < n.toNat + 1 := Nat.mod_lt _ (by omega)
  rw [UInt8.toNat_ofNat']
  exact Nat.mod_eq_of_lt (by omega)

theorem encode_extend (s : Nat) (added later : List PacketData) (tags : List Tag)
    (used : ∀ i ∈ tags.filterMap Tag.position, i < added.length) :
    tags.map (encode s (added ++ later)) = tags.map (encode s added) := by
  apply List.map_congr_left
  intro tag member
  cases tag with
  | data i =>
    have bound := used i (List.mem_filterMap.mpr ⟨_,member,rfl⟩)
    simp [encode,List.getD_eq_getElem?_getD,List.getElem?_append_left bound]
  | ack i => rfl
  | nack a => rfl

namespace Sender

variable {n : UInt8} {e : Endpoint} {base : Nat}

theorem frame (sender : Sender n e base) (other : Endpoint) (window : other.n = e.n)
    (queue : other.queue = e.queue) (loop : other.sendLoop = e.sendLoop)
    (taken : other.taken = e.taken) (added : other.added = e.added) : Sender n other base := by
  obtain ⟨w,cycle,syncer,slots,baseLabel,topLabel,labelled,content,room,place,history⟩ := sender
  constructor <;> simp only [window,queue,loop,taken,added] <;> assumption

theorem relocate (sender : Sender n e base) (loop : SendLoop)
    (room : loop.mayAdd → e.added.length < base + n.toNat)
    (place : loop.Place (n.toNat + 1) n.toNat e.added) (pending : loop.pending = e.sendLoop.pending) :
    Sender n {e with sendLoop := loop} base := by
  obtain ⟨w,cycle,syncer,slots,baseLabel,topLabel,labelled,content,_,_,history⟩ := sender
  refine ⟨w,cycle,syncer,slots,baseLabel,topLabel,labelled,content,room,place,?_⟩
  simpa only [pending] using history

theorem resync (sender : Sender n e base) (syncer : Syncer) (cycle : syncer.s = e.queue.s) :
    Sender n {e with queue := {e.queue with syncer := syncer}} base := by
  obtain ⟨w,queueCycle,_,slots,baseLabel,topLabel,labelled,content,room,place,history⟩ := sender
  exact ⟨w,queueCycle,cycle,slots,baseLabel,topLabel,labelled,content,room,place,history⟩

theorem advance (sender : Sender n e base) (target : Nat) (forward : base ≤ target) (queue : Queue)
    (s : queue.s = e.queue.s) (content : queue.content = e.queue.content)
    (top : queue.sequenceTop = e.queue.sequenceTop) (syncer : queue.syncer.s = e.queue.s)
    (label : queue.sequenceBase.toNat = target % (n.toNat + 1)) :
    Sender n {e with queue := queue} target := by
  obtain ⟨w,cycle,_,slots,_,topLabel,labelled,held,room,place,history⟩ := sender
  refine ⟨w,by rw [s]; exact cycle,by rw [s]; exact syncer,by rw [content]; exact slots,label,
    by rw [top]; exact topLabel,labelled,?_,?_,place,history⟩
  · rw [content]
    exact held
  · intro may
    have := room may
    change e.added.length < target + n.toNat
    omega

theorem cycle_pos (sender : Sender n e base) : 0 < e.queue.s.toNat := by
  rw [sender.cycle]
  omega

theorem base_lt (sender : Sender n e base) : e.queue.sequenceBase.toNat < e.queue.s.toNat := by
  rw [sender.cycle,sender.baseLabel]
  exact Nat.mod_lt _ (by omega)

theorem top_lt (sender : Sender n e base) : e.queue.sequenceTop.toNat < e.queue.s.toNat := by
  rw [sender.cycle,sender.topLabel]
  exact Nat.mod_lt _ (by omega)

theorem size (sender : Sender n e base) (order : base ≤ e.added.length)
    (limit : e.added.length ≤ base + n.toNat) : e.queue.size.toNat = e.added.length - base := by
  rw [Queue.size_toNat _ sender.base_lt,sender.baseLabel,sender.topLabel,sender.cycle,
    ahead_mod _ _ _ order (by omega)]

end Sender

theorem Direction.congr {n base : Nat} {snd rcv : Endpoint} {held : List Nat} {forward backward : List Tag}
    (direction : Direction n snd rcv base held forward backward) (snd' rcv' : Endpoint)
    (added : snd'.added = snd.added) (accepted : rcv'.accepted = rcv.accepted) :
    Direction n snd' rcv' base held forward backward := by
  refine ⟨?_,?_⟩
  · rw [added,accepted]
    exact direction.accepted
  · rw [added,accepted]
    exact direction.inv

structure SameReceiver (e e' : Endpoint) : Prop where
  s : e'.s = e.s
  recvSeq : e'.recvSeq = e.recvSeq
  loop : e'.receiveLoop = e.receiveLoop
  accepted : e'.accepted = e.accepted
  handed : e'.handed = e.handed

theorem Receiver.frame {n : UInt8} {e : Endpoint} {held : List Nat} (receiver : Receiver n e held)
    (e' : Endpoint) (same : SameReceiver e e') : Receiver n e' held := by
  have count : counted e' = counted e := by simp [counted,same.loop,same.accepted]
  refine ⟨by rw [same.s]; exact receiver.cycle,by rw [same.recvSeq,count]; exact receiver.label,?_,?_⟩
  · rw [same.loop,same.accepted]
    exact receiver.place
  · rw [same.loop,same.accepted,same.handed]
    exact receiver.handed

structure SendEffect (n : UInt8) (e e' peer : Endpoint) (base : Nat) (held : List Nat)
    (forward backward out : List Tag) (messages : List Message) : Prop where
  encoded : messages.map serialize = out.map (encode (n.toNat + 1) e'.added)
  silent : out.filterMap Tag.answer = []
  sender : Sender n e' base
  direction : Direction n.toNat e' peer base held (forward ++ out) backward
  receiver : SameReceiver e e'
  added : e.added <+: e'.added

section SendSteps

variable {n : UInt8} {e peer : Endpoint} {base : Nat} {held : List Nat} {forward backward : List Tag}

theorem quiet_effect (direction : Direction n.toNat e peer base held forward backward)
    (e' : Endpoint) (sender : Sender n e' base) (receiver : SameReceiver e e')
    (added : e'.added = e.added) :
    SendEffect n e e' peer base held forward backward [] [] := by
  refine ⟨rfl,rfl,sender,?_,receiver,added ▸ List.prefix_refl _⟩
  rw [List.append_nil]
  exact direction.congr e' peer added rfl

theorem transmit_effect
    (direction : Direction n.toNat e peer base held forward backward) (loop : SendLoop)
    (relocated : Sender n {e with sendLoop := loop} base) (i : Nat) (packet : PacketData)
    (found : e.added[i]? = some packet) (near : e.added.length ≤ i + n.toNat) :
    SendEffect n e {e with sendLoop := loop} peer base held forward backward [.data i] [.data packet] := by
  have used : i < e.added.length := (List.getElem?_eq_some_iff.mp found).1
  refine ⟨?_,rfl,relocated,⟨direction.accepted,?_⟩,⟨rfl,rfl,rfl,rfl,rfl⟩,List.prefix_refl _⟩
  · simp [encode,List.getD_eq_getElem?_getD,found]
  · rw [List.filterMap_append]
    exact direction.inv.transmit i used near

private theorem getElem?_concat {packets : List PacketData} {last p : PacketData} {i : Nat}
    (found : (packets ++ [last])[i]? = some p) :
    packets[i]? = some p ∧ i < packets.length ∨ i = packets.length ∧ p = last := by
  rcases Nat.lt_or_ge i packets.length with old | new
  · rw [List.getElem?_append_left old] at found
    exact .inl ⟨found,old⟩
  · rw [List.getElem?_append_right new,List.getElem?_singleton] at found
    split_ifs at found with zero
    exact .inr ⟨by omega,(Option.some.inj found).symm⟩

/-- The slot taken by a new packet is the one of the position a cycle before it. -/
private theorem push_sender (sender : Sender n e base) (packet stored : PacketData)
    (holding : e.sendLoop = .holding packet) (labelled : stored = {packet with seq := e.queue.sequenceTop})
    (top : UInt8) (value : top.toNat = (e.queue.sequenceTop.toNat + 1) % e.queue.s.toNat) :
    Sender n {e with
      queue := {e.queue with
        content := e.queue.content.set e.queue.sequenceTop.toNat (some stored), sequenceTop := top}
      sendLoop := .added stored, added := e.added ++ [stored]} base := by
  have lengthAfter : (e.added ++ [stored]).length = e.added.length + 1 := by simp
  refine ⟨sender.window,sender.cycle,sender.syncer,?_,sender.baseLabel,?_,?_,?_,?_,⟨e.added,rfl⟩,?_⟩
  · simpa using sender.slots
  · change top.toNat = (e.added ++ [stored]).length % (n.toNat + 1)
    rw [value,sender.cycle,lengthAfter,sender.topLabel]
    simp
  · intro i p found
    rcases getElem?_concat found with ⟨old,_⟩ | ⟨rfl,rfl⟩
    · exact sender.labelled i p old
    · rw [labelled]
      exact sender.topLabel
  · intro i p found close
    change (e.added ++ [stored]).length ≤ i + (n.toNat + 1) at close
    rw [lengthAfter] at close
    change (e.queue.content.set e.queue.sequenceTop.toNat (some stored))[i % (n.toNat + 1)]? = _
    rcases getElem?_concat found with ⟨old,before⟩ | ⟨rfl,rfl⟩
    · -- An older position that still counts is less than a cycle away, so its slot is another one.
      have apart : e.queue.sequenceTop.toNat ≠ i % (n.toNat + 1) := by
        intro same
        rw [sender.topLabel] at same
        have := mod_inj_of_close (n.toNat + 1) e.added.length i (by omega) (by omega) same
        omega
      rw [List.getElem?_set_ne apart]
      exact sender.content i p old (by omega)
    · have topLt := sender.top_lt
      rw [← sender.topLabel,List.getElem?_set_self (by rw [sender.slots,← sender.cycle]; exact topLt)]
  · intro may
    exact absurd may (by simp [SendLoop.mayAdd])
  · have history := sender.taken
    simp only [holding,SendLoop.pending] at history
    change e.taken.map body = (payloads ((e.added ++ [stored]) ++ [])).map body
    rw [history]
    simp [payloads,List.filter_append,labelled,List.filter_cons,body,apply_ite]

private theorem addPacket_eq (sender : Sender n e base) (packet : PacketData) :
    ∃ top : UInt8, top.toNat = (e.queue.sequenceTop.toNat + 1) % e.queue.s.toNat ∧
      e.queue.addPacket packet = .ok {e.queue with
        content := e.queue.content.set e.queue.sequenceTop.toNat (some {packet with seq := e.queue.sequenceTop})
        sequenceTop := top} := by
  have topLt := sender.top_lt
  obtain ⟨top,computed,value⟩ := modulo_succ e.queue.sequenceTop e.queue.s topLt
  have inside : e.queue.sequenceTop.toNat < e.queue.content.length := by
    rw [sender.slots,← sender.cycle]
    exact topLt
  exact ⟨top,value,by simp [Queue.addPacket,inside,computed,bind,Except.bind,pure,Except.pure]⟩

private theorem add_effect (sender : Sender n e base)
    (direction : Direction n.toNat e peer base held forward backward) (packet : PacketData)
    (holding : e.sendLoop = .holding packet) (queue : Queue) (pushed : e.queue.addPacket packet = .ok queue) :
    SendEffect n e {e with
      queue := queue, sendLoop := .added {packet with seq := e.queue.sequenceTop}
      added := e.added ++ [{packet with seq := e.queue.sequenceTop}]} peer base held forward backward [] [] := by
  have room : e.added.length < base + n.toNat := sender.room (by rw [holding]; trivial)
  obtain ⟨top,value,result⟩ := addPacket_eq sender packet
  cases result.symm.trans pushed
  refine ⟨rfl,rfl,push_sender sender packet _ holding rfl top value,?_,⟨rfl,rfl,rfl,rfl,rfl⟩,List.prefix_append _ _⟩
  refine ⟨direction.accepted.trans (List.prefix_append _ _),?_⟩
  rw [List.append_nil]
  change GoBackN.Inv n.toNat base peer.accepted.length (e.added ++ [_]).length _ _
  rw [List.length_append,List.length_singleton]
  exact direction.inv.extend room

theorem resendNext_eq (sender : Sender n e base) (start : UInt8) (k : Nat)
    (label : start.toNat = k % (n.toNat + 1)) (strict : k < e.added.length) (near : e.added.length ≤ k + n.toNat) :
    ∃ next : UInt8, e.queue.resendNext start = .ok (e.added[k],next) ∧ next.toNat = (k + 1) % (n.toNat + 1) := by
  have slot := sender.content k _ (List.getElem?_eq_getElem strict) (by omega)
  obtain ⟨next,computed,value⟩ := modulo_succ start e.queue.s (by
    rw [label,sender.cycle]
    exact Nat.mod_lt _ (by omega))
  refine ⟨next,by simp [Queue.resendNext,label,slot,computed,bind,Except.bind,pure,Except.pure],?_⟩
  rw [value,label,sender.cycle]
  simp

private theorem next_effect (sender : Sender n e base)
    (direction : Direction n.toNat e peer base held forward backward) (caller : Caller) (start top next : UInt8)
    (loop : e.sendLoop = .resending caller start top) (topLabel : top.toNat = e.added.length % (n.toNat + 1)) (k : Nat)
    (strict : k < e.added.length) (near : e.added.length ≤ k + n.toNat) (after : next.toNat = (k + 1) % (n.toNat + 1)) :
    SendEffect n e {e with sendLoop := .resending caller next top} peer base held forward backward
      [.data k] [.data e.added[k]] := by
  refine transmit_effect direction _ (sender.relocate _ ?_ ?_ (by rw [loop]; rfl)) k _
    (List.getElem?_eq_getElem strict) near
  · exact fun may => sender.room (by rw [loop]; exact may)
  · exact ⟨⟨k + 1,after,strict,by omega⟩,topLabel⟩

/-- The index of a resend loop that has not met the top stands for a packet in its slot. -/
theorem resending_effect (sender : Sender n e base)
    (direction : Direction n.toNat e peer base held forward backward) (caller : Caller) (start top : UInt8)
    (loop : e.sendLoop = .resending caller start top) (topLabel : top.toNat = e.added.length % (n.toNat + 1)) (k : Nat)
    (label : start.toNat = k % (n.toNat + 1)) (strict : k < e.added.length) (near : e.added.length ≤ k + n.toNat)
    (recent : Bool) :
    ∃ packet next, e.sendProceed recent = some ({e with sendLoop := .resending caller next top},[.data packet]) ∧
      next.toNat = (k + 1) % (n.toNat + 1) ∧
      SendEffect n e {e with sendLoop := .resending caller next top} peer base held forward backward
        [.data k] [.data packet] := by
  have unfinished : start ≠ top := by
    intro same
    have labels : k % (n.toNat + 1) = e.added.length % (n.toNat + 1) := by rw [← label,same,topLabel]
    have := mod_inj_of_close (n.toNat + 1) k e.added.length (by omega) (by omega) labels
    omega
  obtain ⟨next,fetched,after⟩ := resendNext_eq sender start k label strict near
  exact ⟨e.added[k],next,by simp only [Endpoint.sendProceed,loop,if_neg unfinished,fetched],after,
    next_effect sender direction caller start top next loop topLabel k strict near after⟩

private theorem back_room (sender : Sender n e base) (caller : Caller)
    (outer : e.sendLoop.mayAdd ↔ caller = .outer) :
    caller.back.mayAdd → e.added.length < base + n.toNat := by
  intro may
  apply sender.room
  rw [outer]
  cases caller with
  | outer => rfl
  | full => exact absurd may (by simp [Caller.back,SendLoop.mayAdd])

private theorem back_place (s n : Nat) (added : List PacketData) (caller : Caller) :
    caller.back.Place s n added ∧ caller.back.pending = [] := by
  cases caller <;> exact ⟨trivial,rfl⟩

/-- The packet that a resend loop is about to fetch. -/
theorem resending_position (sender : Sender n e base) (caller : Caller) (start top : UInt8)
    (loop : e.sendLoop = .resending caller start top) (apart : start ≠ top) :
    top.toNat = e.added.length % (n.toNat + 1) ∧
      ∃ k, start.toNat = k % (n.toNat + 1) ∧ k < e.added.length ∧ e.added.length ≤ k + n.toNat := by
  have place := sender.place
  rw [loop] at place
  obtain ⟨⟨k,label,below,near⟩,topLabel⟩ := place
  refine ⟨topLabel,k,label,Nat.lt_of_le_of_ne below fun last => apart (UInt8.toNat_inj.mp ?_),near⟩
  rw [label,topLabel,last]

/-- A finished resend goes back to its select; the room it started with is still there. -/
private theorem back_sender (sender : Sender n e base) (caller : Caller) (at_ : e.sendLoop.mayAdd ↔ caller = .outer)
    (idle : e.sendLoop.pending = []) : Sender n {e with sendLoop := caller.back} base :=
  sender.relocate caller.back (back_room sender caller at_) (back_place _ _ _ caller).1
    ((back_place (n.toNat + 1) n.toNat e.added caller).2.trans idle.symm)

private theorem hold_sender (sender : Sender n e base) (packet : PacketData) (taken : List PacketData)
    (loop : e.sendLoop = .select) (recorded : taken.map body = (payloads (e.added ++ [packet])).map body) :
    Sender n {e with sendLoop := .holding packet, taken := taken} base := by
  have room := sender.room (by rw [loop]; trivial)
  obtain ⟨w,cycle,syncer,slots,baseLabel,topLabel,labelled,content,_,_,_⟩ := sender
  exact ⟨w,cycle,syncer,slots,baseLabel,topLabel,labelled,content,fun _ => room,trivial,recorded⟩

private theorem enter_sender (sender : Sender n e base) (caller : Caller) (signal : Bool)
    (loop : e.sendLoop = caller.waits) : Sender n {e with sendLoop := .resend caller, resendSignal := signal} base := by
  have may : caller = .outer → e.sendLoop.mayAdd := by
    rintro rfl
    rw [loop]
    trivial
  have idle : e.sendLoop.pending = [] := by
    rw [loop]
    cases caller <;> rfl
  have entered := sender.relocate (.resend caller) (fun at_ => sender.room (may at_)) trivial idle.symm
  exact entered.frame _ rfl rfl rfl rfl rfl

theorem sendMoves_receiver {e' : Endpoint} {action : SendAction} {messages : List Message}
    (moves : e.SendMoves action e' messages) : SameReceiver e e' := by
  cases moves <;> exact ⟨rfl,rfl,rfl,rfl,rfl⟩

theorem sendMoves_effect (positive : 1 ≤ n.toNat) (sender : Sender n e base)
    (direction : Direction n.toNat e peer base held forward backward) (action : SendAction)
    (e' : Endpoint) (messages : List Message) (moves : e.SendMoves action e' messages) :
    ∃ out, SendEffect n e e' peer base held forward backward out messages := by
  have lower : base ≤ e.added.length := Nat.le_trans direction.inv.base_le direction.inv.next_le
  have upper := direction.inv.top_le
  have quiet (moved : Sender n e' base) (added : e'.added = e.added) :
      ∃ out, SendEffect n e e' peer base held forward backward out [] :=
    ⟨[],quiet_effect direction e' moved (sendMoves_receiver moves) added⟩
  have history (loop : e.sendLoop = .select) : e.taken.map body = (payloads e.added).map body := by
    have recorded := sender.taken
    rw [loop] at recorded
    simpa [SendLoop.pending] using recorded
  cases moves with
  | take payload finalChunk loop =>
    refine quiet (hold_sender sender _ _ loop ?_) rfl
    rw [List.map_append,history loop,payloads_append]
    simp [payloads]
  | ping loop =>
    refine quiet (hold_sender sender _ e.taken loop ?_) rfl
    rw [history loop,payloads_append]
    simp [payloads]
  | signalled caller loop signal => exact quiet (enter_sender sender caller false loop) rfl
  | ticked caller loop => exact quiet (enter_sender sender caller e.resendSignal loop) rfl
  | add recent packet queue loop added => exact ⟨[],add_effect sender direction packet loop queue added⟩
  | addFails recent packet fault loop failed =>
    obtain ⟨_,_,result⟩ := addPacket_eq sender packet
    cases result.symm.trans failed
  | transmit recent packet loop =>
    obtain ⟨i,last,length⟩ := sender.last_added loop
    exact ⟨_,transmit_effect direction .check
      (sender.relocate .check (by simp [SendLoop.mayAdd]) trivial (by simp [loop,SendLoop.pending])) i packet last (by omega)⟩
  | room recent loop below =>
    have size := sender.size lower upper
    rw [sender.window,UInt8.lt_iff_toNat_lt,size] at below
    exact quiet (sender.relocate _ (fun _ => by omega) trivial (by rw [loop]; rfl)) rfl
  | full recent loop _ =>
    exact quiet (sender.relocate _ (fun may => may.elim) trivial (by rw [loop]; rfl)) rfl
  | park recent loop =>
    exact quiet (sender.relocate _ (fun may => may.elim) trivial (by rw [loop]; rfl)) rfl
  | skip recent caller loop _ =>
    exact quiet (back_sender sender caller (by rw [loop]; rfl) (by rw [loop]; rfl)) rfl
  | begin recent caller loop _ =>
    have may (at_ : caller = .outer) := sender.room (by rw [loop]; exact at_)
    exact quiet (sender.relocate _ may trivial (by rw [loop]; rfl)) rfl
  | readBase recent caller loop =>
    have may (at_ : caller = .outer) := sender.room (by rw [loop]; exact at_)
    exact quiet (sender.relocate _ may ⟨base,sender.baseLabel,lower,upper⟩ (by rw [loop]; rfl)) rfl
  | emptied recent caller loop =>
    exact quiet (back_sender sender caller (by rw [loop]; rfl) (by rw [loop]; rfl)) rfl
  | start recent caller first syncer loop _ started =>
    have place := sender.place
    rw [loop] at place
    have may (at_ : caller = .outer) := sender.room (by rw [loop]; exact at_)
    obtain ⟨_,again,cycle⟩ := e.queue.resend_starts sender.syncer sender.cycle_pos
    cases again.symm.trans started
    exact quiet ((sender.resync syncer cycle).relocate _ may ⟨place,sender.topLabel⟩
      (by rw [loop]; rfl)) rfl
  | startFails recent caller first fault loop failed =>
    obtain ⟨_,started,_⟩ := e.queue.resend_starts sender.syncer sender.cycle_pos
    cases started.symm.trans failed
  | next recent caller first top next packet loop apart fetched =>
    obtain ⟨topLabel,k,label,strict,near⟩ := resending_position sender caller first top loop apart
    obtain ⟨_,found,after⟩ := resendNext_eq sender first k label strict near
    cases found.symm.trans fetched
    exact ⟨_,next_effect sender direction caller first top next loop topLabel k strict near after⟩
  | nextFails recent caller first top fault loop apart failed =>
    obtain ⟨_,k,label,strict,near⟩ := resending_position sender caller first top loop apart
    obtain ⟨_,found,_⟩ := resendNext_eq sender first k label strict near
    cases found.symm.trans failed
  | resent recent caller top loop =>
    have may (at_ : caller = .outer) := sender.room (by rw [loop]; exact at_)
    exact quiet (sender.relocate _ may trivial (by rw [loop]; rfl)) rfl
  | synced recent caller loop =>
    have settled := sender.resync e.queue.syncer.reset sender.syncer
    exact quiet (back_sender settled caller (by rw [loop]; rfl) (by rw [loop]; rfl)) rfl

end SendSteps

end NodeConnect.Gbn
