import NodeConnect.Gbn.Delivery
import NodeConnect.Gbn.ArbitraryPeer
import NodeConnect.Gbn.TimedNet
import NodeConnect.Gbn.ResendEstimate

/-! Which transmission an RTT sample belongs to. `sentTimes` is keyed by labels; its entry for a
label stands for the last packet under it whose first transmission was recorded. An ACK can arrive
before that, between the two halves of `sendPacket`. -/
namespace NodeConnect.Gbn
open Lib

namespace TimeoutManager

variable (m : TimeoutManager)

theorem sent_data (sentAt boostAt : Int) (packet : PacketData) (resent : Bool) :
    (m.sent sentAt boostAt (.data packet) resent).useStaticTimeout = m.useStaticTimeout ∧
      (m.sent sentAt boostAt (.data packet) resent).sentTimes = if m.useStaticTimeout then m.sentTimes
        else Function.update m.sentTimes packet.seq (if resent then none else some sentAt) := by
  cases static : m.useStaticTimeout with
  | true => simp [sent,static]
  | false => cases resent <;> simp [sent,static]

theorem received_slotTime (dynamic : m.useStaticTimeout = false) (receivedAt resetAt : Int) {msg : Message} {slot : Slot}
    {time : Int} (answers : msg.answers = some slot) (found : m.slotTime slot = some time) :
    (m.received receivedAt resetAt msg).options = m.options ∧
      ∀ other, (m.received receivedAt resetAt msg).slotTime other = if other = slot then none else m.slotTime other := by
  cases slot with
  | syn =>
    obtain ⟨options,times,_⟩ := m.received_syn dynamic receivedAt resetAt msg answers found
    exact ⟨options,times⟩
  | data seq =>
    have ack : msg = .ack seq := by cases msg <;> simp_all [Message.answers]
    subst ack
    obtain ⟨options,times,_⟩ := m.received_ack dynamic receivedAt resetAt seq found
    exact ⟨options,times⟩

/-- `Received` only takes entries away. -/
theorem received_sentTimes (receivedAt resetAt : Int) (msg : Message) :
    (m.received receivedAt resetAt msg).useStaticTimeout = m.useStaticTimeout ∧
      ∀ seq time, (m.received receivedAt resetAt msg).sentTimes seq = some time → m.sentTimes seq = some time := by
  cases static : m.useStaticTimeout with
  | true => simp [received,static]
  | false =>
    cases matched : m.sentTime msg with
    | none =>
      rw [m.received_unmatched receivedAt resetAt msg matched]
      exact ⟨static,fun _ _ => id⟩
    | some sentTime =>
      rw [sentTime_eq] at matched
      obtain ⟨slot,answers,found⟩ := Option.bind_eq_some_iff.mp matched
      obtain ⟨options,times⟩ := m.received_slotTime static receivedAt resetAt answers found
      refine ⟨(congrArg (·.1) options).trans static,fun seq time entry => ?_⟩
      have before := (times (.data seq)).symm.trans entry
      split_ifs at before
      exact before

end TimeoutManager

/-- The packet is the one for which `Sent` has yet to be called. -/
def Clock.Pends (c : Clock) (i : Nat) : Prop := ∃ u, c.pending = some u ∧ u.position = i

/-- Of the `used` packets that were added the first `begun` have been put on the stream. The entry of
a label belongs to a packet whose only recorded transmission it is; of the later packets under the
label, none has a transmission that was recorded. -/
structure ClockSound (n used begun : Nat) (c : Clock) : Prop where
  within : begun ≤ used
  begun : ∀ i, c.log i ≠ [] ↔ i < begun
  fixed : c.manager.useStaticTimeout = true → ∀ seq, c.manager.sentTimes seq = none
  pending : ∀ u, c.pending = some u → u.position < used ∧ used ≤ u.position + n ∧
    u.packet.seq.toNat = u.position % (n + 1) ∧ ∃ older, c.log u.position = older ++ [none] ∧
      (u.resent = false → older = [] ∧ u.position + 1 = used)
  entries : ∀ seq time, c.manager.sentTimes seq = some time → ∃ i, i % (n + 1) = seq.toNat ∧
    (c.log i = [some time] ∨ c.log i = [some time,none] ∧ c.Pends i) ∧
      ∀ j, i < j → j % (n + 1) = seq.toNat → j < used → c.log j = [] ∨ c.log j = [none] ∧ c.Pends j

namespace ClockSound

variable {n used begun begun' : Nat} {c : Clock}

theorem note (sound : ClockSound n used begun c) (noted : Bool) : ClockSound n used begun {c with noted} :=
  ⟨sound.within,sound.begun,sound.fixed,sound.pending,sound.entries⟩

theorem idle_entries (sound : ClockSound n used begun c) (idle : c.pending = none) {seq : UInt8} {time : Int}
    (entry : c.manager.sentTimes seq = some time) : ∃ i, i % (n + 1) = seq.toNat ∧ c.log i = [some time] ∧
      ∀ j, i < j → j % (n + 1) = seq.toNat → j < used → c.log j = [] := by
  have settled (i : Nat) : ¬ c.Pends i := by
    rintro ⟨u,pending,_⟩
    exact absurd (idle.symm.trans pending) nofun
  obtain ⟨i,label,timed,later⟩ := sound.entries seq time entry
  refine ⟨i,label,timed.resolve_right fun pends => settled i pends.2,fun j after same bound => ?_⟩
  exact (later j after same bound).resolve_right fun pends => settled j pends.2

theorem add (sound : ClockSound n used begun c) (idle : c.pending = none) : ClockSound n (used + 1) begun c := by
  refine ⟨Nat.le_succ_of_le sound.within,sound.begun,sound.fixed,?_,?_⟩
  · intro u pending
    exact absurd (idle.symm.trans pending) nofun
  · intro seq time entry
    obtain ⟨i,label,timed,later⟩ := sound.idle_entries idle entry
    refine ⟨i,label,.inl timed,fun j after same bound => .inl ?_⟩
    rcases Nat.lt_or_ge j used with old | new
    · exact later j after same old
    · by_contra sent
      have begun := (sound.begun j).mp sent
      have within := sound.within
      omega

theorem transmit (sound : ClockSound n used begun c) (idle : c.pending = none) (i : Nat) (packet : PacketData)
    (resent : Bool) (added : i < used) (near : used ≤ i + n) (label : packet.seq.toNat = i % (n + 1))
    (first : resent = false → i = begun ∧ i + 1 = used) (again : resent = true → i < begun)
    (grown : begun' = if resent then begun else begun + 1) :
    ClockSound n used begun' {c with
      pending := some ⟨packet,resent,i⟩, log := Function.update c.log i (c.log i ++ [none])} := by
  have counted (j : Nat) : j < begun' ↔ j = i ∨ j < begun := by
    cases resent with
    | true =>
      have before := again rfl
      rw [grown,if_pos rfl]
      omega
    | false =>
      have next := (first rfl).1
      rw [grown,if_neg Bool.false_ne_true]
      omega
  refine ⟨?_,fun j => ?_,sound.fixed,?_,?_⟩
  · have within := sound.within
    have last := (counted (begun' - 1)).mp
    omega
  · change Function.update c.log i _ j ≠ [] ↔ _
    rw [counted,← sound.begun,Function.update_apply]
    split_ifs with same <;> simp [same]
  · rintro u ⟨⟩
    refine ⟨added,near,label,c.log i,Function.update_self _ _ _,fun fresh => ⟨?_,(first fresh).2⟩⟩
    by_contra sent
    have before := (sound.begun i).mp sent
    have next := (first fresh).1
    omega
  · intro seq time entry
    obtain ⟨k,same,timed,later⟩ := sound.idle_entries idle entry
    have pends : ∃ u, some (Unrecorded.mk packet resent i) = some u ∧ u.position = i := ⟨_,rfl,rfl⟩
    refine ⟨k,same,?_,fun j after label bound => ?_⟩
    · by_cases here : k = i
      · subst here
        exact .inr ⟨by simp [timed],pends⟩
      · exact .inl (by simp [here,timed])
    · have unsent := later j after label bound
      by_cases here : j = i
      · subst here
        exact .inr ⟨by simp [unsent],pends⟩
      · exact .inl (by simp [here,unsent])

theorem sent (sound : ClockSound n used begun c) {next : Clock} (sentAt boostAt : Int)
    (stepped : c.sent sentAt boostAt = some next) : ClockSound n used begun next := by
  obtain ⟨u,pending,rfl⟩ := Option.map_eq_some_iff.mp stepped
  obtain ⟨added,near,label,older,logged,first⟩ := sound.pending u pending
  obtain ⟨static,times⟩ := c.manager.sent_data sentAt boostAt u.packet u.resent
  have noted : (c.log u.position).dropLast ++ [some sentAt] = older ++ [some sentAt] := by
    rw [logged,List.dropLast_concat]
  refine ⟨sound.within,fun i => ?_,fun fixed seq => ?_,nofun,fun seq time entry => ?_⟩
  · change Function.update c.log u.position _ i ≠ [] ↔ _
    rw [← sound.begun,Function.update_apply]
    split_ifs with same
    · simp [same,logged]
    · rfl
  · rw [static] at fixed
    rw [times,if_pos fixed]
    exact sound.fixed fixed seq
  · have dynamic : ¬ c.manager.useStaticTimeout = true := by
      intro fixed
      rw [times,if_pos fixed,sound.fixed fixed] at entry
      cases entry
    rw [times,if_neg dynamic,Function.update_apply] at entry
    split_ifs at entry with same resent
    · -- The first transmission of the packet that was added last.
      cases entry
      obtain ⟨none_,last⟩ := first (eq_false_of_ne_true resent)
      refine ⟨u.position,by rw [same,label],.inl ?_,fun j after _ bound => ?_⟩
      · simp [noted,none_]
      · omega
    · -- Another label, so another packet.
      have apart {i : Nat} (other : i % (n + 1) = seq.toNat) : i ≠ u.position := by
        rintro rfl
        exact same (UInt8.toNat_inj.mp (other.symm.trans label.symm))
      have settled {i : Nat} (other : i % (n + 1) = seq.toNat) : ¬ c.Pends i := by
        rintro ⟨v,again,rfl⟩
        cases pending.symm.trans again
        exact apart other rfl
      obtain ⟨i,other,timed,later⟩ := sound.entries seq time entry
      refine ⟨i,other,.inl ?_,fun j after label bound => .inl ?_⟩
      · simpa [apart other] using timed.resolve_right fun pends => settled other pends.2
      · simpa [apart label] using (later j after label bound).resolve_right fun pends => settled label pends.2

theorem received (sound : ClockSound n used begun c) (receivedAt resetAt : Int) (bytes : Bytes) :
    ClockSound n used begun (c.received receivedAt resetAt bytes) := by
  unfold Clock.received
  split
  next => exact sound.note true
  next msg _ =>
    obtain ⟨static,fewer⟩ := c.manager.received_sentTimes receivedAt resetAt msg
    refine ⟨sound.within,sound.begun,fun fixed seq => ?_,sound.pending,fun seq time entry => ?_⟩
    · have none_ := sound.fixed (static.symm.trans fixed) seq
      by_contra entry
      obtain ⟨time,entry⟩ := Option.ne_none_iff_exists'.mp entry
      exact absurd (none_.symm.trans (fewer seq time entry)) nofun
    · exact sound.entries seq time (fewer seq time entry)

end ClockSound

/-- How many packets have been put on the stream. -/
def transmitted (e : Endpoint) : Nat :=
  match e.sendLoop with
  | .added _ => e.added.length - 1
  | _ => e.added.length

section Sending

variable {n : UInt8} {e e' : Endpoint} {base : Nat} {c : Clock}

theorem Sender.position_eq (sender : Sender n e base) {i : Nat} {packet : PacketData} (found : e.added[i]? = some packet)
    (near : e.added.length ≤ i + n.toNat) : position e.added packet.seq = i := by
  have used := (List.getElem?_eq_some_iff.mp found).1
  refine Nat.findGreatest_eq_iff.mpr ⟨Nat.le_of_lt used,fun _ => by rw [found]; rfl,fun j after bound same => ?_⟩
  obtain ⟨other,held,label⟩ := Option.map_eq_some_iff.mp same
  have labels : j % (n.toNat + 1) = i % (n.toNat + 1) := by
    rw [← sender.labelled j other held,← sender.labelled i packet found,label]
  have := mod_inj_of_close (n.toNat + 1) j i (by omega) (by omega) labels
  omega

theorem transmitted_eq (away : ∀ packet, e.sendLoop ≠ .added packet) : transmitted e = e.added.length := by
  unfold transmitted
  split
  next packet here => exact absurd here (away packet)
  next => rfl

theorem Caller.back_ne_added (caller : Caller) (packet : PacketData) : caller.back ≠ .added packet := by
  cases caller <;> exact nofun

theorem Caller.waits_ne_added (caller : Caller) (packet : PacketData) : caller.waits ≠ .added packet := by
  cases caller <;> exact nofun

/-- A packet is put on the stream: for the first time, or once more. -/
theorem ClockSound.sends (sender : Sender n e base) {begun begun' : Nat} (sound : ClockSound n.toNat e.added.length begun c)
    (idle : c.pending = none) {i : Nat} {packet : PacketData} (found : e.added[i]? = some packet)
    (near : e.added.length ≤ i + n.toNat) (resent : Bool) (first : resent = false → i = begun ∧ i + 1 = e.added.length)
    (again : resent = true → i < begun) (grown : begun' = if resent then begun else begun + 1) :
    ClockSound n.toNat e.added.length begun' (c.transmit e.added resent [.data packet]) := by
  have used := (List.getElem?_eq_some_iff.mp found).1
  simp only [Clock.transmit,sender.position_eq found near]
  exact sound.transmit idle i packet resent used near (sender.labelled i packet found) first again grown

/-- What the send loop does, as its clock sees it. -/
theorem Endpoint.SendMoves.clock {action : SendAction} {messages : List Message} (moves : e.SendMoves action e' messages)
    (positive : 1 ≤ n.toNat) (sender : Sender n e base) (sound : ClockSound n.toNat e.added.length (transmitted e) c)
    (idle : c.pending = none) :
    ClockSound n.toNat e'.added.length (transmitted e') (c.transmit e'.added e.sendLoop.resends messages) := by
  have quiet (here : ∀ packet, e.sendLoop ≠ .added packet) (there : ∀ packet, e'.sendLoop ≠ .added packet)
      (added : e'.added = e.added) : ClockSound n.toNat e'.added.length (transmitted e') c := by
    rw [transmitted_eq there,added]
    rwa [transmitted_eq here] at sound
  cases moves with
  | take payload finalChunk loop | ping loop | addFails recent packet fault loop | room recent loop
  | full recent loop | park recent loop | begin recent caller loop | readBase recent caller loop
  | start recent caller first syncer loop | startFails recent caller first fault loop
  | nextFails recent caller first top fault loop | resent recent caller top loop =>
    exact quiet (by rw [loop]; exact fun _ => nofun) (fun _ => nofun) rfl
  | signalled caller loop | ticked caller loop =>
    exact quiet (by rw [loop]; exact caller.waits_ne_added) (fun _ => nofun) rfl
  | skip recent caller loop | emptied recent caller loop | synced recent caller loop =>
    exact quiet (by rw [loop]; exact fun _ => nofun) caller.back_ne_added rfl
  | add recent packet queue loop added =>
    rw [transmitted_eq (by rw [loop]; exact fun _ => nofun)] at sound
    have grown := sound.add idle
    simp only [transmitted,List.length_append,List.length_singleton,Nat.add_sub_cancel]
    exact grown
  | transmit recent packet loop =>
    obtain ⟨i,last,length⟩ := sender.last_added loop
    have begun : transmitted e = i := by simp [transmitted,loop,length]
    rw [loop]
    refine ClockSound.sends (c := c) sender sound idle last (by omega) false ?_ nofun ?_
    · exact fun _ => ⟨begun.symm,length.symm⟩
    · change e.added.length = transmitted e + 1
      omega
  | next recent caller first top next packet loop apart fetched =>
    obtain ⟨topLabel,k,label,strict,near⟩ := resending_position sender caller first top loop apart
    obtain ⟨_,found,after⟩ := resendNext_eq sender first k label strict near
    cases found.symm.trans fetched
    have begun : transmitted e = e.added.length := transmitted_eq (by rw [loop]; exact fun _ => nofun)
    rw [loop]
    refine ClockSound.sends (c := c) sender sound idle (List.getElem?_eq_getElem strict) near true nofun ?_ ?_
    · exact fun _ => by rwa [begun]
    · exact begun.symm

theorem Endpoint.SendMoves.transmitted_eq {action : SendAction} {messages : List Message}
    (moves : e.SendMoves action e' messages) (some_ : messages ≠ []) : transmitted e' = e'.added.length := by
  cases moves with
  | transmit | next => rfl
  | _ => exact absurd rfl some_

/-- Nothing that was on the stream is forgotten. -/
theorem ClockSound.begun_le {n used used' begun begun' : Nat} {c next : Clock} (sound : ClockSound n used begun c)
    (later : ClockSound n used' begun' next) (kept : ∀ i, c.log i ≠ [] → next.log i ≠ []) : begun ≤ begun' := by
  by_contra fewer
  have sent := (sound.begun begun').mpr (Nat.lt_of_not_le fewer)
  exact Nat.lt_irrefl _ ((later.begun begun').mp (kept begun' sent))

theorem Clock.transmit_log (c : Clock) (added : List PacketData) (resent : Bool) (messages : List Message) (i : Nat)
    (sent : c.log i ≠ []) : (c.transmit added resent messages).log i ≠ [] := by
  unfold Clock.transmit
  split
  next packet =>
    change Function.update c.log _ _ i ≠ []
    rw [Function.update_apply]
    split_ifs
    · simp
    · exact sent
  next => exact sent

theorem Endpoint.ReceiveMoves.transmitted_eq (moves : e.ReceiveMoves e') : transmitted e' = transmitted e := by
  cases moves with
  | wake thenResend loop parked => simp [transmitted,parked]
  | _ => rfl

end Sending

/-- The packet that an ACK in flight acknowledges. -/
def Tag.acknowledges : Tag → Option Nat
  | .ack i => some i
  | _ => none

/-- A message and its tag acknowledge the same packet. -/
theorem acknowledges_eq {s accepted : Nat} {added : List PacketData} {messages : List Message} {out : List Tag}
    (encoded : messages.map serialize = out.map (encode s added)) (current : ∀ k, Tag.ack k ∈ out → k = accepted) :
    messages.map (·.acknowledges accepted) = out.map Tag.acknowledges := by
  induction messages generalizing out with
  | nil =>
    rw [List.map_nil,eq_comm,List.map_eq_nil_iff] at encoded
    rw [encoded]
    rfl
  | cons message messages ih =>
    obtain ⟨tag,rest,rfl,first,later⟩ := List.map_eq_cons_iff.mp encoded.symm
    rw [List.map_cons,List.map_cons,ih later.symm fun k member => current k (List.mem_cons_of_mem _ member)]
    congr 1
    cases tag with
    | data i =>
      have same : .data (added.getD i {}) = message := serialize_injective first
      rw [← same]
      rfl
    | ack k =>
      have same : .ack (UInt8.ofNat (k % s)) = message := serialize_injective first
      rw [← same,current k List.mem_cons_self]
      rfl
    | nack a =>
      have same : .nack (UInt8.ofNat (a % s)) = message := serialize_injective first
      rw [← same]
      rfl

/-- What an endpoint does with a message, as far as packets are accepted. -/
theorem Endpoint.deliver_accepts (e : Endpoint) (bytes : Bytes) (recentlySent : Bool) :
    (e.deliver bytes recentlySent).1.accepted = e.accepted ∧ (∀ seq, .ack seq ∉ (e.deliver bytes recentlySent).2) ∨
    ∃ packet, deserialize bytes = .ok (.data packet) ∧ packet.seq = e.recvSeq ∧
      (e.deliver bytes recentlySent).1.accepted = e.accepted ++ [packet] ∧
      (e.deliver bytes recentlySent).2 = [.ack packet.seq] := by
  cases parsed : deserialize bytes with
  | error err => exact .inl (by simp [deliver,parsed])
  | ok message =>
    cases message with
    | data packet =>
      by_cases expected : packet.seq = e.recvSeq
      · exact .inr ⟨packet,rfl,expected,by simp [deliver,parsed,expected]⟩
      · refine .inl ?_
        simp only [deliver,parsed,if_neg expected]
        split_ifs <;> simp
    | nack seq =>
      rw [deliver_nack bytes recentlySent seq parsed]
      dsimp only
      split_ifs <;> exact .inl (by simp)
    | ack seq =>
      simp only [deliver,parsed]
      split_ifs <;> exact .inl (by simp)
    | syn n => exact .inl (by simp [deliver,parsed])
    | synack => exact .inl (by simp [deliver,parsed])
    | fin => exact .inl (by simp [deliver,parsed])

section Delivering

variable {n : UInt8} {e peer : Endpoint} {peerBase : Nat} {peerHeld : List Nat} {incoming outgoing : List Tag} {held : List Nat}

/-- A packet that is accepted is the one the receiver has got to. -/
theorem Receiver.expects (receiver : Receiver n e held) (ready : e.receiveLoop = .ready)
    (peerSender : Sender n peer peerBase) (opposite : Direction n.toNat peer e peerBase peerHeld incoming outgoing)
    {tag : Tag} (member : tag ∈ incoming) (packet : PacketData)
    (parsed : deserialize (encode (n.toNat + 1) peer.added tag) = .ok (.data packet)) (expected : packet.seq = e.recvSeq) :
    tag = .data e.accepted.length := by
  cases tag with
  | data i =>
    have inFlight : i ∈ incoming.filterMap Tag.position := List.mem_filterMap.mpr ⟨.data i,member,rfl⟩
    have found := List.getElem?_eq_getElem (opposite.inv.data_lt i inFlight)
    have same : peer.added.getD i {} = packet := by
      rw [encode,deserialize_serialize] at parsed
      exact Message.data.inj (Except.ok.inj parsed)
    rw [List.getD_eq_getElem?_getD,found,Option.getD_some] at same
    have label := peerSender.labelled i _ found
    rw [same,expected,receiver.label,counted,ready] at label
    rw [opposite.inv.position_eq i inFlight label.symm]
  | ack k =>
    rw [encode,deserialize_serialize] at parsed
    cases parsed
  | nack a =>
    rw [encode,deserialize_serialize] at parsed
    cases parsed

/-- An ACK is sent for the packet that was accepted with it. -/
theorem Receiver.acknowledges (receiver : Receiver n e held) (ready : e.receiveLoop = .ready) {bytes : Bytes}
    {recentlySent : Bool} {out : List Tag}
    (encoded : (e.deliver bytes recentlySent).2.map serialize = out.map (encode (n.toNat + 1) e.added))
    (opposite : Direction n.toNat peer (e.deliver bytes recentlySent).1 peerBase peerHeld incoming (outgoing ++ out))
    {k : Nat} (member : .ack k ∈ out) : k = e.accepted.length := by
  have sent : serialize (.ack (UInt8.ofNat (k % (n.toNat + 1)))) ∈ (e.deliver bytes recentlySent).2.map serialize := by
    rw [encoded]
    exact List.mem_map.mpr ⟨.ack k,member,rfl⟩
  obtain ⟨message,among,same⟩ := List.mem_map.mp sent
  rw [serialize_injective same] at among
  rcases e.deliver_accepts bytes recentlySent with ⟨_,silent⟩ | ⟨packet,_,expected,accepted,messages⟩
  · exact absurd among (silent _)
  · have label : k % (n.toNat + 1) = e.accepted.length % (n.toNat + 1) := by
      rw [messages,List.mem_singleton,Message.ack.injEq] at among
      rw [← toNat_ofNat_mod,among,expected,receiver.label,counted,ready]
    have answers : k + 1 ∈ peerHeld ++ (outgoing ++ out).filterMap Tag.answer := by
      rw [List.filterMap_append]
      exact List.mem_append_right _ (List.mem_append_right _ (List.mem_filterMap.mpr ⟨.ack k,member,rfl⟩))
    have inv := opposite.inv
    rw [accepted,List.length_append,List.length_singleton] at inv
    have bound := inv.acks_bound (k + 1) answers
    have reached := inv.next_le
    have upper := inv.top_le
    exact mod_inj_of_close (n.toNat + 1) k e.accepted.length (by omega) (by omega) label

end Delivering

/-- The invariants of the two connections together with what their clocks and histories say. -/
structure Timed (n : UInt8) (t : TimedNet) (base : Side → Nat) (held : Side → List Nat) (tags : Side → List Tag) :
    Prop where
  sound : Sound n t.net base held tags
  origins : ∀ x, t.origins x = (tags x).map Tag.acknowledges
  clocks : ∀ x, ClockSound n.toNat (t.net.ends x).added.length (transmitted (t.net.ends x)) (t.clocks x)
  flights : ∀ x, ∀ i ∈ (tags x.other).filterMap Tag.position, i < transmitted (t.net.ends x)
  accepted : ∀ x, (t.net.ends x.other).accepted.length ≤ transmitted (t.net.ends x)

namespace Timed

variable {n : UInt8} {t next : TimedNet} {base : Side → Nat} {held : Side → List Nat} {tags : Side → List Tag}

theorem clock (timed : Timed n t base held tags) (side : Side) {clock : Clock}
    (sound : ClockSound n.toNat (t.net.ends side).added.length (transmitted (t.net.ends side)) clock) :
    Timed n {t with clocks := Function.update t.clocks side clock} base held tags := by
  refine ⟨timed.sound,timed.origins,Side.forall_of_both side ?_ ?_,timed.flights,timed.accepted⟩
  · simpa using sound
  · simpa [side.other_ne] using timed.clocks side.other

/-- One endpoint moves and sends something: what holds of the new endpoint, and of its messages. -/
theorem update (timed : Timed n t base held tags) (side : Side) (out : List Tag) {e : Endpoint}
    {messages : List Message} {clock : Clock} {base' : Side → Nat} {held' : Side → List Nat}
    (sound : Sound n (t.net.update side e messages) base' held'
      (Function.update tags side.other (tags side.other ++ out)))
    (origins : messages.map (·.acknowledges (t.net.ends side).accepted.length) = out.map Tag.acknowledges)
    (clocks : ClockSound n.toNat e.added.length (transmitted e) clock)
    (grown : transmitted (t.net.ends side) ≤ transmitted e) (flights : ∀ i ∈ out.filterMap Tag.position, i < transmitted e)
    (accepted : e.accepted.length ≤ transmitted (t.net.ends side.other)) :
    Timed n ⟨t.net.update side e messages,Function.update t.clocks side clock,t.answer side messages⟩ base' held'
      (Function.update tags side.other (tags side.other ++ out)) := by
  have apart := side.other_ne
  refine ⟨sound,Side.forall_of_both side ?_ ?_,Side.forall_of_both side ?_ ?_,Side.forall_of_both side ?_ ?_,
    Side.forall_of_both side ?_ ?_⟩
  · simpa [TimedNet.answer,apart.symm] using timed.origins side
  · simp [TimedNet.answer,timed.origins side.other,origins]
  · simpa [Net.update] using clocks
  · simpa [Net.update,apart] using timed.clocks side.other
  · intro i member
    simp only [Function.update_self,List.filterMap_append,List.mem_append] at member
    rw [show (t.net.update side e messages).ends side = e from Function.update_self _ _ _]
    rcases member with old | new
    · exact Nat.lt_of_lt_of_le (timed.flights side i old) grown
    · exact flights i new
  · simpa [Net.update,apart,apart.symm,Side.other_other] using timed.flights side.other
  · have before := timed.accepted side
    simpa [Net.update,apart] using before.trans grown
  · simpa [Net.update,apart,Side.other_other] using accepted

theorem send (timed : Timed n t base held tags) (positive : 1 ≤ n.toNat) (side : Side) (action : SendAction)
    (stepped : t.step (.send side action) = some next) : ∃ tags', Timed n next base held tags' := by
  obtain ⟨idle,sent⟩ := Option.ite_none_right_eq_some.mp stepped
  obtain ⟨⟨e,messages⟩,moved,rfl⟩ := Option.map_eq_some_iff.mp sent
  have moves := Endpoint.sendStep_moves action messages moved
  obtain ⟨out,effect⟩ := sendMoves_effect positive (timed.sound.sender side) (timed.sound.direction side) action e
    messages moves
  have clocks := moves.clock positive (timed.sound.sender side) (timed.clocks side) idle
  refine ⟨_,timed.update side out (timed.sound.sendEffect side e messages out effect) ?_ clocks ?_ ?_ ?_⟩
  · refine acknowledges_eq effect.encoded fun k member => ?_
    have answers : k + 1 ∈ out.filterMap Tag.answer := List.mem_filterMap.mpr ⟨.ack k,member,rfl⟩
    rw [effect.silent] at answers
    cases answers
  · exact (timed.clocks side).begun_le clocks fun i => (t.clocks side).transmit_log _ _ messages i
  · intro i member
    have some_ : messages ≠ [] := by
      rintro rfl
      have none_ : out = [] := List.map_eq_nil_iff.mp effect.encoded.symm
      rw [none_] at member
      cases member
    rw [moves.transmitted_eq some_]
    refine effect.direction.inv.data_lt i ?_
    rw [List.filterMap_append]
    exact List.mem_append_right _ member
  · rw [effect.receiver.accepted]
    simpa [Side.other_other] using timed.accepted side.other

theorem received (timed : Timed n t base held tags) (side : Side) (receivedAt resetAt : Int)
    (stepped : t.step (.received side receivedAt resetAt) = some next) : Timed n next base held tags := by
  simp only [TimedNet.step] at stepped
  split at stepped
  next => 
    cases stepped
    exact timed.clock side ((timed.clocks side).received receivedAt resetAt _)
  next => cases stepped

theorem sent (timed : Timed n t base held tags) (side : Side) (sentAt boostAt : Int)
    (stepped : t.step (.sent side sentAt boostAt) = some next) : Timed n next base held tags := by
  obtain ⟨clock,called,rfl⟩ := Option.map_eq_some_iff.mp stepped
  exact timed.clock side ((timed.clocks side).sent sentAt boostAt called)

theorem erase (timed : Timed n t base held tags) (side : Side) (index : Nat) :
    Timed n ⟨{t.net with wire := Function.update t.net.wire side ((t.net.wire side).eraseIdx index)},t.clocks,
        Function.update t.origins side ((t.origins side).eraseIdx index)⟩
      base held (Function.update tags side ((tags side).eraseIdx index)) := by
  have apart := side.other_ne
  refine ⟨timed.sound.lose side index,Side.forall_of_both side ?_ ?_,timed.clocks,Side.forall_of_both side ?_ ?_,
    timed.accepted⟩
  · simp [timed.origins side,List.eraseIdx_eq_take_drop_succ,List.map_take,List.map_drop]
  · simpa [apart] using timed.origins side.other
  · simpa [apart] using timed.flights side
  · intro i member
    rw [Side.other_other,Function.update_self] at member
    refine timed.flights side.other i ?_
    rw [Side.other_other]
    exact ((List.eraseIdx_sublist (tags side) index).filterMap _).subset member

theorem lose (timed : Timed n t base held tags) (side : Side) (index : Nat)
    (stepped : t.step (.lose side index) = some next) :
    Timed n next base held (Function.update tags side ((tags side).eraseIdx index)) := by
  simp only [TimedNet.step] at stepped
  split_ifs at stepped
  obtain ⟨net,lost,rfl⟩ := Option.map_eq_some_iff.mp stepped
  obtain ⟨_,⟨⟩⟩ := Option.ite_none_right_eq_some.mp lost
  exact timed.erase side index

/-- An endpoint moves and sends nothing; its clock does not see it. -/
theorem still (timed : Timed n t base held tags) (side : Side) {e : Endpoint} {base' : Side → Nat}
    {held' : Side → List Nat} (sound : Sound n (t.net.update side e []) base' held' tags)
    (added : e.added = (t.net.ends side).added) (same : transmitted e = transmitted (t.net.ends side))
    (accepted : e.accepted = (t.net.ends side).accepted) : Timed n {t with net := t.net.update side e []} base' held' tags := by
  have clocks := timed.clocks side
  rw [← added,← same] at clocks
  have before := timed.accepted side.other
  rw [Side.other_other,← accepted] at before
  have moved := timed.update side [] (by simpa using sound) rfl clocks (Nat.le_of_eq same.symm) nofun before
  simpa [TimedNet.answer] using moved

theorem receive (timed : Timed n t base held tags) (positive : 1 ≤ n.toNat) (side : Side)
    (stepped : t.step (.receive side) = some next) : ∃ base' held', Timed n next base' held' tags := by
  obtain ⟨net,received,rfl⟩ := Option.map_eq_some_iff.mp stepped
  obtain ⟨e,moved,rfl⟩ := Option.map_eq_some_iff.mp received
  have moves := Endpoint.receiveStep_moves moved
  obtain ⟨base',held',effect,_⟩ := receiveMoves_effect positive (timed.sound.sender side) (timed.sound.receiver side)
    (timed.sound.direction side) (timed.sound.opposite side) e moves
  have sound := timed.sound.receiveEffect side e [] [] base' held' effect
  refine ⟨_,_,timed.still side (by simpa using sound) effect.added moves.transmitted_eq ?_⟩
  cases moves <;> rfl

theorem drain (timed : Timed n t base held tags) (side : Side) (stepped : t.step (.drain side) = some next) :
    Timed n next base held tags := by
  obtain ⟨net,drained,rfl⟩ := Option.map_eq_some_iff.mp stepped
  simp only [Net.step] at drained
  split at drained
  next first rest queued =>
    cases drained
    have sender := (timed.sound.sender side).frame {t.net.ends side with recvDataChan := rest} rfl rfl rfl rfl rfl
    exact timed.still side (timed.sound.frame side _ sender ⟨rfl,rfl,rfl,rfl,rfl⟩ rfl) rfl rfl rfl
  next => cases drained

theorem timer (timed : Timed n t base held tags) (side : Side) (stepped : t.step (.timer side) = some next) :
    Timed n next base held tags := by
  obtain ⟨net,ended,rfl⟩ := Option.map_eq_some_iff.mp stepped
  obtain ⟨_,⟨⟩⟩ := Option.ite_none_right_eq_some.mp ended
  have cycle := (Queue.proceedAfterTime_syncer _).trans (timed.sound.sender side).syncer
  have sender := (timed.sound.sender side).resync _ cycle
  exact timed.still side (timed.sound.frame side _ sender ⟨rfl,rfl,rfl,rfl,rfl⟩ rfl) rfl rfl rfl

/-- The oldest message is worked on and stays in flight. -/
theorem work (timed : Timed n t base held tags) (positive : 1 ≤ n.toNat) {side : Side}
    (ready : (t.net.ends side).receiveLoop = .ready) {bytes : Bytes} {rest : List Bytes}
    (wire : t.net.wire side = bytes :: rest) (recentlySent : Bool) :
    ∃ base' held' tags', Timed n ⟨t.net.update side ((t.net.ends side).deliver bytes recentlySent).1
        ((t.net.ends side).deliver bytes recentlySent).2,
      Function.update t.clocks side {t.clocks side with noted := false},
      t.answer side ((t.net.ends side).deliver bytes recentlySent).2⟩ base' held' tags' := by
  have onWire := timed.sound.wire side
  rw [wire] at onWire
  obtain ⟨tag,later,tagged,rfl,rfl⟩ := List.map_eq_cons_iff.mp onWire.symm
  have receiver := timed.sound.receiver side
  have own := timed.sound.direction side
  have opposite := timed.sound.opposite side
  have head : tag ∈ tags side := by
    rw [tagged]
    exact List.mem_cons_self
  have before := timed.accepted side.other
  have inFlight := timed.flights side.other
  rw [Side.other_other] at before inFlight
  have expects := receiver.expects ready (timed.sound.sender side.other) opposite head
  rw [tagged] at own opposite
  obtain ⟨out,base',held',effect,_⟩ := deliver_effect positive (timed.sound.sender side) receiver ready
    (timed.sound.sender side.other) tag later own opposite recentlySent
  obtain ⟨_,_,_,loop,_⟩ := (t.net.ends side).deliver_kept (encode (n.toNat + 1) (t.net.ends side.other).added tag)
    recentlySent
  have same : transmitted ((t.net.ends side).deliver (encode (n.toNat + 1) (t.net.ends side.other).added tag)
      recentlySent).1 = transmitted (t.net.ends side) := by
    simp only [transmitted,loop,effect.added]
  have clocks := (timed.clocks side).note false
  rw [← effect.added,← same] at clocks
  have encoded := effect.encoded
  rw [effect.added] at encoded
  have kept := effect
  rw [← tagged] at kept
  refine ⟨_,_,_,timed.update side out (timed.sound.receiveEffect side _ _ out base' held' kept) ?_ clocks
    (Nat.le_of_eq same.symm) ?_ ?_⟩
  · exact acknowledges_eq encoded fun k member => receiver.acknowledges ready encoded effect.opposite member
  · rw [effect.noData]
    exact nofun
  · rcases (t.net.ends side).deliver_accepts (encode (n.toNat + 1) (t.net.ends side.other).added tag) recentlySent with
      ⟨none_,_⟩ | ⟨packet,parsed,expected,accepted,_⟩
    · rw [none_]
      exact before
    · rw [accepted,List.length_append,List.length_singleton]
      refine inFlight _ (List.mem_filterMap.mpr ⟨tag,head,?_⟩)
      rw [expects packet parsed expected]
      rfl

theorem deliver (timed : Timed n t base held tags) (positive : 1 ≤ n.toNat) (side : Side) (keep recentlySent : Bool)
    (stepped : t.step (.deliver side keep recentlySent) = some next) :
    ∃ base' held' tags', Timed n next base' held' tags' := by
  have apart := side.other_ne
  simp only [TimedNet.step] at stepped
  split at stepped
  next bytes rest wire noted =>
    obtain ⟨net,delivered,rfl⟩ := Option.map_eq_some_iff.mp stepped
    simp only [Net.step,wire] at delivered
    split at delivered
    next bytes' rest' ready same =>
      cases same
      cases delivered
      obtain ⟨base',held',tags',worked⟩ := timed.work positive ready wire recentlySent
      cases keep with
      | true =>
        refine ⟨base',held',tags',?_⟩
        rw [if_pos rfl,if_pos rfl,← wire,Function.update_eq_self]
        exact worked
      | false =>
        refine ⟨base',held',Function.update tags' side ((tags' side).eraseIdx 0),?_⟩
        have erased := worked.erase side 0
        simpa [Net.update,apart,apart.symm,wire,Function.update_comm apart.symm] using erased
    next => cases delivered
  next => cases stepped

theorem step (positive : 1 ≤ n.toNat) (event : TimedEvent) (timed : Timed n t base held tags)
    (stepped : t.step event = some next) : ∃ base' held' tags', Timed n next base' held' tags' := by
  cases event with
  | send side action => exact ⟨_,_,timed.send positive side action stepped⟩
  | sent side sentAt boostAt => exact ⟨_,_,_,timed.sent side sentAt boostAt stepped⟩
  | received side receivedAt resetAt => exact ⟨_,_,_,timed.received side receivedAt resetAt stepped⟩
  | deliver side keep recentlySent => exact timed.deliver positive side keep recentlySent stepped
  | lose side index => exact ⟨_,_,_,timed.lose side index stepped⟩
  | receive side =>
    obtain ⟨base',held',moved⟩ := timed.receive positive side stepped
    exact ⟨base',held',_,moved⟩
  | drain side => exact ⟨_,_,_,timed.drain side stepped⟩
  | timer side => exact ⟨_,_,_,timed.timer side stepped⟩

theorem start (n : UInt8) (lower : 1 ≤ n.toNat) (upper : n.toNat ≤ 254) (managers : Side → TimeoutManager)
    (fresh : ∀ x seq, (managers x).sentTimes seq = none) :
    ∃ base held tags, Timed n (TimedNet.start n managers) base held tags := by
  obtain ⟨base,held,tags,sound⟩ := Net.initial_safe n lower upper
  have empty (x : Side) : tags x = [] := List.map_eq_nil_iff.mp (sound.wire x).symm
  refine ⟨base,held,tags,sound,fun x => ?_,fun x => ⟨Nat.le_refl _,fun i => ?_,fun _ => fresh x,nofun,?_⟩,
    fun x i member => ?_,
    fun x => Nat.le_refl _⟩
  · rw [empty]
    rfl
  · exact iff_of_false (fun sent => sent rfl) (Nat.not_lt_zero i)
  · intro seq time entry
    exact absurd ((fresh x seq).symm.trans entry) nofun
  · rw [empty] at member
    cases member

/-- The oldest message towards a side is an ACK: which packet it acknowledges, and where the window is. -/
theorem acknowledged (timed : Timed n t base held tags) {side : Side} {seq : UInt8} {bytes : Bytes} {rest : List Bytes}
    (wire : t.net.wire side = bytes :: rest) (parsed : deserialize bytes = .ok (.ack seq)) :
    ∃ k, (t.origins side).head? = some (some k) ∧ seq.toNat = k % (n.toNat + 1) ∧ k < (t.net.ends side).added.length ∧
      (t.net.ends side).added.length ≤ k + (n.toNat + 1) ∧ (t.clocks side).log k ≠ [] := by
  have onWire := timed.sound.wire side
  rw [wire] at onWire
  obtain ⟨tag,later,tagged,rfl,rfl⟩ := List.map_eq_cons_iff.mp onWire.symm
  have inv := (timed.sound.direction side).inv
  have origin := timed.origins side
  rw [tagged] at inv origin
  cases tag with
  | ack k =>
    rw [encode,deserialize_serialize] at parsed
    cases parsed
    have bound := inv.acks_bound (k + 1) (List.mem_append_right _ List.mem_cons_self)
    have upper := inv.top_le
    have reached := inv.next_le
    have sent := timed.accepted side
    refine ⟨k,by rw [origin]; rfl,toNat_ofNat_mod n k,by omega,by omega,?_⟩
    exact ((timed.clocks side).begun k).mpr (by omega)
  | data i =>
    rw [encode,deserialize_serialize] at parsed
    cases parsed
  | nack a =>
    rw [encode,deserialize_serialize] at parsed
    cases parsed

end Timed

/-- The entry that an ACK finds is of its own packet, and that packet was put on the stream once,
exactly if the send loop is not about to record a transmission under the label. -/
theorem ClockSound.right_iff {n used begun k : Nat} {c : Clock} (sound : ClockSound n used begun c) {seq : UInt8}
    {time : Int} (label : seq.toNat = k % (n + 1)) (inside : k < used) (near : used ≤ k + (n + 1)) (sent : c.log k ≠ [])
    (entry : c.manager.sentTimes seq = some time) :
    (c.log k = [some time] ∨ ∃ u, c.pending = some u ∧ u.packet.seq = seq) ∧
      ∀ u, c.pending = some u → u.packet.seq = seq → ∀ other, c.log k ≠ [some other] := by
  have pends (u : Unrecorded) (pending : c.pending = some u) : u.packet.seq = seq ↔ u.position = k := by
    obtain ⟨added,close,position,_⟩ := sound.pending u pending
    rw [← UInt8.toNat_inj,position,label]
    constructor
    · exact mod_inj_of_close (n + 1) u.position k (by omega) (by omega)
    · exact fun same => by rw [same]
  constructor
  · obtain ⟨i,same,timed,later⟩ := sound.entries seq time entry
    have first : i < used := by
      refine Nat.lt_of_lt_of_le ((sound.begun i).mp ?_) sound.within
      rcases timed with once | ⟨twice,_⟩
      · simp [once]
      · simp [twice]
    rcases Nat.lt_trichotomy i k with older | rfl | newer
    · -- The entry was left by an earlier packet under the label.
      rcases later k older label.symm inside with unsent | ⟨_,u,pending,position⟩
      · exact absurd unsent sent
      · exact .inr ⟨u,pending,(pends u pending).mpr position⟩
    · rcases timed with once | ⟨_,u,pending,position⟩
      · exact .inl once
      · exact .inr ⟨u,pending,(pends u pending).mpr position⟩
    · have := mod_inj_of_close (n + 1) i k (by omega) (by omega) (same.trans label)
      omega
  · intro u pending same other logged
    obtain ⟨_,_,_,older,unrecorded,_⟩ := sound.pending u pending
    rw [(pends u pending).mp same,logged] at unrecorded
    have last := congrArg List.getLast? unrecorded
    simp at last

/-- Whenever `Received` takes a sample for an ACK, the packet that was acknowledged had been put on the
stream exactly once and the sample is the time since that transmission was recorded, if and only if
the send loop was not between `sendToStream` and `Sent` for a packet with that sequence number. -/
theorem rtt_sample_right_iff (n : UInt8) (lower : 1 ≤ n.toNat) (upper : n.toNat ≤ 254) (managers : Side → TimeoutManager)
    (fresh : ∀ x seq, (managers x).sentTimes seq = none) (events : List TimedEvent) (t : TimedNet)
    (reached : run TimedNet.step (TimedNet.start n managers) events = some t) (side : Side) (seq : UInt8)
    (arrived : (t.net.wire side).head?.map deserialize = some (.ok (.ack seq))) (receivedAt sample : Int)
    (sampled : (t.clocks side).manager.rttSample receivedAt (.ack seq) = some sample) :
    ∃ k, (t.origins side).head? = some (some k) ∧
      ((∃ time, (t.clocks side).log k = [some time] ∧ sample = timeSub receivedAt time) ↔
        ∀ u, (t.clocks side).pending = some u → u.packet.seq ≠ seq) := by
  obtain ⟨base,held,tags,timed⟩ := run_invariant TimedNet.step (fun t => ∃ base held tags, Timed n t base held tags)
    (fun _ event _ ⟨_,_,_,timed⟩ stepped => timed.step lower event stepped) events _ t
    (Timed.start n lower upper managers fresh) reached
  obtain ⟨bytes,first,parsed⟩ := Option.map_eq_some_iff.mp arrived
  obtain ⟨rest,wire⟩ := List.head?_eq_some_iff.mp first
  obtain ⟨k,origin,label,inside,near,sent⟩ := timed.acknowledged wire parsed
  unfold TimeoutManager.rttSample at sampled
  split_ifs at sampled
  obtain ⟨time,entry,rfl⟩ := Option.map_eq_some_iff.mp sampled
  obtain ⟨right,wrong⟩ := (timed.clocks side).right_iff label inside near sent entry
  refine ⟨k,origin,?_,fun settled => ⟨time,?_,rfl⟩⟩
  · rintro ⟨other,logged,_⟩ u pending same
    exact wrong u pending same other logged
  · refine right.resolve_right ?_
    rintro ⟨u,pending,same⟩
    exact settled u pending same

/-- The client sends a packet, at time 10, and is back in its select. -/
def onePacket : List TimedEvent :=
  let proceed (count : Nat) := List.replicate count (TimedEvent.send .client (.proceed false))
  [.send .client (.take [7] true)] ++ proceed 2 ++ [.sent .client 10 10] ++ proceed 1

theorem rtt_sample_right_once : ∃ t, run TimedNet.step (TimedNet.start 2 fun _ => newTimeOutManager {})
      (onePacket ++ [.received .server 20 20,.deliver .server false false]) = some t ∧
    (t.clocks .client).manager.rttSample 50 (.ack 0) = some 40 ∧ (t.origins .client).head? = some (some 0) ∧
    ∃ time, (t.clocks .client).log 0 = [some time] ∧ 40 = timeSub 50 time := by
  have result : (run TimedNet.step (TimedNet.start 2 fun _ => newTimeOutManager {})
      (onePacket ++ [.received .server 20 20,.deliver .server false false])).map (fun t =>
        ((t.net.wire .client).head?.map deserialize,(t.clocks .client).manager.rttSample 50 (.ack 0),
          (t.origins .client).head?,(t.clocks .client).pending)) =
      some (some (.ok (.ack 0)),some 40,some (some 0),none) := by decide
  obtain ⟨t,reached,facts⟩ := Option.map_eq_some_iff.mp result
  simp only [Prod.mk.injEq] at facts
  obtain ⟨arrived,sampled,origin,idle⟩ := facts
  obtain ⟨k,acknowledged,right⟩ := rtt_sample_right_iff 2 (by decide) (by decide) _ (fun _ _ => rfl) _ t reached .client 0
    arrived 50 40 sampled
  cases Option.some.inj (Option.some.inj (origin.symm.trans acknowledged))
  refine ⟨t,reached,sampled,origin,right.mpr fun u pending => ?_⟩
  exact absurd (idle.symm.trans pending) nofun

/-- The resend timer fires and the packet is put on the stream once more. Its first ACK is given to
`Received` before `Sent` has dropped the time of the first transmission. -/
theorem resent_packet_sampled : ∃ t, run TimedNet.step (TimedNet.start 2 fun _ => newTimeOutManager {})
      (onePacket ++ [.send .client .resendTicker] ++ List.replicate 4 (.send .client (.proceed false)) ++
        [.received .server 20 20,.deliver .server false false]) = some t ∧
    (t.net.wire .client).head?.map deserialize = some (.ok (.ack 0)) ∧
    (t.clocks .client).manager.rttSample 50 (.ack 0) = some 40 ∧ (t.origins .client).head? = some (some 0) ∧
    (t.clocks .client).log 0 = [some 10,none] :=
  ⟨_,rfl,by decide,by decide,by decide,by decide⟩

end NodeConnect.Gbn
