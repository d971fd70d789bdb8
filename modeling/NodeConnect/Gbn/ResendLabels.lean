import NodeConnect.Gbn.QueueSafety

/-! The labels that a resend waits for. A slot always holds a packet that carries the index of
the slot, whatever the peer acknowledges; so the last packet of a resend is the one before
`sequenceTop`. The syncer computes its label in a byte, and the sum may not fit. -/
namespace NodeConnect.Gbn
open Lib

namespace Queue

structure Stamped (q : Queue) : Prop where
  slots : q.content.length = q.s.toNat
  top : q.sequenceTop.toNat < q.s.toNat
  syncer : q.syncer.s = q.s
  seq : ∀ (slot : Nat) (packet : PacketData), q.content[slot]? = some (some packet) → packet.seq.toNat = slot

theorem newQueue_stamped (s : UInt8) (positive : 0 < s.toNat) : (newQueue s).Stamped := by
  refine ⟨by simp [newQueue],positive,rfl,?_⟩
  intro slot packet held
  simp [newQueue,List.getElem?_replicate] at held

theorem Stamped.moved {q : Queue} (stamped : q.Stamped) (base : UInt8) (syncer : Syncer) (cycle : syncer.s = q.s) :
    Stamped {q with sequenceBase := base, syncer := syncer} :=
  ⟨stamped.slots,stamped.top,cycle,stamped.seq⟩

theorem Stamped.addPacket {q next : Queue} (stamped : q.Stamped) (packet : PacketData)
    (added : q.addPacket packet = .ok next) : next.Stamped ∧ next.s = q.s := by
  obtain ⟨successor,computed,value⟩ := modulo_succ q.sequenceTop q.s stamped.top
  have top := stamped.top
  rw [Queue.addPacket,if_pos (by rw [stamped.slots]; exact top),computed] at added
  cases added
  refine ⟨⟨by rw [List.length_set]; exact stamped.slots,?_,stamped.syncer,?_⟩,rfl⟩
  · change successor.toNat < q.s.toNat
    rw [value]
    exact Nat.mod_lt _ (by omega)
  · intro slot other held
    by_cases own : q.sequenceTop.toNat = slot
    · rw [own,List.getElem?_set_self (by rw [stamped.slots,← own]; exact top)] at held
      cases held
      exact own
    · rw [List.getElem?_set_ne own] at held
      exact stamped.seq slot other held

theorem step_ok {q next : Queue} {op : Op} (stepped : q.step op = some next) : q.apply op = .ok next := by
  unfold step at stepped
  cases applied : q.apply op with
  | error fault =>
    rw [applied] at stepped
    cases stepped
  | ok after =>
    rw [applied] at stepped
    exact congrArg Except.ok (Option.some.inj stepped)

/-- A resend that found the window nonempty. -/
theorem resend_ok {q next : Queue} {sendPkt : List Bool} {sent : Resent} (nonempty : q.size ≠ 0)
    (resent : q.resend false sendPkt = .ok (next,sent)) :
    q.sequenceBase ≠ q.sequenceTop ∧ ∃ syncer, q.syncer.initResendUpTo q.sequenceTop = .ok syncer ∧
      resendLoop {q with syncer := syncer} q.sequenceTop 257 sendPkt q.sequenceBase = .ok sent ∧
      next = {q with syncer := if sent.failed then syncer else syncer.reset} := by
  have apart : q.sequenceBase ≠ q.sequenceTop := by
    intro same
    refine nonempty ?_
    rw [Queue.size,same,if_pos (UInt8.le_refl _),UInt8.sub_self]
  rw [Queue.resend,if_neg Bool.false_ne_true,if_neg nonempty,if_neg apart] at resent
  obtain ⟨syncer,started,resent⟩ := Fallible.except_bind_ok resent
  obtain ⟨sent',looped,resent⟩ := Fallible.except_bind_ok resent
  refine ⟨apart,syncer,started,?_⟩
  split_ifs at resent with failed
  · cases resent
    exact ⟨looped,by rw [if_pos failed]⟩
  · cases resent
    exact ⟨looped,by rw [if_neg failed]⟩

/-- Every call but `addPacket` leaves the slots and the top alone. -/
theorem step_moves {q next : Queue} {op : Op} (quiet : ∀ packet, op ≠ .addPacket packet) (stepped : q.step op = some next) :
    ∃ base syncer, syncer.s = q.syncer.s ∧ next = {q with sequenceBase := base, syncer := syncer} := by
  cases op with
  | addPacket packet => exact absurd rfl (quiet packet)
  | processACK seq =>
    obtain ⟨⟨answer,_⟩,processed,rfl⟩ := Fallible.except_map_ok (step_ok stepped)
    unfold processACK at processed
    split_ifs at processed with empty
    · cases processed
      exact ⟨_,_,rfl,rfl⟩
    · have cycle := processACK_syncer q.syncer seq
      unfold processACKLocked at processed
      dsimp only at processed
      split_ifs at processed
      · obtain ⟨base,_,processed⟩ := Fallible.except_bind_ok processed
        cases processed
        exact ⟨base,_,cycle,rfl⟩
      · obtain ⟨base,_,processed⟩ := Fallible.except_bind_ok processed
        cases processed
        exact ⟨base,_,cycle,rfl⟩
      · cases processed
        exact ⟨_,_,cycle,rfl⟩
  | processNACK seq =>
    cases Option.some.inj stepped
    have cycle := processNACK_syncer q.syncer seq
    unfold Queue.processNACK
    dsimp only
    split_ifs
    · exact ⟨_,_,cycle,rfl⟩
    · exact ⟨_,_,cycle,rfl⟩
    · exact ⟨_,_,cycle,rfl⟩
  | resend recent sendPkt =>
    obtain ⟨⟨_,sent⟩,resent,rfl⟩ := Fallible.except_map_ok (step_ok stepped)
    by_cases skipped : recent = true ∨ q.size = 0
    · have same : q.resend recent sendPkt = .ok (q,⟨[],false⟩) := by
        rw [Queue.resend]
        rcases skipped with late | empty
        · rw [if_pos late]
        · rw [if_pos empty,ite_self]
      cases resent.symm.trans same
      exact ⟨_,_,rfl,rfl⟩
    · rw [not_or,Bool.not_eq_true] at skipped
      rw [skipped.1] at resent
      obtain ⟨_,syncer,started,_,rfl⟩ := resend_ok skipped.2 resent
      refine ⟨q.sequenceBase,_,?_,rfl⟩
      rw [Syncer.initResendUpTo_ok started]
      split_ifs
      · rfl
      · rfl

theorem Stamped.step {q next : Queue} (stamped : q.Stamped) (op : Op) (stepped : q.step op = some next) :
    next.Stamped ∧ next.s = q.s := by
  by_cases quiet : ∀ packet, op ≠ .addPacket packet
  · obtain ⟨base,syncer,cycle,rfl⟩ := step_moves quiet stepped
    exact ⟨stamped.moved base syncer (cycle.trans stamped.syncer),rfl⟩
  · push Not at quiet
    obtain ⟨packet,rfl⟩ := quiet
    exact stamped.addPacket packet (step_ok stepped)

/-- The last packet that a complete resend loop sends is the one before the top. -/
theorem Stamped.resendLoop_last {q : Queue} (stamped : q.Stamped) (fuel : Nat) (sendPkt : List Bool) (base : UInt8)
    (apart : base ≠ q.sequenceTop) (sent : Resent) (looped : q.resendLoop q.sequenceTop fuel sendPkt base = .ok sent)
    (complete : sent.failed = false) :
    ∃ last, sent.packets.getLast? = some last ∧ last.seq.toNat < q.s.toNat ∧
      q.sequenceTop.toNat = (last.seq.toNat + 1) % q.s.toNat := by
  induction fuel generalizing sendPkt base sent with
  | zero => cases looped
  | succ fuel ih =>
    rw [resendLoop,if_neg apart] at looped
    obtain ⟨⟨packet,next⟩,fetched,looped⟩ := Fallible.except_bind_ok looped
    have here : packet.seq = base ∧ base.toNat < q.s.toNat ∧ next.toNat = (base.toNat + 1) % q.s.toNat := by
      unfold resendNext at fetched
      cases slot : q.content[base.toNat]? with
      | none =>
        rw [slot] at fetched
        cases fetched
      | some content =>
        have inside := (List.getElem?_eq_some_iff.mp slot).1
        rw [stamped.slots] at inside
        rw [slot] at fetched
        cases content with
        | none => cases fetched
        | some held =>
          obtain ⟨successor,computed,fetched⟩ := Fallible.except_bind_ok fetched
          cases fetched
          obtain ⟨next,computed',value⟩ := modulo_succ base q.s inside
          cases computed.symm.trans computed'
          exact ⟨UInt8.toNat_inj.mp (stamped.seq _ _ slot),inside,value⟩
    obtain ⟨label,inside,value⟩ := here
    have went : ∃ rest, q.resendLoop q.sequenceTop fuel sendPkt.tail next = .ok rest ∧
        sent = {rest with packets := packet :: rest.packets} := by
      rcases sendPkt with _ | ⟨_ | _,later⟩
      · obtain ⟨rest,continued,looped⟩ := Fallible.except_bind_ok looped
        cases looped
        exact ⟨rest,continued,rfl⟩
      · cases looped
        cases complete
      · obtain ⟨rest,continued,looped⟩ := Fallible.except_bind_ok looped
        cases looped
        exact ⟨rest,continued,rfl⟩
    obtain ⟨rest,continued,rfl⟩ := went
    by_cases done : next = q.sequenceTop
    · cases fuel with
      | zero => cases continued
      | succ fuel =>
        rw [resendLoop,if_pos done] at continued
        cases continued
        refine ⟨packet,rfl,?_,?_⟩
        · rw [label]
          exact inside
        · rw [label,← value,done]
    · obtain ⟨last,found,lastLt,successor⟩ := ih sendPkt.tail next done rest continued complete
      refine ⟨last,?_,lastLt,successor⟩
      rw [List.getLast?_cons,found]
      rfl

/-- The label before `top`, computed in a byte, is right exactly if `s + top` fits. -/
theorem expectedACK_eq_iff {s top last : UInt8} (lastLt : last.toNat < s.toNat)
    (before : top.toNat = (last.toNat + 1) % s.toNat) :
    (s + top - 1) % s = last ↔ s.toNat + top.toNat ≤ 256 := by
  have sum : (s + top - 1).toNat = (s.toNat + top.toNat - 1) % 256 := by
    rw [UInt8.toNat_sub,UInt8.toNat_add]
    simp only [UInt8.reduceToNat]
    omega
  have bound := s.toNat_lt
  rw [← UInt8.toNat_inj,UInt8.toNat_mod,sum]
  by_cases wraps : last.toNat + 1 = s.toNat
  · rw [wraps,Nat.mod_self] at before
    rw [before,Nat.add_zero,Nat.mod_eq_of_lt (by omega : s.toNat - 1 < 256),Nat.mod_eq_of_lt (by omega)]
    omega
  · rw [Nat.mod_eq_of_lt (by omega)] at before
    have moved : s.toNat + top.toNat - 1 = s.toNat + last.toNat := by omega
    rw [moved]
    by_cases fits : s.toNat + last.toNat < 256
    · rw [Nat.mod_eq_of_lt fits,Nat.add_mod_left,Nat.mod_eq_of_lt lastLt]
      omega
    · have carried : (s.toNat + last.toNat) % 256 = s.toNat + last.toNat - 256 := by omega
      rw [carried,Nat.mod_eq_of_lt (by omega)]
      omega

theorem stamped_reached {s : UInt8} (positive : 0 < s.toNat) {ops : List Op} {q : Queue}
    (reached : run step (newQueue s) ops = some q) : q.Stamped ∧ q.s = s := by
  refine run_invariant step (fun q => q.Stamped ∧ q.s = s) ?_ ops (newQueue s) q ⟨newQueue_stamped s positive,rfl⟩ reached
  rintro state op next ⟨stamped,cycle⟩ stepped
  obtain ⟨kept,same⟩ := stamped.step op stepped
  exact ⟨kept,same.trans cycle⟩

/-- For every window size and every state of the queue, a resend waits for the NACK of the label
that the next packet gets, and for the ACK of the last packet resent exactly if `s + top` fits
in a byte. Calls without harmful labels lead to states in which a resend does complete. -/
theorem resend_expects_last_iff (n : UInt8) (admitted : 1 ≤ n ∧ n ≤ 254) (ops : List Op) (q : Queue)
    (reached : run step (newQueue (n + 1)) ops = some q) (nonempty : q.size ≠ 0) (sendPkt : List Bool) :
    (∀ next sent, q.resend false sendPkt = .ok (next,sent) → sent.failed = false →
      ∃ last, sent.packets.getLast? = some last ∧
        next.syncer.expectedNACK.toNat = (last.seq.toNat + 1) % (n.toNat + 1) ∧
        (∀ packet added, next.addPacket packet = .ok added → added.content[next.syncer.expectedNACK.toNat]? =
          some (some {packet with seq := next.syncer.expectedNACK})) ∧
        (next.syncer.expectedACK = last.seq ↔ n.toNat + 1 + q.sequenceTop.toNat ≤ 256)) ∧
    (Along step (fun q op => q.Guarded op ∧ ¬ q.Harmful op) (newQueue (n + 1)) ops →
      (∀ outcome ∈ sendPkt, outcome = true) →
      ∃ next sent, q.resend false sendPkt = .ok (next,sent) ∧ sent.failed = false) := by
  have low := UInt8.le_iff_toNat_le.mp admitted.1
  have high := UInt8.le_iff_toNat_le.mp admitted.2
  simp only [UInt8.reduceToNat] at low high
  have cycle : (n + 1).toNat = n.toNat + 1 := toNat_succ n (by omega)
  obtain ⟨stamped,same⟩ := stamped_reached (by omega) reached
  constructor
  · intro next sent resent complete
    obtain ⟨apart,syncer,started,looped,rfl⟩ := resend_ok nonempty resent
    have fields := Syncer.initResendUpTo_ok started
    have expectedACK : syncer.expectedACK = (q.syncer.s + q.sequenceTop - 1) % q.syncer.s := by rw [fields]
    have expectedNACK : syncer.expectedNACK = q.sequenceTop := by rw [fields]
    have resumed := stamped.moved q.sequenceBase syncer (by rw [fields]; exact stamped.syncer)
    obtain ⟨last,found,lastLt,before⟩ := resumed.resendLoop_last 257 sendPkt q.sequenceBase apart sent looped complete
    change last.seq.toNat < q.s.toNat at lastLt
    change q.sequenceTop.toNat = (last.seq.toNat + 1) % q.s.toNat at before
    have ack := expectedACK_eq_iff lastLt before
    rw [same,cycle] at before
    refine ⟨last,found,?_⟩
    rw [complete,if_neg Bool.false_ne_true]
    refine ⟨?_,?_,?_⟩
    · change syncer.expectedNACK.toNat = _
      rw [expectedNACK,before]
    · intro packet added done
      change added.content[syncer.expectedNACK.toNat]? = some (some {packet with seq := syncer.expectedNACK})
      have top : q.sequenceTop.toNat < q.content.length := stamped.slots ▸ stamped.top
      rw [addPacket,if_pos top] at done
      obtain ⟨successor,_,done⟩ := Fallible.except_bind_ok done
      cases done
      rw [expectedNACK]
      exact List.getElem?_set_self top
    · change syncer.expectedACK = last.seq ↔ _
      rw [expectedACK,stamped.syncer,ack,same,cycle]
  · intro harmless succeed
    have valid : q.Valid := along_invariant step _ Valid
      (fun state op next valid legal stepped => (valid.survives op legal.1 legal.2).2 next stepped)
      ops (newQueue (n + 1)) q (newQueue_valid (n + 1) (by omega)) harmless reached
    obtain ⟨syncer,sent,resent,_,_,sends⟩ := valid.resend_sent false sendPkt
    exact ⟨_,sent,resent,by rw [(sends rfl).2 succeed]⟩

/-- With a window of 127 the sum always fits; here two packets are outstanding. -/
theorem resend_expects_last_127 : ∃ q next sent, ∃ last : PacketData,
    run step (newQueue (127 + 1)) [.addPacket {},.addPacket {}] = some q ∧
      q.resend false [] = .ok (next,sent) ∧ sent.packets.getLast? = some last ∧ next.syncer.expectedACK = last.seq := by
  let ops : List Op := [.addPacket {},.addPacket {}]
  have state : (run step (newQueue (127 + 1)) ops).map (fun q => (q.size,q.sequenceTop)) = some (2,2) := by decide +kernel
  obtain ⟨q,reached,indices⟩ := Option.map_eq_some_iff.mp state
  obtain ⟨size,top⟩ := Prod.mk.inj indices
  have expects := resend_expects_last_iff 127 (by decide) ops q reached (by rw [size]; decide) []
  obtain ⟨next,sent,resent,complete⟩ := expects.2 (by decide +kernel) nofun
  obtain ⟨last,found,_,_,ack⟩ := expects.1 next sent resent complete
  exact ⟨q,next,sent,last,reached,resent,found,ack.mpr (by rw [top]; decide)⟩

/-- With a window of 254 and two packets outstanding, the sum 255 + 2 - 1 is 0 in a byte: the resend
waits for the ACK of packet 0 though packet 1 is the last one. -/
theorem expectedACK_overflows : ∃ q next sent, run step (newQueue (254 + 1)) [.addPacket {},.addPacket {}] = some q ∧
    q.resend false [] = .ok (next,sent) ∧ sent.packets.map (·.seq) = [0,1] ∧ next.syncer.expectedACK = 0 := by
  let ops : List Op := [.addPacket {},.addPacket {}]
  have state : ((run step (newQueue (254 + 1)) ops).bind fun q => (q.resend false []).toOption.map
      fun result => (result.2.packets.map (·.seq),result.1.syncer.expectedACK)) = some ([0,1],0) := by decide +kernel
  obtain ⟨q,reached,resent⟩ := Option.bind_eq_some_iff.mp state
  cases outcome : q.resend false [] with
  | error fault =>
    rw [outcome] at resent
    cases resent
  | ok result =>
    rw [outcome] at resent
    obtain ⟨labels,expected⟩ := Prod.mk.inj (Option.some.inj resent)
    exact ⟨q,result.1,result.2,reached,outcome,labels,expected⟩

end Queue

end NodeConnect.Gbn
