import NodeConnect.Gbn.QueueSafety
import NodeConnect.Lib.Simulation

/-! The queue as the list of outstanding packets that it stands for. The list knows of no
slots: acknowledgements look for a label in it and drop what lies before. The queue
answers every call as the list does, in every state that calls lead to. -/
namespace NodeConnect.Gbn
open Lib

namespace Queue

inductive Answer where
  | added
  | acked (known : Bool)
  | nacked (shouldResend bumped : Bool)
  | resent (sent : Resent)
  deriving DecidableEq, Repr

def answer (q : Queue) : Op → Except Fault (Answer × Queue)
  | .addPacket packet => (q.addPacket packet).map fun next => (.added,next)
  | .processACK seq => (q.processACK seq).map fun (known,next) => (.acked known,next)
  | .processNACK seq => .ok (.nacked (q.processNACK seq).1.1 (q.processNACK seq).1.2,(q.processNACK seq).2)
  | .resend recent sendPkt => (q.resend recent sendPkt).map fun (next,sent) => (.resent sent,next)

/-- The calls as the connection makes them: no packet is added to a full window. -/
def respond (q : Queue) (op : Op) : Option (Answer × Queue) :=
  if q.Guarded op then (q.answer op).toOption else none

end Queue

/-- The packets sent and not yet acknowledged, oldest first, and the label of the next one. -/
structure Outstanding where
  packets : List PacketData := []
  next : UInt8 := 0
  deriving DecidableEq, Repr

namespace Outstanding

def find (list : Outstanding) (seq : UInt8) : Option Nat := list.packets.findIdx? (·.seq == seq)

/-- What the list answers to a call. A resend that fails half-way has sent some of the first packets. -/
def spec (s : UInt8) (list : Outstanding) : Queue.Op → Queue.Answer → Outstanding → Prop
  | .addPacket packet, answer, after => list.packets.length < s.toNat - 1 ∧ answer = .added ∧
      after.packets = list.packets ++ [{packet with seq := list.next}] ∧
      after.next.toNat = (list.next.toNat + 1) % s.toNat
  | .processACK seq, answer, after =>
    match list.find seq with
    | some i => answer = .acked true ∧ after = {list with packets := list.packets.drop (i + 1)}
    | none => answer = .acked false ∧ after = list
  | .processNACK seq, answer, after =>
    if seq = list.next then answer = .nacked false true ∧ after = {list with packets := []}
    else
      match list.find seq with
      | some i => answer = .nacked true (0 < i) ∧ after = {list with packets := list.packets.drop i}
      | none => answer = .nacked false false ∧ after = list
  | .resend recent sendPkt, answer, after => after = list ∧ ∃ sent, answer = .resent sent ∧
      if recent then sent = ⟨[],false⟩
      else sent.packets <+: list.packets ∧ ((∀ outcome ∈ sendPkt, outcome = true) → sent = ⟨list.packets,false⟩)

end Outstanding

namespace Queue

/-- The labels that a packet can carry. -/
def Labels (s : UInt8) : Op → Prop
  | .processACK seq | .processNACK seq => seq < s
  | _ => True

/-- The slots of the window hold the packets of the list, each under its own label. -/
structure Refines (s : UInt8) (q : Queue) (list : Outstanding) : Prop where
  valid : q.Valid
  cycle : q.s = s
  held : q.window.map (fun slot => q.content[slot]?.join) = list.packets.map some
  labelled : list.packets.map (·.seq.toNat) = q.window
  next : list.next = q.sequenceTop

variable {s : UInt8} {q : Queue} {list : Outstanding}

theorem newQueue_refines (cycle : 2 ≤ s) : (newQueue s).Refines s {} := by
  have empty : (newQueue s).window = [] := by simp [newQueue,window,size,labels]
  refine ⟨newQueue_valid s (UInt8.le_iff_toNat_le.mp cycle),rfl,?_,?_,rfl⟩
  · rw [empty]
    rfl
  · rw [empty]
    rfl

theorem Valid.window_eq (valid : q.Valid) : q.window =
    labels q.s.toNat q.sequenceBase.toNat (ahead q.s.toNat q.sequenceBase.toNat q.sequenceTop.toNat) := by
  rw [← valid.size]
  rfl

theorem Refines.length (refines : q.Refines s list) :
    list.packets.length = ahead q.s.toNat q.sequenceBase.toNat q.sequenceTop.toNat := by
  rw [← labels_length q.s.toNat q.sequenceBase.toNat (ahead _ _ _),← refines.valid.window_eq,← refines.labelled,
    List.length_map]

theorem Refines.packetsAt (refines : q.Refines s list) : q.packetsAt q.window = list.packets := by
  have held := congrArg (List.filterMap id) refines.held
  simpa [List.filterMap_map,Queue.packetsAt,Function.comp_def] using held

theorem Refines.find (refines : q.Refines s list) {seq : UInt8} (small : seq < s) :
    list.find seq = if ahead q.s.toNat q.sequenceBase.toNat seq.toNat <
        ahead q.s.toNat q.sequenceBase.toNat q.sequenceTop.toNat then
      some (ahead q.s.toNat q.sequenceBase.toNat seq.toNat) else none := by
  obtain ⟨valid,rfl,_,labelled,_⟩ := refines
  have short := ahead_lt _ _ _ valid.base valid.top
  rw [← labels_findIdx? _ _ _ _ valid.base (by omega) (UInt8.lt_iff_toNat_lt.mp small),← valid.window_eq,← labelled,
    List.findIdx?_map]
  refine congrArg (List.findIdx? · list.packets) (funext fun packet => ?_)
  rw [Function.comp_apply,Bool.eq_iff_iff,beq_iff_eq,beq_iff_eq,UInt8.toNat_inj]

theorem Refines.resync (refines : q.Refines s list) (syncer : Syncer) (cycle : syncer.s = q.s) :
    Refines s {q with syncer := syncer} list :=
  ⟨refines.valid.resync syncer cycle,refines.cycle,refines.held,refines.labelled,refines.next⟩

/-- Moving the base up inside the window drops the packets it passes. -/
theorem Refines.rebase (refines : q.Refines s list) (base : UInt8) (syncer : Syncer) (cycle : syncer.s = q.s)
    (baseLt : base.toNat < q.s.toNat)
    (inside : ahead q.s.toNat q.sequenceBase.toNat base.toNat ≤ ahead q.s.toNat q.sequenceBase.toNat q.sequenceTop.toNat) :
    Refines s {q with sequenceBase := base, syncer := syncer}
      {list with packets := list.packets.drop (ahead q.s.toNat q.sequenceBase.toNat base.toNat)} := by
  obtain ⟨valid,suffix⟩ := refines.valid.rebase base syncer cycle baseLt inside
  have oldBase := refines.valid.base
  have oldTop := refines.valid.top
  have window : window {q with sequenceBase := base, syncer := syncer} =
      q.window.drop (ahead q.s.toNat q.sequenceBase.toNat base.toNat) := by
    have passed : ahead q.s.toNat q.sequenceBase.toNat q.sequenceTop.toNat - ahead q.s.toNat base.toNat q.sequenceTop.toNat =
        ahead q.s.toNat q.sequenceBase.toNat base.toNat := by
      unfold ahead at inside ⊢
      split_ifs at inside ⊢ <;> omega
    have dropped := List.suffix_iff_eq_drop.mp suffix
    rw [valid.window_eq,refines.valid.window_eq,labels_length,labels_length] at dropped
    rw [valid.window_eq,refines.valid.window_eq,dropped]
    exact congrArg (List.drop · _) passed
  refine ⟨valid,refines.cycle,?_,?_,refines.next⟩
  · rw [window,List.map_drop,List.map_drop]
    exact congrArg (List.drop _) refines.held
  · rw [window,List.map_drop,refines.labelled]

theorem Refines.addPacket (refines : q.Refines s list) (packet : PacketData) (room : q.Guarded (.addPacket packet)) :
    ∃ next after, q.answer (.addPacket packet) = .ok (.added,next) ∧
      list.spec s (.addPacket packet) .added after ∧ next.Refines s after := by
  have size := refines.valid.size
  have length := refines.length
  change q.size.toNat < q.s.toNat - 1 at room
  obtain ⟨next,added,valid,cycle,base,top,content,window,fresh⟩ := refines.valid.addPacket packet (by omega)
  refine ⟨next,⟨list.packets ++ [{packet with seq := list.next}],next.sequenceTop⟩,?_,⟨?_,rfl,rfl,?_⟩,?_⟩
  · rw [answer,added]
    rfl
  · rw [← refines.cycle,length,← size]
    exact room
  · rw [refines.next,← refines.cycle]
    exact top
  · refine ⟨valid,cycle.trans refines.cycle,?_,?_,rfl⟩
    · have others : q.window.map (fun slot => next.content[slot]?.join) =
          q.window.map (fun slot => q.content[slot]?.join) := by
        refine List.map_congr_left fun slot member => ?_
        have different : q.sequenceTop.toNat ≠ slot := fun same => fresh (same ▸ member)
        rw [content,List.getElem?_set_ne different]
      have own : next.content[q.sequenceTop.toNat]? = some (some {packet with seq := list.next}) := by
        rw [content,List.getElem?_set_self (by rw [refines.valid.slots]; exact refines.valid.top),refines.next]
      rw [window,List.map_append,others,refines.held,List.map_append,List.map_singleton,own]
      rfl
    · rw [List.map_append,refines.labelled,window,refines.next]
      rfl

theorem Valid.contains_iff (valid : q.Valid) {seq : UInt8} (small : seq < q.s) :
    containsSequence q.sequenceBase q.sequenceTop seq = true ↔
      ahead q.s.toNat q.sequenceBase.toNat seq.toNat < ahead q.s.toNat q.sequenceBase.toNat q.sequenceTop.toNat :=
  containsSequence_iff q.s.toNat _ _ _ valid.base valid.top (UInt8.lt_iff_toNat_lt.mp small)

theorem processACK_known (positive : 0 < q.s.toNat) (nonempty : q.size ≠ 0) {seq : UInt8}
    (found : containsSequence q.sequenceBase q.sequenceTop seq = true) : q.processACK seq =
      .ok (true,{q with sequenceBase := (seq + 1) % q.s, syncer := q.syncer.processACK seq}) := by
  rw [processACK,if_neg nonempty,processACKLocked]
  by_cases expected : seq = q.sequenceBase
  · simp [expected,modulo_ok _ _ positive,bind,Except.bind,pure,Except.pure]
  · simp [expected,found,modulo_ok _ _ positive,bind,Except.bind,pure,Except.pure]

theorem Valid.processACK_unknown (valid : q.Valid) {seq : UInt8} (small : seq < q.s)
    (absent : ¬ containsSequence q.sequenceBase q.sequenceTop seq = true) :
    ∃ syncer, syncer.s = q.s ∧ q.processACK seq = .ok (false,{q with syncer := syncer}) := by
  by_cases empty : q.size = 0
  · exact ⟨q.syncer,valid.syncer,by rw [Queue.processACK,if_pos empty]⟩
  · have expected : ¬ seq = q.sequenceBase := by
      rintro rfl
      rw [valid.contains_iff small,ahead_self,← valid.size] at absent
      exact absent (Nat.pos_of_ne_zero fun zero => empty (UInt8.toNat_inj.mp zero))
    refine ⟨q.syncer.processACK seq,(processACK_syncer _ _).trans valid.syncer,?_⟩
    rw [Queue.processACK,if_neg empty,processACKLocked]
    simp [expected,absent,pure,Except.pure]

theorem Refines.processACK (refines : q.Refines s list) {seq : UInt8} (small : seq < s) :
    ∃ known next after, q.processACK seq = .ok (known,next) ∧
      list.spec s (.processACK seq) (.acked known) after ∧ next.Refines s after := by
  have found := refines.find small
  obtain ⟨valid,rfl,_⟩ := id refines
  by_cases inside : ahead q.s.toNat q.sequenceBase.toNat seq.toNat < ahead q.s.toNat q.sequenceBase.toNat q.sequenceTop.toNat
  · have cycle : (q.syncer.processACK seq).s = q.s := (processACK_syncer _ _).trans valid.syncer
    have nonempty : q.size ≠ 0 := by
      intro zero
      rw [← valid.size,zero] at inside
      exact absurd inside (Nat.not_lt_zero _)
    have passed : ahead q.s.toNat q.sequenceBase.toNat ((seq + 1) % q.s).toNat =
        ahead q.s.toNat q.sequenceBase.toNat seq.toNat + 1 := by
      have seqLt := UInt8.lt_iff_toNat_lt.mp small
      have base := valid.base
      have top := valid.top
      have bound := q.s.toNat_lt
      have cycle := valid.cycle
      rw [UInt8.toNat_mod,toNat_succ seq (by omega),mod_add_of_lt _ _ _ (by omega),Nat.mod_eq_of_lt seqLt]
      unfold ahead at inside ⊢
      split_ifs at inside ⊢ <;> omega
    have moved := refines.rebase ((seq + 1) % q.s) (q.syncer.processACK seq) cycle (valid.after_lt seq)
      (by rw [passed]; exact inside)
    rw [passed] at moved
    rw [if_pos inside] at found
    refine ⟨true,_,_,?_,by simp [Outstanding.spec,found],moved⟩
    exact processACK_known (by have := valid.cycle; omega) nonempty ((valid.contains_iff small).mpr inside)
  · obtain ⟨syncer,cycle,processed⟩ := valid.processACK_unknown small
      (fun here => inside ((valid.contains_iff small).mp here))
    rw [if_neg inside] at found
    exact ⟨false,_,list,processed,by simp [Outstanding.spec,found],refines.resync syncer cycle⟩

theorem Refines.processNACK (refines : q.Refines s list) {seq : UInt8} (small : seq < s) :
    ∃ after, list.spec s (.processNACK seq) (.nacked (q.processNACK seq).1.1 (q.processNACK seq).1.2) after ∧
      (q.processNACK seq).2.Refines s after := by
  have found := refines.find small
  have length := refines.length
  obtain ⟨valid,rfl,_,_,next⟩ := id refines
  have cycle : (q.syncer.processNACK seq).s = q.s := (processNACK_syncer _ _).trans valid.syncer
  have contains := valid.contains_iff small
  by_cases last : seq = q.sequenceTop
  · have moved := refines.rebase q.sequenceTop (q.syncer.processNACK seq) cycle valid.top (Nat.le_refl _)
    rw [List.drop_of_length_le (Nat.le_of_eq length)] at moved
    have processed : q.processNACK seq =
        ((false,true),{q with sequenceBase := q.sequenceTop, syncer := q.syncer.processNACK seq}) := by
      simp [Queue.processNACK,last]
    rw [processed]
    exact ⟨_,by simp [Outstanding.spec,next,last],moved⟩
  · by_cases inside : ahead q.s.toNat q.sequenceBase.toNat seq.toNat <
        ahead q.s.toNat q.sequenceBase.toNat q.sequenceTop.toNat
    · have moved := refines.rebase seq (q.syncer.processNACK seq) cycle (UInt8.lt_iff_toNat_lt.mp small) (Nat.le_of_lt inside)
      have processed : q.processNACK seq =
          ((true,decide (q.sequenceBase ≠ seq)),{q with sequenceBase := seq, syncer := q.syncer.processNACK seq}) := by
        simp [Queue.processNACK,last,contains.mpr inside]
      have bumped : decide (q.sequenceBase ≠ seq) = decide (0 < ahead q.s.toNat q.sequenceBase.toNat seq.toNat) := by
        rw [decide_eq_decide,Ne,← UInt8.toNat_inj]
        have base := valid.base
        unfold ahead
        split_ifs <;> omega
      rw [if_pos inside] at found
      rw [processed]
      exact ⟨_,by simp [Outstanding.spec,next,last,found,bumped],moved⟩
    · have absent : containsSequence q.sequenceBase q.sequenceTop seq = false :=
        Bool.eq_false_iff.mpr fun here => inside (contains.mp here)
      have processed : q.processNACK seq = ((false,false),{q with syncer := q.syncer.processNACK seq}) := by
        simp [Queue.processNACK,last,absent]
      rw [if_neg inside] at found
      rw [processed]
      exact ⟨_,by simp [Outstanding.spec,next,last,found],refines.resync _ cycle⟩

theorem Refines.resend (refines : q.Refines s list) (recent : Bool) (sendPkt : List Bool) :
    ∃ sent next, q.resend recent sendPkt = .ok (next,sent) ∧
      list.spec s (.resend recent sendPkt) (.resent sent) list ∧ next.Refines s list := by
  obtain ⟨syncer,sent,resent,valid,skipped,sends⟩ := refines.valid.resend_sent recent sendPkt
  rw [refines.packetsAt] at sends
  refine ⟨sent,_,resent,⟨rfl,sent,rfl,?_⟩,refines.resync syncer valid.syncer⟩
  cases recent with
  | true => exact skipped rfl
  | false => exact sends rfl

/-- Every call that the guard admits is answered, and as the list answers it. -/
theorem Refines.answers (refines : q.Refines s list) (op : Op) (labels : Labels s op) (guarded : q.Guarded op) :
    ∃ given next after, q.respond op = some (given,next) ∧ list.spec s op given after ∧ next.Refines s after := by
  rw [respond,if_pos guarded]
  cases op with
  | addPacket packet =>
    obtain ⟨next,after,answered,allowed,kept⟩ := refines.addPacket packet guarded
    exact ⟨_,next,after,by rw [answered]; rfl,allowed,kept⟩
  | processACK seq =>
    obtain ⟨known,next,after,processed,allowed,kept⟩ := refines.processACK labels
    exact ⟨_,next,after,by rw [answer,processed]; rfl,allowed,kept⟩
  | processNACK seq =>
    obtain ⟨after,allowed,kept⟩ := refines.processNACK labels
    exact ⟨_,_,after,rfl,allowed,kept⟩
  | resend recent sendPkt =>
    obtain ⟨sent,next,resent,allowed,kept⟩ := refines.resend recent sendPkt
    exact ⟨_,next,list,by rw [answer,resent]; rfl,allowed,kept⟩

theorem Refines.respond_eq_none_iff (refines : q.Refines s list) {op : Op} (labels : Labels s op) :
    q.respond op = none ↔ ¬ q.Guarded op := by
  constructor
  · intro blocked guarded
    obtain ⟨_,_,_,answered,_⟩ := refines.answers op labels guarded
    rw [blocked] at answered
    cases answered
  · intro refused
    rw [respond,if_neg refused]

theorem Refines.guarded_iff (refines : q.Refines s list) {packet : PacketData} :
    q.Guarded (.addPacket packet) ↔ list.packets.length < s.toNat - 1 := by
  rw [refines.length,← refines.valid.size,← refines.cycle]
  rfl

theorem respond_simulates (s : UInt8) : Simulates (Labels s) respond (Outstanding.spec s) (Refines s) := by
  intro q list op given next refines labels answered
  have guarded : q.Guarded op := by
    by_contra refused
    rw [respond,if_neg refused] at answered
    cases answered
  obtain ⟨given',next',after,answered',allowed,kept⟩ := refines.answers op labels guarded
  cases Option.some.inj (answered.symm.trans answered')
  exact ⟨after,allowed,kept⟩

/-- The queue refines the list of outstanding packets. For every cycle length and every sequence of
calls with labels of the cycle it gives the answers of the list; its size is the length of the list,
the labels of the list run on modulo `s` up to the next one, and a call blocks only if it would add
a packet to a full window. -/
theorem queue_refines_list (s : UInt8) (cycle : 2 ≤ s) (ops : List Op) (labels : ∀ op ∈ ops, Labels s op)
    (given : List Answer) (final : Queue) (ran : calls respond (newQueue s) ops = some (given,final)) :
    ∃ list, Allows (Outstanding.spec s) {} ops given list ∧ final.size.toNat = list.packets.length ∧
      (∃ base, list.packets.map (·.seq.toNat) = Lib.labels s.toNat base list.packets.length ∧
        list.next.toNat = (base + list.packets.length) % s.toNat) ∧
      ∀ op, Labels s op → (final.respond op = none ↔ ∃ packet, op = .addPacket packet ∧
        s.toNat - 1 ≤ list.packets.length) := by
  obtain ⟨list,allows,refines⟩ := (respond_simulates s).calls labels (newQueue_refines cycle) ran
  have length := refines.length
  have size := refines.valid.size
  have base := refines.valid.base
  have top := refines.valid.top
  refine ⟨list,allows,by rw [size,length],⟨final.sequenceBase.toNat,?_,?_⟩,fun op legal => ?_⟩
  · rw [refines.labelled,refines.valid.window_eq,length,refines.cycle]
  · rw [length,refines.next,← refines.cycle,mod_add_of_lt _ _ _ (ahead_lt _ _ _ base top),Nat.mod_eq_of_lt base]
    unfold ahead
    split_ifs <;> omega
  · rw [refines.respond_eq_none_iff legal]
    cases op with
    | addPacket packet =>
      rw [refines.guarded_iff,Nat.not_lt]
      exact ⟨fun full => ⟨packet,rfl,full⟩,fun ⟨_,_,full⟩ => full⟩
    | processACK seq => exact iff_of_false (not_not.mpr trivial) nofun
    | processNACK seq => exact iff_of_false (not_not.mpr trivial) nofun
    | resend recent sendPkt => exact iff_of_false (not_not.mpr trivial) nofun

/-- A window of two that wraps around: a resend of it sends both packets under their labels. -/
theorem queue_refines_list_wrapped : ∃ ops given final, calls respond (newQueue 3) ops = some (given,final) ∧
    given.getLast? = some (.resent ⟨[{seq := 2, payload := [7]},{seq := 0, payload := [8]}],false⟩) ∧
    ∃ list, Allows (Outstanding.spec 3) {} ops given list ∧ final.size.toNat = list.packets.length := by
  let ops : List Op := [.addPacket {},.addPacket {payload := [6]},.processACK 0,.addPacket {payload := [7]},
    .processNACK 2,.addPacket {payload := [8]},.resend false []]
  have labels : ∀ op ∈ ops, Labels 3 op := by simp [ops,Labels]
  obtain ⟨result,ran⟩ : ∃ result, calls respond (newQueue 3) ops = some result :=
    Option.isSome_iff_exists.mp (by decide)
  have last : (calls respond (newQueue 3) ops).map (·.1.getLast?) = some (some
      (.resent ⟨[{seq := 2, payload := [7]},{seq := 0, payload := [8]}],false⟩)) := by decide
  rw [ran] at last
  obtain ⟨list,allows,size,_⟩ := queue_refines_list 3 (by decide) ops labels result.1 result.2 ran
  exact ⟨ops,result.1,result.2,ran,Option.some.inj last,list,allows,size⟩

end Queue

end NodeConnect.Gbn
