import NodeConnect.Gbn.Moves
import NodeConnect.Gbn.QueueSafety

/-! One endpoint against a peer that sends any bytes at all. Nothing is assumed about
what arrives beyond the labels that a wrapped window mistakes for its own; the
endpoint's own loops then never index outside their slots and never divide by zero. -/
namespace NodeConnect.Gbn
open Lib

/-- The events of one endpoint; the peer is whoever chose the bytes. -/
inductive LocalEvent where
  | send (action : SendAction)
  | deliver (bytes : Bytes) (recentlySent : Bool)
  | receive
  | drain
  | timer
  deriving DecidableEq, Repr

def Queue.Filled (q : Queue) (base top : UInt8) : Prop :=
  ∀ label ∈ labels q.s.toNat base.toNat (ahead q.s.toNat base.toNat top.toNat),
    ∃ packet, q.content[label]? = some (some packet)

/-- The slots the send loop is still going to read hold packets. -/
def SendLoop.Reads (q : Queue) : SendLoop → Prop
  | .resendTop _ base => base.toNat < q.s.toNat ∧ q.Filled base q.sequenceTop
  | .resending _ base top => base.toNat < q.s.toNat ∧ top.toNat < q.s.toNat ∧ q.Filled base top
  | .crashed _ => False
  | _ => True

/-- An ACK that passed the check of the size finds the window not empty. -/
def ReceiveLoop.Reads (q : Queue) : ReceiveLoop → Prop
  | .sized _ => q.window ≠ []
  | .crashed _ => False
  | _ => True

namespace Endpoint

def step (e : Endpoint) : LocalEvent → Option Endpoint
  | .send action => (e.sendStep action).map (·.1)
  | .deliver bytes recentlySent =>
    if e.receiveLoop = .ready then some (e.deliver bytes recentlySent).1 else none
  | .receive => e.receiveStep
  | .drain =>
    match e.recvDataChan with
    | _ :: rest => some {e with recvDataChan := rest}
    | [] => none
  | .timer =>
    if 0 < e.queue.syncer.timers then
      some {e with queue := {e.queue with syncer := e.queue.syncer.proceedAfterTime}}
    else none

def Harmless (e : Endpoint) : LocalEvent → Prop
  | .deliver bytes _ =>
    match deserialize bytes with
    | .ok (.nack seq) => ¬ e.queue.Harmful (.processNACK seq)
    | _ => True
  | .receive =>
    match e.receiveLoop with
    | .sized seq => ¬ e.queue.Harmful (.processACK seq)
    | _ => True
  | _ => True

def Crashed (e : Endpoint) : Prop :=
  (∃ fault, e.sendLoop = .crashed fault) ∨ ∃ fault, e.receiveLoop = .crashed fault

structure Intact (e : Endpoint) : Prop where
  cycle : e.s.toNat = e.n.toNat + 1
  queue : e.queue.s = e.s
  valid : e.queue.Valid
  recvSeq : e.recvSeq.toNat < e.s.toNat
  room : e.sendLoop.mayAdd → e.queue.size.toNat < e.n.toNat
  send : e.sendLoop.Reads e.queue
  receive : e.receiveLoop.Reads e.queue

/-- What acknowledgements do to a queue: only the base moves, towards the top. -/
structure Released (q next : Queue) : Prop where
  valid : next.Valid
  s : next.s = q.s
  content : next.content = q.content
  top : next.sequenceTop = q.sequenceTop
  window : next.window <:+ q.window

end Endpoint

namespace Queue

theorem processACKLocked_frame (q next : Queue) (seq : UInt8) (answer : Bool)
    (processed : q.processACKLocked seq = .ok (answer,next)) :
    next.s = q.s ∧ next.content = q.content ∧ next.sequenceTop = q.sequenceTop := by
  have moved (base : UInt8) (computed : (do
      let base ← modulo base q.s
      return (true,{q with sequenceBase := base, syncer := q.syncer.processACK seq})) =
        Except.ok (answer,next)) : next.s = q.s ∧ next.content = q.content ∧ next.sequenceTop = q.sequenceTop := by
    cases result : modulo base q.s with
    | error fault => simp [result,bind,Except.bind] at computed
    | ok value =>
      simp only [result,bind,Except.bind,pure,Except.pure,Except.ok.injEq,Prod.mk.injEq] at computed
      rw [← computed.2]
      exact ⟨rfl,rfl,rfl⟩
  simp only [processACKLocked] at processed
  split at processed
  next => exact moved _ processed
  next =>
    split at processed
    next => exact moved _ processed
    next =>
      cases processed
      exact ⟨rfl,rfl,rfl⟩

theorem addPacket_base (q next : Queue) (packet : PacketData) (added : q.addPacket packet = .ok next) :
    next.sequenceBase = q.sequenceBase := by
  unfold addPacket at added
  split at added
  · cases top : modulo (q.sequenceTop + 1) q.s with
    | error fault => simp [top,bind,Except.bind] at added
    | ok value =>
      simp only [top,bind,Except.bind,pure,Except.pure,Except.ok.injEq] at added
      rw [← added]
  · contradiction

theorem processNACK_frame (q : Queue) (seq : UInt8) : (q.processNACK seq).2.s = q.s ∧
    (q.processNACK seq).2.content = q.content ∧ (q.processNACK seq).2.sequenceTop = q.sequenceTop := by
  dsimp only [processNACK]
  split_ifs <;> exact ⟨rfl,rfl,rfl⟩

end Queue

namespace Endpoint.Intact

variable {e : Endpoint}

theorem not_crashed (intact : e.Intact) : ¬ e.Crashed := by
  rintro (⟨fault,crashed⟩ | ⟨fault,crashed⟩)
  · have reads := intact.send
    rw [crashed] at reads
    exact reads
  · have reads := intact.receive
    rw [crashed] at reads
    exact reads

theorem moveSend (intact : e.Intact) (loop : SendLoop) (syncer : Syncer) (cycle : syncer.s = e.queue.s)
    (room : loop.mayAdd → e.queue.size.toNat < e.n.toNat)
    (reads : loop.Reads e.queue) :
    Intact {e with sendLoop := loop, queue := {e.queue with syncer := syncer}} := by
  refine ⟨intact.cycle,intact.queue,intact.valid.resync syncer cycle,intact.recvSeq,room,?_,?_⟩
  · cases loop <;> exact reads
  · have held := intact.receive
    revert held
    cases e.receiveLoop <;> exact id

theorem moveReceive (intact : e.Intact) (loop : ReceiveLoop) (reads : loop.Reads e.queue) :
    Intact {e with receiveLoop := loop} :=
  ⟨intact.cycle,intact.queue,intact.valid,intact.recvSeq,intact.room,intact.send,reads⟩

theorem release (intact : e.Intact) (next : Queue) (released : Released e.queue next) (loop : ReceiveLoop)
    (reads : loop.Reads next) : Intact {e with queue := next, receiveLoop := loop} := by
  have shorter : next.size.toNat ≤ e.queue.size.toNat := by
    have bound := released.window.length_le
    simpa [Queue.window,labels_length] using bound
  refine ⟨intact.cycle,released.s.trans intact.queue,released.valid,intact.recvSeq,?_,?_,reads⟩
  · intro may
    exact Nat.lt_of_le_of_lt shorter (intact.room may)
  · have held := intact.send
    revert held
    cases e.sendLoop <;>
      simp only [SendLoop.Reads,Queue.Filled,released.s,released.content,released.top] <;> exact id

theorem back (intact : e.Intact) (caller : Caller) (room : caller = .outer → e.queue.size.toNat < e.n.toNat)
    (syncer : Syncer) (cycle : syncer.s = e.queue.s) :
    Intact {e with sendLoop := caller.back, queue := {e.queue with syncer := syncer}} := by
  cases caller with
  | outer => exact intact.moveSend .select syncer cycle (fun _ => room rfl) trivial
  | full => exact intact.moveSend .check syncer cycle (fun may => may.elim) trivial

theorem add (intact : e.Intact) (packet : PacketData) (holding : e.sendLoop = .holding packet) :
    ∃ queue, e.queue.addPacket packet = .ok queue ∧ ∀ later loop, loop.mayAdd = False → loop.Reads queue →
      Intact {e with queue := queue, sendLoop := loop, added := later} := by
  have room := intact.room (by rw [holding]; trivial)
  have cycle := intact.cycle
  obtain ⟨queue,added,valid,s,_,_,_,window,_⟩ := intact.valid.addPacket packet (by
    rw [intact.queue]
    omega)
  refine ⟨queue,added,fun later loop never reads => ?_⟩
  refine ⟨intact.cycle,s.trans intact.queue,valid,intact.recvSeq,?_,reads,?_⟩
  · intro may
    exact (never ▸ may : False).elim
  · have held := intact.receive
    revert held
    cases e.receiveLoop with
    | sized seq =>
      intro _
      change queue.window ≠ []
      rw [window]
      simp
    | _ => exact id

theorem starts (intact : e.Intact) :
    ∃ syncer, e.queue.syncer.initResendUpTo e.queue.sequenceTop = .ok syncer ∧ syncer.s = e.queue.s := by
  have cycle := intact.valid.cycle
  exact e.queue.resend_starts intact.valid.syncer (by omega)

/-- A resend that has not met its top finds a packet, and what is left of it still does. -/
theorem fetches (intact : e.Intact) (caller : Caller) (base top : UInt8)
    (loop : e.sendLoop = .resending caller base top) (apart : base ≠ top) :
    ∃ packet next, e.queue.resendNext base = .ok (packet,next) ∧
      SendLoop.Reads e.queue (.resending caller next top) := by
  have reads := intact.send
  rw [loop] at reads
  obtain ⟨baseLt,topLt,filled⟩ := reads
  obtain ⟨next,computed,nextLt,_,split⟩ := Queue.labels_step e.queue.s base top baseLt topLt apart
  rw [Queue.Filled,split] at filled
  obtain ⟨packet,found⟩ := filled base.toNat (by simp)
  refine ⟨packet,next,?_,nextLt,topLt,fun label member => filled label (List.mem_cons_of_mem _ member)⟩
  simp [Queue.resendNext,found,computed,bind,Except.bind,pure,Except.pure]

theorem sendMoves (intact : e.Intact) (action : SendAction) (e' : Endpoint) (messages : List Message)
    (moves : e.SendMoves action e' messages) : e'.Intact := by
  have same := intact.valid.syncer
  have room := intact.room
  have reads := intact.send
  have onward (loop : SendLoop) (may : loop.mayAdd → e.queue.size.toNat < e.n.toNat) (held : loop.Reads e.queue) :
      Intact {e with sendLoop := loop} := intact.moveSend loop e.queue.syncer same may held
  have restart (caller : Caller) (signal : Bool) (loop : e.sendLoop = caller.waits) :
      Intact {e with sendLoop := .resend caller, resendSignal := signal} := by
    obtain ⟨cycle,queue,valid,recvSeq,room,send,receive⟩ := onward (.resend caller) (by
      rintro rfl
      exact room (by rw [loop]; trivial)) trivial
    exact ⟨cycle,queue,valid,recvSeq,room,send,receive⟩
  cases moves with
  | take payload finalChunk loop =>
    obtain ⟨cycle,queue,valid,recvSeq,room,send,receive⟩ := onward (.holding _)
      (fun _ => room (by rw [loop]; trivial)) trivial
    exact ⟨cycle,queue,valid,recvSeq,room,send,receive⟩
  | ping loop => exact onward (.holding _) (fun _ => room (by rw [loop]; trivial)) trivial
  | signalled caller loop _ => exact restart caller false loop
  | ticked caller loop => exact restart caller e.resendSignal loop
  | add recent packet queue loop added =>
    obtain ⟨_,fits,kept⟩ := intact.add packet loop
    cases fits.symm.trans added
    exact kept _ _ rfl trivial
  | addFails recent packet fault loop failed =>
    obtain ⟨_,fits,_⟩ := intact.add packet loop
    cases fits.symm.trans failed
  | transmit recent packet loop => exact onward .check (fun may => may.elim) trivial
  | room recent loop below => exact onward .select (fun _ => UInt8.lt_iff_toNat_lt.mp below) trivial
  | full recent loop _ => exact onward .parking (fun may => may.elim) trivial
  | park recent loop => exact onward .parked (fun may => may.elim) trivial
  | skip recent caller loop _ =>
    rw [loop] at room
    exact intact.back caller room e.queue.syncer same
  | begin recent caller loop _ =>
    rw [loop] at room
    exact onward (.resendBase caller) room trivial
  | readBase recent caller loop =>
    rw [loop] at room
    refine onward (.resendTop caller e.queue.sequenceBase) room ⟨intact.valid.base,?_⟩
    rw [Queue.Filled,← intact.valid.size]
    exact intact.valid.filled
  | emptied recent caller loop =>
    rw [loop] at room
    exact intact.back caller room e.queue.syncer same
  | start recent caller base syncer loop _ started =>
    rw [loop] at room reads
    obtain ⟨_,fits,cycle⟩ := intact.starts
    cases fits.symm.trans started
    exact intact.moveSend (.resending caller base e.queue.sequenceTop) syncer cycle room
      ⟨reads.1,intact.valid.top,reads.2⟩
  | startFails recent caller base fault loop failed =>
    obtain ⟨_,fits,_⟩ := intact.starts
    cases fits.symm.trans failed
  | next recent caller base top next packet loop apart fetched =>
    obtain ⟨_,_,found,left⟩ := intact.fetches caller base top loop apart
    cases found.symm.trans fetched
    rw [loop] at room
    exact onward (.resending caller next top) room left
  | nextFails recent caller base top fault loop apart failed =>
    obtain ⟨_,_,found,_⟩ := intact.fetches caller base top loop apart
    cases found.symm.trans failed
  | resent recent caller top loop =>
    rw [loop] at room
    exact onward (.waitForSync caller) room trivial
  | synced recent caller loop =>
    rw [loop] at room
    exact intact.back caller room e.queue.syncer.reset same

theorem deliver (intact : e.Intact) (ready : e.receiveLoop = .ready) (bytes : Bytes) (recentlySent : Bool)
    (harmless : e.Harmless (.deliver bytes recentlySent)) : (e.deliver bytes recentlySent).1.Intact := by
  unfold Endpoint.deliver
  cases parsed : deserialize bytes with
  | error fault => exact intact.moveReceive .stopped trivial
  | ok message =>
    cases message with
    | syn n => exact intact.moveReceive .stopped trivial
    | fin => exact intact.moveReceive .stopped trivial
    | synack => exact intact.moveReceive .stopped trivial
    | data packet =>
      have accepted := intact.moveReceive (.acknowledged packet) trivial
      dsimp only
      split_ifs
      · exact ⟨accepted.cycle,accepted.queue,accepted.valid,accepted.recvSeq,accepted.room,accepted.send,accepted.receive⟩
      · exact intact
      · exact ⟨intact.cycle,intact.queue,intact.valid,intact.recvSeq,intact.room,intact.send,intact.receive⟩
    | ack seq =>
      dsimp only
      split_ifs with empty
      · exact intact
      · refine intact.moveReceive (.sized seq) ?_
        intro none
        have zero : e.queue.size.toNat = 0 := by simpa [Queue.window,labels_length] using congrArg List.length none
        exact empty (UInt8.toNat_inj.mp zero)
    | nack seq =>
      simp only [Endpoint.Harmless,parsed] at harmless
      obtain ⟨valid,window⟩ := intact.valid.processNACK seq harmless
      obtain ⟨s,content,top⟩ := e.queue.processNACK_frame seq
      have released : Released e.queue (e.queue.processNACK seq).2 := ⟨valid,s,content,top,window⟩
      have kept (loop : ReceiveLoop) (reads : loop.Reads (e.queue.processNACK seq).2) :=
        intact.release _ released loop reads
      dsimp only
      split_ifs
      · exact kept (.signalACK true) trivial
      · exact kept .signalResend trivial
      · exact kept e.receiveLoop (by rw [ready]; trivial)

theorem bumps (intact : e.Intact) :
    ∃ recvSeq, modulo (e.recvSeq + 1) e.s = .ok recvSeq ∧ recvSeq.toNat < e.s.toNat := by
  have inside := intact.recvSeq
  obtain ⟨recvSeq,computed,value⟩ := modulo_succ e.recvSeq e.s inside
  refine ⟨recvSeq,computed,?_⟩
  rw [value]
  exact Nat.mod_lt _ (by omega)

theorem acknowledges (intact : e.Intact) (harmless : e.Harmless .receive) (seq : UInt8)
    (loop : e.receiveLoop = .sized seq) :
    ∃ answer next, e.queue.processACKLocked seq = .ok (answer,next) ∧ Released e.queue next := by
  have reads := intact.receive
  rw [loop] at reads
  simp only [Endpoint.Harmless,loop] at harmless
  have nonempty : e.queue.size ≠ 0 := by
    intro zero
    exact reads (by simp [Queue.window,zero,labels])
  obtain ⟨answer,next,processed,valid,window⟩ := intact.valid.processACK seq harmless
  rw [Queue.processACK,if_neg nonempty] at processed
  obtain ⟨s,content,top⟩ := e.queue.processACKLocked_frame next seq answer processed
  exact ⟨answer,next,processed,valid,s,content,top,window⟩

theorem receiveMoves (intact : e.Intact) (harmless : e.Harmless .receive) (e' : Endpoint)
    (moves : e.ReceiveMoves e') : e'.Intact := by
  have next (woken : Endpoint) (kept : woken.Intact) (thenResend : Bool) :
      Intact {woken with receiveLoop := if thenResend then .signalResend else .ready} := by
    refine kept.moveReceive _ ?_
    cases thenResend <;> exact trivial
  cases moves with
  | bump packet recvSeq loop computed =>
    obtain ⟨_,fits,inside⟩ := intact.bumps
    cases fits.symm.trans computed
    refine ⟨intact.cycle,intact.queue,intact.valid,inside,intact.room,intact.send,?_⟩
    cases packet.isPing <;> exact trivial
  | bumpFails packet fault loop failed =>
    obtain ⟨_,fits,_⟩ := intact.bumps
    cases fits.symm.trans failed
  | hand packet loop _ =>
    exact ⟨intact.cycle,intact.queue,intact.valid,intact.recvSeq,intact.room,intact.send,trivial⟩
  | acknowledge seq gotValidACK queue loop processed =>
    obtain ⟨_,_,fits,released⟩ := intact.acknowledges harmless seq loop
    cases fits.symm.trans processed
    refine intact.release queue released _ ?_
    cases gotValidACK <;> exact trivial
  | acknowledgeFails seq fault loop failed =>
    obtain ⟨_,_,fits,_⟩ := intact.acknowledges harmless seq loop
    cases fits.symm.trans failed
  | wake thenResend loop _ =>
    exact next _ (intact.moveSend .check e.queue.syncer intact.valid.syncer (fun may => may.elim) trivial) thenResend
  | unheard thenResend loop _ => exact next e intact thenResend
  | askResend loop =>
    exact ⟨intact.cycle,intact.queue,intact.valid,intact.recvSeq,intact.room,intact.send,trivial⟩

theorem step (intact : e.Intact) (event : LocalEvent) (harmless : e.Harmless event) (e' : Endpoint)
    (stepped : e.step event = some e') : e'.Intact := by
  cases event with
  | send action =>
    obtain ⟨⟨sent,messages⟩,moved,rfl⟩ := Option.map_eq_some_iff.mp stepped
    exact intact.sendMoves action sent messages (sendStep_moves action messages moved)
  | deliver bytes recentlySent =>
    simp only [Endpoint.step] at stepped
    split at stepped <;> cases stepped
    next ready => exact intact.deliver ready bytes recentlySent harmless
  | receive => exact intact.receiveMoves harmless e' (receiveStep_moves stepped)
  | drain =>
    simp only [Endpoint.step] at stepped
    split at stepped <;> cases stepped
    exact ⟨intact.cycle,intact.queue,intact.valid,intact.recvSeq,intact.room,intact.send,intact.receive⟩
  | timer =>
    simp only [Endpoint.step] at stepped
    split at stepped <;> cases stepped
    exact intact.moveSend e.sendLoop _ ((Queue.proceedAfterTime_syncer _).trans intact.valid.syncer)
      intact.room intact.send

theorem along (intact : e.Intact) (events : List LocalEvent) (harmless : Along Endpoint.step Harmless e events)
    (e' : Endpoint) (reached : run Endpoint.step e events = some e') : e'.Intact :=
  along_invariant Endpoint.step Harmless Intact
    (fun _ event next intact harmless stepped => intact.step event harmless next stepped)
    events e e' intact harmless reached

end Endpoint.Intact

namespace Endpoint

variable {e e' : Endpoint}

/-- A step of the send loop leaves the receiving half alone and sends nothing but packets. -/
structure SendFrame (e e' : Endpoint) (messages : List Message) : Prop where
  n : e'.n = e.n
  s : e'.s = e.s
  receiveLoop : e'.receiveLoop = e.receiveLoop
  recvSeq : e'.recvSeq = e.recvSeq
  accepted : e'.accepted = e.accepted
  base : e'.queue.sequenceBase = e.queue.sequenceBase
  packets : ∀ message ∈ messages, ∃ packet, message = .data packet

theorem SendMoves.kept {action : SendAction} {messages : List Message} (moves : e.SendMoves action e' messages) :
    SendFrame e e' messages ∧ ((∀ payload finalChunk, action ≠ .take payload finalChunk) → e'.taken = e.taken) := by
  have silent (loop : SendLoop) (syncer : Syncer) (signal : Bool) :
      SendFrame e {e with sendLoop := loop, queue := {e.queue with syncer := syncer}, resendSignal := signal} [] :=
    ⟨rfl,rfl,rfl,rfl,rfl,rfl,nofun⟩
  have sending (loop : SendLoop) (packet : PacketData) : SendFrame e {e with sendLoop := loop} [.data packet] :=
    ⟨rfl,rfl,rfl,rfl,rfl,rfl,fun _ member => ⟨packet,List.mem_singleton.mp member⟩⟩
  cases moves with
  | take payload finalChunk loop =>
    exact ⟨⟨rfl,rfl,rfl,rfl,rfl,rfl,nofun⟩,fun old => absurd rfl (old payload finalChunk)⟩
  | add recent packet queue loop added =>
    exact ⟨⟨rfl,rfl,rfl,rfl,rfl,e.queue.addPacket_base queue packet added,nofun⟩,fun _ => rfl⟩
  | transmit recent packet loop => exact ⟨sending _ packet,fun _ => rfl⟩
  | next recent caller base top next packet loop apart fetched => exact ⟨sending _ packet,fun _ => rfl⟩
  | _ => exact ⟨silent _ _ _,fun _ => rfl⟩

theorem deliver_nack (bytes : Bytes) (recentlySent : Bool) (seq : UInt8) (parsed : deserialize bytes = .ok (.nack seq)) :
    e.deliver bytes recentlySent =
      let freed := {e with queue := (e.queue.processNACK seq).2}
      if ¬ (e.queue.processNACK seq).1.1 then (freed,[])
      else if (e.queue.processNACK seq).1.2 then ({freed with receiveLoop := .signalACK true},[])
      else ({freed with receiveLoop := .signalResend},[]) := by
  simp only [deliver,parsed]

theorem deliver_kept (bytes : Bytes) (recentlySent : Bool) :
    (e.deliver bytes recentlySent).1.n = e.n ∧ (e.deliver bytes recentlySent).1.s = e.s ∧
      (e.deliver bytes recentlySent).1.taken = e.taken ∧
      (e.deliver bytes recentlySent).1.sendLoop = e.sendLoop ∧
      (e.deliver bytes recentlySent).1.recvDataChan = e.recvDataChan := by
  cases parsed : deserialize bytes with
  | error err => simp [deliver,parsed]
  | ok message =>
    cases message with
    | nack seq =>
      rw [deliver_nack bytes recentlySent seq parsed]
      dsimp only
      split_ifs <;> exact ⟨rfl,rfl,rfl,rfl,rfl⟩
    | data packet =>
      simp only [deliver,parsed]
      split_ifs <;> exact ⟨rfl,rfl,rfl,rfl,rfl⟩
    | ack seq =>
      simp only [deliver,parsed]
      split_ifs <;> exact ⟨rfl,rfl,rfl,rfl,rfl⟩
    | syn n => simp [deliver,parsed]
    | synack => simp [deliver,parsed]
    | fin => simp [deliver,parsed]

theorem ReceiveMoves.kept (moves : e.ReceiveMoves e') : e'.n = e.n ∧ e'.s = e.s ∧ e'.taken = e.taken := by
  cases moves <;> exact ⟨rfl,rfl,rfl⟩

theorem step_kept (event : LocalEvent) (stepped : e.step event = some e') :
    e'.n = e.n ∧ e'.s = e.s ∧
      ((∀ payload finalChunk, event ≠ .send (.take payload finalChunk)) → e'.taken = e.taken) := by
  cases event with
  | send action =>
    obtain ⟨⟨sent,messages⟩,moved,rfl⟩ := Option.map_eq_some_iff.mp stepped
    obtain ⟨frame,taken⟩ := (sendStep_moves action messages moved).kept
    exact ⟨frame.n,frame.s,fun old => taken fun payload finalChunk same => old payload finalChunk (by rw [same])⟩
  | deliver bytes recentlySent =>
    simp only [step] at stepped
    split at stepped <;> cases stepped
    obtain ⟨n,s,taken,_⟩ := deliver_kept (e := e) bytes recentlySent
    exact ⟨n,s,fun _ => taken⟩
  | receive =>
    obtain ⟨n,s,taken⟩ := (receiveStep_moves stepped).kept
    exact ⟨n,s,fun _ => taken⟩
  | drain =>
    simp only [step] at stepped
    split at stepped <;> cases stepped
    exact ⟨rfl,rfl,fun _ => rfl⟩
  | timer =>
    simp only [step] at stepped
    split at stepped <;> cases stepped
    exact ⟨rfl,rfl,fun _ => rfl⟩

end Endpoint

/-- What an event of the two connections is for one of them. -/
inductive Net.Projects (net : Net) (x : Side) : Event → LocalEvent → Prop
  | send (action : SendAction) : Projects net x (.send x action) (.send action)
  | deliver (bytes : Bytes) (rest : List Bytes) (keep recentlySent : Bool) (wire : net.wire x = bytes :: rest) :
      Projects net x (.deliver x keep recentlySent) (.deliver bytes recentlySent)
  | receive : Projects net x (.receive x) .receive
  | drain : Projects net x (.drain x) .drain
  | timer : Projects net x (.timer x) .timer

theorem Net.step_local (net next : Net) (event : Event) (stepped : net.step event = some next) (x : Side) :
    next.ends x = net.ends x ∨
      ∃ own, net.Projects x event own ∧ (net.ends x).step own = some (next.ends x) := by
  have at_ (side : Side) (e : Endpoint) (own : LocalEvent) (projects : net.Projects side event own)
      (moved : (net.ends side).step own = some e) :
      Function.update net.ends side e x = net.ends x ∨
        ∃ own, net.Projects x event own ∧ (net.ends x).step own = some (Function.update net.ends side e x) := by
    by_cases same : x = side
    · subst same
      rw [Function.update_self]
      exact .inr ⟨own,projects,moved⟩
    · exact .inl (Function.update_of_ne same _ _)
  cases event with
  | send side action =>
    obtain ⟨⟨e,messages⟩,sent,rfl⟩ := Option.map_eq_some_iff.mp stepped
    exact at_ side e _ (.send action) (by simp [Endpoint.step,sent])
  | deliver side keep recentlySent =>
    simp only [Net.step] at stepped
    split at stepped
    next bytes rest ready wire =>
      cases Option.some.inj stepped
      exact at_ side _ _ (.deliver bytes rest keep recentlySent wire) (by simp [Endpoint.step,ready])
    next => contradiction
  | receive side =>
    obtain ⟨e,moved,rfl⟩ := Option.map_eq_some_iff.mp stepped
    exact at_ side e _ .receive moved
  | drain side =>
    simp only [Net.step] at stepped
    split at stepped
    next first rest queued =>
      cases Option.some.inj stepped
      exact at_ side _ _ .drain (by simp [Endpoint.step,queued])
    next => contradiction
  | timer side =>
    simp only [Net.step] at stepped
    split at stepped
    next waiting =>
      cases Option.some.inj stepped
      exact at_ side _ _ .timer (by simp [Endpoint.step,waiting])
    next => contradiction
  | lose side index =>
    simp only [Net.step] at stepped
    split at stepped
    next inside =>
      cases Option.some.inj stepped
      exact .inl rfl
    next => contradiction

end NodeConnect.Gbn
