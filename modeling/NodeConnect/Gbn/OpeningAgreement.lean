import NodeConnect.Gbn.Opening

/-! Agreement of the two handshakes over channels that drop and repeat. Each side keeps
an invariant of its own that assumes of the other only what it has said so far, and the
assumptions grow with the run: whatever is in flight was written by the other side. -/
namespace NodeConnect.Gbn
open Lib

/-- What the client writes; `done` says whether its handshake is complete. -/
def FromClient (n : UInt8) (done : Prop) (bytes : Bytes) : Prop :=
  bytes = serialize (.syn n) ∨ bytes = serialize .fin ∨
    (done ∧ ∃ message, bytes = serialize message ∧ ∀ other, message ≠ .syn other)

/-- What the server writes; `echoed` says whether it has answered a SYN. -/
def FromServer (n : UInt8) (echoed done : Prop) (bytes : Bytes) : Prop :=
  (echoed ∧ bytes = serialize (.syn n)) ∨ bytes = serialize .fin ∨
    (done ∧ ∃ message, bytes = serialize message ∧ message ≠ .synack ∧ ∀ other, message ≠ .syn other)

theorem FromClient.mono {n : UInt8} {done done' : Prop} {bytes : Bytes} (sound : FromClient n done bytes)
    (later : done → done') : FromClient n done' bytes :=
  sound.imp_right (Or.imp_right (And.imp_left later))

theorem FromServer.mono {n : UInt8} {echoed echoed' done done' : Prop} {bytes : Bytes}
    (sound : FromServer n echoed done bytes) (answered : echoed → echoed') (later : done → done') :
    FromServer n echoed' done' bytes :=
  sound.imp (And.imp_left answered) (Or.imp_right (And.imp_left later))

theorem FromClient.syn {n m : UInt8} {done : Prop} {bytes : Bytes} (sound : FromClient n done bytes)
    (parsed : deserialize bytes = .ok (.syn m)) : bytes = serialize (.syn n) ∧ m = n := by
  rcases sound with rfl | rfl | ⟨_,message,rfl,other⟩
  · rw [deserialize_serialize] at parsed
    cases parsed
    exact ⟨rfl,rfl⟩
  · simp [deserialize_serialize] at parsed
  · rw [deserialize_serialize] at parsed
    cases parsed
    exact absurd rfl (other m)

theorem FromClient.later {n : UInt8} {done : Prop} {bytes : Bytes} (sound : FromClient n done bytes)
    (parsed : deserialize bytes = .ok .synack ∨ ∃ packet, deserialize bytes = .ok (.data packet)) : done := by
  rcases sound with rfl | rfl | ⟨complete,_⟩
  · simp [deserialize_serialize] at parsed
  · simp [deserialize_serialize] at parsed
  · exact complete

theorem FromServer.syn {n m : UInt8} {echoed done : Prop} {bytes : Bytes} (sound : FromServer n echoed done bytes)
    (parsed : deserialize bytes = .ok (.syn m)) : echoed ∧ bytes = serialize (.syn n) := by
  rcases sound with answered | rfl | ⟨_,message,rfl,_,other⟩
  · exact answered
  · simp [deserialize_serialize] at parsed
  · rw [deserialize_serialize] at parsed
    cases parsed
    exact absurd rfl (other m)

/-- Nothing has been received and nothing acknowledged. -/
structure Endpoint.Untouched (e : Endpoint) : Prop where
  recvSeq : e.recvSeq = 0
  base : e.queue.sequenceBase = 0
  accepted : e.accepted = []
  receiveLoop : e.receiveLoop = .ready ∨ e.receiveLoop = .stopped

namespace Endpoint.Untouched

variable {e e' : Endpoint}

theorem send (untouched : e.Untouched) (action : SendAction) (messages : List Message)
    (stepped : e.sendStep action = some (e',messages)) : e'.Untouched := by
  have frame := (sendStep_moves action messages stepped).kept.1
  refine ⟨frame.recvSeq.trans untouched.recvSeq,frame.base.trans untouched.base,
    frame.accepted.trans untouched.accepted,?_⟩
  rw [frame.receiveLoop]
  exact untouched.receiveLoop

theorem step (untouched : e.Untouched) (event : LocalEvent)
    (own : event = .receive ∨ event = .drain ∨ event = .timer) (stepped : e.step event = some e') : e'.Untouched := by
  obtain ⟨recvSeq,base,accepted,loop⟩ := untouched
  rcases own with rfl | rfl | rfl
  · rcases loop with ready | stopped
    · simp [Endpoint.step,receiveStep,ready] at stepped
    · simp [Endpoint.step,receiveStep,stopped] at stepped
  · simp only [Endpoint.step] at stepped
    split at stepped <;> cases stepped
    exact ⟨recvSeq,base,accepted,loop⟩
  · simp only [Endpoint.step] at stepped
    split at stepped <;> cases stepped
    exact ⟨recvSeq,base,accepted,loop⟩

/-- A SYN or a FIN stops the receive loop and does nothing else. -/
theorem deliver (untouched : e.Untouched) (bytes : Bytes) (recentlySent : Bool)
    (parsed : (∃ n, deserialize bytes = .ok (.syn n)) ∨ deserialize bytes = .ok .fin) :
    (e.deliver bytes recentlySent).1.Untouched := by
  obtain ⟨recvSeq,base,accepted,_⟩ := untouched
  rcases parsed with ⟨n,parsed⟩ | parsed <;> simp only [Endpoint.deliver,parsed] <;>
    exact ⟨recvSeq,base,accepted,.inr rfl⟩

end Endpoint.Untouched

namespace Party

variable {p : Party} {result : Party × List Bytes} {late : Prop} {input : Option Bytes}

theorem Moves.written (moves : p.Moves late input result) : result.1.written = p.written ++ result.2 := by
  cases moves <;> first | rfl | simp

theorem Moves.got (moves : p.Moves late input result) : p.got <+: result.1.got := by
  cases moves with
  | packet => exact List.prefix_append _ _
  | _ => exact List.prefix_refl _

end Party

namespace Handshake

variable {h next : Handshake}

theorem sendSYN_unfinished (sendOk : Bool) (stepped : h.sendSYN sendOk = some next) : ¬ h.Finished := by
  cases h with
  | client h =>
    obtain ⟨next,moved,_⟩ := Option.map_eq_some_iff.mp stepped
    have sending := (h.sendSYN_cases next sendOk moved).1
    simp [Finished,sending]
  | server h => contradiction

theorem step_unfinished (event : HandshakeEvent) (stepped : h.step event = some next) : ¬ h.Finished := by
  cases h with
  | client h =>
    obtain ⟨next,moved,_⟩ := Option.map_eq_some_iff.mp stepped
    have waiting := (h.step_cases next event moved).1
    simp [Finished,waiting]
  | server h =>
    obtain ⟨next,moved,_⟩ := Option.map_eq_some_iff.mp stepped
    rcases (h.step_cases next event moved).1 with waiting | waiting <;> simp [Finished,waiting]

theorem sendSYN_sent (sendOk : Bool) (stepped : h.sendSYN sendOk = some next) : h.sent <+: next.sent := by
  cases h with
  | client h =>
    obtain ⟨next,moved,rfl⟩ := Option.map_eq_some_iff.mp stepped
    obtain ⟨_,_,⟨_,sent⟩ | ⟨_,sent⟩⟩ := h.sendSYN_cases next sendOk moved
    · exact ⟨_,sent.symm⟩
    · exact ⟨[],by simp [Handshake.sent,sent]⟩
  | server h => contradiction

theorem step_sent (event : HandshakeEvent) (stepped : h.step event = some next) : h.sent <+: next.sent := by
  cases h with
  | client h =>
    obtain ⟨next,moved,rfl⟩ := Option.map_eq_some_iff.mp stepped
    obtain ⟨_,_,⟨_,_,_,_,_,sent⟩ | ⟨_,_,sent⟩ | ⟨_,sent⟩ | ⟨_,_,_,_,same⟩⟩ := h.step_cases next event moved
    · exact ⟨_,sent.symm⟩
    · exact ⟨[],by simp [Handshake.sent,sent]⟩
    · exact ⟨[],by simp [Handshake.sent,sent]⟩
    · exact same ▸ List.prefix_refl _
  | server h =>
    obtain ⟨next,moved,rfl⟩ := Option.map_eq_some_iff.mp stepped
    cases (h.step_cases next event moved).2 with
    | echoed _ _ _ _ _ sent => exact ⟨_,sent.symm⟩
    | failed _ _ _ _ sent => exact ⟨[],by simp [Handshake.sent,sent]⟩
    | _ => exact List.prefix_refl _

theorem Completed.finished (completed : h.Completed) : h.Finished := by
  cases h with
  | client h =>
    have place : h.place = .complete := completed
    simp [Finished,place]
  | server h =>
    have place : h.place = .complete := completed
    simp [Finished,place]

end Handshake

namespace Party.Moves

variable {p : Party} {result : Party × List Bytes} {late : Prop} {input : Option Bytes}

/-- A handshake that has returned stays as it is, and so does what it took from its reader. -/
theorem finished (moves : p.Moves late input result) (done : p.handshake.Finished) :
    result.1.handshake = p.handshake ∧ result.1.got = p.got := by
  cases moves with
  | sendSYN sendOk next stepped => exact absurd done (Handshake.sendSYN_unfinished sendOk stepped)
  | wait r event next offered own stepped => exact absurd done (Handshake.step_unfinished event stepped)
  | packet r bytes sendOk next before after stepped => exact absurd done (Handshake.step_unfinished _ stepped)
  | _ => exact ⟨rfl,rfl⟩

theorem completed (moves : p.Moves late input result) (done : p.handshake.Completed) :
    result.1.handshake.Completed := by
  rw [(moves.finished done.finished).1]
  exact done

/-- A handshake that returns has written what it sent, and nothing else. -/
theorem written_sent (moves : p.Moves late input result) (open_ : ¬ p.handshake.Finished)
    (silent : p.written = p.handshake.sent) (done : result.1.handshake.Finished) :
    result.1.written = result.1.handshake.sent := by
  have append (next : Handshake) (longer : p.handshake.sent <+: next.sent) :
      p.written ++ next.sent.drop p.handshake.sent.length = next.sent := by
    obtain ⟨more,same⟩ := longer
    rw [silent,← same,List.drop_left]
  cases moves with
  | sendSYN sendOk next stepped => exact append next (Handshake.sendSYN_sent sendOk stepped)
  | wait r event next offered own stepped => exact append next (Handshake.step_sent event stepped)
  | packet r bytes sendOk next before after stepped => exact append next (Handshake.step_sent _ stepped)
  | _ => exact absurd done open_

/-- A connection is started by the step that completes the handshake. -/
theorem opened (moves : p.Moves late input result) (none : p.conn = none) (e : Endpoint)
    (started : result.1.conn = some e) : ¬ p.handshake.Finished ∧ result.1.handshake.conn = some e := by
  cases moves with
  | sendSYN sendOk next stepped => exact ⟨Handshake.sendSYN_unfinished sendOk stepped,started⟩
  | wait r event next offered own stepped => exact ⟨Handshake.step_unfinished event stepped,started⟩
  | packet r bytes sendOk next before after stepped => exact ⟨Handshake.step_unfinished _ stepped,started⟩
  | reader => exact absurd (none.symm.trans started) nofun
  | read => exact absurd (none.symm.trans started) nofun
  | close => exact absurd (none.symm.trans started) nofun
  | send e e' action messages before => exact absurd (none.symm.trans before) nofun
  | conn e e' event own before => exact absurd (none.symm.trans before) nofun
  | deliver bytes e recentlySent before => exact absurd (none.symm.trans before) nofun

end Party.Moves

/-- The client's side, given what the server has said: `echoed` and `done` are about the server. -/
structure ClientAgrees (n : UInt8) (echoed done : Prop) (p : Party) : Prop where
  handshake : ∃ h, p.handshake = .client h ∧ h.n = n
  offered : ∀ bytes ∈ p.reader.offered, FromServer n echoed done bytes
  completed : p.handshake.Completed → echoed
  conn : ∀ e, p.conn = some e → p.handshake.Completed ∧ e.n = n ∧ e.s = n + 1 ∧ (done ∨ e.Untouched)
  started : p.handshake.Completed → p.conn.isSome
  written : ∀ bytes ∈ p.written, FromClient n p.handshake.Completed bytes

namespace ClientAgrees

variable {n : UInt8} {echoed done : Prop} {p : Party}

theorem mono {echoed' done' : Prop} (agrees : ClientAgrees n echoed done p) (answered : echoed → echoed')
    (later : done → done') : ClientAgrees n echoed' done' p where
  handshake := agrees.handshake
  offered bytes member := (agrees.offered bytes member).mono answered later
  completed complete := answered (agrees.completed complete)
  conn e started := by
    obtain ⟨complete,window,cycle,untouched⟩ := agrees.conn e started
    exact ⟨complete,window,cycle,untouched.imp_left later⟩
  started := agrees.started
  written := agrees.written

/-- The handshake moves on and has not completed. -/
theorem proceed (agrees : ClientAgrees n echoed done p) (h next : ClientHandshake) (r : Reader) (got : List Bytes)
    (before : p.handshake = .client h) (open_ : h.place ≠ .complete) (same : next.n = h.n)
    (still : next.place ≠ .complete) (offered : ∀ bytes ∈ r.offered, bytes ∈ p.reader.offered)
    (sent : next.sent = h.sent ∨ next.sent = h.sent ++ [serialize (.syn h.n)]) :
    ClientAgrees n echoed done ({p with reader := r, got := got}.advance (.client next)).1 := by
  obtain ⟨own,found,window⟩ := agrees.handshake
  cases before.symm.trans found
  have none : ¬ p.handshake.Completed := by
    rw [before]
    exact open_
  refine ⟨⟨next,rfl,same.trans window⟩,fun bytes member => agrees.offered bytes (offered bytes member),
    fun complete => absurd complete still,?_,fun complete => absurd complete still,?_⟩
  · intro e started
    simp [Party.advance,Handshake.conn,Handshake.Completed,still] at started
  · intro bytes member
    rcases List.mem_append.mp member with old | new
    · exact (agrees.written bytes old).mono (absurd · none)
    · simp only [before,Handshake.sent] at new
      rcases sent with same | extended
      · simp [same] at new
      · rw [extended,List.drop_left,List.mem_singleton] at new
        exact .inl (window ▸ new)

/-- The SYN that completes the handshake is the server's answer. -/
theorem complete (agrees : ClientAgrees n echoed done p) (h next : ClientHandshake) (r : Reader) (got : List Bytes)
    (bytes : Bytes) (before : p.handshake = .client h) (same : next.n = h.n) (place : next.place = .complete)
    (sent : next.sent = h.sent ++ [serialize .synack]) (none : r.offered = []) (offered : bytes ∈ p.reader.offered)
    (parsed : deserialize bytes = .ok (.syn h.n)) :
    ClientAgrees n echoed done ({p with reader := r, got := got}.advance (.client next)).1 := by
  obtain ⟨own,found,window⟩ := agrees.handshake
  cases before.symm.trans found
  have completed : (Handshake.client next).Completed := place
  have answered : echoed := ((agrees.offered bytes offered).syn parsed).1
  refine ⟨⟨next,rfl,same.trans window⟩,fun bytes member => ?_,fun _ => answered,?_,?_,?_⟩
  · change bytes ∈ r.offered at member
    rw [none] at member
    contradiction
  · intro e started
    simp only [Party.advance,Handshake.conn,if_pos completed,Option.some.injEq] at started
    rw [same,window] at started
    subst started
    exact ⟨completed,rfl,rfl,.inr ⟨rfl,rfl,rfl,.inl rfl⟩⟩
  · intro _
    simp [Party.advance,Handshake.conn,completed]
  · intro bytes member
    rcases List.mem_append.mp member with old | new
    · exact (agrees.written bytes old).mono fun _ => completed
    · simp only [before,Handshake.sent,sent,List.drop_left,List.mem_singleton] at new
      exact .inr (.inr ⟨completed,.synack,new,nofun⟩)

/-- The connection moves on, and sends messages that are not of a handshake. -/
theorem carry (agrees : ClientAgrees n echoed done p) (e : Endpoint) (messages : List Message)
    (running : p.handshake.Completed) (window : e.n = n) (cycle : e.s = n + 1) (untouched : done ∨ e.Untouched)
    (sent : ∀ message ∈ messages, ∀ other, message ≠ .syn other) :
    ClientAgrees n echoed done ({p with conn := some e}.emit messages).1 := by
  refine ⟨agrees.handshake,agrees.offered,agrees.completed,?_,fun _ => rfl,?_⟩
  · intro e' same
    cases Option.some.inj same
    exact ⟨running,window,cycle,untouched⟩
  · intro bytes member
    rcases List.mem_append.mp member with old | new
    · exact agrees.written bytes old
    · obtain ⟨message,inside,rfl⟩ := List.mem_map.mp new
      exact .inr (.inr ⟨running,message,rfl,sent message inside⟩)

theorem moves {late : Prop} {input : Option Bytes} {result : Party × List Bytes} (agrees : ClientAgrees n echoed done p)
    (moves : p.Moves late input result) (incoming : ∀ bytes ∈ input, FromServer n echoed done bytes) :
    ClientAgrees n echoed done result.1 := by
  obtain ⟨h,before,_⟩ := agrees.handshake
  cases moves with
  | reader r asking offered =>
    refine ⟨agrees.handshake,?_,agrees.completed,agrees.conn,agrees.started,agrees.written⟩
    rcases offered with same | ⟨_,none⟩
    · rw [same]
      exact agrees.offered
    · simp [none]
  | read r bytes _ after =>
    refine ⟨agrees.handshake,?_,agrees.completed,agrees.conn,agrees.started,agrees.written⟩
    simpa [after] using incoming bytes rfl
  | sendSYN sendOk next stepped =>
    rw [before] at stepped
    obtain ⟨next,moved,rfl⟩ := Option.map_eq_some_iff.mp stepped
    obtain ⟨place,same,⟨waiting,sent⟩ | ⟨⟨err,failed⟩,sent⟩⟩ := h.sendSYN_cases next sendOk moved
    · exact agrees.proceed h next p.reader p.got before (by simp [place]) same (by simp [waiting]) (fun _ => id) (.inr sent)
    · exact agrees.proceed h next p.reader p.got before (by simp [place]) same (by simp [failed]) (fun _ => id) (.inl sent)
  | wait r event next offered own stepped =>
    rw [before] at stepped
    obtain ⟨next,moved,rfl⟩ := Option.map_eq_some_iff.mp stepped
    have keeps : ∀ bytes ∈ r.offered, bytes ∈ p.reader.offered := by simp [offered]
    obtain ⟨place,same,cases⟩ := h.step_cases next event moved
    have still : next.place ≠ .complete ∧ next.sent = h.sent := by
      rcases cases with ⟨bytes,sendOk,rfl,_⟩ | ⟨_,sending,sent⟩ | ⟨⟨err,failed⟩,sent⟩ | ⟨bytes,sendOk,rfl,_⟩
      · simp at own
      · exact ⟨by simp [sending],sent⟩
      · exact ⟨by simp [failed],sent⟩
      · simp at own
    exact agrees.proceed h next r p.got before (by simp [place]) same still.1 keeps (.inl still.2)
  | packet r bytes sendOk next present after stepped =>
    rw [before] at stepped
    obtain ⟨next,moved,rfl⟩ := Option.map_eq_some_iff.mp stepped
    have keeps : ∀ bytes ∈ r.offered, bytes ∈ p.reader.offered := by simp [after]
    obtain ⟨place,same,cases⟩ := h.step_cases next _ moved
    rcases cases with ⟨_,_,taken,parsed,complete,sent⟩ | ⟨_,sending,sent⟩ | ⟨⟨err,failed⟩,sent⟩ |
      ⟨_,_,_,_,rfl⟩
    · cases taken
      exact agrees.complete h next r _ bytes before same complete sent after (by simp [present]) parsed
    · exact agrees.proceed h next r _ before (by simp [place]) same (by simp [sending]) keeps (.inl sent)
    · exact agrees.proceed h next r _ before (by simp [place]) same (by simp [failed]) keeps (.inl sent)
    · exact agrees.proceed next next r _ before (by simp [place]) rfl (by simp [place]) keeps (.inl rfl)
  | send e e' action messages present stepped =>
    obtain ⟨running,window,cycle,untouched⟩ := agrees.conn e present
    have frame := (Endpoint.sendStep_moves action messages stepped).kept.1
    refine agrees.carry e' messages running (frame.n.trans window) (frame.s.trans cycle)
      (untouched.imp_right fun untouched => untouched.send action messages stepped) ?_
    intro message member other same
    obtain ⟨packet,data⟩ := frame.packets message member
    exact absurd (same.symm.trans data) nofun
  | conn e e' event own present stepped =>
    obtain ⟨running,window,cycle,untouched⟩ := agrees.conn e present
    obtain ⟨sameN,sameS,_⟩ := Endpoint.step_kept event stepped
    have kept := agrees.carry e' [] running (sameN.trans window) (sameS.trans cycle)
      (untouched.imp_right fun untouched => untouched.step event own stepped) nofun
    simpa [Party.emit] using kept
  | deliver bytes e recentlySent present ready =>
    obtain ⟨running,window,cycle,untouched⟩ := agrees.conn e present
    obtain ⟨sameN,sameS,_⟩ := Endpoint.deliver_kept (e := e) bytes recentlySent
    refine agrees.carry _ _ running (sameN.trans window) (sameS.trans cycle) ?_ ?_
    · rcases untouched with later | untouched
      · exact .inl later
      · rcases incoming bytes rfl with ⟨_,syn⟩ | fin | ⟨later,_⟩
        · exact .inr (untouched.deliver bytes recentlySent (.inl ⟨n,by rw [syn,deserialize_serialize]⟩))
        · exact .inr (untouched.deliver bytes recentlySent (.inr (by rw [fin,deserialize_serialize])))
        · exact .inl later
    · intro message member other same
      obtain ⟨seq,ack | nack⟩ := Endpoint.deliver_messages bytes recentlySent message member
      · exact absurd (same.symm.trans ack) nofun
      · exact absurd (same.symm.trans nack) nofun
  | close fin finished =>
    refine ⟨agrees.handshake,agrees.offered,agrees.completed,agrees.conn,agrees.started,?_⟩
    intro bytes member
    rcases List.mem_append.mp member with old | new
    · exact agrees.written bytes old
    · cases fin with
      | true => exact .inr (.inl (by simpa using new))
      | false => simp at new

end ClientAgrees

/-- The server has received a SYN of the client and has answered it. -/
def Party.Echoed (n : UInt8) (p : Party) : Prop := serialize (.syn n) ∈ p.got ∧ serialize (.syn n) ∈ p.written

theorem Party.Moves.echoed {n : UInt8} {p : Party} {late : Prop} {input : Option Bytes} {result : Party × List Bytes}
    (moves : p.Moves late input result) (before : p.Echoed n) : result.1.Echoed n := by
  refine ⟨moves.got.subset before.1,?_⟩
  rw [moves.written]
  exact List.mem_append_left _ before.2

/-- The server's side; `done` says whether the client is complete. -/
structure ServerAgrees (n : UInt8) (done : Prop) (p : Party) : Prop where
  handshake : ∃ h, p.handshake = .server h ∧ (h.Heard → h.n = n ∧ p.Echoed n)
  offered : ∀ bytes ∈ p.reader.offered, FromClient n done bytes
  completed : p.handshake.Completed → done
  conn : ∀ e, p.conn = some e → p.handshake.Completed ∧ e.n = n ∧ e.s = n + 1
  started : p.handshake.Completed → p.conn.isSome
  written : ∀ bytes ∈ p.written, FromServer n (p.Echoed n) p.handshake.Completed bytes
  sent : ∀ bytes ∈ p.handshake.sent, bytes = serialize (.syn n)
  silent : ¬ p.handshake.Finished → p.written = p.handshake.sent

namespace ServerAgrees

variable {n : UInt8} {done : Prop} {p : Party}

theorem mono {done' : Prop} (agrees : ServerAgrees n done p) (later : done → done') : ServerAgrees n done' p where
  handshake := agrees.handshake
  offered bytes member := (agrees.offered bytes member).mono later
  completed complete := later (agrees.completed complete)
  conn := agrees.conn
  started := agrees.started
  written := agrees.written
  sent := agrees.sent
  silent := agrees.silent

theorem unfinished {h : ServerHandshake} (before : p.handshake = .server h)
    (waiting : h.place = .waitSYN ∨ h.place = .waitSYNACK) : ¬ p.handshake.Finished ∧ ¬ p.handshake.Completed := by
  rw [before]
  rcases waiting with place | place <;> simp [Handshake.Finished,Handshake.Completed,place]

/-- The handshake moves on without a message of its own. -/
theorem proceed (agrees : ServerAgrees n done p) (h next : ServerHandshake) (r : Reader) (got : List Bytes)
    (before : p.handshake = .server h) (waiting : h.place = .waitSYN ∨ h.place = .waitSYNACK)
    (longer : p.got <+: got) (offered : ∀ bytes ∈ r.offered, bytes ∈ p.reader.offered) (sent : next.sent = h.sent)
    (heard : next.Heard → h.Heard ∧ next.n = n) (completed : next.place = .complete → done) :
    ServerAgrees n done ({p with reader := r, got := got}.advance (.server next)).1 := by
  obtain ⟨own,found,known⟩ := agrees.handshake
  cases before.symm.trans found
  obtain ⟨open_,none⟩ := unfinished before waiting
  have written : ({p with reader := r, got := got}.advance (.server next)).1.written = p.written := by
    simp [Party.advance,before,Handshake.sent,sent]
  have echoed (already : p.Echoed n) : ({p with reader := r, got := got}.advance (.server next)).1.Echoed n := by
    refine ⟨longer.subset already.1,?_⟩
    rw [written]
    exact already.2
  refine ⟨⟨next,rfl,fun again => ⟨(heard again).2,echoed (known (heard again).1).2⟩⟩,
    fun bytes member => agrees.offered bytes (offered bytes member),completed,?_,?_,?_,?_,?_⟩
  · intro e started
    by_cases complete : next.place = .complete
    · have complete' : (Handshake.server next).Completed := complete
      simp only [Party.advance,Handshake.conn,if_pos complete',Option.some.injEq] at started
      rw [(heard (.inr (.inr complete))).2] at started
      subst started
      exact ⟨complete,rfl,rfl⟩
    · simp [Party.advance,Handshake.conn,Handshake.Completed,complete] at started
  · intro complete
    have complete : (Handshake.server next).Completed := complete
    simp [Party.advance,Handshake.conn,complete]
  · intro bytes member
    rw [written] at member
    exact (agrees.written bytes member).mono echoed (absurd · none)
  · intro bytes member
    have old := agrees.sent bytes
    rw [before] at old
    change bytes ∈ next.sent at member
    rw [sent] at member
    exact old member
  · intro _
    rw [written,agrees.silent open_,before]
    exact sent.symm

/-- The handshake answers a SYN. -/
theorem echo (agrees : ServerAgrees n done p) (h next : ServerHandshake) (r : Reader)
    (before : p.handshake = .server h) (waiting : h.place = .waitSYN ∨ h.place = .waitSYNACK)
    (offered : ∀ bytes ∈ r.offered, bytes ∈ p.reader.offered) (place : next.place = .waitSYNACK) (window : next.n = n)
    (sent : next.sent = h.sent ++ [serialize (.syn n)]) :
    ServerAgrees n done ({p with reader := r, got := p.got ++ [serialize (.syn n)]}.advance (.server next)).1 := by
  obtain ⟨open_,none⟩ := unfinished before waiting
  have written : ({p with reader := r, got := p.got ++ [serialize (.syn n)]}.advance (.server next)).1.written =
      p.written ++ [serialize (.syn n)] := by
    simp [Party.advance,before,Handshake.sent,sent]
  have echoed : ({p with reader := r, got := p.got ++ [serialize (.syn n)]}.advance (.server next)).1.Echoed n := by
    refine ⟨List.mem_append_right _ (by simp),?_⟩
    rw [written]
    simp
  have still : ¬ (Handshake.server next).Completed := by simp [Handshake.Completed,place]
  refine ⟨⟨next,rfl,fun _ => ⟨window,echoed⟩⟩,fun bytes member => agrees.offered bytes (offered bytes member),
    fun complete => absurd complete still,?_,fun complete => absurd complete still,?_,?_,?_⟩
  · intro e started
    simp [Party.advance,Handshake.conn,still] at started
  · intro bytes member
    rw [written] at member
    rcases List.mem_append.mp member with old | new
    · exact (agrees.written bytes old).mono (fun _ => echoed) (absurd · none)
    · exact .inl ⟨echoed,List.mem_singleton.mp new⟩
  · intro bytes member
    have old := agrees.sent bytes
    rw [before] at old
    change bytes ∈ next.sent at member
    rw [sent] at member
    rcases List.mem_append.mp member with earlier | new
    · exact old earlier
    · exact List.mem_singleton.mp new
  · intro _
    rw [written,agrees.silent open_,before]
    exact sent.symm

theorem carry (agrees : ServerAgrees n done p) (e : Endpoint) (messages : List Message)
    (running : p.handshake.Completed) (window : e.n = n) (cycle : e.s = n + 1)
    (sent : ∀ message ∈ messages, message ≠ .synack ∧ ∀ other, message ≠ .syn other) :
    ServerAgrees n done ({p with conn := some e}.emit messages).1 := by
  have echoed (already : p.Echoed n) : ({p with conn := some e}.emit messages).1.Echoed n :=
    ⟨already.1,List.mem_append_left _ already.2⟩
  obtain ⟨h,before,known⟩ := agrees.handshake
  refine ⟨⟨h,before,fun heard => ⟨(known heard).1,echoed (known heard).2⟩⟩,agrees.offered,agrees.completed,?_,
    fun _ => rfl,?_,agrees.sent,fun waiting => absurd running.finished waiting⟩
  · intro e' same
    cases Option.some.inj same
    exact ⟨running,window,cycle⟩
  · intro bytes member
    rcases List.mem_append.mp member with old | new
    · exact (agrees.written bytes old).mono echoed id
    · obtain ⟨message,inside,rfl⟩ := List.mem_map.mp new
      exact .inr (.inr ⟨running,message,rfl,sent message inside⟩)

/-- One message of the client reaches the handshake. -/
theorem packet (agrees : ServerAgrees n done p) (h next : ServerHandshake) (r : Reader) (bytes : Bytes) (sendOk : Bool)
    (before : p.handshake = .server h) (present : p.reader.offered = [bytes]) (after : r.offered = [])
    (stepped : h.step (.packet bytes sendOk) = some next) :
    ServerAgrees n done ({p with reader := r, got := p.got ++ [bytes]}.advance (.server next)).1 := by
  obtain ⟨own,found,known⟩ := agrees.handshake
  cases before.symm.trans found
  have sound : FromClient n done bytes := agrees.offered bytes (by simp [present])
  have keeps : ∀ bytes ∈ r.offered, bytes ∈ p.reader.offered := by simp [after]
  have longer : p.got <+: p.got ++ [bytes] := List.prefix_append _ _
  obtain ⟨waiting,cases⟩ := h.step_cases next _ stepped
  cases cases with
  | echoed _ _ _ parsed place sent =>
    obtain ⟨rfl,window⟩ := sound.syn parsed
    rw [window] at sent
    exact agrees.echo h next r before waiting keeps place window sent
  | completed _ _ heard parsed =>
    exact agrees.proceed h _ r _ before waiting longer keeps rfl (fun _ => ⟨heard,(known heard).1⟩)
      fun _ => sound.later parsed
  | failed _ _ err place sent window heard =>
    refine agrees.proceed h next r _ before waiting longer keeps sent ?_ (by simp [place])
    intro again
    refine ⟨heard again,?_⟩
    rw [window]
    simp only [HandshakeEvent.syn]
    split
    next other parsed => exact (sound.syn parsed).2
    next => exact (known (heard again)).1
  | ignored _ _ parsed unheard =>
    exact agrees.proceed h h r _ before waiting longer keeps rfl (fun heard => ⟨heard,(known heard).1⟩)
      fun complete => by rcases waiting with place | place <;> simp [place] at complete

theorem moves {late : Prop} {input : Option Bytes} {result : Party × List Bytes} (agrees : ServerAgrees n done p)
    (moves : p.Moves late input result) (incoming : ∀ bytes ∈ input, FromClient n done bytes) :
    ServerAgrees n done result.1 := by
  obtain ⟨h,before,known⟩ := agrees.handshake
  cases moves with
  | reader r asking offered =>
    refine ⟨agrees.handshake,?_,agrees.completed,agrees.conn,agrees.started,agrees.written,agrees.sent,
      agrees.silent⟩
    rcases offered with same | ⟨_,none⟩
    · rw [same]
      exact agrees.offered
    · simp [none]
  | read r bytes _ after =>
    refine ⟨agrees.handshake,?_,agrees.completed,agrees.conn,agrees.started,agrees.written,agrees.sent,
      agrees.silent⟩
    simpa [after] using incoming bytes rfl
  | sendSYN sendOk next stepped =>
    rw [before] at stepped
    contradiction
  | wait r event next offered own stepped =>
    rw [before] at stepped
    obtain ⟨next,moved,rfl⟩ := Option.map_eq_some_iff.mp stepped
    have keeps : ∀ bytes ∈ r.offered, bytes ∈ p.reader.offered := by simp [offered]
    obtain ⟨waiting,cases⟩ := h.step_cases next event moved
    cases cases with
    | restarted heard =>
      exact agrees.proceed h _ r _ before waiting (List.prefix_refl _) keeps rfl (fun _ => ⟨heard,(known heard).1⟩) nofun
    | failed _ _ err place sent window heard =>
      have noSYN : event.syn = none := by rcases own with rfl | ⟨rfl,_⟩ <;> rfl
      rw [noSYN] at window
      exact agrees.proceed h next r _ before waiting (List.prefix_refl _) keeps sent
        (fun again => ⟨heard again,window.trans (known (heard again)).1⟩) (by simp [place])
    | _ => simp at own
  | packet r bytes sendOk next present after stepped =>
    rw [before] at stepped
    obtain ⟨next,moved,rfl⟩ := Option.map_eq_some_iff.mp stepped
    exact agrees.packet h next r bytes sendOk before present after moved
  | send e e' action messages present stepped =>
    obtain ⟨running,window,cycle⟩ := agrees.conn e present
    have frame := (Endpoint.sendStep_moves action messages stepped).kept.1
    refine agrees.carry e' messages running (frame.n.trans window) (frame.s.trans cycle) ?_
    intro message member
    obtain ⟨packet,rfl⟩ := frame.packets message member
    exact ⟨nofun,nofun⟩
  | conn e e' event own present stepped =>
    obtain ⟨running,window,cycle⟩ := agrees.conn e present
    obtain ⟨sameN,sameS,_⟩ := Endpoint.step_kept event stepped
    have kept := agrees.carry e' [] running (sameN.trans window) (sameS.trans cycle) nofun
    simpa [Party.emit] using kept
  | deliver bytes e recentlySent present ready =>
    obtain ⟨running,window,cycle⟩ := agrees.conn e present
    obtain ⟨sameN,sameS,_⟩ := Endpoint.deliver_kept (e := e) bytes recentlySent
    refine agrees.carry _ _ running (sameN.trans window) (sameS.trans cycle) ?_
    intro message member
    obtain ⟨seq,rfl | rfl⟩ := Endpoint.deliver_messages bytes recentlySent message member
    · exact ⟨nofun,nofun⟩
    · exact ⟨nofun,nofun⟩
  | close fin finished =>
    have echoed (already : p.Echoed n) : ({p with closed := true}.emit (if fin then [.fin] else [])).1.Echoed n :=
      ⟨already.1,List.mem_append_left _ already.2⟩
    refine ⟨⟨h,before,fun heard => ⟨(known heard).1,echoed (known heard).2⟩⟩,agrees.offered,agrees.completed,
      agrees.conn,
      agrees.started,?_,agrees.sent,fun waiting => absurd finished waiting⟩
    intro bytes member
    rcases List.mem_append.mp member with old | new
    · exact (agrees.written bytes old).mono echoed id
    · cases fin with
      | true => exact .inr (.inl (by simpa using new))
      | false => simp at new

end ServerAgrees

structure Opening.Agreed (n : UInt8) (o : Opening) : Prop where
  client : ClientAgrees n ((o.party .server).Echoed n) (o.party .server).handshake.Completed (o.party .client)
  server : ServerAgrees n (o.party .client).handshake.Completed (o.party .server)
  wire : ∀ side, ∀ bytes ∈ o.wire side, bytes ∈ (o.party side.other).written

namespace Opening.Agreed

variable {n : UInt8} {o next : Opening}

theorem incoming (agreed : o.Agreed n) :
    (∀ bytes ∈ o.wire .client, FromServer n ((o.party .server).Echoed n) (o.party .server).handshake.Completed bytes) ∧
    (∀ bytes ∈ o.wire .server, FromClient n (o.party .client).handshake.Completed bytes) :=
  ⟨fun bytes member => agreed.server.written bytes (agreed.wire .client bytes member),
    fun bytes member => agreed.client.written bytes (agreed.wire .server bytes member)⟩

theorem initial (n : UInt8) : (Opening.initial n).Agreed n := by
  have client (echoed done : Prop) : ClientAgrees n echoed done (.start (.client (.start n))) := by
    refine ⟨⟨_,rfl,rfl⟩,?_,?_,?_,?_,?_⟩ <;> intros <;> contradiction
  have server (done : Prop) : ServerAgrees n done (.start (.server .start)) := by
    refine ⟨⟨_,rfl,fun heard => ?_⟩,?_,?_,?_,?_,?_,?_,fun _ => rfl⟩
    · simp [ServerHandshake.Heard,ServerHandshake.start] at heard
    all_goals intros; contradiction
  refine ⟨client _ _,server _,?_⟩
  intro side bytes member
  contradiction

/-- One side moves; what it takes in was in flight towards it. -/
theorem update (agreed : o.Agreed n) (side : Side) (wire : Side → List Bytes) (late : Prop) (input : Option Bytes)
    (result : Party × List Bytes) (fewer : ∀ x, ∀ bytes ∈ wire x, bytes ∈ o.wire x)
    (taken : ∀ bytes ∈ input, bytes ∈ o.wire side) (moves : (o.party side).Moves late input result) :
    (Opening.update {o with wire := wire} side result.1 result.2).Agreed n := by
  have inFlight : ∀ x, ∀ bytes ∈ (Opening.update {o with wire := wire} side result.1 result.2).wire x,
      bytes ∈ ((Opening.update {o with wire := wire} side result.1 result.2).party x.other).written := by
    intro x bytes member
    by_cases own : x = side.other
    · subst own
      simp only [Opening.update,Function.update_self,Side.other_other] at member ⊢
      rw [moves.written]
      rcases List.mem_append.mp member with old | new
      · have before := agreed.wire side.other bytes (fewer _ bytes old)
        rw [Side.other_other] at before
        exact List.mem_append_left _ before
      · exact List.mem_append_right _ new
    · have same : x.other ≠ side := fun equal => own (by rw [← equal,Side.other_other])
      simp only [Opening.update,Function.update_of_ne own,Function.update_of_ne same] at member ⊢
      exact agreed.wire x bytes (fewer x bytes member)
  cases side with
  | client =>
    refine ⟨?_,?_,inFlight⟩
    · exact agreed.client.moves moves fun bytes member => agreed.incoming.1 bytes (taken bytes member)
    · exact agreed.server.mono moves.completed
  | server =>
    refine ⟨?_,?_,inFlight⟩
    · exact agreed.client.mono moves.echoed moves.completed
    · exact agreed.server.moves moves fun bytes member => agreed.incoming.2 bytes (taken bytes member)

theorem step (agreed : o.Agreed n) (event : OpeningEvent) (stepped : o.step event = some next) : next.Agreed n := by
  cases o.step_cases next event stepped with
  | lost side index =>
    refine ⟨agreed.client,agreed.server,fun x bytes member => agreed.wire x bytes ?_⟩
    dsimp only at member
    by_cases own : x = side
    · subst own
      rw [Function.update_self] at member
      exact List.mem_of_mem_eraseIdx member
    · rwa [Function.update_of_ne own] at member
  | moved side event result moves =>
    exact agreed.update side o.wire _ none result (fun _ _ => id) nofun moves
  | arrived side intake keep bytes rest result wire moves =>
    refine agreed.update side _ False (some bytes) result ?_ ?_ moves
    · intro x other member
      by_cases own : x = side
      · subst own
        rw [Function.update_self] at member
        rw [wire]
        cases keep with
        | true => exact member
        | false => exact List.mem_cons_of_mem _ member
      · rwa [Function.update_of_ne own] at member
    · intro other same
      cases same
      rw [wire]
      exact List.mem_cons_self

theorem run (n : UInt8) (events : List OpeningEvent) (reached : run Opening.step (.initial n) events = some o) :
    o.Agreed n :=
  run_invariant Opening.step (Opening.Agreed n) (fun _ event _ agreed stepped => agreed.step event stepped) events _ o
    (initial n) reached

end Opening.Agreed

/-- A step moves one side and leaves the other alone. -/
theorem Opening.step_party (o next : Opening) (event : OpeningEvent) (stepped : o.step event = some next) (side : Side) :
    next.party side = o.party side ∨ ∃ late input result, (o.party side).Moves late input result ∧
      next.party side = result.1 ∧ next.party side.other = o.party side.other := by
  have own (wire : Side → List Bytes) (mover : Side) (late : Prop) (input : Option Bytes) (result : Party × List Bytes)
      (moves : (o.party mover).Moves late input result)
      (same : next = Opening.update {o with wire := wire} mover result.1 result.2) :
      next.party side = o.party side ∨ ∃ late input result, (o.party side).Moves late input result ∧
        next.party side = result.1 ∧ next.party side.other = o.party side.other := by
    subst same
    by_cases own : side = mover
    · subst own
      exact .inr ⟨late,input,result,moves,Function.update_self ..,Function.update_of_ne side.other_ne ..⟩
    · exact .inl (Function.update_of_ne own ..)
  cases o.step_cases next event stepped with
  | lost => exact .inl rfl
  | moved mover event result moves => exact own o.wire mover _ none result moves rfl
  | arrived mover intake keep bytes rest result wire moves => exact own _ mover False (some bytes) result moves rfl

/-- A connection as a handshake leaves it. -/
structure Endpoint.Fresh (n : UInt8) (e : Endpoint) : Prop where
  window : e.n = n
  cycle : e.s.toNat = n.toNat + 1
  recvSeq : e.recvSeq = 0
  base : e.queue.sequenceBase = 0
  top : e.queue.sequenceTop = 0
  empty : e.queue.size = 0

/-- The connection a handshake starts is fresh. -/
theorem Opening.Agreed.fresh {n : UInt8} {o : Opening} (agreed : o.Agreed n) (upper : n.toNat ≤ 254) (side : Side)
    (e : Endpoint) (begun : (o.party side).handshake.conn = some e) : e.Fresh n := by
  have cycle : (n + 1).toNat = n.toNat + 1 := toNat_succ n (by omega)
  unfold Handshake.conn at begun
  split_ifs at begun with complete
  cases side with
  | client =>
    obtain ⟨h,before,window⟩ := agreed.client.handshake
    rw [before] at begun
    cases begun
    rw [window]
    exact ⟨rfl,cycle,rfl,rfl,rfl,by simp [newEndpoint,newQueue,Queue.size]⟩
  | server =>
    obtain ⟨h,before,known⟩ := agreed.server.handshake
    rw [before] at begun complete
    cases begun
    rw [(known (.inr (.inr complete))).1]
    exact ⟨rfl,cycle,rfl,rfl,rfl,by simp [Endpoint.setN,newQueue,Queue.size]⟩

/-- A connection starts in the step that completes the handshake, which has then written what it sent. -/
theorem Opening.step_opened (o next : Opening) (event : OpeningEvent) (stepped : o.step event = some next) (side : Side)
    (e : Endpoint) (none : (o.party side).conn = none) (started : (next.party side).conn = some e) :
    ¬ (o.party side).handshake.Finished ∧ (next.party side).handshake.conn = some e ∧
      ((o.party side).written = (o.party side).handshake.sent →
        (next.party side).written = (next.party side).handshake.sent) ∧
      next.party side.other = o.party side.other := by
  obtain same | ⟨late,input,result,moves,moved,other⟩ := o.step_party next event stepped side
  · rw [same] at started
    exact absurd (none.symm.trans started) nofun
  · rw [moved] at started ⊢
    obtain ⟨open_,begun⟩ := moves.opened none e started
    refine ⟨open_,begun,fun silent => moves.written_sent open_ silent ?_,other⟩
    unfold Handshake.conn at begun
    split_ifs at begun with complete
    exact complete.finished

/-- For every run over channels that drop and repeat: a completed client has been answered;
a completed server has answered and uses the client's window; each connection starts
fresh; and until the server completes it has written nothing but its answers, so that
the client's connection has then received and been acknowledged nothing. -/
theorem Opening.handshake_agreement (n : UInt8) (upper : n.toNat ≤ 254) (events : List OpeningEvent) (o : Opening)
    (reached : run Opening.step (.initial n) events = some o) :
    ((o.party .client).handshake.Completed → (o.party .server).Echoed n) ∧
    ((o.party .server).handshake.Completed → (o.party .server).Echoed n ∧ (o.party .client).handshake.Completed ∧
      ∃ h, (o.party .server).handshake = .server h ∧ h.n = n) ∧
    (∀ side, (o.party side).handshake.Completed →
      ∃ e, (o.party side).conn = some e ∧ e.n = n ∧ e.s.toNat = n.toNat + 1) ∧
    (∀ event next, o.step event = some next →
      (∀ side e, (o.party side).conn = none → (next.party side).conn = some e → e.Fresh n) ∧
      ((o.party .server).conn = none → (next.party .server).conn.isSome →
        (∀ bytes ∈ (next.party .server).written, bytes = serialize (.syn n)) ∧
        ∃ e, (next.party .client).conn = some e ∧ e.Untouched)) := by
  have agreed := Opening.Agreed.run n events reached
  have cycle : (n + 1).toNat = n.toNat + 1 := toNat_succ n (by omega)
  refine ⟨agreed.client.completed,?_,?_,?_⟩
  · intro complete
    obtain ⟨h,before,known⟩ := agreed.server.handshake
    rw [before] at complete
    obtain ⟨window,echoed⟩ := known (.inr (.inr complete))
    rw [← before] at complete
    exact ⟨echoed,agreed.server.completed complete,h,before,window⟩
  · rintro (_ | _) complete
    · obtain ⟨e,started⟩ := Option.isSome_iff_exists.mp (agreed.client.started complete)
      obtain ⟨_,window,size,_⟩ := agreed.client.conn e started
      exact ⟨e,started,window,by rw [size,cycle]⟩
    · obtain ⟨e,started⟩ := Option.isSome_iff_exists.mp (agreed.server.started complete)
      obtain ⟨_,window,size⟩ := agreed.server.conn e started
      exact ⟨e,started,window,by rw [size,cycle]⟩
  · intro event next stepped
    have after := agreed.step event stepped
    refine ⟨fun side e none started => after.fresh upper side e ?_,fun none started => ?_⟩
    · exact (o.step_opened next event stepped side e none started).2.1
    · obtain ⟨e,started⟩ := Option.isSome_iff_exists.mp started
      obtain ⟨open_,begun,written,other⟩ := o.step_opened next event stepped .server e none started
      have same : next.party .client = o.party .client := other
      refine ⟨?_,?_⟩
      · rw [written (agreed.server.silent open_)]
        exact after.server.sent
      · have complete : (o.party .client).handshake.Completed := by
          rw [← same]
          exact after.server.completed (after.server.conn e started).1
        obtain ⟨e,running⟩ := Option.isSome_iff_exists.mp (agreed.client.started complete)
        rw [same]
        exact ⟨e,running,(agreed.client.conn e running).2.2.2.resolve_left fun done => open_ done.finished⟩

/-- The SYNACK is lost, the server restarts, and a packet of the client's connection is the next it sees. -/
def lostSYNACK : List OpeningEvent :=
  [.own .client (.sendSYN true),.own .client .ask,.own .client .token,
    .own .server .ask,.own .server .token,.arrive .server .reader false,.own .server (.packet true),
    .own .server .ask,.own .server .token,.arrive .client .reader false,.own .client (.packet true),.lose .server 0,
    .own .client (.send (.take [7] true)),.own .client (.send (.proceed false)),.own .client (.send (.proceed false)),
    .own .server .timeout,.own .server .ask,.arrive .server .reader false]

theorem Opening.handshake_agreement_lostSYNACK : ∃ o next, run Opening.step (.initial 2) lostSYNACK = some o ∧
    o.step (.own .server (.packet true)) = some next ∧ (next.party .server).conn.isSome ∧
    (∀ bytes ∈ (next.party .server).written, bytes = serialize (.syn 2)) ∧
    ∃ e, (next.party .client).conn = some e ∧ e.Untouched := by
  have result : ((run Opening.step (.initial 2) lostSYNACK).bind fun o => (o.step (.own .server (.packet true))).map
      fun next => ((o.party .server).conn.isNone,(next.party .server).conn.isSome)) = some (true,true) := by
    decide +kernel
  obtain ⟨o,reached,rest⟩ := Option.bind_eq_some_iff.mp result
  obtain ⟨next,stepped,conns⟩ := Option.map_eq_some_iff.mp rest
  simp only [Prod.mk.injEq,Option.isNone_iff_eq_none] at conns
  have opened := ((Opening.handshake_agreement 2 (by decide) _ o reached).2.2.2 _ next stepped).2 conns.1 conns.2
  exact ⟨o,next,reached,stepped,conns.2,opened⟩

/-- By then the client's connection may have sent, so that its queue is not empty. -/
theorem Opening.client_already_sending : ∃ o,
    run Opening.step (.initial 2) (lostSYNACK ++ [.own .server (.packet true)]) = some o ∧
    (∀ side, (o.party side).handshake.Completed) ∧
    ∃ e, (o.party .client).conn = some e ∧ e.queue.sequenceTop = 1 ∧ e.queue.size = 1 := by
  have result : (run Opening.step (.initial 2) (lostSYNACK ++ [.own .server (.packet true)])).bind
      (fun o => (o.party .client).conn.map fun e => (e.queue.sequenceTop,e.queue.size,
        decide ((o.party .client).handshake.Completed),decide ((o.party .server).handshake.Completed))) =
      some (1,1,true,true) := by
    decide +kernel
  obtain ⟨o,reached,rest⟩ := Option.bind_eq_some_iff.mp result
  obtain ⟨e,running,fields⟩ := Option.map_eq_some_iff.mp rest
  simp only [Prod.mk.injEq,decide_eq_true_eq] at fields
  refine ⟨o,reached,?_,e,running,fields.1,fields.2.1⟩
  rintro (_ | _)
  · exact fields.2.2.1
  · exact fields.2.2.2

end NodeConnect.Gbn
