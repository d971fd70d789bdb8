import NodeConnect.Gbn.OpeningAgreement

/-! What a handshake leaves in flight, over channels that neither drop nor repeat. What
one side wrote is then what the other took, read past its handshake or has still to
read, in this order. The server sees every SYN before the SYNACK, so nothing of the
handshake follows it; the client uses one answer, and the server answers each SYN. -/
namespace NodeConnect.Gbn
open Lib

def OpeningEvent.Lossless : OpeningEvent → Prop
  | .own _ _ => True
  | .arrive _ _ keep => keep = false
  | .lose _ _ => False

instance : (event : OpeningEvent) → Decidable event.Lossless
  | .own _ _ => isTrue trivial
  | .arrive _ _ keep => inferInstanceAs (Decidable (keep = false))
  | .lose _ _ => isFalse id

/-- A message that the receive loop of a connection does not expect. -/
def Opens (bytes : Bytes) : Prop := (∃ n, deserialize bytes = .ok (.syn n)) ∨ deserialize bytes = .ok .synack

theorem not_opens {message : Message} (noSYNACK : message ≠ .synack) (noSYN : ∀ n, message ≠ .syn n) :
    ¬ Opens (serialize message) := by
  rintro (⟨n,parsed⟩ | parsed)
  · rw [deserialize_serialize] at parsed
    exact noSYN n (Except.ok.inj parsed)
  · rw [deserialize_serialize] at parsed
    exact noSYNACK (Except.ok.inj parsed)

def HandshakeEvent.taken : HandshakeEvent → List Bytes
  | .packet bytes _ => [bytes]
  | _ => []

namespace Party

variable {p : Party} {result : Party × List Bytes} {late : Prop} {input : Option Bytes}

/-- A step leaves the handshake alone and sends nothing of it, or it is a step of the handshake. -/
theorem Moves.handshake_cases (moves : p.Moves late input result) :
    (result.1.handshake = p.handshake ∧ result.1.got = p.got ∧ (∀ bytes ∈ result.2, ¬ Opens bytes) ∧
      (result.2 ≠ [] → p.handshake.Finished ∨ p.conn.isSome)) ∨
    (∃ sendOk, p.handshake.sendSYN sendOk = some result.1.handshake ∧ result.1.got = p.got ∧
      result.2 = result.1.handshake.sent.drop p.handshake.sent.length) ∨
    (∃ event, p.handshake.step event = some result.1.handshake ∧ result.1.got = p.got ++ event.taken ∧
      (∀ bytes ∈ event.taken, bytes ∈ p.reader.offered) ∧ (event = .timeout → late) ∧
      result.2 = result.1.handshake.sent.drop p.handshake.sent.length) := by
  have plain (messages : List Message) (later : ∀ message ∈ messages, message ≠ .synack ∧ ∀ n, message ≠ .syn n) :
      ∀ bytes ∈ messages.map serialize, ¬ Opens bytes := by
    intro bytes member
    obtain ⟨message,inside,rfl⟩ := List.mem_map.mp member
    exact not_opens (later message inside).1 (later message inside).2
  cases moves with
  | reader => exact .inl ⟨rfl,rfl,nofun,nofun⟩
  | read => exact .inl ⟨rfl,rfl,nofun,nofun⟩
  | sendSYN sendOk next stepped => exact .inr (.inl ⟨sendOk,stepped,rfl,rfl⟩)
  | wait r event next offered own stepped =>
    refine .inr (.inr ⟨event,stepped,?_,?_,?_,rfl⟩)
    · rcases own with rfl | ⟨rfl,_⟩ <;> exact (List.append_nil _).symm
    · rcases own with rfl | ⟨rfl,_⟩ <;> exact nofun
    · rintro rfl
      exact (own.resolve_left nofun).2
  | packet r bytes sendOk next before after stepped =>
    exact .inr (.inr ⟨_,stepped,rfl,fun _ member => before ▸ member,nofun,rfl⟩)
  | conn => exact .inl ⟨rfl,rfl,nofun,nofun⟩
  | send e e' action messages before stepped =>
    refine .inl ⟨rfl,rfl,plain messages ?_,fun _ => .inr (by simp [before])⟩
    intro message member
    obtain ⟨packet,rfl⟩ := (Endpoint.sendStep_moves action messages stepped).kept.1.packets message member
    exact ⟨nofun,nofun⟩
  | deliver bytes e recentlySent before ready =>
    refine .inl ⟨rfl,rfl,plain _ ?_,fun _ => .inr (by simp [before])⟩
    intro message member
    obtain ⟨seq,rfl | rfl⟩ := Endpoint.deliver_messages bytes recentlySent message member
    · exact ⟨nofun,nofun⟩
    · exact ⟨nofun,nofun⟩
  | close fin finished =>
    refine .inl ⟨rfl,rfl,plain _ ?_,fun _ => .inl finished⟩
    cases fin <;> simp

/-- After its handshake has returned a side writes nothing of a handshake. -/
theorem Moves.quiet (moves : p.Moves late input result) (finished : p.handshake.Finished) :
    ∀ bytes ∈ result.2, ¬ Opens bytes := by
  obtain ⟨_,_,quiet,_⟩ | ⟨sendOk,stepped,_⟩ | ⟨event,stepped,_⟩ := moves.handshake_cases
  · exact quiet
  · exact absurd finished (Handshake.sendSYN_unfinished sendOk stepped)
  · exact absurd finished (Handshake.step_unfinished event stepped)

/-- What was sent to a side is what its handshake took, what was read after that, and what is
in flight; until the handshake returns, only its reader holds a message between. -/
def Stream (p : Party) (sent wire : List Bytes) : Prop :=
  ∃ between, sent = p.got ++ between ++ wire ∧ (¬ p.handshake.Finished → between = p.reader.offered)

theorem Stream.append {sent wire : List Bytes} (stream : p.Stream sent wire) (out : List Bytes) :
    p.Stream (sent ++ out) (wire ++ out) := by
  obtain ⟨between,same,unread⟩ := stream
  exact ⟨between,by rw [same,List.append_assoc],unread⟩

theorem Stream.moves {sent wire : List Bytes} (stream : p.Stream sent (input.toList ++ wire))
    (started : p.conn.isSome → p.handshake.Finished) (moves : p.Moves late input result) :
    result.1.Stream sent wire := by
  obtain ⟨between,same,unread⟩ := stream
  cases moves with
  | reader r asking offered =>
    refine ⟨between,same,fun waiting => ?_⟩
    rcases offered with kept | ⟨finished,_⟩
    · exact (unread waiting).trans kept.symm
    · exact absurd finished waiting
  | read r bytes before after =>
    refine ⟨between ++ [bytes],by simp [same],fun waiting => ?_⟩
    rw [unread waiting,before]
    exact after.symm
  | sendSYN sendOk next stepped => exact ⟨between,same,fun _ => unread (Handshake.sendSYN_unfinished sendOk stepped)⟩
  | wait r event next offered own stepped =>
    exact ⟨between,same,fun _ => (unread (Handshake.step_unfinished event stepped)).trans offered.symm⟩
  | packet r bytes sendOk next before after stepped =>
    have single : between = [bytes] := (unread (Handshake.step_unfinished _ stepped)).trans before
    exact ⟨[],by simpa [single,advance] using same,fun _ => after.symm⟩
  | send => exact ⟨between,same,unread⟩
  | conn => exact ⟨between,same,unread⟩
  | close => exact ⟨between,same,unread⟩
  | deliver bytes e recentlySent before ready =>
    exact ⟨between ++ [bytes],by simpa [emit] using same,fun waiting => absurd (started (by simp [before])) waiting⟩

end Party

/-- What the client writes: SYNs, and after them the SYNACK and messages of its connection. -/
structure ClientTrace (n : UInt8) (p : Party) : Prop where
  asking : ¬ p.handshake.Finished → ∀ bytes ∈ p.written, bytes = serialize (.syn n)
  answered : p.handshake.Completed → serialize (.syn n) ∈ p.got
  completed : p.handshake.Completed → ∃ count later,
    p.written = List.replicate count (serialize (.syn n)) ++ serialize .synack :: later ∧ ∀ bytes ∈ later, ¬ Opens bytes

namespace ClientTrace

variable {n : UInt8} {p : Party} {result : Party × List Bytes} {late : Prop} {input : Option Bytes}

/-- The handshake goes on, and writes at most another SYN. -/
theorem proceed (trace : ClientTrace n p) (moves : p.Moves late input result) (open_ : ¬ p.handshake.Finished)
    (still : ¬ result.1.handshake.Completed) (out : ∀ bytes ∈ result.2, bytes = serialize (.syn n)) :
    ClientTrace n result.1 := by
  refine ⟨fun _ bytes member => ?_,fun complete => absurd complete still,fun complete => absurd complete still⟩
  rw [moves.written] at member
  rcases List.mem_append.mp member with old | new
  · exact trace.asking open_ bytes old
  · exact out bytes new

theorem moves (trace : ClientTrace n p) {echoed done : Prop} (agrees : ClientAgrees n echoed done p)
    (moves : p.Moves late input result) : ClientTrace n result.1 := by
  obtain ⟨h,before,window⟩ := agrees.handshake
  have silent (next : ClientHandshake) (same : next.sent = h.sent) :
      (Handshake.client next).sent.drop p.handshake.sent.length = [] := by
    simp [before,Handshake.sent,same]
  obtain ⟨kept,got,quiet,finished⟩ | ⟨sendOk,stepped,got,out⟩ | ⟨event,stepped,got,taken,_,out⟩ :=
    moves.handshake_cases
  · refine ⟨fun waiting bytes member => ?_,fun complete => ?_,fun complete => ?_⟩
    · rw [kept] at waiting
      have none : result.2 = [] := by
        by_contra some
        rcases finished some with returned | started
        · exact waiting returned
        · obtain ⟨e,running⟩ := Option.isSome_iff_exists.mp started
          exact waiting (agrees.conn e running).1.finished
      rw [moves.written,none,List.append_nil] at member
      exact trace.asking waiting bytes member
    · rw [kept] at complete
      rw [got]
      exact trace.answered complete
    · rw [kept] at complete
      obtain ⟨count,later,written,plain⟩ := trace.completed complete
      refine ⟨count,later ++ result.2,?_,fun bytes member => ?_⟩
      · rw [moves.written,written,List.append_assoc,List.cons_append]
      · rcases List.mem_append.mp member with old | new
        · exact plain bytes old
        · exact quiet bytes new
  · have open_ := Handshake.sendSYN_unfinished sendOk stepped
    rw [before] at stepped
    obtain ⟨next,moved,after⟩ := Option.map_eq_some_iff.mp stepped
    rw [← after] at out
    obtain ⟨_,_,⟨place,sent⟩ | ⟨⟨err,place⟩,sent⟩⟩ := h.sendSYN_cases next sendOk moved
    · refine trace.proceed moves open_ (by simp [← after,Handshake.Completed,place]) ?_
      simp [out,before,Handshake.sent,sent,window]
    · refine trace.proceed moves open_ (by simp [← after,Handshake.Completed,place]) ?_
      simp [out,silent next sent]
  · have open_ := Handshake.step_unfinished event stepped
    rw [before] at stepped
    obtain ⟨next,moved,after⟩ := Option.map_eq_some_iff.mp stepped
    rw [← after] at out
    obtain ⟨waiting,_,⟨bytes,sendOk,rfl,parsed,place,sent⟩ | ⟨_,place,sent⟩ | ⟨⟨err,place⟩,sent⟩ |
        ⟨_,_,_,_,rfl⟩⟩ :=
      h.step_cases next event moved
    · have syn : bytes = serialize (.syn n) :=
        ((agrees.offered bytes (taken bytes (by simp [HandshakeEvent.taken]))).syn parsed).2
      have synack : result.2 = [serialize .synack] := by simp [out,before,Handshake.sent,sent]
      refine ⟨fun open_ => ?_,fun _ => ?_,fun _ => ⟨p.written.length,[],?_,fun _ member => ?_⟩⟩
      · simp [← after,Handshake.Finished,place] at open_
      · simp [got,HandshakeEvent.taken,syn]
      · rw [moves.written,synack,← List.eq_replicate_of_mem (trace.asking open_)]
      · cases member
    · refine trace.proceed moves open_ (by simp [← after,Handshake.Completed,place]) ?_
      simp [out,silent next sent]
    · refine trace.proceed moves open_ (by simp [← after,Handshake.Completed,place]) ?_
      simp [out,silent next sent]
    · refine trace.proceed moves open_ (by simp [← after,Handshake.Completed,waiting]) ?_
      simp [out,silent next rfl]

end ClientTrace

/-- The server answers each SYN at most once, and does not let the SYNACK pass. -/
structure ServerTrace (n : UInt8) (p : Party) : Prop where
  heard : ∀ h, p.handshake = .server h → ¬ p.handshake.Finished → h.sent ≠ [] → h.Heard
  unsettled : ¬ p.handshake.Finished → serialize .synack ∉ p.got
  answers : p.written.count (serialize (.syn n)) ≤ p.got.count (serialize (.syn n))

namespace ServerTrace

variable {n : UInt8} {p : Party} {result : Party × List Bytes} {late : Prop} {input : Option Bytes}

theorem still (trace : ServerTrace n p) (moves : p.Moves late input result)
    (kept : result.1.handshake = p.handshake) (got : result.1.got = p.got) (quiet : ∀ bytes ∈ result.2, ¬ Opens bytes) :
    ServerTrace n result.1 := by
  refine ⟨?_,?_,?_⟩
  · rw [kept]
    exact trace.heard
  · rw [kept,got]
    exact trace.unsettled
  · have none : result.2.count (serialize (.syn n)) = 0 := by
      refine List.count_eq_zero.mpr fun member => quiet _ member ?_
      exact .inl ⟨n,deserialize_serialize _⟩
    rw [moves.written,List.count_append,none,got]
    exact trace.answers

/-- A message or a timeout reaches the handshake, which does not answer it. -/
theorem proceed (trace : ServerTrace n p) (moves : p.Moves late input result) (next : ServerHandshake)
    (after : result.1.handshake = .server next) (none : result.2 = [])
    (heard : ¬ result.1.handshake.Finished → next.sent ≠ [] → next.Heard)
    (unsettled : ¬ result.1.handshake.Finished → serialize .synack ∉ result.1.got) : ServerTrace n result.1 := by
  refine ⟨fun h same open_ => ?_,unsettled,?_⟩
  · cases after.symm.trans same
    exact heard open_
  · rw [moves.written,none,List.append_nil]
    exact Nat.le_trans trace.answers (moves.got.sublist.count_le _)

theorem moves (trace : ServerTrace n p) {done : Prop} (agrees : ServerAgrees n done p) (echoed : done → p.Echoed n)
    (moves : p.Moves late input result) : ServerTrace n result.1 := by
  obtain ⟨h,before,known⟩ := agrees.handshake
  obtain ⟨kept,got,quiet,_⟩ | ⟨sendOk,stepped,_⟩ | ⟨event,stepped,got,taken,_,out⟩ := moves.handshake_cases
  · exact trace.still moves kept got quiet
  · rw [before] at stepped
    contradiction
  · have open_ := Handshake.step_unfinished event stepped
    rw [before] at stepped
    obtain ⟨next,moved,after⟩ := Option.map_eq_some_iff.mp stepped
    have silent (same : next.sent = h.sent) : result.2 = [] := by simp [out,← after,before,Handshake.sent,same]
    have waiting (place : next.place = .complete ∨ ∃ err, next.place = .failed err) : result.1.handshake.Finished := by
      rw [← after]
      rcases place with place | ⟨err,place⟩ <;> simp [Handshake.Finished,place]
    cases (h.step_cases next event moved).2 with
    | echoed bytes sendOk _ parsed place sent =>
      have sound := agrees.offered bytes (taken bytes (by simp [HandshakeEvent.taken]))
      obtain ⟨syn,window⟩ := sound.syn parsed
      have answer : result.2 = [serialize (.syn n)] := by simp [out,← after,before,Handshake.sent,sent,window]
      refine ⟨fun own same _ _ => ?_,fun _ => ?_,?_⟩
      · cases after.trans same
        exact .inr (.inl place)
      · rw [got]
        intro member
        rcases List.mem_append.mp member with old | new
        · exact trace.unsettled open_ old
        · cases serialize_injective ((List.mem_singleton.mp new).trans syn)
      · rw [moves.written,answer,got]
        simpa [HandshakeEvent.taken,syn] using trace.answers
    | completed bytes sendOk _ parsed =>
      have returned := waiting (.inl rfl)
      exact trace.proceed moves _ after.symm (silent rfl) (fun open_ => absurd returned open_) fun open_ => absurd returned open_
    | failed _ _ err place sent =>
      have returned := waiting (.inr ⟨err,place⟩)
      exact trace.proceed moves _ after.symm (silent sent) (fun open_ => absurd returned open_) fun open_ => absurd returned open_
    | restarted =>
      refine trace.proceed moves _ after.symm (silent rfl) (fun _ _ => .inl rfl) fun _ => ?_
      rw [got]
      simpa [HandshakeEvent.taken] using trace.unsettled open_
    | ignored bytes sendOk _ unheard =>
      have sound := agrees.offered bytes (taken bytes (by simp [HandshakeEvent.taken]))
      refine trace.proceed moves _ after.symm (silent rfl) (fun _ => trace.heard _ before open_) fun _ => ?_
      rw [got]
      intro member
      rcases List.mem_append.mp member with old | new
      · exact trace.unsettled open_ old
      · -- A SYNACK comes from a client that was answered, so the server is past its first SYN.
        have parsed : deserialize bytes = .ok .synack := by
          rw [← List.mem_singleton.mp new]
          exact deserialize_serialize _
        have answered := (echoed (sound.later (.inl parsed))).2
        rw [agrees.silent open_,before] at answered
        exact unheard parsed (trace.heard _ before open_ (List.ne_nil_of_mem answered))

end ServerTrace

theorem behind_first {α : Type} (s a b : α) (count : Nat) (later before tail : List α) (other : b ≠ s)
    (absent : a ∉ before) (same : List.replicate count s ++ a :: later = before ++ b :: tail) : tail = later := by
  induction count generalizing before with
  | zero =>
    cases before with
    | nil => exact (List.cons.inj same).2.symm
    | cons first before =>
      have head : a = first := (List.cons.inj same).1
      exact absurd (by simp [head]) absent
  | succ count ih =>
    cases before with
    | nil => exact absurd (List.cons.inj same).1.symm other
    | cons first before =>
      exact ih before (fun member => absent (List.mem_cons_of_mem _ member)) (List.cons.inj same).2

/-- The message on which the server completes is the SYNACK, and nothing of the handshake follows it. -/
theorem ServerTrace.complete {n : UInt8} {p : Party} {result : Party × List Bytes} {late : Prop} {input : Option Bytes}
    (trace : ServerTrace n p) {done : Prop} (agrees : ServerAgrees n done p) (moves : p.Moves late input result)
    (open_ : ¬ p.handshake.Completed) (complete : result.1.handshake.Completed) (client : Party)
    (sent : ClientTrace n client) (completed : client.handshake.Completed) (wire : List Bytes)
    (stream : result.1.Stream client.written wire) : ∀ bytes ∈ wire, ¬ Opens bytes := by
  obtain ⟨h,before,_⟩ := agrees.handshake
  obtain ⟨kept,_⟩ | ⟨sendOk,stepped,_⟩ | ⟨event,stepped,got,_⟩ := moves.handshake_cases
  · rw [kept] at complete
    exact absurd complete open_
  · rw [before] at stepped
    contradiction
  · have waiting := Handshake.step_unfinished event stepped
    rw [before] at stepped
    obtain ⟨next,moved,after⟩ := Option.map_eq_some_iff.mp stepped
    have place : next.place = .complete := by
      rw [← after] at complete
      exact complete
    obtain ⟨count,later,written,plain⟩ := sent.completed completed
    obtain ⟨between,same,_⟩ := stream
    cases (h.step_cases next event moved).2 with
    | completed bytes sendOk _ parsed =>
      have other : bytes ≠ serialize (.syn n) := by
        rintro rfl
        simp [deserialize_serialize] at parsed
      have rest : between ++ wire = later := by
        refine behind_first _ _ bytes count later p.got _ other (trace.unsettled waiting) ?_
        rw [← written,same,got]
        simp [HandshakeEvent.taken]
      intro follower member
      exact plain follower (rest ▸ List.mem_append_right _ member)
    | echoed _ _ _ _ other => simp [other] at place
    | failed _ _ _ other => simp [other] at place
    | restarted => contradiction
    | ignored =>
      rw [before] at open_
      exact absurd place open_

structure Opening.Orderly (n : UInt8) (o : Opening) : Prop where
  agreed : o.Agreed n
  client : ClientTrace n (o.party .client)
  server : ServerTrace n (o.party .server)
  stream : ∀ x, (o.party x).Stream (o.party x.other).written (o.wire x)
  clean : (o.party .server).handshake.Completed → ∀ bytes ∈ o.wire .server, ¬ Opens bytes

namespace Opening.Orderly

variable {n : UInt8} {o next : Opening}

theorem initial (n : UInt8) : (Opening.initial n).Orderly n := by
  refine ⟨.initial n,⟨?_,?_,?_⟩,⟨?_,?_,?_⟩,fun x => ⟨[],?_,fun _ => ?_⟩,?_⟩
  · intro _ bytes member
    contradiction
  · intro complete
    contradiction
  · intro complete
    contradiction
  · intro h same _ sent
    cases same
    contradiction
  · intro _ member
    contradiction
  · exact Nat.le_refl 0
  · cases x <;> rfl
  · cases x <;> rfl
  · intro _ bytes member
    contradiction

theorem started (agreed : o.Agreed n) (side : Side) (running : (o.party side).conn.isSome) :
    (o.party side).handshake.Finished := by
  obtain ⟨e,some⟩ := Option.isSome_iff_exists.mp running
  cases side with
  | client => exact (agreed.client.conn e some).1.finished
  | server => exact (agreed.server.conn e some).1.finished

theorem update (orderly : o.Orderly n) (side : Side) (rest : List Bytes) (late : Prop) (input : Option Bytes)
    (result : Party × List Bytes) (wire : o.wire side = input.toList ++ rest)
    (moves : (o.party side).Moves late input result) :
    (Opening.update {o with wire := Function.update o.wire side rest} side result.1 result.2).Orderly n := by
  have agreed := orderly.agreed
  have own : result.1.Stream (o.party side.other).written rest :=
    Party.Stream.moves (wire ▸ orderly.stream side) (started agreed side) moves
  have opposite : (o.party side.other).Stream result.1.written (o.wire side.other ++ result.2) := by
    have before := orderly.stream side.other
    rw [Side.other_other] at before
    rw [moves.written]
    exact before.append result.2
  have stream : ∀ x, ((Opening.update {o with wire := Function.update o.wire side rest} side result.1 result.2).party x).Stream
      ((Opening.update {o with wire := Function.update o.wire side rest} side result.1 result.2).party x.other).written
      ((Opening.update {o with wire := Function.update o.wire side rest} side result.1 result.2).wire x) := by
    refine Side.forall_of_both side ?_ ?_
    · simpa [Opening.update,side.other_ne,side.other_ne.symm] using own
    · simpa [Opening.update,side.other_ne,Side.other_other] using opposite
  have fewer : ∀ x, ∀ bytes ∈ Function.update o.wire side rest x, bytes ∈ o.wire x := by
    intro x bytes member
    by_cases same : x = side
    · subst same
      rw [Function.update_self] at member
      rw [wire]
      exact List.mem_append_right _ member
    · rwa [Function.update_of_ne same] at member
  have after := agreed.update side (Function.update o.wire side rest) late input result fewer
    (fun bytes member => by rw [wire]; exact List.mem_append_left _ (by simpa using member)) moves
  cases side with
  | client =>
    refine ⟨after,orderly.client.moves agreed.client moves,orderly.server,stream,fun complete bytes member => ?_⟩
    have done : (o.party .client).handshake.Completed := agreed.server.completed complete
    rcases List.mem_append.mp member with old | new
    · exact orderly.clean complete bytes (fewer .server bytes old)
    · exact moves.quiet done.finished bytes new
  | server =>
    refine ⟨after,orderly.client,orderly.server.moves agreed.server agreed.client.completed moves,stream,
      fun complete => ?_⟩
    have complete : result.1.handshake.Completed := complete
    by_cases already : (o.party .server).handshake.Completed
    · intro bytes member
      exact orderly.clean already bytes (fewer .server bytes member)
    · exact orderly.server.complete agreed.server moves already complete (o.party .client) orderly.client
        (after.server.completed complete) rest own

theorem step (orderly : o.Orderly n) (event : OpeningEvent) (lossless : event.Lossless)
    (stepped : o.step event = some next) : next.Orderly n := by
  cases o.step_cases next event stepped with
  | lost => exact lossless.elim
  | moved side event result moves =>
    have kept := orderly.update side (o.wire side) _ none result rfl moves
    rwa [Function.update_eq_self] at kept
  | arrived side intake keep bytes rest result wire moves =>
    cases (lossless : keep = false)
    exact orderly.update side rest False (some bytes) result wire moves

end Opening.Orderly

/-- A client whose handshake does not time out sends one SYN. -/
structure SingleSYN (n : UInt8) (p : Party) : Prop where
  single : p.written.count (serialize (.syn n)) ≤ 1
  first : ∀ h, p.handshake = .client h → h.place = .sendSYN → p.written.count (serialize (.syn n)) = 0

theorem SingleSYN.moves {n : UInt8} {p : Party} {result : Party × List Bytes} {late : Prop} {input : Option Bytes}
    (single : SingleSYN n p) {echoed done : Prop} (agrees : ClientAgrees n echoed done p)
    (moves : p.Moves late input result) (onTime : ¬ late) : SingleSYN n result.1 := by
  obtain ⟨h,before,window⟩ := agrees.handshake
  have silent (quiet : ∀ bytes ∈ result.2, bytes ≠ serialize (.syn n))
      (later : ∀ next, result.1.handshake = .client next → next.place = .sendSYN → h.place = .sendSYN) :
      SingleSYN n result.1 := by
    have none : result.2.count (serialize (.syn n)) = 0 := List.count_eq_zero.mpr fun member => quiet _ member rfl
    have same : result.1.written.count (serialize (.syn n)) = p.written.count (serialize (.syn n)) := by
      rw [moves.written,List.count_append,none,Nat.add_zero]
    refine ⟨same ▸ single.single,fun next after place => ?_⟩
    rw [same]
    exact single.first h before (later next after place)
  obtain ⟨kept,_,quiet,_⟩ | ⟨sendOk,stepped,_,out⟩ | ⟨event,stepped,_,_,fired,out⟩ := moves.handshake_cases
  · refine silent (fun bytes member same => quiet bytes member (.inl ⟨n,same ▸ deserialize_serialize _⟩)) ?_
    intro next after place
    cases before.symm.trans (kept.symm.trans after)
    exact place
  · rw [before] at stepped
    obtain ⟨next,moved,after⟩ := Option.map_eq_some_iff.mp stepped
    obtain ⟨sending,_,⟨place,sent⟩ | ⟨⟨err,place⟩,sent⟩⟩ := h.sendSYN_cases next sendOk moved
    · have syn : result.2 = [serialize (.syn n)] := by simp [out,← after,before,Handshake.sent,sent,window]
      refine ⟨?_,fun other same again => ?_⟩
      · rw [moves.written,List.count_append,single.first h before sending,syn]
        simp
      · cases after.trans same
        simp [place] at again
    · refine silent (by simp [out,← after,before,Handshake.sent,sent]) fun other same again => ?_
      cases after.trans same
      simp [place] at again
  · rw [before] at stepped
    obtain ⟨next,moved,after⟩ := Option.map_eq_some_iff.mp stepped
    obtain ⟨waiting,_,⟨_,_,_,_,place,sent⟩ | ⟨timeout,_⟩ | ⟨⟨err,place⟩,sent⟩ | ⟨_,_,_,_,rfl⟩⟩ :=
      h.step_cases next event moved
    · refine silent ?_ fun other same again => ?_
      · simp [out,← after,before,Handshake.sent,sent,serialize]
      · cases after.trans same
        simp [place] at again
    · exact absurd (fired timeout) onTime
    · refine silent (by simp [out,← after,before,Handshake.sent,sent]) fun other same again => ?_
      cases after.trans same
      simp [place] at again
    · refine silent (by simp [out,← after,before,Handshake.sent]) fun other same again => ?_
      cases after.trans same
      exact again

namespace Opening

theorem orderly_run (n : UInt8) (events : List OpeningEvent) (o : Opening)
    (lossless : ∀ event ∈ events, event.Lossless) (reached : run Opening.step (.initial n) events = some o) :
    o.Orderly n :=
  Leads.invariant (Opening.Orderly n) (fun _ event _ orderly may stepped => orderly.step event may stepped)
    ⟨events,lossless,reached⟩ (.initial n)

theorem single_run (n : UInt8) (events : List OpeningEvent) (o : Opening)
    (patient : ∀ event ∈ events, event ≠ .own .client .timeout)
    (reached : run Opening.step (.initial n) events = some o) : SingleSYN n (o.party .client) := by
  have start : SingleSYN n ((Opening.initial n).party .client) := ⟨Nat.zero_le 1,fun _ _ _ => rfl⟩
  refine (Leads.invariant (fun o => o.Agreed n ∧ SingleSYN n (o.party .client)) ?_ ⟨events,patient,reached⟩
    ⟨.initial n,start⟩).2
  rintro o event next ⟨agreed,single⟩ patient stepped
  refine ⟨agreed.step event stepped,?_⟩
  cases o.step_cases next event stepped with
  | lost => exact single
  | moved side event result moves =>
    cases side with
    | client =>
      exact single.moves agreed.client moves fun late => patient (by rw [late])
    | server => exact single
  | arrived side intake keep bytes rest result wire moves =>
    cases side with
    | client => exact single.moves agreed.client moves id
    | server => exact single

/-- In every run over channels that only delay, no message of the handshake is left for the
server's connection, and none for the client's when the client's handshake does not time out. -/
theorem no_leftovers (n : UInt8) (events : List OpeningEvent) (o : Opening)
    (lossless : ∀ event ∈ events, event.Lossless) (reached : run Opening.step (.initial n) events = some o) :
    ((o.party .server).handshake.Completed → ∀ bytes ∈ o.wire .server, ¬ Opens bytes) ∧
    ((∀ event ∈ events, event ≠ .own .client .timeout) → (o.party .client).handshake.Completed →
      ∀ bytes ∈ o.wire .client, ¬ Opens bytes) := by
  have orderly := orderly_run n events o lossless reached
  refine ⟨orderly.clean,fun patient complete bytes member opens => ?_⟩
  have single := (single_run n events o patient reached).single
  have syn : bytes = serialize (.syn n) := by
    rcases orderly.agreed.incoming.1 bytes member with ⟨_,syn⟩ | fin | ⟨_,message,same,noSYNACK,noSYN⟩
    · exact syn
    · exact absurd opens (fin ▸ not_opens nofun nofun)
    · exact absurd opens (same ▸ not_opens noSYNACK noSYN)
  -- One SYN was sent, so one was answered, and the handshake of the client took that answer.
  obtain ⟨heard,fromClient,_⟩ := orderly.stream .server
  obtain ⟨read,fromServer,_⟩ := orderly.stream .client
  have taken := List.count_pos_iff.mpr (orderly.client.answered complete)
  have flight := List.count_pos_iff.mpr (syn ▸ member)
  have answers := orderly.server.answers
  have written := congrArg (List.count (serialize (.syn n))) fromClient
  have answered := congrArg (List.count (serialize (.syn n))) fromServer
  simp only [List.count_append,Side.other] at written answered
  omega

/-- The plain opening: one SYN, its answer and the SYNACK. -/
def promptHandshake : List OpeningEvent :=
  [.own .client (.sendSYN true),.own .client .ask,.own .client .token,
    .own .server .ask,.own .server .token,.arrive .server .reader false,.own .server (.packet true),
    .own .server .ask,.own .server .token,.arrive .client .reader false,.own .client (.packet true),
    .own .client (.send (.take [7] true)),.own .client (.send (.proceed false)),.own .client (.send (.proceed false)),
    .arrive .server .reader false,.own .server (.packet true)]

theorem no_leftovers_prompt : ∃ o, run Opening.step (.initial 2) promptHandshake = some o ∧
    (∀ side, (o.party side).handshake.Completed) ∧ o.wire .server ≠ [] ∧
    (∀ bytes ∈ o.wire .server, ¬ Opens bytes) ∧ ∀ bytes ∈ o.wire .client, ¬ Opens bytes := by
  have result : (run Opening.step (.initial 2) promptHandshake).map (fun o =>
      (decide ((o.party .client).handshake.Completed),decide ((o.party .server).handshake.Completed),
        (o.wire .server).isEmpty)) = some (true,true,false) := by
    decide +kernel
  obtain ⟨o,reached,fields⟩ := Option.map_eq_some_iff.mp result
  simp only [Prod.mk.injEq,decide_eq_true_eq] at fields
  obtain ⟨client,server,flight⟩ := fields
  have clean := no_leftovers 2 promptHandshake o (by decide) reached
  refine ⟨o,reached,?_,by simpa using flight,clean.1 server,clean.2 (by decide) client⟩
  rintro (_ | _)
  · exact client
  · exact server

/-- The client's timeout fires once, so that the server answers two SYNs. -/
def impatientHandshake : List OpeningEvent :=
  [.own .client (.sendSYN true),.own .client .ask,.own .client .token,.own .client .timeout,
    .own .client (.sendSYN true),.own .client .ask,
    .own .server .ask,.own .server .token,.arrive .server .reader false,.own .server (.packet true),
    .own .server .ask,.own .server .token,.arrive .server .reader false,.own .server (.packet true),
    .arrive .client .reader false,.own .client (.packet true),.own .client .leave]

/-- The second answer reaches the client's receive loop and ends it. -/
theorem leftover_SYN_stops_client : ∃ o next, run Opening.step (.initial 2) impatientHandshake = some o ∧
    (o.party .client).handshake.Completed ∧ o.wire .client = [serialize (.syn 2)] ∧
    o.step (.arrive .client (.loop false) false) = some next ∧
    ∃ e, (next.party .client).conn = some e ∧ e.receiveLoop = .stopped := by
  have result : ((run Opening.step (.initial 2) impatientHandshake).bind fun o =>
      (o.step (.arrive .client (.loop false) false)).bind fun next => (next.party .client).conn.map fun e =>
        (decide ((o.party .client).handshake.Completed),o.wire .client,e.receiveLoop)) =
      some (true,[serialize (.syn 2)],.stopped) := by
    decide +kernel
  obtain ⟨o,reached,rest⟩ := Option.bind_eq_some_iff.mp result
  obtain ⟨next,stepped,rest⟩ := Option.bind_eq_some_iff.mp rest
  obtain ⟨e,running,fields⟩ := Option.map_eq_some_iff.mp rest
  simp only [Prod.mk.injEq,decide_eq_true_eq] at fields
  exact ⟨o,next,reached,fields.1,fields.2.1,stepped,e,running,fields.2.2⟩

end Opening

end NodeConnect.Gbn
