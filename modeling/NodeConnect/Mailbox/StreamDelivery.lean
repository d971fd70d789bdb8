import NodeConnect.Gbn.Delivery
import NodeConnect.Mailbox.Streams

/-! A go-back-N connection over streams that fail, until it is closed. What both loops are
still trying to send counts as being on its way already, and a FIN counts for nothing. Seen
like that, a failed attempt repeats a message next to itself, and a loop that is overtaken
by the other one exchanges a packet with an answer; the invariant of the window protocol
minds neither, since it looks at packets and answers apart. -/
namespace NodeConnect.Mailbox
open Lib Gbn

section Lanes

def isData (bytes : Bytes) : Bool := bytes.head? == some DATA

theorem isData_serialize (message : Message) : isData (serialize message) = true ↔ ∃ packet, message = .data packet := by
  cases message with
  | data packet => exact iff_of_true rfl ⟨packet,rfl⟩
  | _ => exact iff_of_false (by rintro ⟨⟩) (by rintro ⟨_,⟨⟩⟩)

def isPosition : Tag → Bool
  | .data _ => true
  | .ack _ | .nack _ => false

theorem isData_encode (s : Nat) (added : List PacketData) (tag : Tag) : isData (encode s added tag) = isPosition tag := by
  cases tag <;> rfl

theorem filterMap_position (tags : List Tag) : (tags.filter isPosition).filterMap Tag.position = tags.filterMap Tag.position := by
  rw [List.filterMap_filter]
  congr
  funext tag
  cases tag <;> rfl

theorem filterMap_answer (tags : List Tag) :
    (tags.filter fun tag => !isPosition tag).filterMap Tag.answer = tags.filterMap Tag.answer := by
  rw [List.filterMap_filter]
  congr
  funext tag
  cases tag <;> rfl

/-- Other messages on the way, with packets and answers each in the order they had. -/
def Rewires (wire wire' : List Bytes) : Prop :=
  Stutters (wire.filter isData) (wire'.filter isData) ∧
    Stutters (wire.filter fun bytes => !isData bytes) (wire'.filter fun bytes => !isData bytes)

theorem Rewires.tags {s : Nat} {added : List PacketData} {tags : List Tag} {wire : List Bytes}
    (rewires : Rewires (tags.map (encode s added)) wire) :
    ∃ tags' : List Tag, tags'.map (encode s added) = wire ∧
      Stutters (tags.filterMap Tag.position) (tags'.filterMap Tag.position) ∧
      Stutters (tags.filterMap Tag.answer) (tags'.filterMap Tag.answer) := by
  obtain ⟨data,answers⟩ := rewires
  have kind : (fun tag => isData (encode s added tag)) = isPosition := funext (isData_encode s added)
  have kind' : (fun tag => !isData (encode s added tag)) = fun tag => !isPosition tag := by
    funext tag
    rw [isData_encode]
  rw [List.filter_map] at data answers
  obtain ⟨packets,packetImages,packetOrder⟩ := data.lift
  obtain ⟨others,otherImages,otherOrder⟩ := answers.lift
  obtain ⟨tags',images,packets_,others_⟩ := weave wire packets others packetImages.symm otherImages.symm
  change tags'.filter (fun tag => isData (encode s added tag)) = packets at packets_
  change Stutters (tags.filter (fun tag => isData (encode s added tag))) packets at packetOrder
  change Stutters (tags.filter (fun tag => !isData (encode s added tag))) others at otherOrder
  rw [kind] at packets_ packetOrder
  rw [kind'] at others_ otherOrder
  refine ⟨tags',images,?_,?_⟩
  · rw [← filterMap_position tags,← filterMap_position tags',packets_]
    exact packetOrder.filterMap _
  · rw [← filterMap_answer tags,← filterMap_answer tags',others_]
    exact otherOrder.filterMap _

theorem rewire_safe {n : UInt8} (positive : 1 ≤ n.toNat) {net : Net} (safe : net.Safe n) {wire : Side → List Bytes}
    (rewires : ∀ x, Rewires (net.wire x) (wire x)) : Net.Safe n {net with wire} := by
  obtain ⟨base,held,tags,sound⟩ := safe
  have each (x : Side) := (sound.wire x ▸ rewires x).tags
  choose tags' images packets answers using each
  refine ⟨base,held,tags',sound.sender,sound.receiver,fun x => ?_,fun x => (images x).symm⟩
  have direction := sound.direction x
  exact ⟨direction.accepted,direction.inv.stutter positive (packets x.other) ((Stutters.refl _).append (answers x))⟩

namespace Rewires

variable {wire wire' : List Bytes}

theorem of_stutters (stutters : Stutters wire wire') : Rewires wire wire' := ⟨stutters.filter _,stutters.filter _⟩

theorem refl (wire : List Bytes) : Rewires wire wire := of_stutters (.refl wire)

theorem after (earlier : List Bytes) (rewires : Rewires wire wire') : Rewires (earlier ++ wire) (earlier ++ wire') := by
  constructor <;> rw [List.filter_append,List.filter_append]
  · exact (Stutters.refl _).append rewires.1
  · exact (Stutters.refl _).append rewires.2

variable {packets answers : List Bytes} (data : ∀ bytes ∈ packets, isData bytes = true)
  (other : ∀ bytes ∈ answers, isData bytes = false)

include data in
theorem packets_lanes : packets.filter isData = packets ∧ packets.filter (fun bytes => !isData bytes) = [] :=
  ⟨List.filter_eq_self.mpr data,List.filter_eq_nil_iff.mpr fun bytes member => by simp [data bytes member]⟩

include other in
theorem answers_lanes : answers.filter isData = [] ∧ answers.filter (fun bytes => !isData bytes) = answers :=
  ⟨List.filter_eq_nil_iff.mpr fun bytes member => by simp [other bytes member],
    List.filter_eq_self.mpr fun bytes member => by simp [other bytes member]⟩

include data other in
/-- A packet overtakes the answer that the other loop is trying to send. -/
theorem packet_first : Rewires (answers ++ packets) (packets ++ answers) := by
  constructor
  · simp only [List.filter_append,(packets_lanes data).1,(answers_lanes other).1,List.append_nil,List.nil_append]
    exact .refl _
  · simp only [List.filter_append,(packets_lanes data).2,(answers_lanes other).2,List.append_nil,List.nil_append]
    exact .refl _

include data other in
/-- What the mailbox gets of the answers overtakes the packet that the other loop is trying to send. -/
theorem answer_first {reached left : List Bytes} (stutters : Stutters answers (reached ++ left)) :
    Rewires (packets ++ answers) (reached ++ (packets ++ left)) := by
  have part (l : List Bytes) (inside : l ⊆ reached ++ left) : ∀ bytes ∈ l, isData bytes = false :=
    fun bytes member => other bytes (stutters.subset (inside member))
  have reachedLanes := answers_lanes (part reached (List.subset_append_left _ _))
  have leftLanes := answers_lanes (part left (List.subset_append_right _ _))
  constructor
  · simp only [List.filter_append,(answers_lanes other).1,reachedLanes.1,leftLanes.1,List.append_nil,List.nil_append]
    exact .refl _
  · simp only [List.filter_append,(packets_lanes data).2,(answers_lanes other).2,reachedLanes.2,leftLanes.2,List.nil_append]
    exact stutters

end Rewires

end Lanes

section Attempts

variable {st st' : Streams}

@[simp] theorem Streams.trying_setCall (st : Streams) (loop : Loop) (call : Option SendCall) :
    (st.setCall loop call).trying loop = (call.map SendCall.pending).getD [] := by
  simp [Streams.trying,Streams.setCall]

theorem Streams.trying_begins (messages : List Message) (single : messages.length ≤ 1) :
    ((begins messages).map SendCall.pending).getD [] = messages.map serialize := by
  match messages, single with
  | [], _ => rfl
  | [_], _ => rfl

/-- The streams that a place relies on; a stream that was made stays, and on the way out none is needed. -/
def SendPlace.Backed (connected stopping : Prop) : SendPlace → Prop
  | .check => connected ∨ stopping
  | .attempt => connected
  | .enter | .connect | .failed => True

def RecvPlace.Backed (connected stopping : Prop) : RecvPlace → Prop
  | .check => connected ∨ stopping
  | .receive => connected
  | .enter | .connect | .failed => True

def Streams.Stopping (st : Streams) (loop : Loop) : Prop := st.quit = true ∨ st.done loop = true

structure Streams.Backed (st : Streams) : Prop where
  sends : ∀ loop call, st.calls loop = some call → call.place.Backed (st.sendConnected = true) (st.Stopping loop)
  receives : ∀ place, st.recv = some place → place.Backed (st.receiveConnected = true) (st.Stopping .receiver)
  /-- The receive loop does one thing at a time. -/
  alone : st.recv ≠ none → st.calls .receiver = none
  unfaulted : st.faulted = false

theorem SendPlace.Backed.mono {place : SendPlace} {connected connected' stopping stopping' : Prop}
    (backed : place.Backed connected stopping) (more : connected → connected') (later : stopping → stopping') :
    place.Backed connected' stopping' := by
  cases place with
  | check => exact backed.imp more later
  | attempt => exact more backed
  | _ => trivial

theorem RecvPlace.Backed.mono {place : RecvPlace} {connected stopping stopping' : Prop}
    (backed : place.Backed connected stopping) (later : stopping → stopping') : place.Backed connected stopping' := by
  cases place with
  | check => exact backed.imp_right later
  | receive => exact backed
  | _ => trivial

namespace Streams.Backed

theorem setCall (backed : st.Backed) (loop : Loop) (call : Option SendCall) (sendMu : Option Loop) (connected : Bool)
    (more : st.sendConnected = true → connected = true)
    (place : ∀ c, call = some c → c.place.Backed (connected = true) (st.Stopping loop))
    (alone : loop = .receiver → st.recv ≠ none → call = none) :
    Backed {st.setCall loop call with sendMu := sendMu, sendConnected := connected} := by
  refine ⟨fun x c called => ?_,backed.receives,fun receiving => ?_,backed.unfaulted⟩
  · by_cases same : x = loop
    · subst same
      exact place c (by simpa [Streams.setCall] using called)
    · exact (backed.sends x c (by simpa [Streams.setCall,same] using called)).mono more id
  · by_cases same : Loop.receiver = loop
    · subst same
      simpa [Streams.setCall] using alone rfl receiving
    · simpa [Streams.setCall,same] using backed.alone receiving

theorem stop (backed : st.Backed) (quit ctxDone finExpired : Bool)
    (later : ∀ loop, st.Stopping loop → Stopping {st with quit := quit, ctxDone := ctxDone, finExpired := finExpired} loop) :
    Backed {st with quit := quit, ctxDone := ctxDone, finExpired := finExpired} :=
  ⟨fun loop call called => (backed.sends loop call called).mono id (later loop),
    fun place receiving => (backed.receives place receiving).mono (later .receiver),backed.alone,backed.unfaulted⟩

end Streams.Backed

theorem begins_backed (messages : List Message) (connected stopping : Prop) (call : SendCall)
    (begun : begins messages = some call) : call.place.Backed connected stopping := by
  obtain ⟨message,_,rfl⟩ := Option.map_eq_some_iff.mp begun
  trivial

/-- What one move of a call does: no stream is used before it is there, the other loop's call stays, and a
message that was passed on by an attempt that failed is sent once more. -/
structure Streams.SendSpec (st st' : Streams) (loop : Loop) (reached : List Bytes) : Prop where
  backed : st'.Backed
  others : ∀ x, x ≠ loop → st'.calls x = st.calls x
  stutters : Stutters (st.trying loop) (reached ++ st'.trying loop)

theorem Streams.sendMove_spec (backed : st.Backed) {loop : Loop} {outcome : Outcome} {reached : List Bytes}
    (moved : st.sendMove loop outcome = some (st',reached)) : st.SendSpec st' loop reached := by
  have result (payload : Bytes) (place : SendPlace) (called : st.calls loop = some ⟨payload,place⟩) (call : Option SendCall)
      (sendMu : Option Loop) (connected : Bool) (reached : List Bytes) (more : st.sendConnected = true → connected = true)
      (next : ∀ c, call = some c → c.place.Backed (connected = true) (st.Stopping loop))
      (stutters : Stutters (SendCall.pending ⟨payload,place⟩) (reached ++ (call.map SendCall.pending).getD [])) :
      st.SendSpec {st.setCall loop call with sendMu := sendMu, sendConnected := connected} loop reached := by
    have alone : loop = .receiver → st.recv ≠ none → call = none := by
      rintro rfl receiving
      have free := backed.alone receiving
      rw [called] at free
      contradiction
    refine ⟨backed.setCall loop call sendMu connected more next alone,fun x apart => Function.update_of_ne apart _ _,?_⟩
    have before : st.trying loop = SendCall.pending ⟨payload,place⟩ := by simp [Streams.trying,called]
    have after := Streams.trying_setCall st loop call
    rw [before]
    exact after ▸ stutters
  have one (payload : Bytes) (reaches : Bool) : Stutters [payload] (if reaches then [payload] else []) := by
    cases reaches
    · exact .none _
    · exact .refl _
  have again (payload : Bytes) (reaches : Bool) : Stutters [payload] ((if reaches then [payload] else []) ++ [payload]) := by
    cases reaches
    · exact .refl _
    · exact .twice [] payload
  obtain ⟨payload,place,called,sends⟩ := Streams.sendMove_sends moved
  have here := backed.sends loop _ called
  have trivially {next : SendPlace} {connected : Prop} (free : ∀ stopping, next.Backed connected stopping) (c : SendCall)
      (same : some (⟨payload,next⟩ : SendCall) = some c) : c.place.Backed connected (st.Stopping loop) := by
    cases same
    exact free _
  cases sends with
  | finds free connected => exact result payload _ called _ _ _ [] id (trivially fun _ => .inl connected) (.refl _)
  | misses free missing => exact result payload _ called _ _ _ [] id (trivially fun _ => trivial) (.refl _)
  | givesUp stopping =>
    refine result payload _ called _ _ _ [] id (fun c same => ?_) (.refl _)
    cases same
    exact .inr stopping
  | connects => exact result payload _ called _ _ _ [] (fun _ => rfl) (trivially fun _ => .inl rfl) (.refl _)
  | waits => exact ⟨backed,fun _ _ => rfl,.refl _⟩
  | quits quit => exact result payload _ called none _ _ [] id (by simp) (.none _)
  | fails finished => exact result payload _ called _ _ _ [] id (trivially fun _ => trivial) (.none _)
  | tries going => exact result payload _ called _ _ _ [] id (trivially fun _ => here.resolve_right going) (.refl _)
  | faults missing => exact absurd here missing
  | sent free reaches => exact result payload _ called none _ _ _ id (by simp) ((List.append_nil _).symm ▸ one payload reaches)
  | retries free reaches => exact result payload _ called _ _ _ _ id (trivially fun _ => trivial) (again payload reaches)
  | rejected client reaches =>
    exact result payload _ called _ _ _ _ id (trivially fun _ => trivial) ((List.append_nil _).symm ▸ one payload reaches)

theorem Streams.recvMove_backed (backed : st.Backed) {outcome : Outcome} (moved : st.recvMove outcome = some st') :
    st.recv ≠ none ∧ st'.Backed ∧ st'.calls = st.calls := by
  have result (current : RecvPlace) (receiving : st.recv = some current) (place : Option RecvPlace) (connected : Bool)
      (next : ∀ p, place = some p → p.Backed (connected = true) (st.Stopping .receiver)) :
      st.recv ≠ none ∧ Backed {st with recv := place, receiveConnected := connected} ∧ st.calls = st.calls := by
    have busy : st.recv ≠ none := by simp [receiving]
    exact ⟨busy,⟨backed.sends,next,fun _ => backed.alone busy,backed.unfaulted⟩,rfl⟩
  unfold Streams.recvMove at moved
  split at moved
  next => contradiction
  next => contradiction
  next entered =>
    cases moved
    refine result _ entered _ _ fun p same => ?_
    cases same
    split
    next connected => exact .inl connected
    next => trivial
  next connecting =>
    split_ifs at moved with stopping connects <;> cases moved
    · exact result _ connecting _ _ fun p same => by cases same; exact .inr stopping
    · exact result _ connecting _ _ fun p same => by cases same; exact .inl rfl
    · exact ⟨by simp [connecting],backed,rfl⟩
  next checking =>
    have here := backed.receives _ checking
    split_ifs at moved with stopping <;> cases moved
    · exact result _ checking _ _ fun p same => by cases same; trivial
    · exact result _ checking _ _ fun p same => by cases same; exact here.resolve_right stopping
  next receiving =>
    have connected : st.receiveConnected = true := backed.receives _ receiving
    rw [if_neg (not_not_intro connected)] at moved
    split at moved <;> cases moved
    · exact result _ receiving none _ (by simp)
    all_goals exact result _ receiving _ _ fun p same => by cases same; trivial

end Attempts

section Runs

theorem sendMoves_single {e e' : Endpoint} {action : SendAction} {messages : List Message}
    (moves : e.SendMoves action e' messages) : messages.length ≤ 1 := by
  cases moves <;> simp

theorem isFin_of_isData {bytes : Bytes} (data : isData bytes = true) : Mail.isFin bytes = false := by
  rw [← Bool.not_eq_true]
  intro fin
  rw [eq_of_beq fin] at data
  contradiction

theorem deliver_answers (e : Endpoint) (bytes : Bytes) (recentlySent : Bool) :
    (e.deliver bytes recentlySent).2.length ≤ 1 ∧
      ∀ message ∈ (e.deliver bytes recentlySent).2,
        isData (serialize message) = false ∧ Mail.isFin (serialize message) = false := by
  cases parsed : Gbn.deserialize bytes with
  | error err => simp [Endpoint.deliver,parsed]
  | ok message =>
    cases message with
    | nack seq =>
      rw [Endpoint.deliver_nack bytes recentlySent seq parsed]
      dsimp only
      split_ifs <;> simp
    | data packet =>
      simp only [Endpoint.deliver,parsed]
      split_ifs <;> simp [isData,Mail.isFin,serialize,DATA,ACK,NACK,FIN]
    | ack seq =>
      simp only [Endpoint.deliver,parsed]
      split_ifs <;> simp
    | syn n => simp [Endpoint.deliver,parsed]
    | synack => simp [Endpoint.deliver,parsed]
    | fin => simp [Endpoint.deliver,parsed]

/-- A side that moves without sending anything and takes nothing back of what it has. -/
theorem update_safe {n : UInt8} {net : Net} (safe : net.Safe n) (side : Side) (e : Endpoint)
    (sender : ∀ base, Sender n (net.ends side) base → Sender n e base)
    (receiver : ∀ held, Receiver n (net.ends side) held → Receiver n e held) (added : e.added = (net.ends side).added)
    (accepted : e.accepted = (net.ends side).accepted) : (net.update side e []).Safe n := by
  obtain ⟨base,held,tags,sound⟩ := safe
  refine ⟨_,_,_,sound.receiveEffect side e [] [] (base side) (held side) ?_⟩
  refine ⟨rfl,rfl,added,sender _ (sound.sender side),receiver _ (sound.receiver side),
    (sound.direction side).congr e _ added rfl,?_⟩
  rw [List.append_nil]
  exact (sound.opposite side).congr _ e rfl accepted

theorem relocate_safe {n : UInt8} {net : Net} (safe : net.Safe n) (side : Side) (loop : SendLoop)
    (sender : ∀ base, Sender n (net.ends side) base → Sender n {net.ends side with sendLoop := loop} base) :
    (net.update side {net.ends side with sendLoop := loop} []).Safe n :=
  update_safe safe side _ sender (fun _ receiver => receiver.frame _ ⟨rfl,rfl,rfl,rfl,rfl⟩) rfl rfl

theorem sendReturns_safe {n : UInt8} {net : Net} (safe : net.Safe n) (side : Side) :
    (net.update side (sendReturns (net.ends side)) []).Safe n := by
  unfold sendReturns
  split
  next parked => exact relocate_safe safe side _ fun _ sender => sender.relocate _ False.elim trivial (by rw [parked]; rfl)
  next => exact relocate_safe safe side _ fun _ sender => sender

theorem syncQuits_safe {n : UInt8} {net : Net} (safe : net.Safe n) (side : Side) {e : Endpoint}
    (quits : syncQuits (net.ends side) = some e) : (net.update side e []).Safe n := by
  unfold syncQuits at quits
  split at quits <;> cases quits
  next caller waiting =>
    refine relocate_safe safe side _ fun _ sender => sender.relocate _ (fun may => sender.room ?_) ?_ ?_
    · rw [waiting]
      cases caller with
      | outer => rfl
      | full => exact may.elim
    · cases caller <;> trivial
    · rw [waiting]
      cases caller <;> rfl

namespace Mail

def noFin (wire : List Bytes) : List Bytes := wire.filter fun bytes => !isFin bytes

theorem noFin_eq_self {wire : List Bytes} (none_ : ∀ bytes ∈ wire, isFin bytes = false) : noFin wire = wire :=
  List.filter_eq_self.mpr fun bytes member => by simp [none_ bytes member]

theorem noFin_eq_nil {wire : List Bytes} (all : ∀ bytes ∈ wire, isFin bytes = true) : noFin wire = [] :=
  List.filter_eq_nil_iff.mpr fun bytes member => by simp [all bytes member]

/-- What the loops of `x` are still trying to send. -/
def outbox (s : Mail) (x : Side) : List Bytes := (s.streams x).trying .sender ++ (s.streams x).trying .receiver

/-- The connections with what the loops are still trying to send on its way already. -/
def ahead (s : Mail) : Net := ⟨s.ends,fun x => noFin (s.wire x) ++ s.outbox x.other⟩

/-- Which messages come from which goroutine. -/
structure Kinds (st : Streams) : Prop where
  packets : ∀ bytes ∈ st.trying .sender, isData bytes = true
  answers : ∀ bytes ∈ st.trying .receiver, isData bytes = false ∧ isFin bytes = false
  fins : ∀ bytes ∈ st.trying .closer, isFin bytes = true

theorem Kinds.of_subset {st st' : Streams} (kinds : Kinds st) (fewer : ∀ loop, st'.trying loop ⊆ st.trying loop) :
    Kinds st' :=
  ⟨fun bytes member => kinds.packets bytes (fewer _ member),fun bytes member => kinds.answers bytes (fewer _ member),
    fun bytes member => kinds.fins bytes (fewer _ member)⟩

structure Sound (n : UInt8) (s : Mail) : Prop where
  safe : s.ahead.Safe n
  kinds : ∀ x, Kinds (s.streams x)
  backed : ∀ x, (s.streams x).Backed

variable {n : UInt8} {s : Mail}

theorem ahead_setEnd (side : Side) (e : Endpoint) : (s.setEnd side e).ahead = s.ahead.update side e [] := by
  simp [ahead,setEnd,Net.update,outbox]

theorem ahead_setStreams (side : Side) (st : Streams)
    (same : ∀ loop, loop ≠ .closer → st.calls loop = (s.streams side).calls loop) :
    (s.setStreams side st).ahead = s.ahead := by
  have outboxes : (s.setStreams side st).outbox = s.outbox := by
    funext x
    by_cases here : x = side
    · subst here
      simp [outbox,setStreams,Streams.trying,same]
    · simp [outbox,setStreams,here]
  simp only [ahead,outboxes]
  rfl

namespace Sound

theorem update (sound : s.Sound n) {s' : Mail} (side : Side) (st : Streams)
    (streams : s'.streams = Function.update s.streams side st) (safe : s'.ahead.Safe n) (kinds : Kinds st)
    (backed : st.Backed) : s'.Sound n := by
  have apart := side.other_ne
  refine ⟨safe,?_,?_⟩ <;> rw [streams]
  · refine Side.forall_of_both side ?_ ?_
    · simpa using kinds
    · simpa [apart] using sound.kinds side.other
  · refine Side.forall_of_both side ?_ ?_
    · simpa using backed
    · simpa [apart] using sound.backed side.other

theorem setClosing (sound : s.Sound n) (side : Side) (c : Closing) : (s.setClosing side c).Sound n :=
  ⟨sound.safe,sound.kinds,sound.backed⟩

theorem setStreams (sound : s.Sound n) (side : Side) (st : Streams) (same : st.calls = (s.streams side).calls)
    (backed : st.Backed) : (s.setStreams side st).Sound n := by
  have calls (loop : Loop) : st.calls loop = (s.streams side).calls loop := by rw [same]
  refine sound.update side st rfl (ahead_setStreams side st (fun loop _ => calls loop) ▸ sound.safe) ?_ backed
  exact (sound.kinds side).of_subset fun loop => by rw [Streams.trying,same]; exact List.Subset.refl _

theorem setEnd (sound : s.Sound n) (side : Side) (e : Endpoint) (safe : (s.ahead.update side e []).Safe n) :
    (s.setEnd side e).Sound n := ⟨ahead_setEnd (s := s) side e ▸ safe,sound.kinds,sound.backed⟩

theorem send (sound : s.Sound n) (positive : 1 ≤ n.toNat) (side : Side) (action : SendAction) (e : Endpoint)
    (messages : List Message) (free : (s.streams side).calls .sender = none)
    (sent : (s.ends side).sendStep action = some (e,messages)) :
    ((s.setEnd side e).setStreams side ((s.streams side).setCall .sender (begins messages))).Sound n := by
  have apart := side.other_ne
  have moves := Endpoint.sendStep_moves action messages sent
  have tries := Streams.trying_begins messages (sendMoves_single moves)
  have data : ∀ bytes ∈ messages.map serialize, isData bytes = true := by
    intro bytes member
    obtain ⟨message,inside,rfl⟩ := List.mem_map.mp member
    exact (isData_serialize message).mpr (moves.kept.1.packets message inside)
  have stepped : s.ahead.step (.send side action) = some (s.ahead.update side e messages) := by
    simp [Net.step,ahead,sent]
  have safe := Net.step_safe n positive _ _ _ sound.safe stepped
  have others (loop : Loop) (other : loop ≠ .sender) :
      ((s.streams side).setCall .sender (begins messages)).trying loop = (s.streams side).trying loop := by
    simp [Streams.trying,Streams.setCall,other]
  have idle : (s.streams side).trying .sender = [] := by rw [Streams.trying,free]; rfl
  have kinds := sound.kinds side
  refine sound.update side _ rfl (rewire_safe positive safe (Side.forall_of_both side ?_ ?_)) ⟨?_,?_,?_⟩ ?_
  · simp only [Net.update,ahead,outbox,Mail.setStreams,Mail.setEnd,Function.update_of_ne apart,Function.update_of_ne apart.symm]
    exact .refl _
  · simp only [Net.update,ahead,outbox,Mail.setStreams,Mail.setEnd,Side.other_other,Function.update_self,
      others .receiver (by decide),idle,Streams.trying_setCall,tries,List.nil_append,List.append_assoc]
    exact (Rewires.packet_first data fun bytes member => (kinds.answers bytes member).1).after _
  · simpa [tries] using data
  · rw [others .receiver (by decide)]
    exact kinds.answers
  · rw [others .closer (by decide)]
    exact kinds.fins
  · exact (sound.backed side).setCall .sender _ _ _ id (begins_backed messages _ _) (by simp)

/-- What the mailbox gets from a call overtakes what the loops try to send, within its kind. -/
theorem rewires_call {st st' : Streams} (kinds : Kinds st) {loop : Loop} {reached : List Bytes}
    (others : ∀ x, x ≠ loop → st'.calls x = st.calls x)
    (stutters : Stutters (st.trying loop) (reached ++ st'.trying loop)) :
    Rewires (st.trying .sender ++ st.trying .receiver) (noFin reached ++ (st'.trying .sender ++ st'.trying .receiver)) := by
  have same (x : Loop) (other : x ≠ loop) : st'.trying x = st.trying x := by rw [Streams.trying,others x other,Streams.trying]
  have inside : reached ⊆ st.trying loop := fun bytes member => stutters.subset (List.mem_append_left _ member)
  cases loop with
  | sender =>
    rw [noFin_eq_self fun bytes member => isFin_of_isData (kinds.packets bytes (inside member)),same .receiver (by decide),
      ← List.append_assoc]
    exact .of_stutters (stutters.append (.refl _))
  | receiver =>
    rw [noFin_eq_self fun bytes member => (kinds.answers bytes (inside member)).2,same .sender (by decide)]
    exact .answer_first kinds.packets (fun bytes member => (kinds.answers bytes member).1) stutters
  | closer =>
    rw [noFin_eq_nil fun bytes member => kinds.fins bytes (inside member),same .sender (by decide),same .receiver (by decide)]
    exact .refl _

theorem call (sound : s.Sound n) (positive : 1 ≤ n.toNat) (side : Side) (loop : Loop) (outcome : Outcome) (st : Streams)
    (reached : List Bytes) (moved : (s.streams side).sendMove loop outcome = some (st,reached)) :
    Sound n {s.setStreams side st with wire := Function.update s.wire side.other (s.wire side.other ++ reached)} := by
  have apart := side.other_ne
  obtain ⟨backed,others,stutters⟩ := Streams.sendMove_spec (sound.backed side) moved
  have kinds := sound.kinds side
  have kept (x : Loop) : st.trying x ⊆ (s.streams side).trying x := by
    by_cases here : x = loop
    · subst here
      exact fun bytes member => stutters.subset (List.mem_append_right _ member)
    · rw [Streams.trying,others x here]
      exact List.Subset.refl _
  refine sound.update side st rfl (rewire_safe positive sound.safe (Side.forall_of_both side ?_ ?_)) (kinds.of_subset kept) backed
  · simp only [ahead,outbox,Mail.setStreams,Function.update_of_ne apart,Function.update_of_ne apart.symm]
    exact .refl _
  · simp only [ahead,outbox,noFin,Mail.setStreams,Side.other_other,Function.update_self,List.filter_append,List.append_assoc]
    exact (rewires_call kinds others stutters).after _

section Deliver

variable (side : Side) {st : Streams} (same : st.calls = (s.streams side).calls) (backed : st.Backed) (idle : st.recv = none)
  (free : st.calls .receiver = none) (ready : (s.ends side).receiveLoop = .ready) {bytes : Bytes} {rest : List Bytes}
  (wire : s.wire side = bytes :: rest) (keep recentlySent : Bool)

include same backed idle free ready wire in
theorem deliver (sound : s.Sound n) (positive : 1 ≤ n.toNat) (other : isFin bytes = false) :
    Sound n {(s.setEnd side ((s.ends side).deliver bytes recentlySent).1).setStreams side
        (st.setCall .receiver (begins ((s.ends side).deliver bytes recentlySent).2)) with
      wire := Function.update s.wire side (if keep then bytes :: rest else rest)} := by
  have apart := side.other_ne
  obtain ⟨single,answers⟩ := deliver_answers (s.ends side) bytes recentlySent
  have tries := Streams.trying_begins _ single
  have kinds := sound.kinds side
  have silent : (s.streams side).trying .receiver = [] := by rw [Streams.trying,← same,free]; rfl
  have others (loop : Loop) (other : loop ≠ .receiver) :
      (st.setCall .receiver (begins ((s.ends side).deliver bytes recentlySent).2)).trying loop =
        (s.streams side).trying loop := by
    simp [Streams.trying,Streams.setCall,other,same]
  have onWire : s.ahead.wire side = bytes :: (noFin rest ++ s.outbox side.other) := by simp [ahead,wire,noFin,other]
  have safe := sound.safe.deliver positive side ready bytes _ onWire keep recentlySent
  refine sound.update side _ rfl (rewire_safe positive safe (Side.forall_of_both side ?_ ?_)) ⟨?_,?_,?_⟩ ?_
  · simp only [Net.update,ahead,outbox,Mail.setStreams,Mail.setEnd,Function.update_of_ne apart,Function.update_of_ne apart.symm,
      Function.update_self]
    cases keep
    · exact .refl _
    · simp only [noFin,if_true,List.filter_cons,other,Bool.not_false]
      exact .refl _
  · simp only [Net.update,ahead,outbox,Mail.setStreams,Mail.setEnd,Side.other_other,Function.update_self,
      Function.update_of_ne apart,others .sender (by decide),silent,Streams.trying_setCall,tries,List.append_nil,
      List.append_assoc]
    exact .refl _
  · rw [others .sender (by decide)]
    exact kinds.packets
  · rw [Streams.trying_setCall,tries]
    intro bytes member
    obtain ⟨message,inside,rfl⟩ := List.mem_map.mp member
    exact answers message inside
  · rw [others .closer (by decide)]
    exact kinds.fins
  · exact backed.setCall .receiver _ _ _ id (begins_backed _ _ _) fun _ receiving => absurd idle receiving

include same backed ready wire in
/-- After a FIN the receive loop does nothing more. -/
theorem deliver_fin (sound : s.Sound n) (positive : 1 ≤ n.toNat) (fin : isFin bytes = true) :
    Sound n {(s.setEnd side ((s.ends side).deliver bytes recentlySent).1).setStreams side
        (st.setCall .receiver (begins ((s.ends side).deliver bytes recentlySent).2)) with
      wire := Function.update s.wire side (if keep then bytes :: rest else rest)} := by
  have apart := side.other_ne
  obtain rfl : bytes = serialize .fin := eq_of_beq fin
  have delivered : (s.ends side).deliver (serialize .fin) recentlySent = ({s.ends side with receiveLoop := .stopped},[]) := by
    rw [Endpoint.deliver,deserialize_serialize]
  have others (loop : Loop) (other : loop ≠ .receiver) :
      (st.setCall .receiver none).trying loop = (s.streams side).trying loop := by
    simp [Streams.trying,Streams.setCall,other,same]
  have stops (held : List Nat) (receiver : Receiver n (s.ends side) held) :
      Receiver n {s.ends side with receiveLoop := .stopped} held := by
    have place := receiver.place
    have label := receiver.label
    have handed := receiver.handed
    simp only [ready,counted,ReceiveLoop.Place,ReceiveLoop.pending] at place label handed
    exact ⟨receiver.cycle,label,place,handed⟩
  have safe := update_safe sound.safe side {s.ends side with receiveLoop := .stopped}
    (fun _ sender => sender.frame _ rfl rfl rfl rfl rfl) stops rfl rfl
  rw [delivered]
  refine sound.update side (st.setCall .receiver none) rfl (rewire_safe positive safe (Side.forall_of_both side ?_ ?_))
    ((sound.kinds side).of_subset fun loop => ?_)
    (backed.setCall .receiver none _ _ id (by simp) fun _ _ => rfl)
  · simp only [Net.update,ahead,outbox,Mail.setStreams,Mail.setEnd,Function.update_of_ne apart,Function.update_of_ne apart.symm,
      Function.update_self,wire]
    cases keep <;> exact .refl _
  · simp only [Net.update,ahead,outbox,Mail.setStreams,Mail.setEnd,Side.other_other,Function.update_self,
      Function.update_of_ne apart,begins,List.head?_nil,Option.map_none,others .sender (by decide),Streams.trying_setCall]
    refine .of_stutters (.of_sublist ?_)
    simp only [List.map_nil,List.append_nil,Option.getD_none]
    exact (List.Sublist.refl _).append (List.sublist_append_left _ _)
  · by_cases here : loop = .receiver
    · subst here
      simp
    · rw [others loop here]
      exact List.Subset.refl _

end Deliver

theorem lose (sound : s.Sound n) (positive : 1 ≤ n.toNat) (side : Side) (index : Nat) :
    Sound n {s with wire := Function.update s.wire side ((s.wire side).eraseIdx index)} := by
  refine ⟨rewire_safe positive sound.safe (Side.forall_of_both side ?_ ?_),sound.kinds,sound.backed⟩
  · simp only [ahead,Function.update_self]
    exact .of_stutters ((Stutters.of_sublist ((List.eraseIdx_sublist _ _).filter _)).append (.refl _))
  · simp only [ahead,Function.update_of_ne side.other_ne]
    exact .refl _

end Sound

theorem initial_sound (n : UInt8) (lower : 1 ≤ n.toNat) (upper : n.toNat ≤ 254) : (initial n).Sound n :=
  ⟨Net.initial_safe n lower upper,fun _ => by constructor <;> simp [initial,Streams.trying],
    fun _ => by constructor <;> simp [initial]⟩

/-- The moves of `Close` start and end a FIN, and otherwise only stop what goes on. -/
theorem Sound.closeMove (sound : s.Sound n) (side : Side) {st : Streams} {c : Closing}
    (moved : Mailbox.closeMove (s.streams side) (s.closing side) = some (st,c)) : (s.setStreams side st).Sound n := by
  have backed := sound.backed side
  have same : (s.setStreams side (s.streams side)).Sound n := sound.setStreams side _ rfl backed
  have closer (call : Option SendCall) (place : ∀ c, call = some c → c.place = .enter ∧ isFin c.payload = true) :
      (s.setStreams side ((s.streams side).setCall .closer call)).Sound n := by
    have others (loop : Loop) (other : loop ≠ .closer) :
        ((s.streams side).setCall .closer call).calls loop = (s.streams side).calls loop := by
      simp [Streams.setCall,other]
    have trying (loop : Loop) (other : loop ≠ .closer) :
        ((s.streams side).setCall .closer call).trying loop = (s.streams side).trying loop := by
      rw [Streams.trying,others loop other,Streams.trying]
    have kinds := sound.kinds side
    refine sound.update side _ rfl (ahead_setStreams side _ others ▸ sound.safe) ⟨?_,?_,?_⟩
      (backed.setCall .closer call _ _ id (fun c begun => ?_) (by simp))
    · rw [trying .sender (by decide)]
      exact kinds.packets
    · rw [trying .receiver (by decide)]
      exact kinds.answers
    · rw [Streams.trying_setCall]
      intro bytes member
      cases call with
      | none => contradiction
      | some c =>
        obtain ⟨payload,_⟩ := c
        obtain ⟨rfl,fin⟩ := place _ rfl
        rw [List.mem_singleton.mp member]
        exact fin
    · rw [(place c begun).1]
      trivial
  unfold Mailbox.closeMove at moved
  split at moved
  next => contradiction
  next => contradiction
  next =>
    split_ifs at moved <;> cases moved
    · exact same
    · exact closer _ fun c begun => by cases begun; exact ⟨rfl,rfl⟩
  next =>
    split at moved <;> cases moved
    · exact closer none (by simp)
    · exact closer none (by simp)
  next =>
    cases moved
    refine sound.setStreams side _ rfl (backed.stop _ true _ fun loop => Or.imp_right fun _ => ?_)
    cases loop <;> rfl
  next =>
    cases moved
    exact same
  next =>
    split_ifs at moved
    cases moved
    exact same

theorem step_sound (n : UInt8) (positive : 1 ≤ n.toNat) (s : Mail) (event : MailEvent) (next : Mail) (sound : s.Sound n)
    (stepped : s.step event = some next) : next.Sound n := by
  have local_ (side : Side) (e : Endpoint) (event : Event) (moved : s.ahead.step event = some (s.ahead.update side e [])) :
      (s.setEnd side e).Sound n := sound.setEnd side e (Net.step_safe n positive _ event _ sound.safe moved)
  cases event with
  | send side action =>
    simp only [step] at stepped
    split at stepped
    next free =>
      obtain ⟨⟨e,messages⟩,sent,rfl⟩ := Option.map_eq_some_iff.mp stepped
      exact sound.send positive side action e messages free.2 sent
    next => contradiction
  | receive side =>
    simp only [step] at stepped
    split at stepped
    next free =>
      obtain ⟨e,moved,rfl⟩ := Option.map_eq_some_iff.mp stepped
      exact local_ side e (.receive side) (by simp [Net.step,ahead,moved])
    next => contradiction
  | drain side =>
    obtain ⟨e,moved,rfl⟩ := Option.map_eq_some_iff.mp stepped
    refine local_ side e (.drain side) ?_
    simp only [Endpoint.step] at moved
    split at moved <;> cases moved
    next first rest queued => simp [Net.step,ahead,queued]
  | timer side =>
    obtain ⟨e,moved,rfl⟩ := Option.map_eq_some_iff.mp stepped
    refine local_ side e (.timer side) ?_
    simp only [Endpoint.step] at moved
    split at moved <;> cases moved
    next waiting => simp [Net.step,ahead,waiting]
  | call side loop outcome =>
    obtain ⟨⟨st,reached⟩,moved,rfl⟩ := Option.map_eq_some_iff.mp stepped
    exact sound.call positive side loop outcome st reached moved
  | recvBegins side =>
    simp only [step] at stepped
    split at stepped
    next free =>
      cases stepped
      have backed := sound.backed side
      refine sound.setStreams side _ rfl ⟨backed.sends,fun place same => ?_,fun _ => free.2.2.1,backed.unfaulted⟩
      cases same
      trivial
    next => contradiction
  | recv side outcome keep recentlySent =>
    simp only [step] at stepped
    split at stepped
    next => contradiction
    next st moved =>
      obtain ⟨busy,backed,same⟩ := Streams.recvMove_backed (sound.backed side) moved
      split at stepped
      next idle =>
        split at stepped
        next bytes rest ready wire =>
          cases stepped
          have free := same ▸ (sound.backed side).alone busy
          cases fin : isFin bytes with
          | false => exact (sound.deliver side same backed idle free ready wire keep recentlySent positive fin).setClosing side _
          | true => exact (sound.deliver_fin side same backed ready wire keep recentlySent positive fin).setClosing side _
        next => contradiction
      next =>
        cases stepped
        exact sound.setStreams side st same backed
  | lose side index =>
    simp only [step] at stepped
    split at stepped
    next =>
      cases stepped
      exact sound.lose positive side index
    next => contradiction
  | sendReturns side =>
    simp only [step] at stepped
    split at stepped
    next =>
      cases stepped
      exact Sound.setClosing (sound.setEnd side _ (sendReturns_safe sound.safe side)) side _
    next => contradiction
  | receiveReturns side =>
    simp only [step] at stepped
    split at stepped
    next =>
      cases stepped
      exact sound.setClosing side _
    next => contradiction
  | syncQuits side =>
    simp only [step] at stepped
    split at stepped
    next =>
      obtain ⟨e,moved,rfl⟩ := Option.map_eq_some_iff.mp stepped
      exact sound.setEnd side e (syncQuits_safe sound.safe side moved)
    next => contradiction
  | close side =>
    simp only [step] at stepped
    split at stepped
    next =>
      cases stepped
      exact sound.setClosing side _
    next => contradiction
  | closeMove side =>
    obtain ⟨⟨st,c⟩,moved,rfl⟩ := Option.map_eq_some_iff.mp stepped
    exact (sound.closeMove side moved).setClosing side c
  | finExpires side =>
    simp only [step] at stepped
    split at stepped
    next =>
      cases stepped
      refine sound.setStreams side _ rfl ((sound.backed side).stop _ _ true fun loop => Or.imp_right fun finished => ?_)
      cases loop
      · exact finished
      · exact finished
      · exact Bool.or_true _
    next => contradiction
  | quit side =>
    simp only [step] at stepped
    split at stepped
    next =>
      cases stepped
      exact sound.setStreams side _ rfl ((sound.backed side).stop true _ _ fun _ _ => .inl rfl)
    next => contradiction
  | cancel side =>
    cases stepped
    refine sound.setStreams side _ rfl ((sound.backed side).stop _ true _ fun loop => Or.imp_right fun _ => ?_)
    cases loop <;> rfl

theorem run_sound (n : UInt8) (lower : 1 ≤ n.toNat) (upper : n.toNat ≤ 254) (events : List MailEvent) (s : Mail)
    (reached : run step (initial n) events = some s) : s.Sound n :=
  run_invariant step (Sound n) (step_sound n lower) events _ s (initial_sound n lower upper) reached

/-- Whatever streams fail, and whether a failed attempt passed its message on or not: no stream is used before
there is one, and what one side hands to its application is the beginning of what the other took from its own. -/
theorem handed_isPrefix_taken_streams (n : UInt8) (lower : 1 ≤ n.toNat) (upper : n.toNat ≤ 254) (events : List MailEvent)
    (s : Mail) (reached : run step (initial n) events = some s) (x : Side) :
    (s.streams x).faulted = false ∧ (s.ends x.other).handed.map body <+: (s.ends x).taken.map body := by
  have sound := run_sound n lower upper events s reached
  obtain ⟨_,_,_,net⟩ := sound.safe
  exact ⟨(sound.backed x).unfaulted,net.handed_isPrefix x⟩

/-- The first attempt fails after its packet went through, so the packet arrives twice. -/
def repeatedPacket : List MailEvent :=
  let take : List MailEvent := [.send .client (.take [7] true),.send .client (.proceed false),.send .client (.proceed false)]
  let call (side : Side) (loop : Loop) (result : Attempt) (connects : Bool) : MailEvent :=
    .call side loop ⟨false,connects,true,result⟩
  let received (result : Attempt) : List MailEvent := List.replicate 4 (.recv .server ⟨false,true,false,result⟩ false false)
  take ++ [call .client .sender .ok false,call .client .sender .ok false] ++
    List.replicate 3 (call .client .sender .retry true) ++ List.replicate 3 (call .client .sender .ok true) ++
    [.recvBegins .server] ++ received .ok ++ List.replicate 4 (call .server .receiver .ok true) ++
    [.receive .server,.receive .server,.recvBegins .server] ++ (received .ok).take 3

theorem handed_isPrefix_taken_streams_repeated : ∃ s, run step (initial 2) repeatedPacket = some s ∧
    (s.ends .server).handed.map body = [([7],true)] ∧ (s.streams .server).trying .receiver = [[NACK,1]] ∧
    (s.streams .client).faulted = false ∧ (s.ends .server).handed.map body <+: (s.ends .client).taken.map body := by
  have result : (run step (initial 2) repeatedPacket).map (fun s =>
      ((s.ends .server).handed.map body,(s.streams .server).trying .receiver)) = some ([([7],true)],[[NACK,1]]) := by decide
  obtain ⟨s,reached,both⟩ := Option.map_eq_some_iff.mp result
  obtain ⟨handed,answer⟩ := Prod.mk.inj both
  exact ⟨s,reached,handed,answer,handed_isPrefix_taken_streams 2 (by decide) (by decide) _ s reached .client⟩

end Mail

end Runs

end NodeConnect.Mailbox
