import NodeConnect.Gbn.Delivery
import NodeConnect.Lib.Framing

/-! `Send` and `Recv`. `Send` cuts a message into packets by index arithmetic on
`sentBytes`; `Recv` appends payloads until a packet has `FinalChunk` set. The receive
loop drops pings before `recvDataChan`. -/
namespace NodeConnect.Gbn
open Lib

/-- One round of the loop in `Send`: the packet it offers, and `sentBytes` after it. -/
def nextChunk (maxChunk : Nat) (data : Bytes) (sentBytes : Nat) : PacketData × Nat :=
  let remainingBytes := data.length - sentBytes
  if remainingBytes ≤ maxChunk then
    ({payload := data.drop sentBytes, finalChunk := true},sentBytes + remainingBytes)
  else ({payload := (data.drop sentBytes).take maxChunk},sentBytes + maxChunk)

/-- A round moves `sentBytes` on by a byte at least, so the rounds left are bounded by the bytes left. -/
def sendLoop (maxChunk : Nat) (data : Bytes) : Nat → Nat → List PacketData
  | 0, _ => []
  | rounds + 1, sentBytes =>
    if sentBytes < data.length then
      let (packet,sentBytes) := nextChunk maxChunk data sentBytes
      packet :: sendLoop maxChunk data rounds sentBytes
    else []

/-- The packets that a call of `Send` that does not time out passes to `sendDataChan`. -/
def send (maxChunkSize : Nat) (data : Bytes) : List PacketData :=
  if maxChunkSize = 0 then [{payload := data, finalChunk := true}]
  else sendLoop maxChunkSize data data.length 0

/-- A call of `Recv` over the packets of `recvDataChan`; it waits when these run out. -/
def recvLoop (b : Bytes) : List PacketData → Option (Bytes × List PacketData)
  | [] => none
  | msg :: recvDataChan =>
    let b := b ++ msg.payload
    if msg.finalChunk then some (b,recvDataChan) else recvLoop b recvDataChan

def recv (recvDataChan : List PacketData) : Option (Bytes × List PacketData) := recvLoop [] recvDataChan

def recvCalls : Nat → List PacketData → Option (List Bytes × List PacketData)
  | 0, recvDataChan => some ([],recvDataChan)
  | calls + 1, recvDataChan => do
    let (data,recvDataChan) ← recv recvDataChan
    let (later,recvDataChan) ← recvCalls calls recvDataChan
    return (data :: later,recvDataChan)

theorem nextChunk_last (maxChunk : Nat) (data : Bytes) (sentBytes : Nat) (inside : sentBytes < data.length)
    (fits : data.length - sentBytes ≤ maxChunk) :
    nextChunk maxChunk data sentBytes = ({payload := data.drop sentBytes, finalChunk := true},data.length) := by
  have whole : sentBytes + (data.length - sentBytes) = data.length := by omega
  simp [nextChunk,fits,whole]

theorem nextChunk_more (maxChunk : Nat) (data : Bytes) (sentBytes : Nat) (exceeds : maxChunk < data.length - sentBytes) :
    nextChunk maxChunk data sentBytes = ({payload := (data.drop sentBytes).take maxChunk},sentBytes + maxChunk) := by
  simp [nextChunk,Nat.not_le.mpr exceeds]

theorem sendLoop_end (maxChunk : Nat) (data : Bytes) (rounds : Nat) : sendLoop maxChunk data rounds data.length = [] := by
  cases rounds <;> simp [sendLoop]

/-- From any index, the loop frames what is left of the message in pieces of the allowed size. -/
theorem sendLoop_framed (maxChunk : Nat) (positive : 0 < maxChunk) (data : Bytes) (rounds sentBytes : Nat)
    (inside : sentBytes < data.length) (enough : data.length - sentBytes ≤ rounds) :
    Framed (data.drop sentBytes) ((sendLoop maxChunk data rounds sentBytes).map body) ∧
    (sendLoop maxChunk data rounds sentBytes).length = (data.length - sentBytes + maxChunk - 1) / maxChunk ∧
    ∀ packet ∈ sendLoop maxChunk data rounds sentBytes,
      1 ≤ packet.payload.length ∧ packet.payload.length ≤ maxChunk := by
  induction rounds generalizing sentBytes with
  | zero => omega
  | succ rounds ih =>
    rw [sendLoop,if_pos inside]
    by_cases fits : data.length - sentBytes ≤ maxChunk
    · rw [nextChunk_last maxChunk data sentBytes inside fits]
      dsimp only
      rw [sendLoop_end]
      refine ⟨.last _,?_,?_⟩
      · have one : (data.length - sentBytes + maxChunk - 1) / maxChunk = 1 := by
          refine Nat.div_eq_of_lt_le ?_ ?_ <;> omega
        rw [one]
        rfl
      · intro packet member
        cases List.mem_singleton.mp member
        simp only [List.length_drop]
        omega
    · have exceeds : maxChunk < data.length - sentBytes := Nat.not_le.mp fits
      rw [nextChunk_more maxChunk data sentBytes exceeds]
      dsimp only
      obtain ⟨framed,count,sizes⟩ := ih (sentBytes + maxChunk) (by omega) (by omega)
      refine ⟨?_,?_,?_⟩
      · have cut := Framed.more ((data.drop sentBytes).take maxChunk) _ _ framed
        rw [← List.drop_drop,List.take_append_drop] at cut
        exact cut
      · have split : data.length - sentBytes + maxChunk - 1 =
            (data.length - (sentBytes + maxChunk) + maxChunk - 1) + maxChunk := by omega
        rw [List.length_cons,count,split,Nat.add_div_right _ positive]
      · intro packet member
        rcases List.mem_cons.mp member with rfl | later
        · simp only [List.length_take,List.length_drop]
          omega
        · exact sizes packet later

theorem send_framed (maxChunkSize : Nat) (data : Bytes) (nonempty : 0 < maxChunkSize → data ≠ []) :
    Framed data ((send maxChunkSize data).map body) := by
  unfold send
  split_ifs with zero
  · exact .last data
  · have positive : 0 < maxChunkSize := Nat.pos_of_ne_zero zero
    exact (sendLoop_framed maxChunkSize positive data data.length 0
      (List.length_pos_iff.mpr (nonempty positive)) (Nat.le_refl _)).1

/-- A call of `Recv` at the frames of a message returns the message and leaves what follows. -/
theorem recvLoop_framed {message : Bytes} {frames more : List (Bytes × Bool)} (framed : Framed message frames) (b : Bytes)
    (recvDataChan : List PacketData) (queued : recvDataChan.map body = frames ++ more) :
    ∃ rest, recvLoop b recvDataChan = some (b ++ message,rest) ∧ rest.map body = more := by
  induction framed generalizing b recvDataChan with
  | last piece =>
    obtain ⟨msg,rest,rfl,first,later⟩ := List.map_eq_cons_iff.mp queued
    obtain ⟨payload,final⟩ := Prod.mk.inj first
    exact ⟨rest,by simp [recvLoop,payload,final],later⟩
  | more piece message frames _ ih =>
    obtain ⟨msg,chan,rfl,first,later⟩ := List.map_eq_cons_iff.mp queued
    obtain ⟨payload,final⟩ := Prod.mk.inj first
    obtain ⟨rest,received,behind⟩ := ih (b ++ piece) chan later
    exact ⟨rest,by simp [recvLoop,payload,final,received,List.append_assoc],behind⟩

theorem recvCalls_framed (cut : Bytes → List (Bytes × Bool)) (messages : List Bytes)
    (framed : ∀ message ∈ messages, Framed message (cut message)) (recvDataChan : List PacketData)
    (queued : recvDataChan.map body = messages.flatMap cut) :
    recvCalls messages.length recvDataChan = some (messages,[]) := by
  induction messages generalizing recvDataChan with
  | nil =>
    cases List.map_eq_nil_iff.mp queued
    rfl
  | cons message messages ih =>
    rw [List.flatMap_cons] at queued
    obtain ⟨rest,received,behind⟩ := recvLoop_framed (framed message List.mem_cons_self) [] recvDataChan queued
    have later := ih (fun other member => framed other (List.mem_cons_of_mem _ member)) rest behind
    simp [recvCalls,recv,received,later]

/-- For every list of messages, every chunk size and every way in which pings come between the packets. A receive loop
that has accepted the stream has handed over, or is about to, what the calls of `Recv` read. -/
theorem framing_roundTrip (maxChunkSize : Nat) (messages : List Bytes)
    (nonempty : 0 < maxChunkSize → ∀ message ∈ messages, message ≠ []) (stream : List PacketData)
    (inserted : (payloads stream).map body = (messages.flatMap (send maxChunkSize)).map body) :
    (∀ message ∈ messages, ∃ before last, send maxChunkSize message = before ++ [last] ∧ last.finalChunk = true ∧
      ∀ packet ∈ before, packet.finalChunk = false) ∧
    (0 < maxChunkSize → ∀ message ∈ messages,
      (send maxChunkSize message).length = (message.length + maxChunkSize - 1) / maxChunkSize ∧
      ∀ packet ∈ send maxChunkSize message, 1 ≤ packet.payload.length ∧ packet.payload.length ≤ maxChunkSize) ∧
    (maxChunkSize = 0 → ∀ message ∈ messages, (send maxChunkSize message).length = 1) ∧
    recvCalls messages.length (payloads stream) = some (messages,[]) ∧
    ∀ n : UInt8, 1 ≤ n.toNat → n.toNat ≤ 254 → ∀ events net, run Net.step (Net.initial n) events = some net →
      ∀ side, (net.ends side).accepted = stream →
        payloads stream = (net.ends side).handed ++ (net.ends side).receiveLoop.pending := by
  have framed (message : Bytes) (member : message ∈ messages) : Framed message ((send maxChunkSize message).map body) :=
    send_framed maxChunkSize message fun positive => nonempty positive message member
  refine ⟨?_,?_,?_,?_,?_⟩
  · intro message member
    obtain ⟨before,piece,same,unflagged⟩ := (framed message member).flags
    obtain ⟨packets,tail,split,first,second⟩ := List.map_eq_append_iff.mp same
    obtain ⟨last,none,rfl,final,empty⟩ := List.map_eq_cons_iff.mp second
    cases List.map_eq_nil_iff.mp empty
    refine ⟨packets,last,split,congrArg Prod.snd final,fun packet inside => ?_⟩
    exact unflagged (body packet) (first ▸ List.mem_map_of_mem inside)
  · intro positive message member
    have loop := sendLoop_framed maxChunkSize positive message message.length 0
      (List.length_pos_iff.mpr (nonempty positive message member)) (Nat.le_refl _)
    rw [send,if_neg (by omega)]
    exact ⟨loop.2.1,loop.2.2⟩
  · intro zero message _
    simp [send,zero]
  · refine recvCalls_framed (fun message => (send maxChunkSize message).map body) messages framed _ ?_
    rw [inserted,List.map_flatMap]
  · rintro n lower upper events net reached side rfl
    obtain ⟨base,held,tags,sound⟩ := Net.run_safe n lower upper events net reached
    exact (sound.receiver side).handed

/-- A ping between the chunks of the first message, and one at the end. -/
def pingedStream : List PacketData :=
  [{payload := [1,2], seq := 0},{isPing := true, seq := 1},{payload := [3], finalChunk := true, seq := 2},
    {payload := [4,5], finalChunk := true, seq := 0},{isPing := true, seq := 1}]

theorem framing_roundTrip_pinged : recvCalls 2 (payloads pingedStream) = some ([[1,2,3],[4,5]],[]) :=
  (framing_roundTrip 2 [[1,2,3],[4,5]] (by decide) pingedStream (by decide)).2.2.2.1

theorem recvLoop_deframe (b data : Bytes) (recvDataChan rest : List PacketData)
    (received : recvLoop b recvDataChan = some (data,rest)) :
    deframe b (recvDataChan.map body) = (data :: (deframe [] (rest.map body)).1,(deframe [] (rest.map body)).2) := by
  induction recvDataChan generalizing b with
  | nil => contradiction
  | cons msg recvDataChan ih =>
    simp only [recvLoop] at received
    split_ifs at received with final
    · cases received
      simp [body,final,deframe]
    · simpa [body,final,deframe] using ih _ received

theorem recvCalls_deframe (calls : Nat) (recvDataChan rest : List PacketData) (received : List Bytes)
    (returned : recvCalls calls recvDataChan = some (received,rest)) :
    received <+: (deframe [] (recvDataChan.map body)).1 := by
  induction calls generalizing recvDataChan received with
  | zero =>
    cases returned
    exact List.nil_prefix
  | succ calls ih =>
    obtain ⟨⟨data,chan⟩,first,more⟩ := Option.bind_eq_some_iff.mp returned
    obtain ⟨⟨later,rest'⟩,others,done⟩ := Option.bind_eq_some_iff.mp more
    cases done
    rw [recvLoop_deframe [] data recvDataChan chan first]
    exact List.cons_prefix_cons.mpr ⟨rfl,ih chan later others⟩

/-- Whatever the channels lose or repeat, the calls of `Recv` on one side return the beginning
of the list of messages that the calls of `Send` on the other side took. -/
theorem Net.recvCalls_isPrefix (n : UInt8) (lower : 1 ≤ n.toNat) (upper : n.toNat ≤ 254) (events : List Event)
    (net : Net) (reached : run Net.step (Net.initial n) events = some net) (side : Side) (maxChunkSize : Nat)
    (messages : List Bytes) (nonempty : 0 < maxChunkSize → ∀ message ∈ messages, message ≠ [])
    (sent : (net.ends side).taken.map body <+: (messages.flatMap (send maxChunkSize)).map body) (calls : Nat)
    (received : List Bytes) (rest : List PacketData)
    (returned : recvCalls calls (net.ends side.other).handed = some (received,rest)) : received <+: messages := by
  obtain ⟨base,held,tags,sound⟩ := Net.run_safe n lower upper events net reached
  have read := recvCalls_deframe calls _ rest received returned
  have arrived := deframe_isPrefix [] ((sound.handed_isPrefix side).trans sent)
  rw [List.map_flatMap,Framed.deframe_flatMap _ messages fun message member =>
    send_framed maxChunkSize message fun positive => nonempty positive message member] at arrived
  exact read.trans arrived

end NodeConnect.Gbn
