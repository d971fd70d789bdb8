import NodeConnect.Lib.Pipe
import NodeConnect.Lib.StreamReader
import NodeConnect.Mailbox.MsgData

/-! The byte stream of a mailbox connection. `Write` sends its bytes as one message of the
layer below; `Read` hands out what is buffered and fetches the next message when nothing
is. The layer below is taken as a queue: `Recv` returns the messages given to `Send` in
order, and blocks while there is none. -/
namespace NodeConnect.Mailbox
open Lib

/-- Which `ReceiveControlMsg` a connection uses; the server's wraps the error. -/
inductive ControlConn where
  | client
  | server
  deriving DecidableEq, Repr

inductive ConnError where
  | decode (err : DecodeError)
  | parsingControlMessage (err : DecodeError)
  | EOF
  deriving DecidableEq, Repr

def ControlConn.decodeError : ControlConn → DecodeError → ConnError
  | client, err => .decode err
  | server, err => .parsingControlMessage err

structure ConnKit where
  impl : ControlConn
  recvBuffer : Bytes := []
  deriving DecidableEq, Repr

/-- One direction of a connection: the messages under way and the peer that reads them. -/
structure Direction where
  gbn : List Bytes := []
  peer : ConnKit
  deriving DecidableEq, Repr

namespace Direction

/-- `Read` of a `bytes.Buffer`. -/
def readBuffered (d : Direction) (b : Bytes) : Pipe.Answer ConnError × Direction :=
  if d.peer.recvBuffer.length = 0 then (⟨0,if b.length = 0 then none else some .EOF,b⟩,d)
  else
    let n := min b.length d.peer.recvBuffer.length
    (⟨n,none,overwrite b d.peer.recvBuffer⟩,{d with peer.recvBuffer := d.peer.recvBuffer.drop n})

def read (size : IntSize) (d : Direction) (b : Bytes) : Option (Pipe.Answer ConnError × Direction) :=
  if d.peer.recvBuffer.length = 0 then
    match d.gbn with
    | [] => none
    | msg :: gbn =>
      match MsgData.deserialize size msg ⟨ProtocolVersion,[]⟩ with
      | .error err _ => some (⟨0,some (d.peer.impl.decodeError err),b⟩,{d with gbn})
      | .ok () data => some (readBuffered {d with gbn, peer.recvBuffer := d.peer.recvBuffer ++ data.payload} b)
  else some (d.readBuffered b)

def write (d : Direction) (b : Bytes) : Pipe.Answer ConnError × Direction :=
  let data : MsgData := ⟨ProtocolVersion,b⟩
  (⟨b.length,none,[]⟩,{d with gbn := d.gbn ++ [data.serialize]})

def step (size : IntSize) (d : Direction) : Pipe.Call → Option (Pipe.Answer ConnError × Direction)
  | .write b => some (d.write b)
  | .read b => d.read size b

end Direction

/-- Slices that are not empty. What is written has a length that four bytes can hold, and on a
32-bit target the message made of it is one that a slice can hold. -/
def Fits (size : IntSize) : Pipe.Call → Prop
  | .write b => b ≠ [] ∧ b.length < 2 ^ 32 ∧ (size = .bits32 → MsgData.baseLength + b.length < 2 ^ 31)
  | .read b => b ≠ []

theorem Fits.maxInt {size : IntSize} {b : Bytes} (fits : Fits size (.write b)) :
    MsgData.baseLength + b.length ≤ size.maxInt := by
  obtain ⟨_,small,slice⟩ := fits
  cases size with
  | bits32 =>
    have slice := slice rfl
    simp only [IntSize.maxInt,IntSize.bits]
    omega
  | bits64 =>
    simp only [IntSize.maxInt,IntSize.bits,MsgData.baseLength]
    omega

namespace Direction

variable {size : IntSize} {d next : Direction} {unread b : Bytes} {answer : Pipe.Answer ConnError}

/-- The bytes not yet read are those in the buffer and those of the messages under way. -/
def Holds (size : IntSize) (d : Direction) (unread : Bytes) : Prop :=
  ∃ payloads : List Bytes, (∀ b ∈ payloads, Fits size (.write b)) ∧
    d.gbn = payloads.map (fun b => MsgData.serialize ⟨ProtocolVersion,b⟩) ∧
    unread = d.peer.recvBuffer ++ payloads.flatten

theorem read_buffered (size : IntSize) (some_ : d.peer.recvBuffer ≠ []) (b : Bytes) : d.read size b = some (
    ⟨min b.length d.peer.recvBuffer.length,none,overwrite b d.peer.recvBuffer⟩,
    {d with peer.recvBuffer := d.peer.recvBuffer.drop (min b.length d.peer.recvBuffer.length)}) := by
  have filled : ¬ d.peer.recvBuffer.length = 0 := fun empty => some_ (List.eq_nil_of_length_eq_zero empty)
  rw [read,if_neg filled,readBuffered,if_neg filled]

/-- A `Read` that finds nothing buffered goes on as if the next message had been there. -/
theorem read_fetches {payload : Bytes} {gbn : List Bytes} (empty : d.peer.recvBuffer = [])
    (head : d.gbn = MsgData.serialize ⟨ProtocolVersion,payload⟩ :: gbn) (fits : Fits size (.write payload)) (b : Bytes) :
    d.read size b = read size {d with gbn, peer.recvBuffer := payload} b := by
  have decoded := MsgData.deserialize_serialize size ⟨ProtocolVersion,payload⟩ fits.2.1 fits.maxInt [] ProtocolVersion
  rw [List.append_nil] at decoded
  have filled : ¬ payload.length = 0 := fun none_ => fits.1 (List.eq_nil_of_length_eq_zero none_)
  rw [read,if_pos (by rw [empty]; rfl),head]
  simp only [decoded,empty,List.nil_append]
  rw [read,if_neg filled]

theorem read_blocks (empty : d.peer.recvBuffer = []) (idle : d.gbn = []) (b : Bytes) : d.read size b = none := by
  rw [read,if_pos (by rw [empty]; rfl),idle]

/-- A `Read` out of the buffer. -/
theorem buffered_simulates (some_ : d.peer.recvBuffer ≠ []) (room : b ≠ []) (holds : d.Holds size unread)
    (answered : d.read size b = some (answer,next)) :
    next.gbn = d.gbn ∧ answer.buffer.take answer.n = d.peer.recvBuffer.take b.length ∧
      ∃ after, Pipe.spec unread (.read b) answer after ∧ next.Holds size after := by
  obtain ⟨payloads,fit,gbn,rfl⟩ := holds
  rw [read_buffered size some_] at answered
  cases Option.some.inj answered
  have taken := take_overwrite b d.peer.recvBuffer (min b.length d.peer.recvBuffer.length) (Nat.min_le_left _ _)
    (Nat.min_le_right _ _)
  have split := List.take_append_drop (min b.length d.peer.recvBuffer.length) d.peer.recvBuffer
  have positive : 0 < min b.length d.peer.recvBuffer.length :=
    Nat.lt_min.mpr ⟨List.length_pos_iff.mpr room,List.length_pos_iff.mpr some_⟩
  refine ⟨rfl,?_,_,⟨positive,Nat.min_le_left _ _,rfl,overwrite_length _ _,?_⟩,payloads,fit,gbn,rfl⟩
  · rw [taken]
    exact List.take_eq_take_iff.mpr (by omega)
  · rw [taken,← List.append_assoc,split]

/-- A `Read` that fetches a message first. -/
theorem fetched_simulates {payload : Bytes} {payloads : List Bytes} (empty : d.peer.recvBuffer = [])
    (fit : ∀ b ∈ payload :: payloads, Fits size (.write b))
    (gbn : d.gbn = (payload :: payloads).map (fun b => MsgData.serialize ⟨ProtocolVersion,b⟩)) (room : b ≠ []) :
    ∃ answer next, d.read size b = some (answer,next) ∧
      d.gbn = MsgData.serialize ⟨ProtocolVersion,payload⟩ :: next.gbn ∧
      answer.buffer.take answer.n = payload.take b.length ∧
      ∃ after, Pipe.spec (payload ++ payloads.flatten) (.read b) answer after ∧ next.Holds size after := by
  have fetched := fit payload List.mem_cons_self
  let filled : Direction := {d with
    gbn := payloads.map (fun b => MsgData.serialize ⟨ProtocolVersion,b⟩), peer.recvBuffer := payload}
  have holds : filled.Holds size (payload ++ payloads.flatten) :=
    ⟨payloads,fun b member => fit b (List.mem_cons_of_mem _ member),rfl,rfl⟩
  have answered := read_buffered (d := filled) size fetched.1 b
  obtain ⟨same,taken,simulated⟩ := buffered_simulates fetched.1 room holds answered
  exact ⟨_,_,(read_fetches empty gbn fetched b).trans answered,by rw [gbn]; rfl,taken,simulated⟩

theorem read_eq_none_iff (holds : d.Holds size unread) (room : b ≠ []) : d.read size b = none ↔ unread = [] := by
  obtain ⟨payloads,fit,gbn,rfl⟩ := holds
  by_cases empty : d.peer.recvBuffer = []
  · cases payloads with
    | nil => exact iff_of_true (read_blocks empty gbn b) (by rw [empty]; rfl)
    | cons payload payloads =>
      obtain ⟨answer,next,answered,_⟩ := fetched_simulates empty fit gbn room
      have some_ := (fit payload List.mem_cons_self).1
      simp [answered,some_]
  · simp [read_buffered size empty,empty]

/-- A connection is a byte pipe. -/
theorem step_simulates (size : IntSize) : Simulates (Fits size) (step size) Pipe.spec (Holds size) := by
  intro d unread call answer next holds fits answered
  cases call with
  | write b =>
    obtain ⟨payloads,fit,gbn,rfl⟩ := holds
    cases Option.some.inj answered
    refine ⟨_,⟨rfl,rfl,rfl⟩,payloads ++ [b],?_,?_,?_⟩
    · intro other member
      obtain early | last := List.mem_append.mp member
      · exact fit other early
      · rw [List.mem_singleton.mp last]
        exact fits
    · rw [List.map_append,← gbn]
      rfl
    · rw [List.flatten_append,List.flatten_singleton,List.append_assoc]
  | read b =>
    by_cases empty : d.peer.recvBuffer = []
    · have some_ := (read_eq_none_iff holds fits).not.mp (by rw [show d.read size b = _ from answered]; nofun)
      obtain ⟨payloads,fit,gbn,rfl⟩ := holds
      cases payloads with
      | nil => exact absurd (by rw [empty]; rfl) some_
      | cons payload payloads =>
        obtain ⟨answer',next',answered',_,_,simulated⟩ := fetched_simulates empty fit gbn fits
        cases Option.some.inj (answered.symm.trans answered')
        rw [empty]
        exact simulated
    · exact (buffered_simulates empty fits holds answered).2.2

theorem holds_empty (impl : ControlConn) : Holds size {peer := {impl}} [] := ⟨[],nofun,rfl,rfl⟩

/-- Whatever is written and read in whatever order, every `Read` returns some bytes and no error,
and what has been read is the front of what has been written. A message is fetched exactly by a
`Read` that finds the buffer empty, and a `Read` returns bytes of one message only. -/
theorem connKit_stream (size : IntSize) (impl : ControlConn) (made : List Pipe.Call) (fits : ∀ call ∈ made, Fits size call)
    (given : List (Pipe.Answer ConnError)) (final : Direction)
    (ran : calls (step size) {peer := {impl}} made = some (given,final)) :
    (∀ b answer, (Pipe.Call.read b,answer) ∈ made.zip given →
      1 ≤ answer.n ∧ answer.n ≤ b.length ∧ answer.err = none) ∧
    (∀ b answer, (Pipe.Call.write b,answer) ∈ made.zip given → answer.n = b.length ∧ answer.err = none) ∧
    (∃ payloads : List Bytes, final.gbn = payloads.map (fun b => MsgData.serialize ⟨ProtocolVersion,b⟩) ∧
      Pipe.written made = Pipe.received made given ++ final.peer.recvBuffer ++ payloads.flatten) ∧
    ∀ b, b ≠ [] →
      (final.peer.recvBuffer ≠ [] → ∃ answer next, final.read size b = some (answer,next) ∧ next.gbn = final.gbn ∧
        answer.buffer.take answer.n = final.peer.recvBuffer.take b.length) ∧
      (final.peer.recvBuffer = [] → final.gbn ≠ [] → ∃ payload answer next, final.read size b = some (answer,next) ∧
        final.gbn = MsgData.serialize ⟨ProtocolVersion,payload⟩ :: next.gbn ∧
        answer.buffer.take answer.n = payload.take b.length) ∧
      (final.read size b = none ↔ Pipe.received made given = Pipe.written made) := by
  obtain ⟨unread,allows,holds⟩ := (step_simulates size).calls fits (holds_empty impl) ran
  have stream := Pipe.conserved allows
  have each := allows.all (fun call answer => answer.err = none ∧ match call with
    | .read b => 1 ≤ answer.n ∧ answer.n ≤ b.length
    | .write b => answer.n = b.length) (by
      rintro state (b | b) answer next allowed
      · exact ⟨allowed.2.1,allowed.1⟩
      · exact ⟨allowed.2.2.1,allowed.1,allowed.2.1⟩)
  obtain ⟨payloads,fit,gbn,unread_⟩ := id holds
  refine ⟨?_,?_,⟨payloads,gbn,?_⟩,fun b room => ⟨?_,?_,?_⟩⟩
  · intro b answer member
    obtain ⟨err,low,high⟩ := each _ member
    exact ⟨low,high,err⟩
  · intro b answer member
    obtain ⟨err,count⟩ := each _ member
    exact ⟨count,err⟩
  · rw [List.append_assoc,← unread_]
    simpa using stream
  · intro some_
    have answered := read_buffered size some_ b
    obtain ⟨same,taken,_⟩ := buffered_simulates some_ room holds answered
    exact ⟨_,_,answered,same,taken⟩
  · intro empty waiting
    cases payloads with
    | nil => exact absurd gbn waiting
    | cons payload payloads =>
      obtain ⟨answer,next,answered,head,taken,_⟩ := fetched_simulates empty fit gbn room
      exact ⟨payload,answer,next,answered,head,taken⟩
  · rw [read_eq_none_iff holds room,show Pipe.written made = _ from stream]
    simp

/-- Two messages read with room for two bytes. -/
theorem connKit_stream_pieces : ∃ made given, ∃ final : Direction,
    calls (step .bits32) {peer := {impl := .client}} made = some (given,final) ∧
    Pipe.written made = [1,2,3,4] ∧ given.map (·.n) = [3,2,1,1,1] ∧ final.read .bits32 [0] = none := by
  let made : List Pipe.Call := [.write [1,2,3],.read [0,0],.write [4],.read [0,0],.read [0,0]]
  let given : List (Pipe.Answer ConnError) :=
    [⟨3,none,[]⟩,⟨2,none,[1,2]⟩,⟨1,none,[]⟩,⟨1,none,[3,0]⟩,⟨1,none,[4,0]⟩]
  have fits : ∀ call ∈ made, Fits .bits32 call := by simp [made,Fits,MsgData.baseLength]
  have ran : calls (step .bits32) {peer := {impl := .client}} made = some (given,{peer := {impl := .client}}) := by
    decide +kernel
  have stream := connKit_stream .bits32 .client made fits given _ ran
  exact ⟨made,given,_,ran,by decide,by decide,(stream.2.2.2 [0] (by decide)).2.2.mpr (by decide)⟩

end Direction

end NodeConnect.Mailbox
