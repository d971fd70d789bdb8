import NodeConnect.Gbn.ArbitraryPeer
import NodeConnect.Mailbox.ConnKit
import NodeConnect.Noise.ConnRead

/-! The whole connection. What the application writes is sealed by the Noise machine; the
two halves of a frame are written to the mailbox connection, which makes a message of each
and sends it over the go-back-N connection. On the other side a `Read` goes through the
same layers upwards, and is suspended in any of them while there is nothing to read. All
calls of both sides, the loops below them and the channels interleave. -/
namespace NodeConnect.EndToEnd
open Lib Noise
open Gbn (Net Side Endpoint PacketData)
open Mailbox (IntSize ControlConn MsgData ProtocolVersion)

variable {Point Key : Type}

/-- Where `ReadMessage` is: in the `io.ReadFull` of the header or of the body. -/
structure Place where
  inBody : Bool := false
  need : Nat := 2 + macSize
  got : Bytes := []
  deriving DecidableEq, Repr

/-- One end, from `NoiseGrpcConn` down to the messages of the layer below. `stream` is the mailbox connection with the
message that `Recv` returned last, `receiving` is what the `Recv` in progress has, and `reading` is the buffer of the `Read`
in progress with its place. What was sealed, and the buffer and the answer of each `Read`, are histories. -/
structure Conn (Point Key : Type) where
  noise : Machine Point Key
  nextMsg : Bytes := []
  stream : Mailbox.Direction
  receiving : Bytes := []
  reading : Option (Bytes × Place) := none
  written : List Bytes := []
  answers : List (Bytes × Pipe.Answer ReadError) := []

namespace Conn

def write (suite : Suite Point Key) (c : Conn Point Key) (p : Bytes) : Conn Point Key :=
  match c.noise.writeMessage suite p with
  | .ok () noise => {c with noise, written := c.written ++ [p]}
  | .error _ noise => {c with noise}

def nextWrite (b : Machine Point Key) : Option (Bytes × Machine Point Key) :=
  if 0 < b.nextHeaderSend.length then some (b.nextHeaderSend,{b with nextHeaderSend := []})
  else if 0 < b.nextBodySend.length then some (b.nextBodySend,{b with nextBodySend := []})
  else none

def answer (c : Conn Point Key) (b : Bytes) (given : Pipe.Answer ReadError) : Conn Point Key :=
  {c with reading := none, answers := c.answers ++ [(b,given)]}

def finish (c : Conn Point Key) (b requestBytes : Bytes) : Conn Point Key :=
  if defaultGrpcWriteBufSize < requestBytes.length then
    {c with nextMsg := requestBytes.drop defaultGrpcWriteBufSize}.answer b
      ⟨defaultGrpcWriteBufSize,none,overwrite b (requestBytes.take defaultGrpcWriteBufSize)⟩
  else c.answer b ⟨requestBytes.length,none,overwrite b requestBytes⟩

def read (c : Conn Point Key) (b : Bytes) : Option (Conn Point Key) :=
  match c.reading with
  | some _ => none
  | none =>
    if 0 < c.nextMsg.length then
      some ({c with nextMsg := []}.answer b ⟨c.nextMsg.length,none,overwrite b c.nextMsg⟩)
    else some {c with reading := some (b,{})}

/-- `ReadHeader` or `ReadBody` once its bytes are there. -/
def decrypted (suite : Suite Point Key) (c : Conn Point Key) (b : Bytes) (inBody : Bool) (buf : Bytes) : Conn Point Key :=
  match c.noise.recvCipher.decrypt suite [] buf with
  | (none,recvCipher) => {c with noise.recvCipher := recvCipher}.answer b ⟨0,some (.decryptingPayload .decrypt),b⟩
  | (some plaintext,recvCipher) =>
    let c := {c with noise.recvCipher := recvCipher}
    if inBody then c.finish b plaintext
    else {c with reading := some (b,⟨true,fromBigEndian (plaintext.take 2) + macSize,[]⟩)}

/-- One `Read` of the mailbox connection, called by the `io.ReadFull` in progress. -/
def readSome (suite : Suite Point Key) (size : IntSize) (c : Conn Point Key) : Option (Conn Point Key) :=
  match c.reading with
  | none => none
  | some (b,place) =>
    match c.stream.read size (List.replicate (place.need - place.got.length) 0) with
    | none => none
    | some (given,stream) =>
      let c := {c with stream}
      match given.err with
      | some _ => some (c.answer b ⟨0,some (.decryptingPayload .read),b⟩)
      | none =>
        let got := place.got ++ given.buffer.take given.n
        if got.length < place.need then some {c with reading := some (b,{place with got})}
        else some (c.decrypted suite b place.inBody got)

/-- `Recv`, which a mailbox connection with an empty buffer calls, takes a packet. -/
def recv (c : Conn Point Key) (msg : PacketData) : Option (Conn Point Key) :=
  if c.reading.isSome ∧ c.stream.peer.recvBuffer = [] ∧ c.stream.gbn = [] then
    let data := c.receiving ++ msg.payload
    if msg.finalChunk then some {c with receiving := [], stream.gbn := [data]}
    else some {c with receiving := data}
  else none

end Conn

structure Pair (Point Key : Type) where
  net : Net
  conns : Side → Conn Point Key

inductive Event where
  | net (event : Gbn.Event)
  | write (side : Side) (p : Bytes)
  | flush (side : Side)
  | read (side : Side) (b : Bytes)
  | recv (side : Side)
  | readSome (side : Side)
  deriving DecidableEq, Repr

/-- The events of the loops, the timers and the channels; `Send` and `Recv` are called by the layers above only. -/
def below : Gbn.Event → Bool
  | .send _ (.take _ _) | .drain _ => false
  | .send _ .ping | .send _ .resendSignal | .send _ .resendTicker | .send _ (.proceed _) => true
  | .deliver _ _ _ | .receive _ | .timer _ | .lose _ _ => true

def control (payload : Bytes) : Bytes := MsgData.serialize ⟨ProtocolVersion,payload⟩

def implOf : Side → ControlConn
  | .client => .client
  | .server => .server

namespace Pair

def initial (n : UInt8) (start : Side → Machine Point Key) : Pair Point Key :=
  ⟨Net.initial n,fun x => {noise := start x, stream := {peer := {impl := implOf x}}}⟩

def put (s : Pair Point Key) (side : Side) (c : Conn Point Key) : Pair Point Key :=
  {s with conns := Function.update s.conns side c}

def step (suite : Suite Point Key) (size : IntSize) (s : Pair Point Key) : Event → Option (Pair Point Key)
  | .net event => if below event then (s.net.step event).map fun net => {s with net} else none
  | .write side p => some (s.put side ((s.conns side).write suite p))
  | .flush side =>
    (Conn.nextWrite (s.conns side).noise).bind fun (b,noise) =>
      -- The connections of a mailbox set no maximal chunk size: a message is one packet.
      (s.net.step (.send side (.take (control b) true))).map fun net =>
        {s with net}.put side {s.conns side with noise}
  | .read side b => ((s.conns side).read b).map (s.put side)
  | .recv side =>
    (s.net.ends side).recvDataChan.head?.bind fun msg =>
      ((s.conns side).recv msg).bind fun c =>
        (s.net.step (.drain side)).map fun net => {s with net}.put side c
  | .readSome side => ((s.conns side).readSome suite size).map (s.put side)

end Pair

end NodeConnect.EndToEnd
