import NodeConnect.Lib.ByteStream

/-! Messages of the Go-Back-N layer and their wire format. Every message starts
with one byte that names its type; the parser ignores bytes after the fields of
a fixed-size message and takes every flag byte other than `TRUE` as false. -/
namespace NodeConnect.Gbn

open Lib (Bytes)

def SYN : UInt8 := 0x01
def DATA : UInt8 := 0x02
def ACK : UInt8 := 0x03
def NACK : UInt8 := 0x04
def FIN : UInt8 := 0x05
def SYNACK : UInt8 := 0x06
def FALSE : UInt8 := 0x00
def TRUE : UInt8 := 0x01

structure PacketData where
  seq : UInt8 := 0
  finalChunk : Bool := false
  isPing : Bool := false
  payload : Bytes := []
  deriving DecidableEq, Repr

inductive Message where
  | syn (n : UInt8)
  | data (packet : PacketData)
  | ack (seq : UInt8)
  | nack (seq : UInt8)
  | fin
  | synack
  deriving DecidableEq, Repr

def flag (value : Bool) : UInt8 := if value then TRUE else FALSE

def serialize : Message → Bytes
  | .data packet => DATA :: packet.seq :: flag packet.finalChunk :: flag packet.isPing :: packet.payload
  | .ack seq => [ACK,seq]
  | .syn n => [SYN,n]
  | .nack seq => [NACK,seq]
  | .fin => [FIN]
  | .synack => [SYNACK]

/-- Every rejected input yields the same error, `io.EOF`. -/
inductive ParseError where
  | eof
  deriving DecidableEq, Repr

/-- The `FIN` and `SYNACK` cases repeat the length check of the first line, so
only that line decides there. -/
def deserialize : Bytes → Except ParseError Message
  | [] => .error .eof
  | kind :: fields =>
    if kind = DATA then
      match fields with
      | seq :: final :: ping :: payload => .ok (.data ⟨seq,final == TRUE,ping == TRUE,payload⟩)
      | _ => .error .eof
    else if kind = ACK then
      match fields with
      | seq :: _ => .ok (.ack seq)
      | [] => .error .eof
    else if kind = NACK then
      match fields with
      | seq :: _ => .ok (.nack seq)
      | [] => .error .eof
    else if kind = SYN then
      match fields with
      | n :: _ => .ok (.syn n)
      | [] => .error .eof
    else if kind = FIN then .ok .fin
    else if kind = SYNACK then .ok .synack
    else .error .eof

theorem flag_eq_true (value : Bool) : (flag value == TRUE) = value := by
  cases value <;> rfl

theorem deserialize_serialize (message : Message) :
    deserialize (serialize message) = .ok message := by
  cases message with
  | data packet =>
    show Except.ok (Message.data ⟨packet.seq,flag packet.finalChunk == TRUE,
      flag packet.isPing == TRUE,packet.payload⟩) = _
    rw [flag_eq_true,flag_eq_true]
  | _ => rfl

theorem serialize_injective : Function.Injective serialize := by
  intro message other same
  have parsed := congrArg deserialize same
  rw [deserialize_serialize,deserialize_serialize] at parsed
  exact Except.ok.inj parsed

/-- Nothing restricts the label of an incoming acknowledgement. -/
theorem deserialize_any_label (seq : UInt8) :
    deserialize [ACK,seq] = .ok (.ack seq) ∧ deserialize [NACK,seq] = .ok (.nack seq) :=
  ⟨rfl,rfl⟩

end NodeConnect.Gbn
