import NodeConnect.Lib.ByteStream
import Mathlib.Data.Int.Init

/-! The messages that carry the bytes of a mailbox connection. Lengths are compared as
numbers of Go's `int`, whose width depends on the build target. -/
namespace NodeConnect.Mailbox
open Lib

inductive IntSize where
  | bits32
  | bits64
  deriving DecidableEq, Repr

namespace IntSize

def bits : IntSize → Nat
  | bits32 => 32
  | bits64 => 64

def maxInt (size : IntSize) : Nat := 2 ^ (size.bits - 1) - 1

/-- The `int` that a result of integer arithmetic wraps around to. -/
def wrap (size : IntSize) (value : Int) : Int := value.bmod (2 ^ size.bits)

theorem wrap_eq (size : IntSize) (value : Nat) (fits : value ≤ size.maxInt) : size.wrap value = value := by
  cases size with
  | bits32 =>
    simp only [maxInt,bits] at fits
    rw [wrap,bits,Int.bmod_eq_of_le (by omega) (by omega)]
  | bits64 =>
    simp only [maxInt,bits] at fits
    rw [wrap,bits,Int.bmod_eq_of_le (by omega) (by omega)]

end IntSize

structure MsgData where
  version : UInt8
  payload : Bytes
  deriving DecidableEq, Repr

inductive DecodeError where
  | EOF
  | sliceOutOfRange
  deriving DecidableEq, Repr

def ProtocolVersion : UInt8 := 0

/-- Go's `b[low:high]`. -/
def slice (b : Bytes) (low high : Int) : Option Bytes :=
  if 0 ≤ low ∧ low ≤ high ∧ high ≤ b.length then some ((b.drop low.toNat).take (high - low).toNat) else none

namespace MsgData

def serialize (m : MsgData) : Bytes :=
  let payloadLen := m.payload.length % 2 ^ 32
  m.version :: bigEndian 4 payloadLen ++ if 0 < payloadLen then m.payload else []

def baseLength : Nat := 1 + 4

/-- Fills the message in; on an error it may have changed the version. -/
def deserialize (size : IntSize) (b : Bytes) (m : MsgData) : EStateM.Result DecodeError MsgData Unit :=
  if b.length < baseLength then .error .EOF m
  else
    let m := {m with version := b.headD 0}
    let lenBytes := (b.drop 1).take 4
    let payloadLen := fromBigEndian lenBytes
    let high := size.wrap (baseLength + size.wrap payloadLen)
    if b.length < high then .error .EOF m
    else if 0 < payloadLen then
      match slice b baseLength high with
      | none => .error .sliceOutOfRange m
      | some payload => .ok () {m with payload}
    else .ok () m

theorem serialize_eq (m : MsgData) (small : m.payload.length < 2 ^ 32) :
    m.serialize = m.version :: bigEndian 4 m.payload.length ++ m.payload := by
  rw [serialize,Nat.mod_eq_of_lt small]
  by_cases empty : m.payload = []
  · simp [empty]
  · rw [if_pos (List.length_pos_iff.mpr empty)]

theorem serialize_length (m : MsgData) (small : m.payload.length < 2 ^ 32) :
    m.serialize.length = baseLength + m.payload.length := by
  rw [serialize_eq m small,List.cons_append,List.length_cons,List.length_append,bigEndian_length,baseLength]
  omega

/-- A message that a slice can hold is read back, whatever follows it. -/
theorem deserialize_serialize (size : IntSize) (m : MsgData) (small : m.payload.length < 2 ^ 32)
    (fits : baseLength + m.payload.length ≤ size.maxInt) (rest : Bytes) (version : UInt8) :
    deserialize size (m.serialize ++ rest) ⟨version,[]⟩ = .ok () m := by
  have length : (m.serialize ++ rest).length = baseLength + m.payload.length + rest.length := by
    rw [List.length_append,serialize_length m small]
  have lenBytes : ((m.serialize ++ rest).drop 1).take 4 = bigEndian 4 m.payload.length := by
    rw [serialize_eq m small,List.cons_append,List.cons_append,List.drop_succ_cons,List.drop_zero,List.append_assoc]
    exact List.take_left' (bigEndian_length 4 _)
  have payloadLen : fromBigEndian (bigEndian 4 m.payload.length) = m.payload.length := by
    rw [fromBigEndian_bigEndian]
    exact Nat.mod_eq_of_lt small
  have high : size.wrap (baseLength + size.wrap m.payload.length) = (baseLength + m.payload.length : Nat) := by
    rw [size.wrap_eq m.payload.length (by omega),← Int.natCast_add]
    exact size.wrap_eq _ fits
  have version_ : (m.serialize ++ rest).headD 0 = m.version := by
    rw [serialize_eq m small]
    rfl
  simp only [deserialize,lenBytes,payloadLen,high,length,version_]
  rw [if_neg (by omega),if_neg (by omega)]
  split_ifs with some_
  · have sliced : slice (m.serialize ++ rest) baseLength (baseLength + m.payload.length : Nat) = some m.payload := by
      rw [slice,if_pos (by omega)]
      have size_ : ((baseLength + m.payload.length : Nat) - (baseLength : Nat) : Int).toNat = m.payload.length := by omega
      rw [size_,Int.toNat_natCast,serialize_eq m small,List.append_assoc,
        List.drop_left' (by rw [List.length_cons,bigEndian_length]; rfl),List.take_left]
    rw [sliced]
  · rw [List.length_pos_iff,not_not] at some_
    rw [← some_]

end MsgData

end NodeConnect.Mailbox
