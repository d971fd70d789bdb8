import NodeConnect.Mailbox.ConnKit

/-! Which byte strings are read as a message, where `int` has 64 bits and where it has 32.
The length on the wire is an unsigned number of 32 bits. As an `int` of 32 bits, with the
length of the header added, it can come out below the header; the input is then long enough
for it, and the slice of the payload ends before it begins. -/
namespace NodeConnect.Mailbox
open Lib

namespace MsgData

/-- The length of the payload, as the message gives it. -/
def wireLength (b : Bytes) : Nat := fromBigEndian ((b.drop 1).take 4)

/-- The input holds the header and the payload that the header announces. -/
def Complete (b : Bytes) : Prop := baseLength ≤ b.length ∧ baseLength + wireLength b ≤ b.length

/-- The payload would end where an `int` of 32 bits does not reach. -/
def Overflows (size : IntSize) (b : Bytes) : Prop :=
  size = .bits32 ∧ baseLength ≤ b.length ∧ 2 ^ 31 ≤ baseLength + wireLength b

instance (size : IntSize) (b : Bytes) : Decidable (Overflows size b) := inferInstanceAs (Decidable (_ ∧ _))

/-- A message that is complete is read, and any other input is an error. -/
structure Parses (size : IntSize) (b : Bytes) (version : UInt8) : Prop where
  complete : Complete b → deserialize size b ⟨version,[]⟩ =
    .ok () ⟨b.headD 0,(b.drop baseLength).take (wireLength b)⟩
  incomplete : ¬ Complete b → ∃ m, deserialize size b ⟨version,[]⟩ = .error .EOF m

variable {size : IntSize} {b : Bytes}

theorem wireLength_lt (b : Bytes) : wireLength b < 2 ^ 32 := by
  have bound := fromBigEndian_lt ((b.drop 1).take 4)
  have length : ((b.drop 1).take 4).length ≤ 4 := List.length_take_le 4 _
  have power : 256 ^ ((b.drop 1).take 4).length ≤ 256 ^ 4 := Nat.pow_le_pow_right (by omega) length
  unfold wireLength
  omega

/-- Where the payload ends, as the parser computes it. -/
def payloadEnd (size : IntSize) (b : Bytes) : Int := size.wrap (baseLength + size.wrap (wireLength b))

theorem payloadEnd_eq (long : baseLength ≤ b.length) (fits : ¬ Overflows size b) :
    payloadEnd size b = (baseLength + wireLength b : Nat) := by
  have small := wireLength_lt b
  have within : baseLength + wireLength b ≤ size.maxInt := by
    cases size with
    | bits32 =>
      have bound : ¬ 2 ^ 31 ≤ baseLength + wireLength b := fun large => fits ⟨rfl,long,large⟩
      simp only [IntSize.maxInt,IntSize.bits]
      omega
    | bits64 =>
      simp only [IntSize.maxInt,IntSize.bits,baseLength]
      omega
  rw [payloadEnd,size.wrap_eq (wireLength b) (by omega),← Int.natCast_add]
  exact size.wrap_eq _ within

theorem payloadEnd_lt (overflows : Overflows size b) : payloadEnd size b < baseLength := by
  obtain ⟨rfl,_,large⟩ := overflows
  have small := wireLength_lt b
  simp only [payloadEnd,IntSize.wrap,IntSize.bits,Int.add_bmod_bmod]
  rw [Int.bmod_def]
  simp only [baseLength] at large ⊢
  split_ifs <;> omega

/-- The parser, with the end of the payload named. -/
theorem deserialize_eq (long : baseLength ≤ b.length) (version : UInt8) : deserialize size b ⟨version,[]⟩ =
    if b.length < payloadEnd size b then .error .EOF ⟨b.headD 0,[]⟩
    else if 0 < wireLength b then
      match slice b baseLength (payloadEnd size b) with
      | none => .error .sliceOutOfRange ⟨b.headD 0,[]⟩
      | some payload => .ok () ⟨b.headD 0,payload⟩
    else .ok () ⟨b.headD 0,[]⟩ := by
  rw [deserialize,if_neg (Nat.not_lt.mpr long)]
  rfl

theorem deserialize_overflows (overflows : Overflows size b) (version : UInt8) :
    deserialize size b ⟨version,[]⟩ = .error .sliceOutOfRange ⟨b.headD 0,[]⟩ := by
  have ends := payloadEnd_lt overflows
  obtain ⟨_,long,large⟩ := id overflows
  have outside : slice b baseLength (payloadEnd size b) = none := by
    rw [slice,if_neg (by omega)]
  have positive : 0 < wireLength b := by
    simp only [baseLength] at large
    omega
  rw [deserialize_eq long,if_neg (by omega),if_pos positive,outside]

theorem slice_payload (complete : Complete b) :
    slice b baseLength (baseLength + wireLength b : Nat) = some ((b.drop baseLength).take (wireLength b)) := by
  have within := complete.2
  have width : ((baseLength + wireLength b : Nat) - (baseLength : Nat) : Int).toNat = wireLength b := by omega
  rw [slice,if_pos (by omega),width,Int.toNat_natCast]

/-- Without the overflow the parser does what the format asks for. -/
theorem parses_of_fits (fits : ¬ Overflows size b) (version : UInt8) : Parses size b version := by
  by_cases long : baseLength ≤ b.length
  · have ends := payloadEnd_eq long fits
    constructor
    · intro complete
      have inside : ¬ (b.length : Int) < (baseLength + wireLength b : Nat) := by
        have := complete.2
        omega
      rw [deserialize_eq long,ends,if_neg inside]
      split_ifs with positive
      · rw [slice_payload complete]
      · have empty : wireLength b = 0 := by omega
        rw [empty,List.take_zero]
    · intro incomplete
      have short : (b.length : Int) < (baseLength + wireLength b : Nat) := by
        have : ¬ baseLength + wireLength b ≤ b.length := fun fitting => incomplete ⟨long,fitting⟩
        omega
      rw [deserialize_eq long,ends,if_pos short]
      exact ⟨_,rfl⟩
  · constructor
    · intro complete
      exact absurd complete.1 long
    · intro _
      rw [deserialize,if_pos (Nat.not_le.mp long)]
      exact ⟨_,rfl⟩

theorem parses_iff (size : IntSize) (b : Bytes) (held : b.length ≤ size.maxInt) (version : UInt8) :
    Parses size b version ↔ ¬ Overflows size b := by
  constructor
  · intro parses overflows
    have failed := deserialize_overflows overflows version
    obtain ⟨rfl,long,large⟩ := overflows
    have incomplete : ¬ Complete b := by
      intro complete
      have := complete.2
      simp only [IntSize.maxInt,IntSize.bits] at held
      omega
    obtain ⟨m,returned⟩ := parses.incomplete incomplete
    rw [failed] at returned
    cases returned
  · intro fits
    exact parses_of_fits fits version

/-- For every byte string that a slice can hold the parser accepts exactly the complete messages,
if the end of the payload is not out of the range of `int`; and what was written is read back, whatever follows it. -/
theorem msgData_format_iff (size : IntSize) :
    (∀ b version, b.length ≤ size.maxInt → (Parses size b version ↔ ¬ Overflows size b)) ∧
    ∀ m rest version, m.payload.length < 2 ^ 32 → (m.serialize ++ rest).length ≤ size.maxInt →
      deserialize size (m.serialize ++ rest) ⟨version,[]⟩ = .ok () m := by
  constructor
  · intro b version held
    exact parses_iff size b held version
  · intro m rest version small held
    apply deserialize_serialize size m small
    rw [List.length_append,serialize_length m small] at held
    omega

/-- Where `int` has 64 bits, the longest payload that can be announced is only missing. -/
theorem msgData_format_iff_64 : Parses .bits64 [0,255,255,255,255] 0 ∧
    deserialize .bits32 (serialize ⟨7,[1,2]⟩ ++ [9]) ⟨0,[]⟩ = .ok () ⟨7,[1,2]⟩ := by
  constructor
  · exact ((msgData_format_iff .bits64).1 _ 0 (by decide)).mpr (by decide)
  · exact (msgData_format_iff .bits32).2 ⟨7,[1,2]⟩ [9] 0 (by decide) (by decide)

/-- Five bytes from the peer make a 32-bit target take the slice `b[5:4]`. -/
theorem length_overflows : ∃ b : Bytes, b.length ≤ IntSize.maxInt .bits32 ∧ ¬ Complete b ∧
    deserialize .bits32 b ⟨0,[]⟩ = .error .sliceOutOfRange ⟨0,[]⟩ := by
  have overflows : Overflows .bits32 [0,255,255,255,255] := by decide
  refine ⟨[0,255,255,255,255],by decide,?_,deserialize_overflows overflows 0⟩
  simp [Complete,wireLength,fromBigEndian,baseLength]

end MsgData

end NodeConnect.Mailbox
