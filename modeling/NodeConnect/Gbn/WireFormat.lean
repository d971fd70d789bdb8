import NodeConnect.Gbn.Messages

/-! The wire format as a relation between messages and the byte strings that are read as
them. The parser looks at its input by index, so that a missing length check would make it
panic; it is modelled once more with these accesses. -/
namespace NodeConnect.Gbn
open Lib (Bytes)

inductive ReadFault where
  | eof
  | indexOutOfRange
  deriving DecidableEq, Repr

/-- Go's `b[i]`. -/
def byteAt (b : Bytes) (i : Nat) : Except ReadFault UInt8 :=
  match b[i]? with
  | some byte => .ok byte
  | none => .error .indexOutOfRange

/-- Go's `b[low:]`. -/
def sliceFrom (b : Bytes) (low : Nat) : Except ReadFault Bytes :=
  if low ≤ b.length then .ok (b.drop low) else .error .indexOutOfRange

def deserializeData (b : Bytes) : Except ReadFault Message :=
  if b.length < 4 then .error .eof
  else do
    let seq ← byteAt b 1
    let final ← byteAt b 2
    let ping ← byteAt b 3
    let payload ← sliceFrom b 4
    return .data ⟨seq,final == TRUE,ping == TRUE,payload⟩

/-- The packets that are a type and one more byte. -/
def deserializeLabelled (b : Bytes) (packet : UInt8 → Message) : Except ReadFault Message :=
  if b.length < 2 then .error .eof
  else do
    let label ← byteAt b 1
    return packet label

def deserializeIndexed (b : Bytes) : Except ReadFault Message :=
  let baseLength := 1
  if b.length < baseLength then .error .eof
  else do
    let kind ← byteAt b 0
    if kind = DATA then deserializeData b
    else if kind = ACK then deserializeLabelled b .ack
    else if kind = NACK then deserializeLabelled b .nack
    else if kind = SYN then deserializeLabelled b .syn
    else if kind = FIN then
      if b.length < 1 then .error .eof else return .fin
    else if kind = SYNACK then
      if b.length < 1 then .error .eof else return .synack
    else .error .eof

/-- The byte strings that stand for a message. -/
inductive Encodes : Message → Bytes → Prop where
  | data (seq final ping : UInt8) (payload : Bytes) :
    Encodes (.data ⟨seq,final == TRUE,ping == TRUE,payload⟩) (DATA :: seq :: final :: ping :: payload)
  | ack (seq : UInt8) (rest : Bytes) : Encodes (.ack seq) (ACK :: seq :: rest)
  | nack (seq : UInt8) (rest : Bytes) : Encodes (.nack seq) (NACK :: seq :: rest)
  | syn (n : UInt8) (rest : Bytes) : Encodes (.syn n) (SYN :: n :: rest)
  | fin (rest : Bytes) : Encodes .fin (FIN :: rest)
  | synack (rest : Bytes) : Encodes .synack (SYNACK :: rest)

def Message.fixedSize : Message → Option Nat
  | .data _ => none
  | .ack _ | .nack _ | .syn _ => some 2
  | .fin | .synack => some 1

theorem deserializeData_cons (kind : UInt8) (fields : Bytes) :
    deserializeData (kind :: fields) = match fields with
      | seq :: final :: ping :: payload => .ok (.data ⟨seq,final == TRUE,ping == TRUE,payload⟩)
      | _ => .error .eof := by
  match fields with
  | [] | [_] | [_,_] => rfl
  | seq :: final :: ping :: payload =>
    have long : ¬ (kind :: seq :: final :: ping :: payload).length < 4 := by simp
    rw [deserializeData,if_neg long]
    simp [byteAt,sliceFrom,bind,Except.bind,pure,Except.pure]

theorem deserializeLabelled_cons (kind : UInt8) (fields : Bytes) (packet : UInt8 → Message) :
    deserializeLabelled (kind :: fields) packet = match fields with
      | label :: _ => .ok (packet label)
      | [] => .error .eof := by
  cases fields with
  | nil => rfl
  | cons label rest =>
    have long : ¬ (kind :: label :: rest).length < 2 := by simp
    rw [deserializeLabelled,if_neg long]
    rfl

/-- Every access is in range. -/
theorem deserializeIndexed_eq (b : Bytes) : deserializeIndexed b = (deserialize b).mapError fun .eof => .eof := by
  cases b with
  | nil => rfl
  | cons kind fields =>
    have long : ¬ (kind :: fields).length < 1 := by simp
    have first : byteAt (kind :: fields) 0 = .ok kind := rfl
    rw [deserializeIndexed,if_neg long,first]
    unfold deserialize
    simp only [bind,Except.bind,deserializeData_cons,deserializeLabelled_cons,if_neg long]
    split_ifs
    · match fields with
      | [] | [_] | [_,_] | _ :: _ :: _ :: _ => rfl
    · cases fields <;> rfl
    · cases fields <;> rfl
    · cases fields <;> rfl
    · rfl
    · rfl
    · rfl

theorem labelled_ok {fields : Bytes} {packet : UInt8 → Message} {m : Message}
    (parsed : (match fields with
      | label :: _ => Except.ok (packet label)
      | [] => Except.error ParseError.eof) = .ok m) : ∃ label rest, fields = label :: rest ∧ packet label = m := by
  cases fields with
  | nil => cases parsed
  | cons label rest => exact ⟨label,rest,rfl,Except.ok.inj parsed⟩

theorem deserialize_ok_iff (b : Bytes) (m : Message) : deserialize b = .ok m ↔ Encodes m b := by
  constructor
  · intro parsed
    cases b with
    | nil => cases parsed
    | cons kind fields =>
      unfold deserialize at parsed
      dsimp only at parsed
      split_ifs at parsed with data ack nack syn fin synack
      · subst data
        match fields with
        | [] | [_] | [_,_] => cases parsed
        | seq :: final :: ping :: payload =>
          cases parsed
          exact .data seq final ping payload
      · subst ack
        obtain ⟨seq,rest,rfl,rfl⟩ := labelled_ok parsed
        exact .ack seq rest
      · subst nack
        obtain ⟨seq,rest,rfl,rfl⟩ := labelled_ok parsed
        exact .nack seq rest
      · subst syn
        obtain ⟨n,rest,rfl,rfl⟩ := labelled_ok parsed
        exact .syn n rest
      · subst fin
        cases parsed
        exact .fin fields
      · subst synack
        cases parsed
        exact .synack fields
  · intro encodes
    cases encodes <;> rfl

/-- The flag bytes of a data packet. -/
def flagBytes (b : Bytes) : Bytes := (b.drop 2).take 2

/-- What a message that was read is written as again. -/
structure NormalForm (m : Message) (b : Bytes) : Prop where
  parsed : deserializeIndexed (serialize m) = .ok m
  data : ∀ packet, m = .data packet →
    serialize m = b.take 2 ++ (flagBytes b).map (fun byte => flag (byte == TRUE)) ++ b.drop 4 ∧
    (serialize m = b ↔ ∀ byte ∈ flagBytes b, byte = FALSE ∨ byte = TRUE)
  fixed : ∀ size, m.fixedSize = some size → serialize m = b.take size

theorem flag_normal_iff (byte : UInt8) : flag (byte == TRUE) = byte ↔ byte = FALSE ∨ byte = TRUE := by
  by_cases set : byte = TRUE
  · simp [set,flag]
  · have unset : (byte == TRUE) = false := beq_false_of_ne set
    rw [unset]
    simp [set,flag,eq_comm]

theorem deserializeIndexed_serialize (m : Message) : deserializeIndexed (serialize m) = .ok m := by
  rw [deserializeIndexed_eq,deserialize_serialize]
  rfl

theorem Encodes.normalForm {m : Message} {b : Bytes} (encodes : Encodes m b) : NormalForm m b := by
  refine ⟨deserializeIndexed_serialize m,?_,?_⟩
  · rintro packet rfl
    cases encodes with
    | data seq final ping payload =>
      constructor
      · rfl
      · simp [serialize,flagBytes,flag_normal_iff]
  · intro size fixed
    cases encodes <;> cases fixed <;> rfl

theorem deserializeIndexed_ok_iff (b : Bytes) (m : Message) : deserializeIndexed b = .ok m ↔ Encodes m b := by
  rw [deserializeIndexed_eq,← deserialize_ok_iff]
  cases deserialize b with
  | error fault => simp [Except.mapError]
  | ok parsed => simp [Except.mapError]

/-- The parser reads back what was written, and no two messages are written alike. Of any byte
string it reads the message that it stands for, which is written as the normal form of what was
read; if it stands for none, it returns an error. -/
theorem wire_codec :
    (∀ m, deserializeIndexed (serialize m) = .ok m) ∧ Function.Injective serialize ∧
    (∀ b m, deserializeIndexed b = .ok m ↔ Encodes m b) ∧ (∀ b m, Encodes m b → NormalForm m b) ∧
    ∀ b, (∀ m, ¬ Encodes m b) → deserializeIndexed b = .error .eof := by
  refine ⟨deserializeIndexed_serialize,serialize_injective,deserializeIndexed_ok_iff,fun _ _ => Encodes.normalForm,?_⟩
  intro b unread
  rw [deserializeIndexed_eq]
  cases parsed : deserialize b with
  | error fault =>
    cases fault
    rfl
  | ok m => exact absurd ((deserialize_ok_iff b m).mp parsed) (unread m)

theorem wire_codec_trailing : Encodes (.ack 7) [ACK,7,9] ∧
    deserializeIndexed [ACK,7,9] = .ok (.ack 7) ∧ serialize (.ack 7) = [ACK,7] := by
  have encodes : Encodes (.ack 7) [ACK,7,9] := .ack 7 [9]
  exact ⟨encodes,(wire_codec.2.2.1 _ _).mpr encodes,(wire_codec.2.2.2.1 _ _ encodes).fixed 2 rfl⟩

end NodeConnect.Gbn
