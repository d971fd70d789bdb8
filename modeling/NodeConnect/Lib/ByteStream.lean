import Mathlib.Data.List.Basic
import Mathlib.Data.List.Induction
import Mathlib.Algebra.Order.Ring.Nat

/-! Bytes, numbers in bytes, and readers. A reader holds what is still to come and
how the next calls of `read` cut it: a call may return fewer bytes than asked for
without an error. A reader with no cuts left fills every buffer or fails. -/
namespace NodeConnect.Lib

abbrev Bytes := List UInt8

def ascii (text : String) : Bytes := text.toList.map fun char => UInt8.ofNat char.toNat

/-- `value` in `width` bytes, most significant first; what does not fit is cut off. -/
def bigEndian : Nat → Nat → Bytes
  | 0, _ => []
  | width + 1, value => bigEndian width (value / 256) ++ [UInt8.ofNat (value % 256)]

def fromBigEndian (bytes : Bytes) : Nat := bytes.foldl (fun value byte => value * 256 + byte.toNat) 0

theorem bigEndian_length (width value : Nat) : (bigEndian width value).length = width := by
  induction width generalizing value with
  | zero => rfl
  | succ width ih => simp [bigEndian,ih]

theorem fromBigEndian_bigEndian (width value : Nat) :
    fromBigEndian (bigEndian width value) = value % 256 ^ width := by
  induction width generalizing value with
  | zero => simp [bigEndian,fromBigEndian,Nat.mod_one]
  | succ width ih =>
    have byte : (UInt8.ofNat (value % 256)).toNat = value % 256 := by
      rw [UInt8.toNat_ofNat']
      omega
    unfold fromBigEndian at ih ⊢
    rw [bigEndian,List.foldl_append,ih]
    simp only [List.foldl_cons,List.foldl_nil,byte]
    rw [Nat.pow_succ,Nat.mul_comm (256 ^ width) 256,Nat.mod_mul]
    omega

theorem fromBigEndian_lt (bytes : Bytes) : fromBigEndian bytes < 256 ^ bytes.length := by
  induction bytes using List.reverseRecOn with
  | nil => exact Nat.one_pos
  | append_singleton bytes byte ih =>
    have small : byte.toNat < 256 := byte.toNat_lt
    unfold fromBigEndian at ih ⊢
    rw [List.foldl_append,List.length_append,List.length_singleton,Nat.pow_succ]
    simp only [List.foldl_cons,List.foldl_nil]
    omega

structure Reader where
  data : Bytes
  cuts : List Nat
  deriving DecidableEq, Repr

namespace Reader

/-- One call with a buffer of `k` bytes. The bytes that a short read leaves alone stay zero. -/
def read (r : Reader) (k : Nat) : Option (Bytes × Reader) :=
  match r.cuts with
  | [] => if k ≤ r.data.length then some (r.data.take k,⟨r.data.drop k,[]⟩) else none
  | cut :: cuts =>
    if r.data = [] then none
    else
      let bytes := r.data.take (min k (cut + 1))
      some (bytes ++ List.replicate (k - bytes.length) 0,⟨r.data.drop bytes.length,cuts⟩)

/-- Calls `read` until the buffer of `k` bytes is full. -/
def readFull (r : Reader) (k : Nat) : Option (Bytes × Reader) :=
  go r.data r.cuts k
where
  go (data : Bytes) : List Nat → Nat → Option (Bytes × Reader)
    | cuts, 0 => some ([],⟨data,cuts⟩)
    | [], k => if k ≤ data.length then some (data.take k,⟨data.drop k,[]⟩) else none
    | cut :: cuts, k =>
      if data = [] then none
      else
        let bytes := data.take (min k (cut + 1))
        (go (data.drop bytes.length) cuts (k - bytes.length)).map fun (rest,r) => (bytes ++ rest,r)

theorem read_append (bytes rest : Bytes) (k : Nat) (length : bytes.length = k) :
    read ⟨bytes ++ rest,[]⟩ k = some (bytes,⟨rest,[]⟩) := by
  subst length
  simp [read]

/-- A full read returns the next bytes of the stream, however the stream is cut. -/
theorem readFull_append (bytes rest : Bytes) (cuts : List Nat) :
    ∃ later, readFull ⟨bytes ++ rest,cuts⟩ bytes.length = some (bytes,⟨rest,later⟩) := by
  change ∃ later, readFull.go (bytes ++ rest) cuts bytes.length = _
  induction cuts generalizing bytes with
  | nil =>
    refine ⟨[],?_⟩
    cases bytes with
    | nil => rfl
    | cons byte bytes => simp [readFull.go]
  | cons cut cuts ih =>
    cases bytes with
    | nil => exact ⟨cut :: cuts,rfl⟩
    | cons byte bytes =>
      let first := (byte :: bytes).take (cut + 1)
      let second := (byte :: bytes).drop (cut + 1)
      have split : first ++ second = byte :: bytes := List.take_append_drop _ _
      have lengths : first.length + second.length = (byte :: bytes).length := by
        rw [← split,List.length_append]
      obtain ⟨later,continued⟩ := ih second
      refine ⟨later,?_⟩
      have taken : (byte :: bytes ++ rest).take (min (byte :: bytes).length (cut + 1)) = first := by
        rw [List.take_append_of_le_length (Nat.min_le_left _ _)]
        refine List.take_eq_take_iff.mpr ?_
        omega
      rw [readFull.go,if_neg (by simp)]
      · simp only [taken]
        have dropped : (byte :: bytes ++ rest).drop first.length = second ++ rest := by
          rw [← split,List.append_assoc,List.drop_left]
        rw [dropped,show (byte :: bytes).length - first.length = second.length by omega,continued]
        simp [split]
      · simp

theorem readFull_short (data : Bytes) (cuts : List Nat) (k : Nat) (short : data.length < k) :
    readFull ⟨data,cuts⟩ k = none := by
  change readFull.go data cuts k = none
  induction cuts generalizing data k with
  | nil =>
    cases k with
    | zero => exact absurd short (Nat.not_lt_zero _)
    | succ k => simp [readFull.go,Nat.not_le.mpr short]
  | cons cut cuts ih =>
    cases k with
    | zero => exact absurd short (Nat.not_lt_zero _)
    | succ k =>
      rw [readFull.go]
      · split_ifs with empty
        · rfl
        · dsimp only
          rw [ih _ _ ?_]
          · rfl
          · rw [List.length_drop]
            simp only [List.length_take]
            have some : 0 < data.length := List.length_pos_iff.mpr empty
            omega
      · simp

theorem readFull_some {data bytes : Bytes} {cuts : List Nat} {k : Nat} {rest : Reader}
    (read : readFull ⟨data,cuts⟩ k = some (bytes,rest)) : bytes.length = k ∧ data = bytes ++ rest.data := by
  have enough : k ≤ data.length := by
    by_contra short
    rw [readFull_short data cuts k (Nat.not_le.mp short)] at read
    cases read
  have length : (data.take k).length = k := List.length_take_of_le enough
  obtain ⟨later,found⟩ := readFull_append (data.take k) (data.drop k) cuts
  rw [List.take_append_drop,length,read] at found
  cases Option.some.inj found
  exact ⟨length,(List.take_append_drop k data).symm⟩

/-- The call returns as many bytes as it was asked for, or the stream ends before that. -/
def fills (r : Reader) (k : Nat) : Bool :=
  match r.read k with
  | some (_,rest) => rest.data.length + k = r.data.length
  | none => r.data.length < k

/-- All calls of a sequence with these buffer sizes fill their buffers. -/
def whole (r : Reader) : List Nat → Bool
  | [] => true
  | k :: sizes => r.fills k && match r.read k with
    | some (_,rest) => rest.whole sizes
    | none => true

def uncut (r : Reader) : Reader := ⟨r.data,[]⟩

theorem read_uncut (r : Reader) (k : Nat) :
    r.uncut.read k = if k ≤ r.data.length then some (r.data.take k,⟨r.data.drop k,[]⟩) else none := rfl

theorem read_of_fills (r : Reader) (k : Nat) (full : r.fills k = true) :
    r.read k = if k ≤ r.data.length then some (r.data.take k,⟨r.data.drop k,r.cuts.tail⟩) else none := by
  obtain ⟨data,cuts⟩ := r
  cases cuts with
  | nil => rfl
  | cons cut cuts =>
    by_cases empty : data = []
    · simp only [fills,read,empty,if_true,decide_eq_true_eq] at full ⊢
      rw [if_neg (by omega)]
    · simp only [fills,read,empty,if_false,List.length_drop,List.length_take,decide_eq_true_eq] at full ⊢
      have some : 0 < data.length := List.length_pos_iff.mpr empty
      have length : min (min k (cut + 1)) data.length = k := by omega
      have taken : data.take (min k (cut + 1)) = data.take k := List.take_eq_take_iff.mpr (by omega)
      rw [if_pos (by omega),length,taken]
      simp

end Reader

end NodeConnect.Lib
