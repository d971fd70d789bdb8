import NodeConnect.Lib.ByteStream

/-! Bit streams over bytes. A field is a number of given width. What a stream promises that
takes the most significant bit first is stated as laws over its operations; a stream that keeps
its bits in a list meets them. -/
namespace NodeConnect.Lib

/-- The lowest `width` bits of `value`, most significant first. -/
def toBits : Nat → Nat → List Bool
  | 0, _ => []
  | width + 1, value => toBits width (value / 2) ++ [value % 2 == 1]

def fromBits (bits : List Bool) : Nat := bits.foldl (fun value bit => 2 * value + bit.toNat) 0

def unpack (bytes : Bytes) : List Bool := bytes.flatMap fun byte => toBits 8 byte.toNat

def pack : List Bool → Bytes
  | a :: b :: c :: d :: e :: f :: g :: h :: rest => UInt8.ofNat (fromBits [a,b,c,d,e,f,g,h]) :: pack rest
  | [] => []
  | rest => [UInt8.ofNat (fromBits (rest ++ List.replicate (8 - rest.length) false))]

/-- A stream of bits is made for reading from bytes, or for writing with a capacity in bytes. -/
structure BStream (Stream : Type) where
  newBStreamReader : Bytes → Stream
  readBits : Stream → Nat → Option (Nat × Stream)
  newBStreamWriter : Nat → Stream
  writeBits : Stream → Nat → Nat → Stream
  bytes : Stream → Bytes

/-- `unread` are the bits that a reader has still to come, `written` those that a writer has got.
How a read ends that asks for more than there is, is left open. -/
structure BStream.MostSignificantFirst {Stream : Type} (stream : BStream Stream) (unread written : Stream → List Bool) :
    Prop where
  reader : ∀ bytes, unread (stream.newBStreamReader bytes) = unpack bytes
  reads : ∀ bits count, count ≤ (unread bits).length → ∃ later,
    stream.readBits bits count = some (fromBits ((unread bits).take count),later) ∧ unread later = (unread bits).drop count
  writer : ∀ capacity, written (stream.newBStreamWriter capacity) = []
  writes : ∀ bits value count, value < 2 ^ count →
    written (stream.writeBits bits value count) = written bits ++ toBits count value
  -- The part of the last byte that nothing was written to is zero.
  zeroFilled : ∀ bits, ∃ unused < 8, unpack (stream.bytes bits) = written bits ++ List.replicate unused false

theorem toBits_length (width value : Nat) : (toBits width value).length = width := by
  induction width generalizing value with
  | zero => rfl
  | succ width ih => simp [toBits,ih]

theorem fromBits_append_singleton (bits : List Bool) (bit : Bool) :
    fromBits (bits ++ [bit]) = 2 * fromBits bits + bit.toNat := by
  simp [fromBits,List.foldl_append]

theorem fromBits_lt (bits : List Bool) : fromBits bits < 2 ^ bits.length := by
  induction bits using List.reverseRecOn with
  | nil => exact Nat.one_pos
  | append_singleton bits bit ih =>
    have small : bit.toNat < 2 := bit.toNat_lt
    rw [fromBits_append_singleton,List.length_append,List.length_singleton,Nat.pow_succ]
    omega

theorem fromBits_toBits (width value : Nat) : fromBits (toBits width value) = value % 2 ^ width := by
  induction width generalizing value with
  | zero => simp [toBits,fromBits,Nat.mod_one]
  | succ width ih =>
    have bit : (value % 2 == 1).toNat = value % 2 := by
      rcases Nat.mod_two_eq_zero_or_one value with even | odd
      · simp [even]
      · simp [odd]
    rw [toBits,fromBits_append_singleton,ih,bit,Nat.pow_succ,Nat.mul_comm (2 ^ width) 2,Nat.mod_mul]
    omega

theorem toBits_fromBits (bits : List Bool) : toBits bits.length (fromBits bits) = bits := by
  induction bits using List.reverseRecOn with
  | nil => rfl
  | append_singleton bits bit ih =>
    have half : (2 * fromBits bits + bit.toNat) / 2 = fromBits bits := by
      have small : bit.toNat < 2 := bit.toNat_lt
      omega
    have last : ((2 * fromBits bits + bit.toNat) % 2 == 1) = bit := by
      cases bit <;> simp
    rw [List.length_append,List.length_singleton,toBits,fromBits_append_singleton,half,last,ih]

/-- A byte made of eight bits. -/
theorem toBits_byte (bits : List Bool) (length : bits.length = 8) :
    toBits 8 (UInt8.ofNat (fromBits bits)).toNat = bits := by
  have small := fromBits_lt bits
  rw [length] at small
  rw [UInt8.toNat_ofNat',Nat.mod_eq_of_lt small,← length]
  exact toBits_fromBits bits

theorem unpack_cons (byte : UInt8) (bytes : Bytes) : unpack (byte :: bytes) = toBits 8 byte.toNat ++ unpack bytes := rfl

theorem unpack_append (bytes later : Bytes) : unpack (bytes ++ later) = unpack bytes ++ unpack later :=
  List.flatMap_append

theorem unpack_length (bytes : Bytes) : (unpack bytes).length = 8 * bytes.length := by
  induction bytes with
  | nil => rfl
  | cons byte bytes ih =>
    rw [unpack_cons,List.length_append,toBits_length,ih,List.length_cons]
    omega

/-- Packing a stream pads it with zeros. -/
theorem unpack_pack (bits : List Bool) :
    unpack (pack bits) = bits ++ List.replicate (8 * ((bits.length + 7) / 8) - bits.length) false := by
  fun_induction pack bits with
  | case1 a b c d e f g h rest ih =>
    have padding : 8 * (((a :: b :: c :: d :: e :: f :: g :: h :: rest).length + 7) / 8) -
        (a :: b :: c :: d :: e :: f :: g :: h :: rest).length = 8 * ((rest.length + 7) / 8) - rest.length := by
      simp only [List.length_cons]
      omega
    rw [unpack_cons,toBits_byte _ rfl,ih,padding]
    rfl
  | case2 => rfl
  | case3 rest notFull notEmpty =>
    have short : rest.length < 8 := by
      match rest with
      | a :: b :: c :: d :: e :: f :: g :: h :: rest => exact (notFull a b c d e f g h rest rfl).elim
      | [] | [_] | [_,_] | [_,_,_] | [_,_,_,_] | [_,_,_,_,_] | [_,_,_,_,_,_] | [_,_,_,_,_,_,_] => simp
    have positive : 0 < rest.length := List.length_pos_iff.mpr notEmpty
    have padding : 8 * ((rest.length + 7) / 8) - rest.length = 8 - rest.length := by omega
    rw [unpack_cons,padding,toBits_byte]
    · exact List.append_nil _
    · rw [List.length_append,List.length_replicate]
      omega

theorem toBits_byte_injective {byte other : UInt8} (same : toBits 8 byte.toNat = toBits 8 other.toNat) : byte = other := by
  have numbers := congrArg fromBits same
  rw [fromBits_toBits,fromBits_toBits,Nat.mod_eq_of_lt byte.toNat_lt,Nat.mod_eq_of_lt other.toNat_lt] at numbers
  exact UInt8.toNat_inj.mp numbers

theorem unpack_injective : Function.Injective unpack := by
  intro bytes
  induction bytes with
  | nil =>
    intro other same
    have lengths := congrArg List.length same
    rw [unpack_length,unpack_length] at lengths
    symm
    apply List.eq_nil_of_length_eq_zero
    simpa using lengths.symm
  | cons byte bytes ih =>
    intro other same
    cases other with
    | nil =>
      have lengths := congrArg List.length same
      rw [unpack_length,unpack_length] at lengths
      simp at lengths
    | cons first rest =>
      rw [unpack_cons,unpack_cons] at same
      obtain ⟨head,tail⟩ := List.append_inj same (by rw [toBits_length,toBits_length])
      rw [toBits_byte_injective head,ih tail]

section Listed

def listStream : BStream (List Bool) where
  newBStreamReader := unpack
  readBits bits count :=
    if count ≤ bits.length then some (fromBits (bits.take count),bits.drop count) else none
  newBStreamWriter _ := []
  writeBits bits value count := bits ++ toBits count value
  bytes := pack

theorem listStream_mostSignificantFirst : listStream.MostSignificantFirst id id where
  reader _ := rfl
  reads bits count enough := ⟨bits.drop count,if_pos enough,rfl⟩
  writer _ := rfl
  writes _ _ _ _ := rfl
  zeroFilled bits := ⟨_,by omega,unpack_pack bits⟩

end Listed

end NodeConnect.Lib
