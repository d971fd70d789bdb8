import NodeConnect.Lib.BitStream
import NodeConnect.Lib.StreamReader
import Mathlib.Data.Vector.Basic

/-! The pairing phrase. Ten words of eleven bits each stand for the entropy of fourteen bytes,
of which the last two bits are not used. Words are looked up in a list of 2048; the stream of
bits that both directions use comes from another library and is a parameter. -/
namespace NodeConnect.Mailbox
open Lib

def NumPassphraseWords : Nat := 10

def NumPassphraseEntropyBytes : Nat := 14

def BitsPerWord : Nat := 11

abbrev Passphrase := List.Vector String NumPassphraseWords

abbrev Entropy := List.Vector UInt8 NumPassphraseEntropyBytes

structure WordList where
  defaultWordList : List String
  length : defaultWordList.length = 2 ^ BitsPerWord
  distinct : defaultWordList.Nodup

/-- A word that is not in the list is taken for the first one, as the lookup of a missing key of a
map is. -/
def WordList.reverseWordMap (list : WordList) (word : String) : Nat := (list.defaultWordList.idxOf? word).getD 0

inductive MnemonicError where
  | readBits
  | indexOutOfRange
  deriving DecidableEq, Repr

namespace WordList

variable {Stream : Type} (bstream : BStream Stream) (list : WordList)

def readWords : (n : Nat) → Stream → Except MnemonicError (List.Vector String n)
  | 0, _ => .ok .nil
  | n + 1, cipherBits =>
    match bstream.readBits cipherBits BitsPerWord with
    | none => .error .readBits
    | some (index,cipherBits) =>
      match list.defaultWordList[index]? with
      | none => .error .indexOutOfRange
      | some word => (readWords n cipherBits).map (List.Vector.cons word)

def passphraseEntropyToMnemonic (entropy : Entropy) : Except MnemonicError Passphrase :=
  list.readWords bstream NumPassphraseWords (bstream.newBStreamReader entropy.toList)

def writeWords (words : List String) (cipherBits : Stream) : Stream :=
  words.foldl (fun cipherBits word => bstream.writeBits cipherBits (list.reverseWordMap word) BitsPerWord) cipherBits

def passphraseMnemonicToEntropy (passphrase : Passphrase) : Entropy :=
  let passphraseEntropy := List.replicate NumPassphraseEntropyBytes 0
  let cipherBits := list.writeWords bstream passphrase.toList (bstream.newBStreamWriter NumPassphraseEntropyBytes)
  ⟨overwrite passphraseEntropy (bstream.bytes cipherBits),by
    rw [overwrite_length,List.length_replicate]⟩

end WordList

inductive EntropyError where
  | rand
  | mnemonic (err : MnemonicError)
  deriving DecidableEq, Repr

/-- `random` is what the system's source of randomness returns. -/
def newPassphraseEntropy {Stream : Type} (bstream : BStream Stream) (list : WordList) (random : Option Entropy) :
    Except EntropyError (Passphrase × Entropy) :=
  match random with
  | none => .error .rand
  | some passphraseEntropy =>
    match list.passphraseEntropyToMnemonic bstream passphraseEntropy with
    | .error err => .error (.mnemonic err)
    | .ok passphrase => .ok (passphrase,list.passphraseMnemonicToEntropy bstream passphrase)

def usedBits (entropy : Entropy) : List Bool := (unpack entropy.toList).take (NumPassphraseWords * BitsPerWord)

/-- The last two bits of the last byte cleared. -/
def clearUnused (entropy : Entropy) : Entropy :=
  ⟨entropy.toList.modify 13 (· &&& 0xFC),by rw [List.length_modify]; exact entropy.toList_length⟩

namespace WordList

variable {list : WordList} {n : Nat}

theorem reverseWordMap_getElem? {word : String} (known : word ∈ list.defaultWordList) :
    list.defaultWordList[list.reverseWordMap word]? = some word := by
  unfold reverseWordMap
  cases found : list.defaultWordList.idxOf? word with
  | none => exact absurd known (List.idxOf?_eq_none_iff.mp found)
  | some index =>
    obtain ⟨bound,same,_⟩ := List.idxOf?_eq_some_iff.mp found
    exact List.getElem?_eq_some_iff.mpr ⟨bound,same⟩

theorem reverseWordMap_eq {index : Nat} {word : String} (found : list.defaultWordList[index]? = some word) :
    list.reverseWordMap word = index := by
  have again := reverseWordMap_getElem? (List.mem_of_getElem? found)
  obtain ⟨bound,_⟩ := List.getElem?_eq_some_iff.mp again
  exact (List.getElem?_inj bound list.distinct).mp (again.trans found.symm)

theorem reverseWordMap_lt (word : String) : list.reverseWordMap word < 2 ^ BitsPerWord := by
  unfold reverseWordMap
  cases found : list.defaultWordList.idxOf? word with
  | none => exact Nat.two_pow_pos _
  | some index =>
    obtain ⟨bound,_⟩ := List.idxOf?_eq_some_iff.mp found
    exact list.length ▸ bound

/-- The bits that words stand for. -/
def wordBits (list : WordList) (words : List String) : List Bool :=
  words.flatMap fun word => toBits BitsPerWord (list.reverseWordMap word)

theorem wordBits_cons (word : String) (words : List String) :
    list.wordBits (word :: words) = toBits BitsPerWord (list.reverseWordMap word) ++ list.wordBits words := rfl

theorem wordBits_length (words : List String) : (list.wordBits words).length = words.length * BitsPerWord := by
  induction words with
  | nil => rfl
  | cons word words ih =>
    rw [wordBits_cons,List.length_append,toBits_length,ih,List.length_cons,Nat.succ_mul,Nat.add_comm]

section

variable {Stream : Type} {bstream : BStream Stream} {unread written : Stream → List Bool}

theorem written_writeWords (laws : bstream.MostSignificantFirst unread written) (words : List String) (cipherBits : Stream) :
    written (list.writeWords bstream words cipherBits) = written cipherBits ++ list.wordBits words := by
  induction words generalizing cipherBits with
  | nil => exact (List.append_nil _).symm
  | cons word words ih =>
    rw [writeWords,List.foldl_cons,← writeWords,ih,laws.writes _ _ _ (reverseWordMap_lt word),wordBits_cons,
      List.append_assoc]

/-- Words that were written are read back, whatever bits follow. -/
theorem readWords_wordBits (laws : bstream.MostSignificantFirst unread written) (words : List.Vector String n)
    (known : ∀ word ∈ words.toList, word ∈ list.defaultWordList) (rest : List Bool) (cipherBits : Stream)
    (holds : unread cipherBits = list.wordBits words.toList ++ rest) :
    list.readWords bstream n cipherBits = .ok words := by
  induction words using List.Vector.inductionOn generalizing cipherBits with
  | nil => rfl
  | @cons n word words ih =>
    rw [List.Vector.toList_cons] at known holds
    rw [List.forall_mem_cons] at known
    rw [wordBits_cons,List.append_assoc] at holds
    have width := toBits_length BitsPerWord (list.reverseWordMap word)
    have enough : BitsPerWord ≤ (unread cipherBits).length := by
      rw [holds,List.length_append,width]
      exact Nat.le_add_right _ _
    obtain ⟨later,read,left⟩ := laws.reads cipherBits BitsPerWord enough
    rw [holds,List.take_left' width,fromBits_toBits,Nat.mod_eq_of_lt (reverseWordMap_lt word)] at read
    rw [holds,List.drop_left' width] at left
    rw [readWords,read]
    simp only [reverseWordMap_getElem? known.1,ih known.2 later left]
    rfl

/-- Every field of the width of a word stands for a word of the list. -/
theorem exists_word (field : List Bool) (width : field.length = BitsPerWord) :
    ∃ word, list.defaultWordList[fromBits field]? = some word ∧ toBits BitsPerWord (list.reverseWordMap word) = field := by
  have bound : fromBits field < list.defaultWordList.length := by
    rw [list.length,← width]
    exact fromBits_lt field
  have looked : list.defaultWordList[fromBits field]? = some list.defaultWordList[fromBits field] :=
    List.getElem?_eq_getElem bound
  refine ⟨list.defaultWordList[fromBits field],looked,?_⟩
  rw [reverseWordMap_eq looked,← width]
  exact toBits_fromBits field

/-- Reading succeeds if there are enough bits, and the words stand for the bits that were read. -/
theorem readWords_ok (list : WordList) (laws : bstream.MostSignificantFirst unread written) (cipherBits : Stream)
    (enough : n * BitsPerWord ≤ (unread cipherBits).length) :
    ∃ words, list.readWords bstream n cipherBits = .ok words ∧ (∀ word ∈ words.toList, word ∈ list.defaultWordList) ∧
      list.wordBits words.toList = (unread cipherBits).take (n * BitsPerWord) := by
  induction n generalizing cipherBits with
  | zero =>
    refine ⟨.nil,rfl,?_,?_⟩
    · simp
    · rw [Nat.zero_mul,List.take_zero]
      rfl
  | succ n ih =>
    rw [Nat.succ_mul] at enough
    have width : ((unread cipherBits).take BitsPerWord).length = BitsPerWord := by
      rw [List.length_take]
      omega
    obtain ⟨later,read,left⟩ := laws.reads cipherBits BitsPerWord (by omega)
    obtain ⟨word,looked,bits⟩ := list.exists_word ((unread cipherBits).take BitsPerWord) width
    obtain ⟨words,rest,known,stand⟩ := ih later (by rw [left,List.length_drop]; omega)
    refine ⟨List.Vector.cons word words,?_,?_,?_⟩
    · rw [readWords,read]
      simp only [looked,rest]
      rfl
    · rw [List.Vector.toList_cons,List.forall_mem_cons]
      exact ⟨List.mem_of_getElem? looked,known⟩
    · rw [List.Vector.toList_cons,wordBits_cons,bits,stand,left,Nat.succ_mul,Nat.add_comm,List.take_add]

/-- The entropy that a phrase is turned into holds the bits of its words and zeros. -/
theorem unpack_passphraseMnemonicToEntropy (laws : bstream.MostSignificantFirst unread written) (passphrase : Passphrase) :
    unpack (list.passphraseMnemonicToEntropy bstream passphrase).toList =
      list.wordBits passphrase.toList ++ [false,false] := by
  have bits : (list.wordBits passphrase.toList).length = 110 := by
    rw [wordBits_length,passphrase.toList_length]
    rfl
  let cipherBits := list.writeWords bstream passphrase.toList (bstream.newBStreamWriter NumPassphraseEntropyBytes)
  have got : written cipherBits = list.wordBits passphrase.toList := by
    rw [written_writeWords laws,laws.writer,List.nil_append]
  obtain ⟨unused,few,bytes⟩ := laws.zeroFilled cipherBits
  rw [got] at bytes
  -- 110 bits and less than eight zeros are whole bytes, so two zeros make fourteen of them.
  have lengths := congrArg List.length bytes
  rw [unpack_length,List.length_append,bits,List.length_replicate] at lengths
  have two : unused = 2 := by omega
  have filled : (list.passphraseMnemonicToEntropy bstream passphrase).toList = bstream.bytes cipherBits := by
    apply overwrite_full
    rw [List.length_replicate]
    change (bstream.bytes cipherBits).length = 14
    omega
  rw [filled,bytes,two]
  rfl

end

/-- The last byte is the only one of which bits are not used. -/
theorem split_last (entropy : Entropy) : ∃ front last, entropy.toList = front ++ [last] ∧ front.length = 13 := by
  have length : (entropy.toList.drop 13).length = 1 := by
    rw [List.length_drop,entropy.toList_length]
    rfl
  obtain ⟨last,only⟩ := List.length_eq_one_iff.mp length
  refine ⟨entropy.toList.take 13,last,?_,?_⟩
  · rw [← only,List.take_append_drop]
  · rw [List.length_take,entropy.toList_length]
    rfl

theorem toBits_cleared (byte : UInt8) : toBits 8 (byte &&& 0xFC).toNat = (toBits 8 byte.toNat).take 6 ++ [false,false] := by
  have bytes : ∀ n : Fin 256, toBits 8 (n.val &&& 0xFC) = (toBits 8 n.val).take 6 ++ [false,false] := by
    decide +kernel
  have number : (byte &&& 0xFC).toNat = byte.toNat &&& 0xFC := UInt8.toNat_and byte 0xFC
  rw [number]
  exact bytes ⟨byte.toNat,byte.toNat_lt⟩

theorem unpack_clearUnused (entropy : Entropy) : unpack (clearUnused entropy).toList = usedBits entropy ++ [false,false] := by
  obtain ⟨front,last,split,length⟩ := split_last entropy
  have cleared : (clearUnused entropy).toList = front ++ [last &&& 0xFC] := by
    change entropy.toList.modify 13 (· &&& 0xFC) = _
    rw [split,← length,List.modify_eq_take_drop,List.take_left,List.drop_left]
    rfl
  have used : usedBits entropy = unpack front ++ (toBits 8 last.toNat).take 6 := by
    have bits : (unpack front).length = 104 := by rw [unpack_length,length]
    change (unpack entropy.toList).take 110 = _
    rw [split,unpack_append,List.take_append,bits,List.take_of_length_le (by omega),unpack_cons]
    rfl
  rw [cleared,used,unpack_append,List.append_assoc,← toBits_cleared]
  exact congrArg (unpack front ++ ·) (List.append_nil _)

theorem entropy_ext {entropy other : Entropy} (same : unpack entropy.toList = unpack other.toList) : entropy = other :=
  List.Vector.eq _ _ (unpack_injective same)

section

variable {Stream : Type} {bstream : BStream Stream} {unread written : Stream → List Bool}

/-- Every entropy has a phrase, of words of the list, that stands for its used bits. -/
theorem passphraseEntropyToMnemonic_ok (laws : bstream.MostSignificantFirst unread written) (list : WordList)
    (entropy : Entropy) :
    ∃ passphrase, list.passphraseEntropyToMnemonic bstream entropy = .ok passphrase ∧
      (∀ word ∈ passphrase.toList, word ∈ list.defaultWordList) ∧ list.wordBits passphrase.toList = usedBits entropy := by
  have read := readWords_ok (n := NumPassphraseWords) list laws (bstream.newBStreamReader entropy.toList)
  rw [laws.reader,unpack_length,entropy.toList_length] at read
  exact read (by decide)

theorem passphraseMnemonicToEntropy_clears (laws : bstream.MostSignificantFirst unread written) {entropy : Entropy}
    {passphrase : Passphrase} (stand : list.wordBits passphrase.toList = usedBits entropy) :
    list.passphraseMnemonicToEntropy bstream passphrase = clearUnused entropy := by
  apply entropy_ext
  rw [unpack_passphraseMnemonicToEntropy laws,unpack_clearUnused,stand]

theorem passphraseEntropyToMnemonic_restores (laws : bstream.MostSignificantFirst unread written) (passphrase : Passphrase)
    (known : ∀ word ∈ passphrase.toList, word ∈ list.defaultWordList) :
    list.passphraseEntropyToMnemonic bstream (list.passphraseMnemonicToEntropy bstream passphrase) = .ok passphrase := by
  apply readWords_wordBits laws passphrase known [false,false]
  rw [laws.reader,unpack_passphraseMnemonicToEntropy laws]

theorem passphraseEntropyToMnemonic_inj (laws : bstream.MostSignificantFirst unread written) (list : WordList)
    (entropy other : Entropy) :
    list.passphraseEntropyToMnemonic bstream entropy = list.passphraseEntropyToMnemonic bstream other ↔
      usedBits entropy = usedBits other := by
  obtain ⟨passphrase,mnemonic,known,stand⟩ := passphraseEntropyToMnemonic_ok laws list entropy
  obtain ⟨passphrase',mnemonic',known',stand'⟩ := passphraseEntropyToMnemonic_ok laws list other
  rw [mnemonic,mnemonic']
  constructor
  · intro same
    rw [← stand,← stand',Except.ok.inj same]
  · intro same
    rw [← passphraseEntropyToMnemonic_restores laws passphrase known,
      ← passphraseEntropyToMnemonic_restores laws passphrase' known']
    congr 1
    apply entropy_ext
    rw [unpack_passphraseMnemonicToEntropy laws,unpack_passphraseMnemonicToEntropy laws,stand,stand',same]

/-- Phrases of words of the list stand for the used bits of the entropy, one for one, and the pair
that is generated goes together in both directions. -/
theorem passphrase_bijection (laws : bstream.MostSignificantFirst unread written) (list : WordList) :
    (∀ entropy, ∃ passphrase, list.passphraseEntropyToMnemonic bstream entropy = .ok passphrase ∧
      (∀ word ∈ passphrase.toList, word ∈ list.defaultWordList) ∧
      list.passphraseMnemonicToEntropy bstream passphrase = clearUnused entropy) ∧
    (∀ passphrase : Passphrase, (∀ word ∈ passphrase.toList, word ∈ list.defaultWordList) →
      list.passphraseEntropyToMnemonic bstream (list.passphraseMnemonicToEntropy bstream passphrase) = .ok passphrase) ∧
    (∀ entropy other,
      list.passphraseEntropyToMnemonic bstream entropy = list.passphraseEntropyToMnemonic bstream other ↔
        usedBits entropy = usedBits other) ∧
    ∀ random, ∃ passphrase entropy, newPassphraseEntropy bstream list (some random) = .ok (passphrase,entropy) ∧
      list.passphraseEntropyToMnemonic bstream entropy = .ok passphrase ∧
      list.passphraseMnemonicToEntropy bstream passphrase = entropy := by
  refine ⟨?_,passphraseEntropyToMnemonic_restores laws,passphraseEntropyToMnemonic_inj laws list,?_⟩
  · intro entropy
    obtain ⟨passphrase,mnemonic,known,stand⟩ := passphraseEntropyToMnemonic_ok laws list entropy
    exact ⟨passphrase,mnemonic,known,passphraseMnemonicToEntropy_clears laws stand⟩
  · intro random
    obtain ⟨passphrase,mnemonic,known,_⟩ := passphraseEntropyToMnemonic_ok laws list random
    refine ⟨passphrase,list.passphraseMnemonicToEntropy bstream passphrase,?_,?_,rfl⟩
    · simp only [newPassphraseEntropy,mnemonic]
    · exact passphraseEntropyToMnemonic_restores laws passphrase known

end

/-- A list of words that are told apart by their lengths. -/
def lengths : WordList where
  defaultWordList := (List.range (2 ^ BitsPerWord)).map fun n => String.ofList (List.replicate n 'a')
  length := by rw [List.length_map,List.length_range]
  distinct := by
    apply List.nodup_range.map
    intro n other same
    have sizes := congrArg String.length same
    simpa using sizes

/-- The phrase of ten times the second word, with a stream that keeps its bits in a list. -/
theorem passphrase_bijection_lengths :
    let passphrase : Passphrase := List.Vector.replicate NumPassphraseWords "a"
    listStream.MostSignificantFirst id id ∧
      lengths.passphraseEntropyToMnemonic listStream (lengths.passphraseMnemonicToEntropy listStream passphrase) =
        .ok passphrase := by
  intro passphrase
  refine ⟨listStream_mostSignificantFirst,?_⟩
  apply (passphrase_bijection listStream_mostSignificantFirst lengths).2.1
  intro word member
  have same : word = "a" := List.eq_of_mem_replicate member
  subst same
  apply List.mem_map.mpr
  exact ⟨1,by simp [BitsPerWord],rfl⟩

end WordList

end NodeConnect.Mailbox
