import Mathlib.Data.UInt
import NodeConnect.Lib.ByteStream

/-! The cipher and symmetric states of the Noise layer. Curve, hash, key derivation
and AEAD are parameters. Every call of the hash and of the AEAD, and every key that is
installed, is kept in `calls`; no step reads that history. -/
namespace NodeConnect.Noise
open Lib

def Block := {bytes : Bytes // bytes.length = 32}

instance : DecidableEq Block := inferInstanceAs (DecidableEq {bytes : Bytes // bytes.length = 32})

def Block.zero : Block := ⟨List.replicate 32 0,List.length_replicate⟩

def macSize : Nat := 16
def keyRotationInterval : Nat := 1000

/-- What the layer calls from other libraries. `hkdf secret salt` is the first two
blocks of the key stream, with no info. `modNScalar` reads a scalar from bytes. -/
structure Suite (Point Key : Type) where
  pubKey : Key → Point
  serializeCompressed : Point → Bytes
  parsePubKey : Bytes → Option Point
  ecdh : Point → Key → Option Block
  N : Point
  modNScalar : Bytes → Nat
  scrypt : Bytes → Option Bytes
  sha256 : Bytes → Block
  sha512 : Bytes → Bytes
  hmac256 : Bytes → Bytes → Bytes
  hkdf : Bytes → Block → Block × Block
  aeadSeal : Block → Nat → Bytes → Bytes → Bytes
  aeadOpen : Block → Nat → Bytes → Bytes → Option Bytes

/-- The documented behaviour of the curve library. Public keys are parsed from their
serialization; the identity is no public key, and nothing says that it can be parsed. -/
structure Suite.CurveLawful {Point Key : Type} (suite : Suite Point Key) : Prop where
  parse_serialize : ∀ key, suite.parsePubKey (suite.serializeCompressed (suite.pubKey key)) = some (suite.pubKey key)
  parse_unique : ∀ point parsed, suite.parsePubKey (suite.serializeCompressed point) = some parsed → parsed = point
  serialize_injective : Function.Injective suite.serializeCompressed
  serialize_length : ∀ point, (suite.serializeCompressed point).length = 33
  ecdh_comm : ∀ a b, ∃ secret, suite.ecdh (suite.pubKey a) b = some secret ∧
    suite.ecdh (suite.pubKey b) a = some secret

structure Suite.AeadLawful {Point Key : Type} (suite : Suite Point Key) : Prop where
  open_seal : ∀ key nonce ad plaintext,
    suite.aeadOpen key nonce ad (suite.aeadSeal key nonce ad plaintext) = some plaintext
  seal_length : ∀ key nonce ad plaintext, (suite.aeadSeal key nonce ad plaintext).length = plaintext.length + macSize

structure Suite.Lawful {Point Key : Type} (suite : Suite Point Key) : Prop extends suite.CurveLawful, suite.AeadLawful

section Plain

def checksum (pad : Nat) (bytes : Bytes) : Bytes :=
  bigEndian 8 (bytes.foldl (fun sum byte => (sum * 257 + byte.toNat + 1) % 2 ^ 64) 1) ++ List.replicate pad 0

theorem checksum_length (pad : Nat) (bytes : Bytes) : (checksum pad bytes).length = 8 + pad := by
  rw [checksum,List.length_append,bigEndian_length,List.length_replicate]

def checksumBlock (bytes : Bytes) : Block := ⟨checksum 24 bytes,checksum_length _ _⟩

def plainSeal (key : Block) (nonce : Nat) (ad plaintext : Bytes) : Bytes :=
  plaintext ++ checksum 8 (key.val ++ bigEndian 8 nonce ++ ad ++ plaintext)

def plainPubKey (key : UInt8) : UInt8 := if key = 0 then 1 else key

/-- A suite without secrecy over the group of bytes: it has the documented behaviour,
and it can be evaluated. The identity is not parsed. -/
def plainSuite : Suite UInt8 UInt8 where
  pubKey := plainPubKey
  serializeCompressed point := List.replicate 32 0 ++ [point]
  parsePubKey bytes := if bytes.length = 33 ∧ bytes.getLast? ≠ some 0 then bytes.getLast? else none
  ecdh point key := some (checksumBlock [point * plainPubKey key])
  N := 1
  modNScalar bytes := fromBigEndian bytes % 256
  scrypt := some
  sha256 := checksumBlock
  sha512 := checksum 56
  hmac256 key message := checksum 24 (key ++ message)
  hkdf secret salt := (checksumBlock (0 :: salt.val ++ secret),checksumBlock (1 :: salt.val ++ secret))
  aeadSeal := plainSeal
  aeadOpen key nonce ad ciphertext :=
    let plaintext := ciphertext.take (ciphertext.length - macSize)
    if ciphertext = plainSeal key nonce ad plaintext then some plaintext else none

theorem plainSeal_length (key : Block) (nonce : Nat) (ad plaintext : Bytes) :
    (plainSeal key nonce ad plaintext).length = plaintext.length + macSize := by
  rw [plainSeal,List.length_append,checksum_length]
  rfl

theorem plainPubKey_ne_zero (key : UInt8) : plainPubKey key ≠ 0 := by
  unfold plainPubKey
  split_ifs with zero
  · decide
  · exact zero

theorem plainSuite_lawful : plainSuite.Lawful where
  parse_serialize key := by simp [plainSuite,plainPubKey_ne_zero key]
  parse_unique point parsed := by
    simp only [plainSuite,List.getLast?_append,List.getLast?_singleton]
    split_ifs
    · rintro ⟨⟩
      rfl
    · rintro ⟨⟩
  serialize_injective point other same := List.singleton_inj.mp (List.append_cancel_left same)
  serialize_length point := by simp [plainSuite]
  ecdh_comm a b :=
    ⟨checksumBlock [plainPubKey a * plainPubKey b],rfl,by simp only [plainSuite,UInt8.mul_comm]⟩
  open_seal key nonce ad plaintext := by
    have whole : (plainSeal key nonce ad plaintext).take ((plainSeal key nonce ad plaintext).length - macSize) =
        plaintext := by
      rw [plainSeal_length,Nat.add_sub_cancel,plainSeal,List.take_left]
    simp only [plainSuite,whole,if_true]
  seal_length := plainSeal_length

end Plain

inductive Call where
  | hash (input : Bytes)
  | install (key : Block)
  | sealed (key : Block) (nonce : Nat) (ad plaintext : Bytes)
  /-- Only calls that succeed. -/
  | opened (key : Block) (nonce : Nat) (ad ciphertext plaintext : Bytes)
  deriving DecidableEq

/-- The AEAD instance of the source is the one for `secretKey`. The nonce is reset
long before its 64 bits overflow. -/
structure CipherState where
  nonce : Nat := 0
  secretKey : Block := .zero
  salt : Block := .zero
  calls : List Call := []
  deriving DecidableEq

section

variable {Point Key : Type} (suite : Suite Point Key)

namespace CipherState

def log (c : CipherState) (call : Call) : CipherState := {c with calls := c.calls ++ [call]}

def initializeKey (c : CipherState) (key : Block) : CipherState :=
  {c.log (.install key) with secretKey := key, nonce := 0}

def initializeKeyWithSalt (c : CipherState) (salt key : Block) : CipherState :=
  {c with salt := salt}.initializeKey key

def rotateKey (c : CipherState) : CipherState :=
  let (salt,nextKey) := suite.hkdf c.secretKey.val c.salt
  {c with salt := salt}.initializeKey nextKey

/-- The deferred part of `Encrypt` and `Decrypt`. -/
def bumpNonce (c : CipherState) : CipherState :=
  let c := {c with nonce := c.nonce + 1}
  if c.nonce = keyRotationInterval then c.rotateKey suite else c

def encrypt (c : CipherState) (ad plaintext : Bytes) : Bytes × CipherState :=
  (suite.aeadSeal c.secretKey c.nonce ad plaintext,
    (c.log (.sealed c.secretKey c.nonce ad plaintext)).bumpNonce suite)

def decrypt (c : CipherState) (ad ciphertext : Bytes) : Option Bytes × CipherState :=
  match suite.aeadOpen c.secretKey c.nonce ad ciphertext with
  | some plaintext =>
    (some plaintext,(c.log (.opened c.secretKey c.nonce ad ciphertext plaintext)).bumpNonce suite)
  | none => (none,c.bumpNonce suite)

end CipherState

structure CipherState.InStep (a b : CipherState) : Prop where
  nonce : b.nonce = a.nonce
  secretKey : b.secretKey = a.secretKey
  salt : b.salt = a.salt

namespace CipherState.InStep

variable {suite} {a b : CipherState}

theorem log (inStep : a.InStep b) (call call' : Call) : (a.log call).InStep (b.log call') :=
  ⟨inStep.nonce,inStep.secretKey,inStep.salt⟩

theorem bumpNonce (inStep : a.InStep b) : (a.bumpNonce suite).InStep (b.bumpNonce suite) := by
  dsimp only [CipherState.bumpNonce]
  rw [inStep.nonce]
  split_ifs with last
  · simp only [CipherState.rotateKey,inStep.secretKey,inStep.salt]
    exact ⟨rfl,rfl,rfl⟩
  · exact ⟨rfl,inStep.secretKey,inStep.salt⟩

theorem decrypt (lawful : suite.AeadLawful) (inStep : a.InStep b) (ad plaintext : Bytes) :
    b.decrypt suite ad (a.encrypt suite ad plaintext).1 =
      (some plaintext,(b.log (.opened b.secretKey b.nonce ad (a.encrypt suite ad plaintext).1 plaintext)).bumpNonce suite) := by
  have opened : suite.aeadOpen b.secretKey b.nonce ad (a.encrypt suite ad plaintext).1 = some plaintext := by
    rw [inStep.secretKey,inStep.nonce]
    exact lawful.open_seal _ _ _ _
  rw [CipherState.decrypt,opened]

theorem encrypt (lawful : suite.AeadLawful) (inStep : a.InStep b) (ad plaintext : Bytes) :
    ∃ b', b.decrypt suite ad (a.encrypt suite ad plaintext).1 = (some plaintext,b') ∧
      (a.encrypt suite ad plaintext).2.InStep b' :=
  ⟨_,inStep.decrypt lawful ad plaintext,(inStep.log _ _).bumpNonce⟩

end CipherState.InStep

structure SymmetricState extends CipherState where
  chainingKey : Block := .zero
  tempKey : Block := .zero
  handshakeDigest : Block := .zero
  deriving DecidableEq

namespace SymmetricState

def mixKey (s : SymmetricState) (input : Bytes) : SymmetricState :=
  let (chainingKey,tempKey) := suite.hkdf input s.chainingKey
  let cipher := s.toCipherState.initializeKey tempKey
  {s with toCipherState := cipher, chainingKey := chainingKey, tempKey := tempKey}

def mixHash (s : SymmetricState) (data : Bytes) : SymmetricState :=
  let input := s.handshakeDigest.val ++ data
  {s with toCipherState := s.toCipherState.log (.hash input), handshakeDigest := suite.sha256 input}

def encryptAndHash (s : SymmetricState) (plaintext : Bytes) : Bytes × SymmetricState :=
  let (ciphertext,cipher) := s.toCipherState.encrypt suite s.handshakeDigest.val plaintext
  (ciphertext,mixHash suite {s with toCipherState := cipher} ciphertext)

def decryptAndHash (s : SymmetricState) (ciphertext : Bytes) : Option Bytes × SymmetricState :=
  match s.toCipherState.decrypt suite s.handshakeDigest.val ciphertext with
  | (some plaintext,cipher) => (some plaintext,mixHash suite {s with toCipherState := cipher} ciphertext)
  | (none,cipher) => (none,{s with toCipherState := cipher})

def initializeSymmetric (s : SymmetricState) (protocolName : Bytes) : SymmetricState :=
  let digest := suite.sha256 protocolName
  let cipher := (s.toCipherState.log (.hash protocolName)).initializeKey .zero
  {s with toCipherState := cipher, handshakeDigest := digest, chainingKey := digest}

end SymmetricState

end

end NodeConnect.Noise
