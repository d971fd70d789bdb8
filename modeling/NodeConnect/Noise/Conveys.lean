import NodeConnect.Noise.Machine

/-! One act between two honest parties. The writer's and the reader's symmetric states
stay paired: they differ only in who sealed and who opened. `Conveys` says that a
writer's computation and a reader's fit together on the bytes the writer produces. -/
namespace NodeConnect.Noise
open Lib

variable {Point Key : Type} {suite : Suite Point Key}

def Call.mirror (suite : Suite Point Key) : Call → Call
  | .sealed key nonce ad plaintext => .opened key nonce ad (suite.aeadSeal key nonce ad plaintext) plaintext
  | .opened key nonce ad _ plaintext => .sealed key nonce ad plaintext
  | call => call

structure CipherState.Paired (suite : Suite Point Key) (a b : CipherState) : Prop extends CipherState.InStep a b where
  calls : b.calls = a.calls.map (Call.mirror suite)
  callsBack : a.calls = b.calls.map (Call.mirror suite)

namespace CipherState.Paired

variable {a b : CipherState}

theorem symm (paired : a.Paired suite b) : b.Paired suite a :=
  ⟨⟨paired.nonce.symm,paired.secretKey.symm,paired.salt.symm⟩,paired.callsBack,paired.calls⟩

theorem log (paired : a.Paired suite b) (call : Call) (back : (call.mirror suite).mirror suite = call) :
    (a.log call).Paired suite (b.log (call.mirror suite)) := by
  refine ⟨⟨paired.nonce,paired.secretKey,paired.salt⟩,?_,?_⟩
  · simp [CipherState.log,paired.calls]
  · simp [CipherState.log,← paired.callsBack,back]

theorem initializeKey (paired : a.Paired suite b) (key : Block) :
    (a.initializeKey key).Paired suite (b.initializeKey key) := by
  obtain ⟨⟨_,_,salt⟩,calls,back⟩ := paired.log (.install key) rfl
  exact ⟨⟨rfl,rfl,salt⟩,calls,back⟩

theorem bumpNonce (paired : a.Paired suite b) : (a.bumpNonce suite).Paired suite (b.bumpNonce suite) := by
  refine ⟨paired.toInStep.bumpNonce,?_,?_⟩ <;> dsimp only [CipherState.bumpNonce] <;> rw [paired.nonce] <;>
    split_ifs with last
  · simp only [CipherState.rotateKey,paired.secretKey,paired.salt]
    exact (paired.log (.install _) rfl).calls
  · exact paired.calls
  · simp only [CipherState.rotateKey,paired.secretKey,paired.salt]
    exact (paired.log (.install _) rfl).callsBack
  · exact paired.callsBack

theorem encrypt (lawful : suite.AeadLawful) (paired : a.Paired suite b) (ad plaintext : Bytes) :
    ∃ b', b.decrypt suite ad (a.encrypt suite ad plaintext).1 = (some plaintext,b') ∧
      (a.encrypt suite ad plaintext).2.Paired suite b' := by
  refine ⟨_,paired.toInStep.decrypt lawful ad plaintext,?_⟩
  have logged := (paired.log (.sealed a.secretKey a.nonce ad plaintext) rfl).bumpNonce
  rw [paired.secretKey,paired.nonce]
  exact logged

end CipherState.Paired

structure Paired (suite : Suite Point Key) (a b : SymmetricState) : Prop where
  cipher : a.toCipherState.Paired suite b.toCipherState
  chainingKey : b.chainingKey = a.chainingKey
  digest : b.handshakeDigest = a.handshakeDigest

namespace Paired

variable {a b : SymmetricState}

theorem symm (paired : Paired suite a b) : Paired suite b a :=
  ⟨paired.cipher.symm,paired.chainingKey.symm,paired.digest.symm⟩

theorem mixHash (paired : Paired suite a b) (data : Bytes) :
    Paired suite (a.mixHash suite data) (b.mixHash suite data) := by
  unfold SymmetricState.mixHash
  rw [paired.digest]
  exact ⟨paired.cipher.log (.hash _) rfl,paired.chainingKey,rfl⟩

theorem mixKey (paired : Paired suite a b) (input : Bytes) :
    Paired suite (a.mixKey suite input) (b.mixKey suite input) := by
  unfold SymmetricState.mixKey
  rw [paired.chainingKey]
  exact ⟨paired.cipher.initializeKey _,rfl,paired.digest⟩

theorem encryptAndHash (lawful : suite.AeadLawful) (paired : Paired suite a b) (plaintext : Bytes) :
    ∃ b', b.decryptAndHash suite (a.encryptAndHash suite plaintext).1 = (some plaintext,b') ∧
      Paired suite (a.encryptAndHash suite plaintext).2 b' := by
  obtain ⟨cipher,decrypted,kept⟩ := paired.cipher.encrypt lawful a.handshakeDigest.val plaintext
  have moved : Paired suite {a with toCipherState := (a.toCipherState.encrypt suite a.handshakeDigest.val plaintext).2}
    {b with toCipherState := cipher} := ⟨kept,paired.chainingKey,paired.digest⟩
  have same : b.toCipherState.decrypt suite b.handshakeDigest.val (a.encryptAndHash suite plaintext).1 =
      (some plaintext,cipher) := by
    rw [paired.digest]
    exact decrypted
  let ciphertext := (a.encryptAndHash suite plaintext).1
  refine ⟨SymmetricState.mixHash suite {b with toCipherState := cipher} ciphertext,?_,moved.mixHash ciphertext⟩
  rw [SymmetricState.decryptAndHash,same]

end Paired

def Conveys {α : Type} (write : Handshake Point Key Bytes) (read : Handshake Point Key α)
    (w r w' r' : HandshakeState Point Key) (bytes : Bytes) (value : α) : Prop :=
  (∀ link, write ⟨w,link⟩ = .ok bytes ⟨w',link⟩) ∧
  ∀ rest accepts written, read ⟨r,⟨⟨bytes ++ rest,[]⟩,accepts,written⟩⟩ =
    .ok value ⟨r',⟨⟨rest,[]⟩,accepts,written⟩⟩

theorem Conveys.append {α β : Type} {firstWrite secondWrite : Handshake Point Key Bytes}
    {firstRead : Handshake Point Key α} {secondRead : α → Handshake Point Key β}
    {w r w' r' w'' r'' : HandshakeState Point Key} {first second : Bytes} {value : α} {result : β}
    (begun : Conveys firstWrite firstRead w r w' r' first value)
    (continued : Conveys secondWrite (secondRead value) w' r' w'' r'' second result) :
    Conveys (do let bytes ← firstWrite; let rest ← secondWrite; return bytes ++ rest)
      (firstRead >>= secondRead) w r w'' r'' (first ++ second) result := by
  constructor
  · intro link
    rw [Fallible.bind_ok _ _ _ _ _ (begun.1 link),Fallible.bind_ok _ _ _ _ _ (continued.1 link)]
    rfl
  · intro rest accepts written
    rw [List.append_assoc,Fallible.bind_ok _ _ _ _ _ (begun.2 _ _ _)]
    exact continued.2 rest accepts written

theorem Conveys.congr {α : Type} {write write' : Handshake Point Key Bytes} {read read' : Handshake Point Key α}
    {w r w' r' : HandshakeState Point Key} {bytes : Bytes} {value : α}
    (conveyed : Conveys write read w r w' r' bytes value) (sameWrite : ∀ link, write' ⟨w,link⟩ = write ⟨w,link⟩)
    (sameRead : ∀ link, read' ⟨r,link⟩ = read ⟨r,link⟩) : Conveys write' read' w r w' r' bytes value := by
  refine ⟨fun link => (sameWrite link).trans (conveyed.1 link),?_⟩
  intro rest accepts written
  rw [sameRead]
  exact conveyed.2 rest accepts written

section Tokens

open Handshake

variable {w r : HandshakeState Point Key}

theorem readBytes_append (bytes rest : Bytes) (k : Nat) (length : bytes.length = k) (accepts : List Bool)
    (written : List Bytes) :
    readBytes k (⟨r,⟨⟨bytes ++ rest,[]⟩,accepts,written⟩⟩ : Party Point Key) =
      .ok bytes ⟨r,⟨⟨rest,[]⟩,accepts,written⟩⟩ := by
  simp [readBytes,Reader.read_append bytes rest k length]

theorem conveys_encrypted (lawful : suite.AeadLawful) (paired : Paired suite w.toSymmetricState r.toSymmetricState)
    (plaintext : Bytes) (k : Nat) (length : plaintext.length + macSize = k) :
    ∃ s s' bytes, Paired suite s s' ∧ Conveys (encryptAndHash suite plaintext)
      (do let ciphertext ← readBytes k; decryptAndHash suite ciphertext) w r
      {w with toSymmetricState := s} {r with toSymmetricState := s'} bytes plaintext := by
  obtain ⟨s',decrypted,kept⟩ := paired.encryptAndHash lawful plaintext
  refine ⟨_,s',(w.toSymmetricState.encryptAndHash suite plaintext).1,kept,fun link => rfl,?_⟩
  intro rest accepts written
  have size : (w.toSymmetricState.encryptAndHash suite plaintext).1.length = k := by
    rw [← length]
    exact lawful.seal_length _ _ _ _
  rw [Fallible.bind_ok _ _ _ _ _ (readBytes_append _ rest k size accepts written)]
  simp only [decryptAndHash,decrypted]

theorem mixECDH_ok {remote : Party Point Key → Option Point} {own : Party Point Key → Option Key} {p : Party Point Key}
    {pub : Point} {key : Key} {secret : Block} (ownKey : own p = some key) (remoteKey : remote p = some pub)
    (agreed : suite.ecdh pub key = some secret) : mixECDH suite remote own p =
      .ok () {p with toSymmetricState := p.toSymmetricState.mixKey suite secret.val} := by
  rw [mixECDH,Fallible.get_bind,ownKey,remoteKey]
  refine Fallible.bind_ok _ _ _ p secret ?_
  simp only [ecdh,agreed]
  rfl

theorem conveys_ecdh (lawful : suite.CurveLawful) (paired : Paired suite w.toSymmetricState r.toSymmetricState)
    (remote remote' : Party Point Key → Option Point) (own own' : Party Point Key → Option Key) (a b : Key)
    (ownKey : ∀ link, own ⟨w,link⟩ = some a) (remoteKey : ∀ link, remote ⟨w,link⟩ = some (suite.pubKey b))
    (ownKey' : ∀ link, own' ⟨r,link⟩ = some b) (remoteKey' : ∀ link, remote' ⟨r,link⟩ = some (suite.pubKey a)) :
    ∃ s s', Paired suite s s' ∧ Conveys (do mixECDH suite remote own; return []) (mixECDH suite remote' own') w r
      {w with toSymmetricState := s} {r with toSymmetricState := s'} [] () := by
  obtain ⟨secret,first,second⟩ := lawful.ecdh_comm a b
  refine ⟨_,_,paired.mixKey secret.val,?_,?_⟩
  · intro link
    rw [Fallible.bind_ok _ _ _ _ _ (mixECDH_ok (ownKey link) (remoteKey link) second)]
    rfl
  · intro rest accepts written
    exact mixECDH_ok (ownKey' _) (remoteKey' _) first

theorem conveys_ee [AddCommGroup Point] (lawful : suite.CurveLawful)
    (paired : Paired suite w.toSymmetricState r.toSymmetricState) (a b : Key)
    (ownKey : w.localEphemeral = some a) (remoteKey : w.remoteEphemeral = some (suite.pubKey b))
    (ownKey' : r.localEphemeral = some b) (remoteKey' : r.remoteEphemeral = some (suite.pubKey a)) :
    ∃ s s', Paired suite s s' ∧ Conveys (writeToken suite .ee) (readToken suite .ee) w r
      {w with toSymmetricState := s} {r with toSymmetricState := s'} [] () :=
  conveys_ecdh lawful paired _ _ _ _ a b (fun _ => ownKey) (fun _ => remoteKey) (fun _ => ownKey') (fun _ => remoteKey')

theorem conveys_ss [AddCommGroup Point] (lawful : suite.CurveLawful)
    (paired : Paired suite w.toSymmetricState r.toSymmetricState)
    (remoteKey : w.remoteStatic = some (suite.pubKey r.localStatic))
    (remoteKey' : r.remoteStatic = some (suite.pubKey w.localStatic)) :
    ∃ s s', Paired suite s s' ∧ Conveys (writeToken suite .ss) (readToken suite .ss) w r
      {w with toSymmetricState := s} {r with toSymmetricState := s'} [] () :=
  conveys_ecdh lawful paired _ _ _ _ _ _ (fun _ => rfl) (fun _ => remoteKey) (fun _ => rfl) (fun _ => remoteKey')

/-- `es` mixes the initiator's ephemeral with the responder's static key, and `se` the
responder's ephemeral with the initiator's static key. Here the writer uses its ephemeral. -/
theorem conveys_ownEphemeral [AddCommGroup Point] (lawful : suite.CurveLawful)
    (paired : Paired suite w.toSymmetricState r.toSymmetricState) (roles : r.initiator = !w.initiator) (e : Key)
    (ephemeral : w.localEphemeral = some e) (static : w.remoteStatic = some (suite.pubKey r.localStatic))
    (remote : r.remoteEphemeral = some (suite.pubKey e)) (token : Token)
    (which : token = if w.initiator then .es else .se) :
    ∃ s s', Paired suite s s' ∧ Conveys (writeToken suite token) (readToken suite token) w r
      {w with toSymmetricState := s} {r with toSymmetricState := s'} [] () := by
  obtain ⟨s,s',kept,conveyed⟩ := conveys_ecdh lawful paired (·.remoteStatic) (·.remoteEphemeral) (·.localEphemeral)
    (some ·.localStatic) e r.localStatic (fun _ => ephemeral) (fun _ => static) (fun _ => rfl) (fun _ => remote)
  refine ⟨s,s',kept,conveyed.congr ?_ ?_⟩
  · intro link
    cases role : w.initiator <;> simp [which,writeToken,mixES,mixSE,Fallible.get_bind,role]
  · intro link
    cases role : w.initiator <;> simp [which,readToken,mixES,mixSE,Fallible.get_bind,roles,role]

/-- The same with the reader's ephemeral key. -/
theorem conveys_peerEphemeral [AddCommGroup Point] (lawful : suite.CurveLawful)
    (paired : Paired suite w.toSymmetricState r.toSymmetricState) (roles : r.initiator = !w.initiator) (e : Key)
    (ephemeral : r.localEphemeral = some e) (static : r.remoteStatic = some (suite.pubKey w.localStatic))
    (remote : w.remoteEphemeral = some (suite.pubKey e)) (token : Token)
    (which : token = if w.initiator then .se else .es) :
    ∃ s s', Paired suite s s' ∧ Conveys (writeToken suite token) (readToken suite token) w r
      {w with toSymmetricState := s} {r with toSymmetricState := s'} [] () := by
  obtain ⟨s,s',kept,conveyed⟩ := conveys_ecdh lawful paired (·.remoteEphemeral) (·.remoteStatic) (some ·.localStatic)
    (·.localEphemeral) w.localStatic e (fun _ => rfl) (fun _ => remote) (fun _ => ephemeral) (fun _ => static)
  refine ⟨s,s',kept,conveyed.congr ?_ ?_⟩
  · intro link
    cases role : w.initiator <;> simp [which,writeToken,mixES,mixSE,Fallible.get_bind,role]
  · intro link
    cases role : w.initiator <;> simp [which,readToken,mixES,mixSE,Fallible.get_bind,roles,role]

theorem parsePubKey_parsed {bytes : Bytes} {point : Point} (parsed : suite.parsePubKey bytes = some point)
    (p : Party Point Key) : parsePubKey suite bytes p = .ok point p := by
  simp only [parsePubKey,parsed]
  rfl

theorem parsePubKey_ok {bytes : Bytes} {point : Point} {p q : Party Point Key}
    (parsed : parsePubKey suite bytes p = .ok point q) : suite.parsePubKey bytes = some point ∧ q = p := by
  cases known : suite.parsePubKey bytes with
  | none =>
    simp only [parsePubKey,known] at parsed
    cases parsed
  | some found =>
    simp only [parsePubKey,known] at parsed
    cases parsed
    exact ⟨rfl,rfl⟩

theorem newEphemeral_ok (key : Key) (later : List (Option Key)) (available : w.ephemeralGen = some key :: later)
    (link : Link) : newEphemeral (⟨w,link⟩ : Party Point Key) =
      .ok key ⟨{w with localEphemeral := some key, ephemeralGen := later},link⟩ := by
  simp [newEphemeral,available]

theorem conveys_s [AddCommGroup Point] (lawful : suite.Lawful)
    (paired : Paired suite w.toSymmetricState r.toSymmetricState) :
    ∃ s s' bytes, Paired suite s s' ∧ Conveys (writeToken suite .s) (readToken suite .s) w r
      {w with toSymmetricState := s}
      {r with toSymmetricState := s', remoteStatic := some (suite.pubKey w.localStatic)} bytes () := by
  obtain ⟨s,s',bytes,kept,wrote,took⟩ := conveys_encrypted lawful.toAeadLawful paired
    (suite.serializeCompressed (suite.pubKey w.localStatic)) (33 + macSize) (by rw [lawful.serialize_length])
  refine ⟨s,s',bytes,kept,wrote,?_⟩
  intro rest accepts written
  have decrypted := took rest accepts written
  obtain ⟨ciphertext,middle,received,opened⟩ := (Fallible.bind_eq_ok _ _ _ _ _).mp decrypted
  rw [readToken,Fallible.bind_ok _ _ _ _ _ received,Fallible.bind_ok _ _ _ _ _ opened,Fallible.modify_bind,
    lawful.parse_serialize,Fallible.bind_ok _ _ _ _ _ (parsePubKey_parsed (lawful.parse_serialize _) _)]
  rfl

theorem conveys_e [AddCommGroup Point] (lawful : suite.CurveLawful)
    (paired : Paired suite w.toSymmetricState r.toSymmetricState) (key : Key) (later : List (Option Key))
    (available : w.ephemeralGen = some key :: later) :
    ∃ s s' bytes, Paired suite s s' ∧ Conveys (writeToken suite .e) (readToken suite .e) w r
      {w with toSymmetricState := s, localEphemeral := some key, ephemeralGen := later}
      {r with toSymmetricState := s', remoteEphemeral := some (suite.pubKey key)} bytes () := by
  let pubKeyBytes := suite.serializeCompressed (suite.pubKey key)
  refine ⟨_,_,pubKeyBytes,paired.mixHash pubKeyBytes,?_,?_⟩
  · intro link
    rw [writeToken,Fallible.bind_ok _ _ _ _ _ (newEphemeral_ok key later available link)]
    rfl
  · intro rest accepts written
    rw [readToken,Fallible.bind_ok _ _ _ _ _ (readBytes_append _ rest 33 (lawful.serialize_length _) accepts written),
      Fallible.modify_bind,lawful.parse_serialize,
      Fallible.bind_ok _ _ _ _ _ (parsePubKey_parsed (lawful.parse_serialize _) _)]
    rfl

/-- The masked ephemeral key can be parsed. So can every point but the identity. -/
def Maskable [AddCommGroup Point] (suite : Suite Point Key) (e : Key) (passphraseEntropy : Bytes) : Prop :=
  suite.parsePubKey (suite.serializeCompressed (ekeMask suite (suite.pubKey e) passphraseEntropy)) =
    some (ekeMask suite (suite.pubKey e) passphraseEntropy)

instance [AddCommGroup Point] [DecidableEq Point] (suite : Suite Point Key) (e : Key) (passphraseEntropy : Bytes) :
    Decidable (Maskable suite e passphraseEntropy) := inferInstanceAs (Decidable (_ = _))

theorem writeToken_me [AddCommGroup Point] {key : Key} {later : List (Option Key)}
    (available : w.ephemeralGen = some key :: later) (link : Link) :
    writeToken suite .me ⟨w,link⟩ =
      .ok (suite.serializeCompressed (ekeMask suite (suite.pubKey key) w.passphraseEntropy))
        ⟨{w with
          toSymmetricState := w.toSymmetricState.mixHash suite (suite.serializeCompressed (suite.pubKey key))
          localEphemeral := some key, ephemeralGen := later},link⟩ := by
  rw [writeToken,Fallible.bind_ok _ _ _ _ _ (newEphemeral_ok key later available link)]
  rfl

theorem conveys_me [AddCommGroup Point] (lawful : suite.CurveLawful)
    (paired : Paired suite w.toSymmetricState r.toSymmetricState) (key : Key) (later : List (Option Key))
    (available : w.ephemeralGen = some key :: later) (maskable : Maskable suite key w.passphraseEntropy)
    (secret : suite.modNScalar r.passphraseEntropy = suite.modNScalar w.passphraseEntropy) :
    ∃ s s' bytes, Paired suite s s' ∧ Conveys (writeToken suite .me) (readToken suite .me) w r
      {w with toSymmetricState := s, localEphemeral := some key, ephemeralGen := later}
      {r with toSymmetricState := s', remoteEphemeral := some (suite.pubKey key)} bytes () := by
  have unmasked : ekeUnmask suite (ekeMask suite (suite.pubKey key) w.passphraseEntropy) r.passphraseEntropy =
      suite.pubKey key := by
    simp [ekeUnmask,ekeMask,secret]
  refine ⟨_,_,suite.serializeCompressed (ekeMask suite (suite.pubKey key) w.passphraseEntropy),
    paired.mixHash (suite.serializeCompressed (suite.pubKey key)),writeToken_me available,?_⟩
  · intro rest accepts written
    rw [readToken,Fallible.bind_ok _ _ _ _ _ (readBytes_append _ rest 33 (lawful.serialize_length _) accepts written),
      Fallible.bind_ok _ _ _ _ _ (parsePubKey_parsed maskable _)]
    rw [Fallible.get_bind,unmasked]
    rfl

theorem conveys_nil [AddCommGroup Point] :
    Conveys (writeTokens suite []) (readTokens suite []) w r w r [] () :=
  ⟨fun _ => rfl,fun _ _ _ => rfl⟩

theorem Conveys.cons [AddCommGroup Point] {token : Token} {tokens : List Token}
    {w' r' w'' r'' : HandshakeState Point Key} {first second : Bytes}
    (begun : Conveys (writeToken suite token) (readToken suite token) w r w' r' first ())
    (continued : Conveys (writeTokens suite tokens) (readTokens suite tokens) w' r' w'' r'' second ()) :
    Conveys (writeTokens suite (token :: tokens)) (readTokens suite (token :: tokens)) w r w'' r'' (first ++ second) () :=
  begun.append continued

end Tokens

section Payload

open Handshake

variable {w r : HandshakeState Point Key}

/-- The auth data that a version carries unchanged. -/
def Encodable (version : UInt8) (data : Bytes) : Prop :=
  if version = HandshakeVersion0 then data.length ≤ ActTwoPayloadSize - lengthHeaderSize else data.length < MaxInt32

def Sendable (version : UInt8) (data : Bytes) : Prop := version ≠ HandshakeVersion0 → data.length < MaxInt32

theorem Encodable.sendable {version : UInt8} {data : Bytes} (encodable : Encodable version data) :
    Sendable version data := by
  intro later
  rw [Encodable,if_neg later] at encodable
  exact encodable

theorem fixedPayload_length (data : Bytes) : (fixedPayload data).length = ActTwoPayloadSize := by
  simp only [fixedPayload,List.length_append,List.length_take,List.length_replicate]
  omega

theorem fixedPayload_eq (data : Bytes) :
    fixedPayload data = bigEndian lengthHeaderSize data.length ++
      (data.take (ActTwoPayloadSize - lengthHeaderSize) ++
        List.replicate (ActTwoPayloadSize - lengthHeaderSize - data.length) 0) := by
  have size : (bigEndian lengthHeaderSize data.length ++ data).length = lengthHeaderSize + data.length := by
    rw [List.length_append,bigEndian_length]
  have cut : (bigEndian lengthHeaderSize data.length ++ data).take ActTwoPayloadSize =
      bigEndian lengthHeaderSize data.length ++ data.take (ActTwoPayloadSize - lengthHeaderSize) := by
    rw [List.take_append,bigEndian_length,List.take_of_length_le]
    rw [bigEndian_length]
    decide
  rw [fixedPayload]
  simp only [cut,size,Nat.sub_add_eq,List.append_assoc]

theorem fixedPayload_header (data : Bytes) :
    (fixedPayload data).take lengthHeaderSize = bigEndian lengthHeaderSize data.length := by
  rw [fixedPayload_eq]
  exact List.take_left' (bigEndian_length _ _)

theorem fixedPayload_content (data : Bytes) :
    (fixedPayload data).drop lengthHeaderSize = data.take (ActTwoPayloadSize - lengthHeaderSize) ++
      List.replicate (ActTwoPayloadSize - lengthHeaderSize - data.length) 0 := by
  rw [fixedPayload_eq]
  exact List.drop_left' (bigEndian_length _ _)

/-- What the initiator keeps of the last plaintext of act two. -/
def unpack (version : UInt8) (plaintext : Bytes) : Bytes :=
  if version = HandshakeVersion0 then
    let payloadLen := fromBigEndian (plaintext.take lengthHeaderSize)
    let content := plaintext.drop lengthHeaderSize
    content.take payloadLen ++ List.replicate (payloadLen - content.length) 0
  else plaintext

/-- The fixed-size payload loses nothing but zeros exactly when its length fits into the
header and whatever is cut off is zero. -/
theorem unpack_fixedPayload (data : Bytes) :
    unpack HandshakeVersion0 (fixedPayload data) = data ↔
      data.length < 2 ^ 16 ∧ ∀ byte ∈ data.drop (ActTwoPayloadSize - lengthHeaderSize), byte = 0 := by
  let room := ActTwoPayloadSize - lengthHeaderSize
  let content := data.take room ++ List.replicate (room - data.length) 0
  have contentLength : content.length = room := by
    simp only [content,List.length_append,List.length_take,List.length_replicate]
    omega
  have unpacked : unpack HandshakeVersion0 (fixedPayload data) =
      content.take (data.length % 2 ^ 16) ++ List.replicate (data.length % 2 ^ 16 - room) 0 := by
    rw [unpack,if_pos rfl,fixedPayload_header,fixedPayload_content,fromBigEndian_bigEndian,← contentLength]
    rfl
  have padded (fits : data.length < 2 ^ 16) : unpack HandshakeVersion0 (fixedPayload data) =
      data.take room ++ List.replicate (data.length - room) 0 := by
    rw [unpacked,Nat.mod_eq_of_lt fits]
    congr 1
    rcases Nat.le_total data.length room with within | beyond
    · rw [List.take_left' (by rw [List.take_of_length_le within])]
    · rw [List.take_of_length_le (by omega)]
      simp [content,Nat.sub_eq_zero_of_le beyond]
  constructor
  · intro same
    have length : data.length % 2 ^ 16 = data.length := by
      have lengths := congrArg List.length same
      rw [unpacked,List.length_append,List.length_take,List.length_replicate,contentLength] at lengths
      omega
    have fits : data.length < 2 ^ 16 := by
      omega
    refine ⟨fits,?_⟩
    rw [padded fits] at same
    nth_rewrite 3 [← List.take_append_drop room data] at same
    intro byte within
    rw [← List.append_cancel_left same] at within
    exact List.eq_of_mem_replicate within
  · rintro ⟨fits,zeros⟩
    rw [padded fits]
    nth_rewrite 3 [← List.take_append_drop room data]
    rw [List.eq_replicate_of_mem zeros,List.length_drop]

/-- What arrives of the auth data in a payload of this version. -/
def carried (version : UInt8) (data : Bytes) : Bytes :=
  if version = HandshakeVersion0 then unpack HandshakeVersion0 (fixedPayload data) else data

theorem carried_encodable {version : UInt8} {data : Bytes} (encodable : Encodable version data) :
    carried version data = data := by
  unfold Encodable at encodable
  unfold carried
  split_ifs at encodable ⊢
  · refine (unpack_fixedPayload data).mpr ⟨?_,?_⟩
    · simp only [ActTwoPayloadSize,lengthHeaderSize] at encodable
      omega
    · rw [List.drop_of_length_le encodable]
      exact nofun
  · rfl

theorem known_version (version : UInt8) (known : version ≤ HandshakeVersion2) :
    version = HandshakeVersion0 ∨ version = HandshakeVersion1 ∨ version = HandshakeVersion2 := by
  have bound : version.toNat ≤ 2 := UInt8.le_iff_toNat_le.mp known
  simp only [HandshakeVersion0,HandshakeVersion1,HandshakeVersion2,← UInt8.toNat_inj,UInt8.reduceToNat]
  omega

theorem later_ne_zero (version : UInt8) (later : version = HandshakeVersion1 ∨ version = HandshakeVersion2) :
    version ≠ HandshakeVersion0 := by
  rcases later with rfl | rfl <;> decide

theorem act_ne_act2 (actNum : UInt8) (act : actNum = act1 ∨ actNum = act3) : actNum ≠ act2 := by
  rcases act with rfl | rfl <;> decide

theorem conveys_noPayload (lawful : suite.AeadLawful) (paired : Paired suite w.toSymmetricState r.toSymmetricState)
    (version actNum : UInt8) (known : version ≤ HandshakeVersion2) (act : actNum = act1 ∨ actNum = act3) :
    ∃ s s' bytes, Paired suite s s' ∧ Conveys (writePayload suite version actNum) (readPayload suite version actNum) w r
      {w with toSymmetricState := s} {r with toSymmetricState := s'} bytes () := by
  obtain ⟨s,s',bytes,kept,wrote,took⟩ := conveys_encrypted lawful paired [] macSize (Nat.zero_add _)
  have other := act_ne_act2 actNum act
  refine ⟨s,s',bytes,kept,?_,?_⟩
  · intro link
    have written : writePayload suite version actNum ⟨w,link⟩ = encryptAndHash suite [] ⟨w,link⟩ := by
      rcases known_version version known with rfl | rfl | rfl <;> simp only [writePayload,if_pos act] <;> rfl
    rw [written]
    exact wrote link
  · intro rest accepts written
    obtain ⟨ciphertext,middle,received,opened⟩ := (Fallible.bind_eq_ok _ _ _ _ _).mp (took rest accepts written)
    rcases known_version version known with rfl | later
    · rw [readPayload,if_pos rfl,if_neg other,Nat.zero_add,Fallible.bind_ok _ _ _ _ _ received,
        Fallible.bind_ok _ _ _ _ _ opened]
      rfl
    · rw [readPayload,if_neg (later_ne_zero version later),if_pos later,if_pos act]
      simp only [pure_bind]
      rw [Fallible.bind_ok _ _ _ _ _ received,Fallible.bind_ok _ _ _ _ _ opened,if_neg other]
      rfl

theorem conveys_fixedPayload (lawful : suite.AeadLawful) (paired : Paired suite w.toSymmetricState r.toSymmetricState) :
    ∃ s s' bytes, Paired suite s s' ∧
      Conveys (writePayload suite HandshakeVersion0 act2) (readPayload suite HandshakeVersion0 act2) w r
        {w with toSymmetricState := s}
        {r with toSymmetricState := s', receivedPayload := unpack HandshakeVersion0 (fixedPayload w.payloadToSend)}
        bytes () := by
  obtain ⟨s,s',bytes,kept,wrote,took⟩ := conveys_encrypted lawful paired (fixedPayload w.payloadToSend)
    (ActTwoPayloadSize + macSize) (by rw [fixedPayload_length])
  refine ⟨s,s',bytes,kept,wrote,?_⟩
  intro rest accepts written
  obtain ⟨ciphertext,middle,received,opened⟩ := (Fallible.bind_eq_ok _ _ _ _ _).mp (took rest accepts written)
  have nonempty : ¬ (fixedPayload w.payloadToSend).length = 0 := by
    rw [fixedPayload_length]
    decide
  have filled : (fixedPayload w.payloadToSend).drop lengthHeaderSize ≠ [] := by
    intro none
    have size := congrArg List.length none
    rw [List.length_drop,fixedPayload_length] at size
    exact absurd size (by decide)
  rw [readPayload,if_pos rfl,if_pos rfl,Fallible.bind_ok _ _ _ _ _ received,Fallible.bind_ok _ _ _ _ _ opened,
    if_neg nonempty]
  simp only [if_neg filled]
  rfl

/-- A reader takes any payload whose length with the tag fits into four bytes, whoever wrote it. -/
theorem conveys_sized (lawful : suite.AeadLawful) (paired : Paired suite w.toSymmetricState r.toSymmetricState)
    (version : UInt8) (later : version = HandshakeVersion1 ∨ version = HandshakeVersion2) (data : Bytes)
    (fits : data.length + macSize < 2 ^ 32) :
    ∃ s s' bytes, Paired suite s s' ∧ Conveys
      (do let header ← encryptAndHash suite (bigEndian 4 data.length)
          let body ← encryptAndHash suite data
          return header ++ body)
      (readPayload suite version act2) w r
      {w with toSymmetricState := s} {r with toSymmetricState := s', receivedPayload := data} bytes () := by
  obtain ⟨s,s',header,paired,wroteHeader,tookHeader⟩ := conveys_encrypted lawful paired
    (bigEndian 4 data.length) (4 + macSize) (by rw [bigEndian_length])
  let w' : HandshakeState Point Key := {w with toSymmetricState := s}
  let r' : HandshakeState Point Key := {r with toSymmetricState := s'}
  obtain ⟨t,t',body,paired,wroteBody,tookBody⟩ := conveys_encrypted (w := w') (r := r') lawful paired
    data (data.length + macSize) rfl
  have size : (macSize + fromBigEndian (bigEndian 4 data.length)) % 2 ^ 32 = data.length + macSize := by
    simp only [fromBigEndian_bigEndian,macSize] at fits ⊢
    omega
  refine ⟨t,t',header ++ body,paired,?_,?_⟩
  · intro link
    rw [Fallible.bind_ok _ _ _ _ _ (wroteHeader link),Fallible.bind_ok _ _ _ _ _ (wroteBody link)]
    rfl
  · intro rest accepts written
    obtain ⟨_,_,received,opened⟩ := (Fallible.bind_eq_ok _ _ _ _ _).mp (tookHeader (body ++ rest) accepts written)
    obtain ⟨_,_,received',opened'⟩ := (Fallible.bind_eq_ok _ _ _ _ _).mp (tookBody rest accepts written)
    rw [List.append_assoc,readPayload,if_neg (later_ne_zero version later),if_pos later,if_neg (by decide),if_pos rfl]
    simp only [pure_bind]
    rw [Fallible.bind_ok _ _ _ _ _ received,Fallible.bind_ok _ _ _ _ _ opened,size,
      Fallible.bind_ok _ _ _ _ _ received',Fallible.bind_ok _ _ _ _ _ opened']
    rfl

theorem conveys_sizedPayload (lawful : suite.AeadLawful) (paired : Paired suite w.toSymmetricState r.toSymmetricState)
    (version : UInt8) (later : version = HandshakeVersion1 ∨ version = HandshakeVersion2)
    (fits : w.payloadToSend.length < MaxInt32) :
    ∃ s s' bytes, Paired suite s s' ∧ Conveys (writePayload suite version act2) (readPayload suite version act2) w r
      {w with toSymmetricState := s} {r with toSymmetricState := s', receivedPayload := w.payloadToSend} bytes () := by
  have small : w.payloadToSend.length + macSize < 2 ^ 32 := by
    simp only [MaxInt32,macSize] at fits ⊢
    omega
  obtain ⟨s,s',bytes,kept,conveyed⟩ := conveys_sized lawful paired version later w.payloadToSend small
  refine ⟨s,s',bytes,kept,conveyed.congr (fun link => ?_) (fun _ => rfl)⟩
  rw [writePayload,Fallible.get_bind,if_neg (later_ne_zero version later),if_pos later,if_neg (by decide),if_pos rfl,
    if_neg (Nat.not_le.mpr fits)]

/-- The payload of act 2 carries every auth data that its version can send. -/
theorem conveys_payload (lawful : suite.AeadLawful) (paired : Paired suite w.toSymmetricState r.toSymmetricState)
    (version : UInt8) (known : version ≤ HandshakeVersion2) (sendable : Sendable version w.payloadToSend) :
    ∃ s s' bytes, Paired suite s s' ∧ Conveys (writePayload suite version act2) (readPayload suite version act2) w r
      {w with toSymmetricState := s} {r with toSymmetricState := s', receivedPayload := carried version w.payloadToSend}
      bytes () := by
  rcases known_version version known with rfl | later
  · exact conveys_fixedPayload lawful paired
  · have other := later_ne_zero version later
    rw [carried,if_neg other]
    exact conveys_sizedPayload lawful paired version later (sendable other)

end Payload

end NodeConnect.Noise
