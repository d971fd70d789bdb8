import NodeConnect.Lib.Fallible
import NodeConnect.Noise.Cipher

/-! The handshake patterns and their two interpreters, the writer's and the reader's.
Both keep the state they reached when they fail. A read ignores how many bytes it got,
as the source does; a write is one call for the whole act. -/
namespace NodeConnect.Noise
open Lib (Bytes Reader ascii bigEndian fromBigEndian)

inductive Token where
  | e | s | ee | es | se | ss | me
  deriving DecidableEq, Repr

def act1 : UInt8 := 1
def act2 : UInt8 := 2
def act3 : UInt8 := 3

structure MessagePattern where
  tokens : List Token
  initiator : Bool
  actNum : UInt8 := 0
  deriving DecidableEq, Repr

inductive PatternName where
  | XX
  | KK
  deriving DecidableEq, Repr

def PatternName.text : PatternName → String
  | .XX => "XXeke+SPAKE2"
  | .KK => "KK"

structure HandshakePattern where
  preMessages : List MessagePattern := []
  pattern : List MessagePattern
  name : PatternName
  deriving DecidableEq, Repr

def XXPattern : HandshakePattern where
  name := .XX
  pattern := [⟨[.me],true,act1⟩,⟨[.e,.ee,.s,.es],false,act2⟩,⟨[.s,.se],true,act3⟩]

def KKPattern : HandshakePattern where
  name := .KK
  preMessages := [{tokens := [.s], initiator := true},{tokens := [.s], initiator := false}]
  pattern := [⟨[.e,.es,.ss],true,act1⟩,⟨[.e,.ee,.se],false,act2⟩]

def HandshakeVersion0 : UInt8 := 0
def HandshakeVersion1 : UInt8 := 1
def HandshakeVersion2 : UInt8 := 2
def ActTwoPayloadSize : Nat := 500
def lengthHeaderSize : Nat := 2
def MaxInt32 : Nat := 2 ^ 31 - 1
def lightningNodeConnectPrologue : Bytes := ascii "lightning-node-connect"

def protocolName (name : PatternName) : Bytes :=
  ascii ("Noise_" ++ name.text ++ "_" ++ "secp256k1" ++ "_" ++ "ChaChaPoly" ++ "_" ++ "SHA256")

inductive HandshakeError where
  | read
  | write
  | unexpectedVersion (version : UInt8)
  | unknownVersion (version : UInt8)
  | unknownAct (actNum : UInt8)
  | maxMessageLengthExceeded
  | decrypt
  | parsePubKey
  | ecdh
  | ephemeralGen
  /-- A key that is not there yet is used, which panics. -/
  | nilDereference
  | remoteStaticExpected
  | maxVersionBelow2
  | stretchPassphrase
  | setRemote
  | setAuthData
  deriving DecidableEq, Repr

/-- A nil payload and an empty one are encoded alike, so both are `[]`. The results of
the next calls of `ephemeralGen` are listed; past the end they fail. -/
structure HandshakeState (Point Key : Type) extends SymmetricState where
  initiator : Bool
  localStatic : Key
  localEphemeral : Option Key := none
  remoteStatic : Option Point
  remoteEphemeral : Option Point := none
  passphraseEntropy : Bytes
  payloadToSend : Bytes
  receivedPayload : Bytes := []
  pattern : HandshakePattern
  minVersion : UInt8
  maxVersion : UInt8
  version : UInt8
  ephemeralGen : List (Option Key)

/-- The stream of one side. `accepts` lists the outcomes of the writes to come; past
its end they succeed. `written` holds one entry for each act. -/
structure Link where
  incoming : Reader
  accepts : List Bool := []
  written : List Bytes := []
  deriving DecidableEq, Repr

structure Party (Point Key : Type) extends HandshakeState Point Key, Link

abbrev Handshake (Point Key : Type) := EStateM HandshakeError (Party Point Key)

section

variable {Point Key : Type} (suite : Suite Point Key)

def newHandshakeState (minVersion maxVersion : UInt8) (pattern : HandshakePattern) (initiator : Bool)
    (prologue : Bytes) (localPub : Key) (remoteStatic : Option Point) (passphraseEntropy authData : Bytes)
    (ephemeralGen : List (Option Key)) : Except HandshakeError (HandshakeState Point Key) := do
  let symmetric := (({} : SymmetricState).initializeSymmetric suite (protocolName pattern.name)).mixHash suite prologue
  let symmetric ← pattern.preMessages.foldlM (fun symmetric m =>
    if m.initiator = initiator then
      .ok (symmetric.mixHash suite (suite.serializeCompressed (suite.pubKey localPub)))
    else
      match remoteStatic with
      | none => .error .remoteStaticExpected
      | some key => .ok (symmetric.mixHash suite (suite.serializeCompressed key))) symmetric
  let version := if initiator then minVersion else maxVersion
  return {
    toSymmetricState := symmetric
    initiator, minVersion, maxVersion, version, pattern, remoteStatic, passphraseEntropy, ephemeralGen
    localStatic := localPub
    payloadToSend := authData}

namespace Handshake

def readBytes (k : Nat) : Handshake Point Key Bytes := fun p =>
  match p.incoming.read k with
  | some (bytes,incoming) => .ok bytes {p with incoming := incoming}
  | none => .error .read p

def writeBytes (bytes : Bytes) : Handshake Point Key Unit := fun p =>
  match p.accepts with
  | false :: accepts => .error .write {p with accepts := accepts}
  | accepts => .ok () {p with accepts := accepts.tail, written := p.written ++ [bytes]}

def mixHash (data : Bytes) : Handshake Point Key Unit :=
  modify fun p => {p with toSymmetricState := p.toSymmetricState.mixHash suite data}

def mixKey (input : Bytes) : Handshake Point Key Unit :=
  modify fun p => {p with toSymmetricState := p.toSymmetricState.mixKey suite input}

def encryptAndHash (plaintext : Bytes) : Handshake Point Key Bytes := fun p =>
  let (ciphertext,symmetric) := p.toSymmetricState.encryptAndHash suite plaintext
  .ok ciphertext {p with toSymmetricState := symmetric}

def decryptAndHash (ciphertext : Bytes) : Handshake Point Key Bytes := fun p =>
  match p.toSymmetricState.decryptAndHash suite ciphertext with
  | (some plaintext,symmetric) => .ok plaintext {p with toSymmetricState := symmetric}
  | (none,symmetric) => .error .decrypt {p with toSymmetricState := symmetric}

def newEphemeral : Handshake Point Key Key := fun p =>
  match p.ephemeralGen with
  | some key :: later => .ok key {p with localEphemeral := some key, ephemeralGen := later}
  | none :: later => .error .ephemeralGen {p with ephemeralGen := later}
  | [] => .error .ephemeralGen p

def parsePubKey (bytes : Bytes) : Handshake Point Key Point :=
  match suite.parsePubKey bytes with
  | some point => return point
  | none => throw .parsePubKey

def ecdh (pub : Option Point) (priv : Option Key) : Handshake Point Key Block :=
  match pub, priv with
  | some pub, some priv =>
    match suite.ecdh pub priv with
    | some secret => return secret
    | none => throw .ecdh
  | _, _ => throw .nilDereference

/-- The tokens that exchange nothing; the writer and the reader treat them alike. -/
def mixECDH (remote : Party Point Key → Option Point) (own : Party Point Key → Option Key) :
    Handshake Point Key Unit := do
  let p ← get
  let secret ← ecdh suite (remote p) (own p)
  mixKey suite secret.val

def mixEE : Handshake Point Key Unit := mixECDH suite (·.remoteEphemeral) (·.localEphemeral)

def mixSS : Handshake Point Key Unit := mixECDH suite (·.remoteStatic) (some ·.localStatic)

def mixES : Handshake Point Key Unit := do
  if (← get).initiator then mixECDH suite (·.remoteStatic) (·.localEphemeral)
  else mixECDH suite (·.remoteEphemeral) (some ·.localStatic)

def mixSE : Handshake Point Key Unit := do
  if (← get).initiator then mixECDH suite (·.remoteEphemeral) (some ·.localStatic)
  else mixECDH suite (·.remoteStatic) (·.localEphemeral)

end Handshake

section

variable [AddCommGroup Point]

def ekeMask (e : Point) (passphraseEntropy : Bytes) : Point :=
  e + suite.modNScalar passphraseEntropy • suite.N

def ekeUnmask (me : Point) (passphraseEntropy : Bytes) : Point :=
  me + -(suite.modNScalar passphraseEntropy • suite.N)

namespace Handshake

def writeToken : Token → Handshake Point Key Bytes
  | .e => do
    let e ← newEphemeral
    let pubKeyBytes := suite.serializeCompressed (suite.pubKey e)
    mixHash suite pubKeyBytes
    return pubKeyBytes
  | .me => do
    let e ← newEphemeral
    mixHash suite (suite.serializeCompressed (suite.pubKey e))
    let p ← get
    return suite.serializeCompressed (ekeMask suite (suite.pubKey e) p.passphraseEntropy)
  | .s => do
    let p ← get
    encryptAndHash suite (suite.serializeCompressed (suite.pubKey p.localStatic))
  | .ee => do mixEE suite; return []
  | .ss => do mixSS suite; return []
  | .es => do mixES suite; return []
  | .se => do mixSE suite; return []

def writeTokens : List Token → Handshake Point Key Bytes
  | [] => return []
  | token :: tokens => do
    let bytes ← writeToken suite token
    let rest ← writeTokens tokens
    return bytes ++ rest

def readToken : Token → Handshake Point Key Unit
  | .e => do
    let e ← readBytes 33
    -- Bytes that cannot be parsed leave a nil key.
    modify fun p => {p with remoteEphemeral := suite.parsePubKey e}
    let key ← parsePubKey suite e
    mixHash suite (suite.serializeCompressed key)
  | .me => do
    let me ← readBytes 33
    let maskedEphemeral ← parsePubKey suite me
    let p ← get
    let key := ekeUnmask suite maskedEphemeral p.passphraseEntropy
    modify fun p => {p with remoteEphemeral := some key}
    mixHash suite (suite.serializeCompressed key)
  | .s => do
    let s ← readBytes (33 + macSize)
    let rs ← decryptAndHash suite s
    modify fun p => {p with remoteStatic := suite.parsePubKey rs}
    let _ ← parsePubKey suite rs
  | .ee => mixEE suite
  | .ss => mixSS suite
  | .es => mixES suite
  | .se => mixSE suite

def readTokens : List Token → Handshake Point Key Unit
  | [] => return ()
  | token :: tokens => do
    readToken suite token
    readTokens tokens

/-- The fixed-size payload of version 0: a length, the data, and zeros, cut at the end. -/
def fixedPayload (data : Bytes) : Bytes :=
  let content := bigEndian lengthHeaderSize data.length ++ data
  content.take ActTwoPayloadSize ++ List.replicate (ActTwoPayloadSize - content.length) 0

def writePayload (version actNum : UInt8) : Handshake Point Key Bytes := do
  let p ← get
  if version = HandshakeVersion0 then
    if actNum = act1 ∨ actNum = act3 then encryptAndHash suite []
    else if actNum = act2 then encryptAndHash suite (fixedPayload p.payloadToSend)
    else throw (.unknownAct actNum)
  else if version = HandshakeVersion1 ∨ version = HandshakeVersion2 then
    if actNum = act1 ∨ actNum = act3 then encryptAndHash suite []
    else if actNum = act2 then
      if MaxInt32 ≤ p.payloadToSend.length then throw .maxMessageLengthExceeded
      else
        let header ← encryptAndHash suite (bigEndian 4 p.payloadToSend.length)
        let body ← encryptAndHash suite p.payloadToSend
        return header ++ body
    else throw (.unknownAct actNum)
  else throw (.unknownVersion version)

def writeMsgPattern (mp : MessagePattern) : Handshake Point Key Unit := do
  let version := (← get).version
  let tokens ← writeTokens suite mp.tokens
  let payload ← writePayload suite version mp.actNum
  writeBytes ([version] ++ tokens ++ payload)

def checkVersion (version actNum : UInt8) : Handshake Point Key Unit := do
  let p ← get
  if actNum = act1 ∨ actNum = act2 then
    if version < p.minVersion ∨ p.maxVersion < version then throw (.unexpectedVersion version)
    -- The initiator adapts to the version chosen by the responder.
    else if p.initiator then modify fun p => {p with version := version}
    else return ()
  else if actNum = act3 then
    if version ≠ p.version then throw (.unexpectedVersion version) else return ()
  else throw (.unknownAct actNum)

def readPayload (version actNum : UInt8) : Handshake Point Key Unit := do
  if version = HandshakeVersion0 then
    let cipherText ← readBytes ((if actNum = act2 then ActTwoPayloadSize else 0) + macSize)
    let payload ← decryptAndHash suite cipherText
    if payload.length = 0 then return ()
    else
      let payloadLen := fromBigEndian (payload.take lengthHeaderSize)
      let content := payload.drop lengthHeaderSize
      if content = [] then throw .read
      else
        let authData := content.take payloadLen ++ List.replicate (payloadLen - content.length) 0
        modify fun p => {p with receivedPayload := authData}
  else if version = HandshakeVersion1 ∨ version = HandshakeVersion2 then
    let payloadSize ←
      if actNum = act1 ∨ actNum = act3 then pure macSize
      else if actNum = act2 then do
        let header ← readBytes (4 + macSize)
        let pktLenBytes ← decryptAndHash suite header
        pure ((macSize + fromBigEndian pktLenBytes) % 2 ^ 32)
      else throw (.unknownAct actNum)
    let cipherText ← readBytes payloadSize
    let authData ← decryptAndHash suite cipherText
    if actNum = act2 then modify fun p => {p with receivedPayload := authData} else return ()
  else throw (.unknownVersion (← get).version)

def readMsgPattern (mp : MessagePattern) : Handshake Point Key Unit := do
  let versionScratch ← readBytes 1
  let version := versionScratch.headD 0
  checkVersion version mp.actNum
  readTokens suite mp.tokens
  readPayload suite version mp.actNum

def acts : List MessagePattern → Handshake Point Key Unit
  | [] => return ()
  | mp :: rest => do
    let p ← get
    if mp.initiator = p.initiator then writeMsgPattern suite mp else readMsgPattern suite mp
    acts rest

end Handshake

end

end

end NodeConnect.Noise
