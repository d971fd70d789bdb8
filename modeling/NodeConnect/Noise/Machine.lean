import NodeConnect.Noise.Handshake

/-! The Brontide machine around the handshake: its construction from the connection
data, the run of all acts, the split into two ciphers, and what a completed handshake
stores in the connection data. -/
namespace NodeConnect.Noise
open Lib (Bytes Reader ascii)

inductive StoreCall (Point : Type) where
  | setRemote (key : Option Point)
  | setAuthData (data : Bytes)
  deriving DecidableEq, Repr

/-- A callback is the question whether it succeeds; `stored` is the history of the calls
of `SetRemote` and `SetAuthData`, which no step reads. -/
structure ConnData (Point Key : Type) where
  localKey : Key
  remoteKey : Option Point
  passphraseEntropy : Bytes
  authData : Bytes
  onRemoteStatic : Option (Option Point → Bool) := none
  onAuthData : Option (Bytes → Bool) := none
  stored : List (StoreCall Point) := []

structure BrontideMachineConfig (Point Key : Type) where
  connData : ConnData Point Key
  initiator : Bool
  handshakePattern : HandshakePattern
  minHandshakeVersion : UInt8
  maxHandshakeVersion : UInt8
  ephemeralGen : List (Option Key)

structure Machine (Point Key : Type) extends HandshakeState Point Key where
  sendCipher : CipherState := {}
  recvCipher : CipherState := {}
  connData : ConnData Point Key
  nextHeaderSend : Bytes := []
  nextBodySend : Bytes := []

section

variable {Point Key : Type} (suite : Suite Point Key)

namespace ConnData

def setRemote (key : Option Point) : EStateM HandshakeError (ConnData Point Key) Unit := do
  modify fun c => {c with stored := c.stored ++ [.setRemote key]}
  let c ← get
  match c.onRemoteStatic with
  | some callback => if ¬ callback key then throw .setRemote
  | none => pure ()
  modify fun c => {c with remoteKey := key}

def setAuthData (data : Bytes) : EStateM HandshakeError (ConnData Point Key) Unit := do
  modify fun c => {c with stored := c.stored ++ [.setAuthData data]}
  let c ← get
  match c.onAuthData with
  | some callback => if ¬ callback data then throw .setAuthData
  | none => pure ()
  modify fun c => {c with authData := data}

def sid (c : ConnData Point Key) : Option Bytes :=
  match c.remoteKey with
  | none => some (suite.sha512 c.passphraseEntropy)
  | some remote => (suite.ecdh remote c.localKey).map fun secret =>
    suite.sha512 (suite.hmac256 secret.val (ascii "mailbox"))

def handshakePattern (c : ConnData Point Key) : HandshakePattern :=
  match c.remoteKey with
  | none => XXPattern
  | some _ => KKPattern

end ConnData

def newBrontideMachine (cfg : BrontideMachineConfig Point Key) : Except HandshakeError (Machine Point Key) := do
  let isKK := cfg.handshakePattern.name = .KK
  if isKK ∧ cfg.maxHandshakeVersion < HandshakeVersion2 then throw .maxVersionBelow2
  let minVersion :=
    if isKK ∧ cfg.minHandshakeVersion < HandshakeVersion2 then HandshakeVersion2 else cfg.minHandshakeVersion
  let passphraseEntropy ←
    if cfg.handshakePattern.name = .XX then
      match suite.scrypt cfg.connData.passphraseEntropy with
      | some stretched => pure stretched
      | none => throw .stretchPassphrase
    else pure []
  let handshake ← newHandshakeState suite minVersion cfg.maxHandshakeVersion cfg.handshakePattern cfg.initiator
    lightningNodeConnectPrologue cfg.connData.localKey cfg.connData.remoteKey passphraseEntropy
    cfg.connData.authData cfg.ephemeralGen
  return {toHandshakeState := handshake, connData := cfg.connData}

namespace Machine

def split (m : Machine Point Key) : Machine Point Key :=
  let (first,second) := suite.hkdf [] m.chainingKey
  let fresh (key : Block) : CipherState := ({} : CipherState).initializeKeyWithSalt m.chainingKey key
  if m.initiator then {m with sendCipher := fresh first, recvCipher := fresh second}
  else {m with recvCipher := fresh first, sendCipher := fresh second}

def store (m : Machine Point Key) : EStateM HandshakeError (ConnData Point Key) Unit := do
  if HandshakeVersion2 ≤ m.version then ConnData.setRemote m.remoteStatic
  if m.initiator then ConnData.setAuthData m.receivedPayload

end Machine

structure Outcome (Point Key : Type) where
  err : Option HandshakeError
  machine : Machine Point Key
  link : Link

def Outcome.ok (outcome : Outcome Point Key) : Prop := outcome.err = none

instance (outcome : Outcome Point Key) : Decidable outcome.ok := inferInstanceAs (Decidable (_ = _))

def Machine.party (m : Machine Point Key) (link : Link) : Party Point Key := {m.toHandshakeState, link with}

def Machine.doHandshake [AddCommGroup Point] (m : Machine Point Key) (link : Link) : Outcome Point Key :=
  match Handshake.acts suite m.pattern.pattern (m.party link) with
  | .error err p => ⟨some err,{m with toHandshakeState := p.toHandshakeState},p.toLink⟩
  | .ok () p =>
    let m := split suite {m with toHandshakeState := p.toHandshakeState}
    match m.store m.connData with
    | .ok () connData => ⟨none,{m with connData := connData},p.toLink⟩
    | .error err connData => ⟨some err,{m with connData := connData},p.toLink⟩

end

/-- The configuration of one end that has no callbacks and follows its connection data. -/
def plainEnd (initiator : Bool) (connData : ConnData UInt8 UInt8) (minVersion maxVersion ephemeral : UInt8) :
    BrontideMachineConfig UInt8 UInt8 where
  connData := connData
  initiator := initiator
  handshakePattern := connData.handshakePattern
  minHandshakeVersion := minVersion
  maxHandshakeVersion := maxVersion
  ephemeralGen := [some ephemeral]

def plainMachine (cfg : BrontideMachineConfig UInt8 UInt8) : Machine UInt8 UInt8 :=
  match newBrontideMachine plainSuite cfg with
  | .ok m => m
  | .error _ => {
      cfg with
      localStatic := cfg.connData.localKey, remoteStatic := none, passphraseEntropy := [], payloadToSend := []
      pattern := cfg.handshakePattern, minVersion := 0, maxVersion := 0, version := 0}

end NodeConnect.Noise
