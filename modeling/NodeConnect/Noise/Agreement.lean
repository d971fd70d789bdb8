import NodeConnect.Noise.Acts
import NodeConnect.Noise.Frames

/-! Two honest machines on the two ends of a reliable byte stream. What each side
reads is what the other one writes; a read that the other side never fills fails. -/
namespace NodeConnect.Noise
open Lib Fallible Handshake

variable {Point Key : Type} {suite : Suite Point Key}

def startState (suite : Suite Point Key) (name : PatternName) : SymmetricState :=
  (({} : SymmetricState).initializeSymmetric suite (protocolName name)).mixHash suite lightningNodeConnectPrologue

theorem startState_paired (name : PatternName) : Paired suite (startState suite name) (startState suite name) := by
  have empty : CipherState.Paired suite {} {} := ⟨⟨rfl,rfl,rfl⟩,rfl,rfl⟩
  have cipher := (empty.log (.hash (protocolName name)) rfl).initializeKey .zero
  have initialized : Paired suite (({} : SymmetricState).initializeSymmetric suite (protocolName name))
    (({} : SymmetricState).initializeSymmetric suite (protocolName name)) := ⟨cipher,rfl,rfl⟩
  exact initialized.mixHash _

structure Built (suite : Suite Point Key) (cfg : BrontideMachineConfig Point Key) (m : Machine Point Key) : Prop where
  connData : m.connData = cfg.connData
  initiator : m.initiator = cfg.initiator
  pattern : m.pattern = cfg.handshakePattern
  localStatic : m.localStatic = cfg.connData.localKey
  remoteStatic : m.remoteStatic = cfg.connData.remoteKey
  payloadToSend : m.payloadToSend = cfg.connData.authData
  ephemeralGen : m.ephemeralGen = cfg.ephemeralGen
  minVersion : m.minVersion = if cfg.handshakePattern.name = .KK ∧ cfg.minHandshakeVersion < HandshakeVersion2
    then HandshakeVersion2 else cfg.minHandshakeVersion
  maxVersion : m.maxVersion = cfg.maxHandshakeVersion
  version : m.version = if cfg.initiator then m.minVersion else m.maxVersion
  passphrase : cfg.handshakePattern.name = .XX → suite.scrypt cfg.connData.passphraseEntropy = some m.passphraseEntropy
  symmetricXX : cfg.handshakePattern = XXPattern → m.toSymmetricState = startState suite .XX
  symmetricKK : cfg.handshakePattern = KKPattern → ∃ remote, cfg.connData.remoteKey = some remote ∧
    let own := suite.pubKey cfg.connData.localKey
    m.toSymmetricState = ((startState suite .KK).mixHash suite
      (suite.serializeCompressed (if cfg.initiator then own else remote))).mixHash suite
      (suite.serializeCompressed (if cfg.initiator then remote else own))
  idle : m.nextHeaderSend = [] ∧ m.nextBodySend = []

/-- Only KK raises the minimum. -/
theorem Built.minVersion_xx {cfg : BrontideMachineConfig Point Key} {m : Machine Point Key} (built : Built suite cfg m)
    (pattern : cfg.handshakePattern = XXPattern) : m.minVersion = cfg.minHandshakeVersion := by
  rw [built.minVersion,pattern]
  exact if_neg fun both => absurd both.1 (by decide)

theorem newHandshakeState_spec (minVersion maxVersion : UInt8) (pattern : HandshakePattern) (initiator : Bool)
    (localPub : Key) (remoteStatic : Option Point) (passphraseEntropy authData : Bytes)
    (ephemeralGen : List (Option Key)) (h : HandshakeState Point Key)
    (made : newHandshakeState suite minVersion maxVersion pattern initiator lightningNodeConnectPrologue localPub
      remoteStatic passphraseEntropy authData ephemeralGen = .ok h) :
    ∃ symmetric, h = {
        toSymmetricState := symmetric, initiator, minVersion, maxVersion, pattern, remoteStatic, passphraseEntropy
        ephemeralGen, localStatic := localPub, payloadToSend := authData
        version := if initiator then minVersion else maxVersion} ∧
      (pattern = XXPattern → symmetric = startState suite .XX) ∧
      (pattern = KKPattern → ∃ remote, remoteStatic = some remote ∧
        symmetric = ((startState suite .KK).mixHash suite (suite.serializeCompressed
          (if initiator then suite.pubKey localPub else remote))).mixHash suite (suite.serializeCompressed
          (if initiator then remote else suite.pubKey localPub))) := by
  dsimp only [newHandshakeState] at made
  obtain ⟨symmetric,mixed,returned⟩ := except_bind_ok made
  cases returned
  refine ⟨symmetric,rfl,?_,?_⟩
  · rintro rfl
    cases mixed
    rfl
  · rintro rfl
    cases remoteStatic with
    | none => cases initiator <;> simp [KKPattern,List.foldlM,bind,Except.bind] at mixed
    | some remote =>
      refine ⟨remote,rfl,?_⟩
      cases initiator <;> cases mixed <;> rfl

theorem newBrontideMachine_built (cfg : BrontideMachineConfig Point Key) (m : Machine Point Key)
    (made : newBrontideMachine suite cfg = .ok m) : Built suite cfg m := by
  dsimp only [newBrontideMachine] at made
  cases name : cfg.handshakePattern.name with
  | XX =>
    have other : ¬ (PatternName.XX = PatternName.KK) := by decide
    simp only [name,other,false_and,if_false,if_true] at made
    cases stretched : suite.scrypt cfg.connData.passphraseEntropy with
    | none =>
      rw [stretched] at made
      contradiction
    | some passphrase =>
      rw [stretched] at made
      obtain ⟨entropy,returned,made⟩ := except_bind_ok made
      cases returned
      obtain ⟨handshake,begun,returned⟩ := except_bind_ok made
      cases returned
      obtain ⟨symmetric,rfl,xx,kk⟩ := newHandshakeState_spec _ _ _ _ _ _ _ _ _ _ begun
      refine ⟨rfl,rfl,rfl,rfl,rfl,rfl,rfl,?_,rfl,rfl,fun _ => stretched,xx,kk,rfl,rfl⟩
      exact (if_neg fun both => other (name.symm.trans both.1)).symm
  | KK =>
    have other : ¬ (PatternName.KK = PatternName.XX) := by decide
    simp only [name,other,true_and,if_false] at made
    split at made
    next => contradiction
    next enough =>
      obtain ⟨entropy,returned,made⟩ := except_bind_ok made
      cases returned
      obtain ⟨handshake,begun,returned⟩ := except_bind_ok made
      cases returned
      obtain ⟨symmetric,rfl,xx,kk⟩ := newHandshakeState_spec _ _ _ _ _ _ _ _ _ _ begun
      refine ⟨rfl,rfl,rfl,rfl,rfl,rfl,rfl,?_,rfl,rfl,fun xx => absurd (name.symm.trans xx) other,xx,kk,rfl,rfl⟩
      simp only [name,true_and]

variable [AddCommGroup Point]

section Exchange

variable {mp : MessagePattern} {w r w' r' : HandshakeState Point Key} {bytes : Bytes}

theorem acts_wrote_accepted (wrote : ∀ link, writeMsgPattern suite mp ⟨w,link⟩ = writeBytes bytes ⟨w',link⟩)
    (mine : mp.initiator = w.initiator)
    (later : List MessagePattern) (incoming : Reader) {accepts : List Bool} (accepted : accepts.head? ≠ some false)
    (written : List Bytes) : acts suite (mp :: later) ⟨w,⟨incoming,accepts,written⟩⟩ =
      acts suite later ⟨w',⟨incoming,accepts.tail,written ++ [bytes]⟩⟩ := by
  rw [acts,get_bind,if_pos mine,bind_ok _ _ _ _ _ ((wrote _).trans (writeBytes_accepted accepted))]

theorem acts_wrote (conveyed : ActConveys suite mp w r w' r' bytes) (mine : mp.initiator = w.initiator)
    (later : List MessagePattern) (incoming : Reader) (written : List Bytes) :
    acts suite (mp :: later) ⟨w,⟨incoming,[],written⟩⟩ = acts suite later ⟨w',⟨incoming,[],written ++ [bytes]⟩⟩ :=
  acts_wrote_accepted conveyed.wrote mine later incoming (by simp) written

theorem acts_took (conveyed : ActConveys suite mp w r w' r' bytes) (theirs : ¬ mp.initiator = r.initiator)
    (later : List MessagePattern) (rest : Bytes) (accepts : List Bool) (written : List Bytes) :
    acts suite (mp :: later) ⟨r,⟨⟨bytes ++ rest,[]⟩,accepts,written⟩⟩ =
      acts suite later ⟨r',⟨⟨rest,[]⟩,accepts,written⟩⟩ := by
  rw [acts,get_bind,if_neg theirs,bind_ok _ _ _ _ _ (conveyed.took rest accepts written)]

end Exchange

def starting (h : HandshakeState Point Key) (incoming : Bytes) : Party Point Key := ⟨h,⟨⟨incoming,[]⟩,[],[]⟩⟩

structure Exchange (suite : Suite Point Key) (pattern : List MessagePattern) (i r i' r' : HandshakeState Point Key)
    (first second : Bytes) (third : List Bytes) : Prop where
  begins : ∀ data, [first] <+: (final (acts suite pattern (starting i data))).written
  answers : ∀ rest, [second] <+: (final (acts suite pattern (starting r (first ++ rest)))).written
  initiator : ∀ rest, acts suite pattern (starting i (second ++ rest)) =
    .ok () ⟨i',⟨⟨rest,[]⟩,[],first :: third⟩⟩
  responder : ∀ rest, acts suite pattern (starting r (first ++ (third.flatten ++ rest))) =
    .ok () ⟨r',⟨⟨rest,[]⟩,[],[second]⟩⟩

structure Agreed (suite : Suite Point Key) (i r i' r' : HandshakeState Point Key) : Prop where
  paired : Paired suite i'.toSymmetricState r'.toSymmetricState
  initiator : i'.initiator = true
  responder : r'.initiator = false
  versionI : i'.version = r.maxVersion
  versionR : r'.version = r.maxVersion
  remoteI : i'.remoteStatic = some (suite.pubKey r.localStatic)
  remoteR : r'.remoteStatic = some (suite.pubKey i.localStatic)
  payload : i'.receivedPayload = carried r.maxVersion r.payloadToSend

variable {i r : HandshakeState Point Key} {eI eR : Key} {iLater rLater : List (Option Key)}

structure XXActs (suite : Suite Point Key) (i r i1 r1 i2 r2 i3 r3 : HandshakeState Point Key)
    (bytes1 bytes2 bytes3 : Bytes) : Prop where
  first : ActConveys suite ⟨[.me],true,act1⟩ i r i1 r1 bytes1
  second : ActConveys suite ⟨[.e,.ee,.s,.es],false,act2⟩ r1 i1 r2 i2 bytes2
  third : ActConveys suite ⟨[.s,.se],true,act3⟩ i2 r2 i3 r3 bytes3
  initiator : i.initiator = true
  initiator1 : i1.initiator = true
  initiator2 : i2.initiator = true
  responder : r.initiator = false
  responder1 : r1.initiator = false
  responder2 : r2.initiator = false

/-- The states of both ends once the answer of the responder has been read. -/
structure Answered (suite : Suite Point Key) (mp mp' : MessagePattern) (i r i1 r1 i2 r2 : HandshakeState Point Key)
    (eR : Key) (first second : Bytes) : Prop where
  first : ActConveys suite mp i r i1 r1 first
  second : ActConveys suite mp' r1 i1 r2 i2 second
  paired : Paired suite i2.toSymmetricState r2.toSymmetricState
  initiator1 : i1.initiator = true
  responder1 : r1.initiator = false
  initiator2 : i2.initiator = true
  responder2 : r2.initiator = false
  versionI : i2.version = r.maxVersion
  versionR : r2.version = r.maxVersion
  localStatic : i2.localStatic = i.localStatic
  ephemeral : r2.localEphemeral = some eR
  remoteEphemeral : i2.remoteEphemeral = some (suite.pubKey eR)
  remoteI : i2.remoteStatic = some (suite.pubKey r.localStatic)
  remoteR : r2.remoteStatic = r.remoteStatic
  payload : i2.receivedPayload = carried r.maxVersion r.payloadToSend

theorem xx_answered (lawful : suite.Lawful) (prepared : Prepared suite i r eI eR iLater rLater)
    (compatible : Compatible i r) (sendable : Sendable r.maxVersion r.payloadToSend)
    (maskable : Maskable suite eI i.passphraseEntropy)
    (secret : suite.modNScalar r.passphraseEntropy = suite.modNScalar i.passphraseEntropy) :
    ∃ i1 r1 i2 r2 first second,
      Answered suite ⟨[.me],true,act1⟩ ⟨[.e,.ee,.s,.es],false,act2⟩ i r i1 r1 i2 r2 eR first second := by
  obtain ⟨lower,middle,known⟩ := compatible.opening prepared.startI
  obtain ⟨s1,t1,first,paired,act1⟩ :=
    xx_act1 lawful prepared.paired prepared.responder prepared.ephemeralI maskable lower middle known secret
  let i1 : HandshakeState Point Key := {i with toSymmetricState := s1, localEphemeral := some eI, ephemeralGen := iLater}
  let r1 : HandshakeState Point Key := {r with toSymmetricState := t1, remoteEphemeral := some (suite.pubKey eI)}
  have version : r1.version = r.maxVersion := prepared.startR
  obtain ⟨t2,s2,second,paired,act2⟩ := xx_act2 (w := r1) (r := i1) lawful paired.symm prepared.responder
    prepared.initiator prepared.ephemeralR rfl rfl (version ▸ compatible.middle) (version ▸ compatible.upper)
    (version ▸ compatible.known) (version ▸ sendable)
  exact ⟨i1,r1,_,_,first,second,act1,act2,paired.symm,prepared.initiator,prepared.responder,prepared.initiator,
    prepared.responder,version,version,rfl,rfl,rfl,rfl,rfl,version ▸ rfl⟩

theorem kk_answered (lawful : suite.Lawful) (prepared : Prepared suite i r eI eR iLater rLater)
    (compatible : Compatible i r) (sendable : Sendable r.maxVersion r.payloadToSend)
    (remoteI : i.remoteStatic = some (suite.pubKey r.localStatic))
    (remoteR : r.remoteStatic = some (suite.pubKey i.localStatic)) :
    ∃ i1 r1 i2 r2 first second,
      Answered suite ⟨[.e,.es,.ss],true,act1⟩ ⟨[.e,.ee,.se],false,act2⟩ i r i1 r1 i2 r2 eR first second := by
  obtain ⟨lower,middle,known⟩ := compatible.opening prepared.startI
  obtain ⟨s1,t1,first,paired,act1⟩ := kk_act1 lawful prepared.paired prepared.initiator prepared.responder
    prepared.ephemeralI lower middle known remoteI remoteR
  let i1 : HandshakeState Point Key := {i with toSymmetricState := s1, localEphemeral := some eI, ephemeralGen := iLater}
  let r1 : HandshakeState Point Key := {r with toSymmetricState := t1, remoteEphemeral := some (suite.pubKey eI)}
  have version : r1.version = r.maxVersion := prepared.startR
  obtain ⟨t2,s2,second,paired,act2⟩ := kk_act2 (w := r1) (r := i1) lawful paired.symm prepared.responder
    prepared.initiator prepared.ephemeralR rfl rfl remoteR (version ▸ compatible.middle) (version ▸ compatible.upper)
    (version ▸ compatible.known) (version ▸ sendable)
  exact ⟨i1,r1,_,_,first,second,act1,act2,paired.symm,prepared.initiator,prepared.responder,prepared.initiator,
    prepared.responder,version,version,rfl,rfl,rfl,remoteI,rfl,version ▸ rfl⟩

theorem xx_acts (lawful : suite.Lawful) (prepared : Prepared suite i r eI eR iLater rLater)
    (compatible : Compatible i r) (sendable : Sendable r.maxVersion r.payloadToSend)
    (maskable : Maskable suite eI i.passphraseEntropy)
    (secret : suite.modNScalar r.passphraseEntropy = suite.modNScalar i.passphraseEntropy) :
    ∃ i1 i2 i' r1 r2 r' first second third, XXActs suite i r i1 r1 i2 r2 i' r' first second third ∧
      Agreed suite i r i' r' := by
  obtain ⟨i1,r1,i2,r2,first,second,answered⟩ := xx_answered lawful prepared compatible sendable maskable secret
  have same : i2.version = r2.version := answered.versionI.trans answered.versionR.symm
  obtain ⟨s3,t3,third,paired,act3⟩ := xx_act3 lawful answered.paired answered.initiator2 answered.responder2
    answered.ephemeral answered.remoteEphemeral same (answered.versionI ▸ compatible.known)
  exact ⟨i1,i2,_,r1,r2,_,first,second,third,⟨answered.first,answered.second,act3,prepared.initiator,answered.initiator1,
    answered.initiator2,prepared.responder,answered.responder1,answered.responder2⟩,
    ⟨paired,answered.initiator2,answered.responder2,answered.versionI,answered.versionR,answered.remoteI,
      congrArg (fun key => some (suite.pubKey key)) answered.localStatic,answered.payload⟩⟩

theorem XXActs.exchange {i1 i2 i3 r1 r2 r3 : HandshakeState Point Key} {first second third : Bytes}
    (all : XXActs suite i r i1 r1 i2 r2 i3 r3 first second third) :
    Exchange suite XXPattern.pattern i r i3 r3 first second [third] := by
  refine ⟨?_,?_,?_,?_⟩
  · intro data
    rw [XXPattern,starting,acts_wrote all.first all.initiator.symm]
    exact (acts_frame suite _ ⟨i1,⟨⟨data,[]⟩,[],[first]⟩⟩).written
  · intro rest
    rw [XXPattern,starting,acts_took all.first (by simp [all.responder]),acts_wrote all.second all.responder1.symm]
    exact (acts_frame suite _ ⟨r2,⟨⟨rest,[]⟩,[],[second]⟩⟩).written
  · intro rest
    rw [XXPattern,starting,acts_wrote all.first all.initiator.symm,
      acts_took all.second (by simp [all.initiator1]),acts_wrote all.third all.initiator2.symm]
    rfl
  · intro rest
    rw [XXPattern,starting,acts_took all.first (by simp [all.responder]),acts_wrote all.second all.responder1.symm,
      List.flatten_singleton,acts_took all.third (by simp [all.responder2])]
    rfl

theorem kk_exchange (lawful : suite.Lawful) (prepared : Prepared suite i r eI eR iLater rLater)
    (compatible : Compatible i r) (sendable : Sendable r.maxVersion r.payloadToSend)
    (remoteI : i.remoteStatic = some (suite.pubKey r.localStatic))
    (remoteR : r.remoteStatic = some (suite.pubKey i.localStatic)) :
    ∃ i' r' first second third, Exchange suite KKPattern.pattern i r i' r' first second third ∧
      Agreed suite i r i' r' := by
  obtain ⟨i1,r1,i2,r2,first,second,answered⟩ := kk_answered lawful prepared compatible sendable remoteI remoteR
  refine ⟨i2,r2,first,second,[],⟨?_,?_,?_,?_⟩,
    ⟨answered.paired,answered.initiator2,answered.responder2,answered.versionI,answered.versionR,answered.remoteI,
      answered.remoteR.trans remoteR,answered.payload⟩⟩
  · intro data
    rw [KKPattern,starting,acts_wrote answered.first prepared.initiator.symm]
    exact (acts_frame suite _ ⟨i1,⟨⟨data,[]⟩,[],[first]⟩⟩).written
  · intro rest
    rw [KKPattern,starting,acts_took answered.first (by simp [prepared.responder]),
      acts_wrote answered.second answered.responder1.symm]
    exact List.prefix_refl _
  · intro rest
    rw [KKPattern,starting,acts_wrote answered.first prepared.initiator.symm,
      acts_took answered.second (by simp [answered.initiator1])]
    rfl
  · intro rest
    rw [KKPattern,starting,acts_took answered.first (by simp [prepared.responder]),
      acts_wrote answered.second answered.responder1.symm]
    rfl

end NodeConnect.Noise
