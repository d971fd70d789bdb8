import NodeConnect.Noise.Completed

/-! Two honest machines with a relay between them that may replace any byte. What the
acts mix into the transcript is agreed on. The version byte in front of each act is not
mixed in, so a relay can make the two sides complete the handshake with different
versions. -/
namespace NodeConnect.Noise
open Lib Fallible Handshake

variable {Point Key : Type} {suite : Suite Point Key}

def StoreCall.isRemote : StoreCall Point → Bool
  | .setRemote _ => true
  | .setAuthData _ => false

def StoresRemote (before after : Machine Point Key) : Prop :=
  ∃ call ∈ after.connData.stored.drop before.connData.stored.length, call.isRemote = true

/-- What two sides that completed a handshake should agree on. -/
structure Consistent (I R I' R' : Machine Point Key) : Prop where
  version : I'.version = R'.version
  handshakeDigest : I'.handshakeDigest = R'.handshakeDigest
  receivedPayload : I'.receivedPayload = R.payloadToSend
  stores : StoresRemote I I' ↔ StoresRemote R R'

/-- The relay left the version byte of act two alone, and a fixed-size payload loses nothing. -/
structure Faithful (R : Machine Point Key) (toInitiator : Bytes) : Prop where
  version : toInitiator.head? = some R.maxVersion
  payload : R.maxVersion = HandshakeVersion0 → R.payloadToSend.length < 2 ^ 16 ∧
    ∀ byte ∈ R.payloadToSend.drop (ActTwoPayloadSize - lengthHeaderSize), byte = 0

instance (before after : Machine Point Key) : Decidable (StoresRemote before after) :=
  inferInstanceAs (Decidable (∃ call ∈ _, _))

instance (I R I' R' : Machine Point Key) : Decidable (Consistent I R I' R') :=
  decidable_of_iff (I'.version = R'.version ∧ I'.handshakeDigest = R'.handshakeDigest ∧
      I'.receivedPayload = R.payloadToSend ∧ (StoresRemote I I' ↔ StoresRemote R R'))
    ⟨fun ⟨version,digest,payload,stores⟩ => ⟨version,digest,payload,stores⟩,
      fun ⟨version,digest,payload,stores⟩ => ⟨version,digest,payload,stores⟩⟩

instance (R : Machine Point Key) (toInitiator : Bytes) : Decidable (Faithful R toInitiator) :=
  decidable_of_iff (toInitiator.head? = some R.maxVersion ∧ (R.maxVersion = HandshakeVersion0 →
      R.payloadToSend.length < 2 ^ 16 ∧
      (R.payloadToSend.drop (ActTwoPayloadSize - lengthHeaderSize)).all (· == 0) = true)) <| by
    simp only [List.all_eq_true,beq_iff_eq]
    exact ⟨fun ⟨version,payload⟩ => ⟨version,payload⟩,fun ⟨version,payload⟩ => ⟨version,payload⟩⟩

theorem storesRemote_iff (suite : Suite Point Key) (m : Machine Point Key) (p : Party Point Key) :
    StoresRemote m (m.succeeding suite p).machine ↔ HandshakeVersion2 ≤ p.version := by
  unfold StoresRemote Machine.succeeding Machine.storing
  simp only [completed_handshake,List.drop_left]
  by_cases known : HandshakeVersion2 ≤ p.version
  · simp [known,StoreCall.isRemote]
  · by_cases role : p.initiator = true <;> simp [known,role,StoreCall.isRemote]

variable [AddCommGroup Point] {cfgI cfgR : BrontideMachineConfig Point Key} {I R : Machine Point Key} {linkI linkR : Link}

theorem Ends.agree (lawful : suite.Lawful) (ends : Ends suite cfgI cfgR I R) (matching : Matching suite I R)
    {p q : Party Point Key} (ranI : acts suite I.pattern.pattern (I.party linkI) = .ok () p)
    (ranR : acts suite R.pattern.pattern (R.party linkR) = .ok () q) (ideal : Ideal suite (p.calls ++ q.calls)) :
    linkI.incoming.data.head? = some p.version ∧ p.version ≤ HandshakeVersion2 ∧ q.version = R.maxVersion ∧
      (p.version = HandshakeVersion0 ↔ R.maxVersion = HandshakeVersion0) ∧ p.handshakeDigest = q.handshakeDigest ∧
      p.receivedPayload = carried p.version R.payloadToSend := by
  have builtI := newBrontideMachine_built cfgI I ends.madeI
  have builtR := newBrontideMachine_built cfgR R ends.madeR
  obtain ⟨roleI,roleR,_,startR⟩ := ends.roles
  rw [← startR]
  obtain ⟨patternI,patternR,_⟩ | ⟨patternI,patternR,_⟩ := matching
  · rw [patternI] at ranI
    rw [patternR] at ranR
    obtain ⟨base,tracks,fits⟩ := builtI.tracks lawful .XX patternI
    obtain ⟨base',tracks',fits'⟩ := builtR.tracks lawful .XX patternR
    exact views_agree lawful tracks tracks' fits fits' (xx_initiatorView lawful roleI ranI)
      (xx_responderView lawful roleR ranR) ideal rfl rfl (.inr ⟨[_],rfl⟩)
  · rw [patternI] at ranI
    rw [patternR] at ranR
    obtain ⟨base,tracks,fits⟩ := builtI.tracks lawful .KK patternI
    obtain ⟨base',tracks',fits'⟩ := builtR.tracks lawful .KK patternR
    exact views_agree lawful tracks tracks' fits fits' (kk_initiatorView lawful roleI ranI)
      (kk_responderView lawful roleR ranR) ideal rfl rfl (.inl rfl)

/-- Two sides that complete a handshake through a relay are consistent exactly when the
relay left the version byte of act two alone and the payload survives its encoding. -/
theorem relayed_consistent_iff (lawful : suite.Lawful) (ends : Ends suite cfgI cfgR I R) (matching : Matching suite I R)
    (okI : (I.doHandshake suite linkI).ok) (okR : (R.doHandshake suite linkR).ok)
    (ideal : Ideal suite ((I.doHandshake suite linkI).machine.calls ++ (R.doHandshake suite linkR).machine.calls)) :
    Consistent I R (I.doHandshake suite linkI).machine (R.doHandshake suite linkR).machine ↔
      Faithful R linkI.incoming.data := by
  obtain ⟨p,ranI,outcomeI⟩ := doHandshake_ok I linkI okI
  obtain ⟨q,ranR,outcomeR⟩ := doHandshake_ok R linkR okR
  rw [outcomeI,outcomeR] at ideal ⊢
  have calls : Ideal suite (p.calls ++ q.calls) := by
    simp only [Machine.succeeding,completed_handshake] at ideal
    exact ideal
  obtain ⟨head,bound,versionR,zero,digest,payload⟩ := ends.agree lawful matching ranI ranR calls
  have storesI := storesRemote_iff suite I p
  have storesR := storesRemote_iff suite R q
  constructor
  · rintro ⟨version,_,received,_⟩
    simp only [Machine.succeeding,completed_handshake] at version received
    rw [versionR] at version
    refine ⟨version ▸ head,?_⟩
    intro max
    rw [payload,carried,if_pos (zero.mpr max)] at received
    exact (unpack_fixedPayload _).mp received
  · rintro ⟨version,survives⟩
    have same : p.version = R.maxVersion := Option.some.inj (head.symm.trans version)
    refine ⟨?_,?_,?_,?_⟩
    · simp only [Machine.succeeding,completed_handshake]
      rw [same,versionR]
    · simp only [Machine.succeeding,completed_handshake]
      exact digest
    · simp only [Machine.succeeding,completed_handshake]
      rw [payload,carried]
      split_ifs with max
      · exact (unpack_fixedPayload _).mpr (survives (zero.mp max))
      · rfl
    · rw [storesI,storesR,same,versionR]

section Downgrade

def pairingClient : BrontideMachineConfig UInt8 UInt8 := plainEnd true ⟨5,none,[1,7],[],none,none,[]⟩ 0 2 11

def pairingServer : BrontideMachineConfig UInt8 UInt8 :=
  plainEnd false ⟨9,none,[1,7],ascii "macaroon",none,none,[]⟩ 0 2 13

/-- Both sides know the versions 0 to 2. The relay rewrites the version byte of act two
from 2 to 1 and that of act three back from 1 to 2. -/
theorem relayed_downgrade :
    ∃ I R : Machine UInt8 UInt8, Ends plainSuite pairingClient pairingServer I R ∧ Matching plainSuite I R ∧
    ∃ first second third : Bytes,
      let atClient := I.handshakeOn plainSuite (1 :: second)
      let atServer := R.handshakeOn plainSuite (first ++ 2 :: third)
      atClient.link.written = [first,1 :: third] ∧ atServer.link.written = [2 :: second] ∧
      atClient.ok ∧ atServer.ok ∧ Ideal plainSuite (atClient.machine.calls ++ atServer.machine.calls) ∧
      atClient.machine.version = 1 ∧ atServer.machine.version = 2 ∧
      ¬ StoresRemote I atClient.machine ∧ StoresRemote R atServer.machine ∧
      ¬ Consistent I R atClient.machine atServer.machine := by
  let I := plainMachine pairingClient
  let R := plainMachine pairingServer
  let first := (I.handshakeOn plainSuite []).link.written.flatten
  let second := (R.handshakeOn plainSuite first).link.written.flatten.tail
  let third := (((I.handshakeOn plainSuite (1 :: second)).link.written.drop 1).flatten).tail
  refine ⟨I,R,⟨rfl,rfl,rfl,rfl⟩,.inl ⟨rfl,rfl,rfl⟩,first,second,third,?_⟩
  decide +kernel

/-- Another relay rewrites the version byte of act one, which decides nothing. -/
theorem relayed_consistent_iff_untouched :
    ∃ I R : Machine UInt8 UInt8, Ends plainSuite pairingClient pairingServer I R ∧ Matching plainSuite I R ∧
    ∃ first second third : Bytes,
      let atClient := I.handshakeOn plainSuite second
      let atServer := R.handshakeOn plainSuite (1 :: first ++ third)
      atClient.link.written = [0 :: first,third] ∧ atServer.link.written = [second] ∧
      atClient.ok ∧ atServer.ok ∧ Ideal plainSuite (atClient.machine.calls ++ atServer.machine.calls) ∧
      Faithful R second ∧ Consistent I R atClient.machine atServer.machine := by
  have prepared : ∃ I R : Machine UInt8 UInt8, Ends plainSuite pairingClient pairingServer I R ∧ Matching plainSuite I R ∧
      ∃ first second third : Bytes, (I.handshakeOn plainSuite second).link.written = [0 :: first,third] ∧
        (R.handshakeOn plainSuite (1 :: first ++ third)).link.written = [second] ∧
        (I.handshakeOn plainSuite second).ok ∧ (R.handshakeOn plainSuite (1 :: first ++ third)).ok ∧
        Ideal plainSuite ((I.handshakeOn plainSuite second).machine.calls ++
          (R.handshakeOn plainSuite (1 :: first ++ third)).machine.calls) ∧ Faithful R second := by
    let I := plainMachine pairingClient
    let R := plainMachine pairingServer
    let first := (I.handshakeOn plainSuite []).link.written.flatten.tail
    let second := (R.handshakeOn plainSuite (1 :: first)).link.written.flatten
    let third := ((I.handshakeOn plainSuite second).link.written.drop 1).flatten
    refine ⟨I,R,⟨rfl,rfl,rfl,rfl⟩,.inl ⟨rfl,rfl,rfl⟩,first,second,third,?_⟩
    decide +kernel
  obtain ⟨I,R,ends,matching,first,second,third,sentI,sentR,okI,okR,ideal,faithful⟩ := prepared
  exact ⟨I,R,ends,matching,first,second,third,sentI,sentR,okI,okR,ideal,faithful,
    (relayed_consistent_iff plainSuite_lawful ends matching okI okR ideal).mpr faithful⟩

end Downgrade

end NodeConnect.Noise
