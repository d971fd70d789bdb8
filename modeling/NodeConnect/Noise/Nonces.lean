import NodeConnect.Lib.KeyedCounter
import NodeConnect.Noise.Sealed

/-! Keys and nonces over the life of a session. Both parties go through the same keys
and nonces in the handshake and take turns in sealing. In the transport phase each
direction has a cipher of its own, whose key is replaced every 1000 uses. -/
namespace NodeConnect.Noise
open Lib Fallible Handshake KeyedCounter

variable {Point Key : Type} {suite : Suite Point Key}

def Call.event? : Call → Option (Event Block)
  | .hash _ => none
  | .install key => some (.install key)
  | .sealed key nonce _ _ => some (.use key nonce)
  | .opened key nonce _ _ _ => some (.use key nonce)

def Call.sealing? : Call → Option (Block × Nat)
  | .sealed key nonce _ _ => some (key,nonce)
  | _ => none

def events (calls : List Call) : List (Event Block) := calls.filterMap Call.event?

def seals (calls : List Call) : List (Block × Nat) := calls.filterMap Call.sealing?

namespace CipherState

def Fresh (c : CipherState) : Prop := KeyedCounter.Fresh (events c.calls) c.secretKey c.nonce

namespace Fresh

variable {c : CipherState}

theorem hash (fresh : c.Fresh) (input : Bytes) : (c.log (.hash input)).Fresh := by
  unfold Fresh CipherState.log events at *
  rw [List.filterMap_append]
  exact (List.append_nil (events c.calls)).symm ▸ fresh

theorem initializeKey (fresh : KeyedCounter.Fresh (events c.calls) c.secretKey c.nonce) (key : Block) :
    (c.initializeKey key).Fresh := by
  have installed := fresh.install key
  unfold Fresh
  rw [CipherState.initializeKey,CipherState.log,events,List.filterMap_append]
  exact installed

theorem bumpNonce (next : KeyedCounter.Fresh (events c.calls) c.secretKey (c.nonce + 1)) : (c.bumpNonce suite).Fresh := by
  dsimp only [CipherState.bumpNonce]
  split_ifs
  · exact initializeKey (c := {c with nonce := c.nonce + 1, salt := _}) next _
  · exact next

theorem logged (fresh : c.Fresh) (call : Call) (uses : call.event? = some (.use c.secretKey c.nonce)) :
    ((c.log call).bumpNonce suite).Fresh := by
  apply bumpNonce
  have used := fresh.use
  rw [CipherState.log,events,List.filterMap_append]
  simp only [List.filterMap_cons,uses,List.filterMap_nil]
  exact used

theorem encrypt (fresh : c.Fresh) (ad plaintext : Bytes) : (c.encrypt suite ad plaintext).2.Fresh := fresh.logged _ rfl

theorem decrypt (fresh : c.Fresh) (ad ciphertext : Bytes) : (c.decrypt suite ad ciphertext).2.Fresh := by
  unfold CipherState.decrypt
  split
  · exact fresh.logged _ rfl
  · exact bumpNonce fresh.skip

end Fresh

end CipherState

theorem fresh_keptBy (suite : Suite Point Key) :
    KeptBy suite (fun p q : Party Point Key => p.toCipherState.Fresh → q.toCipherState.Fresh) where
  refl := fun _ fresh => fresh
  trans := fun _ _ _ first second fresh => second (first fresh)
  mixHash := fun _ _ fresh => fresh.hash _
  mixKey := fun _ _ fresh => CipherState.Fresh.initializeKey fresh _
  encryptAndHash := fun plaintext p fresh => (fresh.encrypt _ plaintext).hash _
  decryptAndHash := by
    intro ciphertext p fresh
    have after : (p.toSymmetricState.decryptAndHash suite ciphertext).2.toCipherState.Fresh := by
      have decrypted : (p.toCipherState.decrypt suite p.handshakeDigest.val ciphertext).2.Fresh := fresh.decrypt _ _
      unfold SymmetricState.decryptAndHash
      split
      next outcome =>
        rw [outcome] at decrypted
        exact decrypted.hash _
      next outcome =>
        rw [outcome] at decrypted
        exact decrypted
    unfold Handshake.decryptAndHash
    split
    next outcome =>
      rw [outcome] at after
      exact after
    next outcome =>
      rw [outcome] at after
      exact after
  newEphemeral := by
    intro p fresh
    unfold Handshake.newEphemeral
    split <;> exact fresh
  remoteEphemeral := fun _ _ fresh => fresh

theorem startState_fresh (name : PatternName) : (startState suite name).toCipherState.Fresh := by
  have installed : (({} : SymmetricState).initializeSymmetric suite (protocolName name)).toCipherState.Fresh :=
    KeyedCounter.Fresh.first Block.zero
  exact installed.hash _

theorem Built.fresh {cfg : BrontideMachineConfig Point Key} {m : Machine Point Key} (built : Built suite cfg m)
    (known : m.pattern = XXPattern ∨ m.pattern = KKPattern) : m.toCipherState.Fresh := by
  rcases known with pattern | pattern
  · rw [built.symmetricXX (built.pattern.symm.trans pattern)]
    exact startState_fresh .XX
  · obtain ⟨remote,_,state⟩ := built.symmetricKK (built.pattern.symm.trans pattern)
    rw [state]
    exact ((startState_fresh .KK).hash _).hash _

theorem acts_fresh [AddCommGroup Point] (patterns : List MessagePattern) :
    Keeps (fun p q : Party Point Key => p.toCipherState.Fresh → q.toCipherState.Fresh) (acts suite patterns) := by
  refine (fresh_keptBy suite).acts ?_ ?_ ?_ (fun _ _ fresh => fresh) patterns fun _ _ _ _ _ fresh => fresh
  · intro k p fresh
    unfold Handshake.readBytes
    split <;> exact fresh
  · intro bytes p fresh
    unfold Handshake.writeBytes
    split <;> exact fresh
  · intro version actNum p fresh
    unfold Handshake.checkVersion
    rw [get_bind]
    split_ifs <;> exact fresh

section Ratchet

def ratchet (suite : Suite Point Key) (salt key : Block) : Nat → Block × Block
  | 0 => (salt,key)
  | n + 1 => suite.hkdf (ratchet suite salt key n).2.val (ratchet suite salt key n).1

/-- Where a cipher stands that started with `salt` and `key` and has sealed `n` times. -/
structure Ratcheted (suite : Suite Point Key) (salt key : Block) (c : CipherState) : Prop where
  nonce : c.nonce = (seals c.calls).length % keyRotationInterval
  position : (c.salt,c.secretKey) = ratchet suite salt key ((seals c.calls).length / keyRotationInterval)
  each : ∀ i pair, (seals c.calls)[i]? = some pair →
    pair = ((ratchet suite salt key (i / keyRotationInterval)).2,i % keyRotationInterval)

theorem bumpNonce_seals (c : CipherState) : seals (c.bumpNonce suite).calls = seals c.calls := by
  dsimp only [CipherState.bumpNonce]
  split_ifs
  · simp [CipherState.rotateKey,CipherState.initializeKey,CipherState.log,seals,Call.sealing?]
  · rfl

theorem encrypt_seals (c : CipherState) (ad plaintext : Bytes) :
    seals (c.encrypt suite ad plaintext).2.calls = seals c.calls ++ [(c.secretKey,c.nonce)] := by
  rw [CipherState.encrypt,bumpNonce_seals,CipherState.log,seals,List.filterMap_append]
  rfl

theorem Ratcheted.encrypt {salt key : Block} {c : CipherState} (ratcheted : Ratcheted suite salt key c)
    (ad plaintext : Bytes) : Ratcheted suite salt key (c.encrypt suite ad plaintext).2 := by
  let n := (seals c.calls).length
  have grown : seals (c.encrypt suite ad plaintext).2.calls = seals c.calls ++ [(c.secretKey,c.nonce)] :=
    encrypt_seals c ad plaintext
  have size : (seals (c.encrypt suite ad plaintext).2.calls).length = n + 1 := by
    rw [grown,List.length_append,List.length_singleton]
  have nonce : c.nonce = n % keyRotationInterval := ratcheted.nonce
  have position : (c.salt,c.secretKey) = ratchet suite salt key (n / keyRotationInterval) := ratcheted.position
  have moved : (c.encrypt suite ad plaintext).2.nonce = (n + 1) % keyRotationInterval ∧
      ((c.encrypt suite ad plaintext).2.salt,(c.encrypt suite ad plaintext).2.secretKey) =
        ratchet suite salt key ((n + 1) / keyRotationInterval) := by
    unfold CipherState.encrypt CipherState.bumpNonce
    dsimp only [CipherState.log]
    unfold keyRotationInterval at nonce position ⊢
    split_ifs with last
    · -- The thousandth use of a key is its last one.
      rw [show (n + 1) / 1000 = n / 1000 + 1 by omega,ratchet,← position]
      exact ⟨show 0 = (n + 1) % 1000 by omega,rfl⟩
    · rw [show (n + 1) / 1000 = n / 1000 by omega,← position]
      exact ⟨show c.nonce + 1 = (n + 1) % 1000 by omega,rfl⟩
  refine ⟨size ▸ moved.1,size ▸ moved.2,?_⟩
  rw [grown]
  intro i pair here
  rcases Nat.lt_or_ge i n with earlier | last
  · rw [List.getElem?_append_left earlier] at here
    exact ratcheted.each i pair here
  · have bound := (List.getElem?_eq_some_iff.mp here).1
    rw [List.length_append,List.length_singleton] at bound
    obtain rfl : i = n := Nat.le_antisymm (Nat.le_of_lt_succ bound) last
    rw [List.getElem?_append_right (Nat.le_refl _),Nat.sub_self] at here
    cases here
    rw [← position,← nonce]

end Ratchet

theorem seals_subset (calls : List Call) (pair : Block × Nat)
    (member : pair ∈ seals calls ++ seals (calls.map (Call.mirror suite))) : pair ∈ used (events calls) := by
  have used_of (call : Call) (called : call ∈ calls) (uses : call.event? = some (.use pair.1 pair.2)) :
      pair ∈ used (events calls) :=
    List.mem_filterMap.mpr ⟨_,List.mem_filterMap.mpr ⟨call,called,uses⟩,rfl⟩
  rcases List.mem_append.mp member with own | other
  · obtain ⟨call,called,sealing⟩ := List.mem_filterMap.mp own
    cases call with
    | «sealed» key nonce ad plaintext =>
      cases sealing
      exact used_of _ called rfl
    | _ => cases sealing
  · rw [seals,List.filterMap_map] at other
    obtain ⟨call,called,sealing⟩ := List.mem_filterMap.mp other
    cases call with
    | opened key nonce ad ciphertext plaintext =>
      cases sealing
      exact used_of _ called rfl
    | _ => cases sealing

theorem handshake_seals_nodup (calls : List Call) (once : (used (events calls)).Nodup) :
    (seals calls ++ seals (calls.map (Call.mirror suite))).Nodup := by
  induction calls with
  | nil => exact List.nodup_nil
  | cons call calls ih =>
    cases call with
    | hash input => exact ih once
    | install key => exact ih once
    | «sealed» key nonce ad plaintext =>
      obtain ⟨new,rest⟩ := List.nodup_cons.mp once
      exact List.nodup_cons.mpr ⟨fun member => new (seals_subset calls _ member),ih rest⟩
    | opened key nonce ad ciphertext plaintext =>
      obtain ⟨new,rest⟩ := List.nodup_cons.mp once
      exact List.nodup_middle.mpr (List.nodup_cons.mpr ⟨fun member => new (seals_subset calls _ member),ih rest⟩)

theorem split_sendCipher (m : Machine Point Key) :
    (m.split suite).sendCipher = ({} : CipherState).initializeKeyWithSalt m.chainingKey
      (if m.initiator then (suite.hkdf [] m.chainingKey).1 else (suite.hkdf [] m.chainingKey).2) := by
  unfold Machine.split
  dsimp only
  split_ifs <;> rfl

theorem initializeKeyWithSalt_ratcheted (salt key : Block) :
    Ratcheted suite salt key (({} : CipherState).initializeKeyWithSalt salt key) := by
  refine ⟨rfl,?_,nofun⟩
  change (salt,key) = ratchet suite salt key (0 / keyRotationInterval)
  rw [Nat.zero_div]
  rfl

theorem initializeKeyWithSalt_fresh (salt key : Block) : (({} : CipherState).initializeKeyWithSalt salt key).Fresh :=
  KeyedCounter.Fresh.first key

theorem split_recvCipher_seals (m : Machine Point Key) : seals (m.split suite).recvCipher.calls = [] := by
  unfold Machine.split
  dsimp only
  split_ifs <;> rfl

theorem seals_append (first second : List Call) : seals (first ++ second) = seals first ++ seals second :=
  List.filterMap_append

theorem installed_append (first second : List Call) :
    installed (events (first ++ second)) = installed (events first) ++ installed (events second) := by
  rw [events,List.filterMap_append]
  exact List.filterMap_append

theorem seals_sublist (calls : List Call) : (seals calls).Sublist (used (events calls)) := by
  induction calls with
  | nil => exact .slnil
  | cons call calls ih =>
    cases call with
    | hash input => exact ih
    | install key => exact ih
    | «sealed» key nonce ad plaintext => exact ih.cons_cons _
    | opened key nonce ad ciphertext plaintext => exact ih.cons _

structure Sending (suite : Suite Point Key) (p : Party Point Key) (key : Block) (m : Machine Point Key) : Prop where
  calls : m.calls = p.calls
  receives : seals m.recvCipher.calls = []
  ratcheted : Ratcheted suite p.chainingKey key m.sendCipher
  fresh : m.sendCipher.Fresh

theorem succeeding_sending (suite : Suite Point Key) (m : Machine Point Key) (p : Party Point Key) (calls : List SendCall) :
    Sending suite p (if p.initiator then (suite.hkdf [] p.chainingKey).1 else (suite.hkdf [] p.chainingKey).2)
      (calls.foldl (Sender.step suite) {machine := (m.succeeding suite p).machine}).machine := by
  obtain ⟨handshake,receives⟩ := Sender.run_kept suite {machine := (m.succeeding suite p).machine} calls
  have sends : (m.succeeding suite p).machine.sendCipher = _ := split_sendCipher {m with toHandshakeState := p.toHandshakeState}
  constructor
  · rw [handshake]
    exact congrArg (fun state => state.calls) (completed_handshake m p)
  · rw [receives]
    exact split_recvCipher_seals _
  · apply Sender.run_sendCipher (fun c ad plaintext ratcheted => ratcheted.encrypt ad plaintext)
    rw [sends]
    exact initializeKeyWithSalt_ratcheted _ _
  · apply Sender.run_sendCipher (fun c ad plaintext fresh => fresh.encrypt ad plaintext)
    rw [sends]
    exact initializeKeyWithSalt_fresh _ _

/-- Three fresh logs without a common key, the first one shared by two parties. -/
theorem seals_nodup {handshake sendI sendR : CipherState} (fresh : handshake.Fresh) (freshI : sendI.Fresh)
    (freshR : sendR.Fresh) (distinct : (installed (events (handshake.calls ++ sendI.calls ++ sendR.calls))).Nodup) :
    (seals handshake.calls ++ seals (handshake.calls.map (Call.mirror suite)) ++ seals sendI.calls ++
      seals sendR.calls).Nodup := by
  rw [installed_append,installed_append] at distinct
  obtain ⟨front,onceR,apartR⟩ := List.nodup_append'.mp distinct
  obtain ⟨once,onceI,apartI⟩ := List.nodup_append'.mp front
  obtain ⟨apart,apart'⟩ := List.disjoint_append_left.mp apartR
  have shared (pair : Block × Nat)
      (member : pair ∈ seals handshake.calls ++ seals (handshake.calls.map (Call.mirror suite))) :
      pair ∈ used (events handshake.calls) := seals_subset _ pair member
  refine ((handshake_seals_nodup _ (fresh.once once)).append ((freshI.once onceI).sublist (seals_sublist _)) ?_).append
    ((freshR.once onceR).sublist (seals_sublist _)) ?_
  · intro pair member member'
    exact used_disjoint fresh freshI apartI (shared pair member) ((seals_sublist _).subset member')
  · intro pair member member'
    rcases List.mem_append.mp member with inHandshake | inI
    · exact used_disjoint fresh freshR apart (shared pair inHandshake) ((seals_sublist _).subset member')
    · exact used_disjoint freshI freshR apart' ((seals_sublist _).subset inI) ((seals_sublist _).subset member')

section Session

variable [AddCommGroup Point] {cfgI cfgR : BrontideMachineConfig Point Key} {I R : Machine Point Key}

omit [AddCommGroup Point] in
theorem Matching.patterns (matching : Matching suite I R) :
    (I.pattern = XXPattern ∨ I.pattern = KKPattern) ∧ (R.pattern = XXPattern ∨ R.pattern = KKPattern) := by
  rcases matching with ⟨patternI,patternR,_⟩ | ⟨patternI,patternR,_⟩
  · exact ⟨.inl patternI,.inl patternR⟩
  · exact ⟨.inr patternI,.inr patternR⟩

theorem Ends.fresh (ends : Ends suite cfgI cfgR I R) (matching : Matching suite I R) {incoming : Bytes} {p : Party Point Key}
    (outcome : I.handshakeOn suite incoming = I.succeeding suite p) : p.toCipherState.Fresh := by
  have initial := (newBrontideMachine_built cfgI I ends.madeI).fresh matching.patterns.1
  have ok : (I.handshakeOn suite incoming).ok := by
    rw [outcome]
    rfl
  obtain ⟨p',ran,outcome'⟩ := doHandshake_ok I _ ok
  have same : (I.succeeding suite p).machine.toHandshakeState = (I.succeeding suite p').machine.toHandshakeState :=
    congrArg (fun result => result.machine.toHandshakeState) (outcome.symm.trans outcome')
  dsimp only [Machine.succeeding] at same
  rw [completed_handshake,completed_handshake] at same
  rw [same]
  exact (acts_fresh _).of_ok ran initial

/-- Through a session and whatever is sent after it, the n-th seal of a direction uses
nonce `n % 1000` under the key after `n / 1000` rotations; and if no key was installed
twice, no two seals of the handshake or of either direction use the same key and nonce.
The seals are those whose ciphertexts are written. -/
theorem nonces_never_repeat (lawful : suite.Lawful) (ends : Ends suite cfgI cfgR I R) (matching : Matching suite I R)
    (readyI : Ready I) (readyR : Ready R) (maskable : I.Maskable suite)
    (sendable : Sendable R.maxVersion R.payloadToSend)
    (compatible : Compatible I.toHandshakeState R.toHandshakeState) {toInitiator toResponder : Bytes}
    (session : Session suite I R toInitiator toResponder) (callsI callsR : List SendCall) :
    let I' := (I.handshakeOn suite toInitiator).machine
    let R' := (R.handshakeOn suite toResponder).machine
    let senderI := callsI.foldl (Sender.step suite) {machine := I'}
    let senderR := callsR.foldl (Sender.step suite) {machine := R'}
    let i := senderI.machine
    let r := senderR.machine
    (∀ n pair, (seals i.sendCipher.calls)[n]? = some pair → pair =
      ((ratchet suite I'.chainingKey (suite.hkdf [] I'.chainingKey).1 (n / keyRotationInterval)).2,
        n % keyRotationInterval)) ∧
    (∀ n pair, (seals r.sendCipher.calls)[n]? = some pair → pair =
      ((ratchet suite R'.chainingKey (suite.hkdf [] R'.chainingKey).2 (n / keyRotationInterval)).2,
        n % keyRotationInterval)) ∧
    ((installed (events (i.calls ++ i.sendCipher.calls ++ r.sendCipher.calls))).Nodup →
      (seals (i.calls ++ r.calls ++ i.sendCipher.calls ++ r.sendCipher.calls ++ i.recvCipher.calls ++
        r.recvCipher.calls)).Nodup) ∧
    SealsWritten suite (I.handshakeOn suite toInitiator) senderI ∧
    SealsWritten suite (R.handshakeOn suite toResponder) senderR := by
  obtain ⟨p,q,outcomeI,outcomeR,agreed⟩ := ends.completes lawful matching readyI readyR maskable sendable compatible session
  have sendingI := succeeding_sending suite I p callsI
  have sendingR := succeeding_sending suite R q callsR
  rw [if_pos agreed.initiator] at sendingI
  rw [if_neg (by simp [agreed.responder])] at sendingR
  have fresh := ends.fresh matching outcomeI
  have writtenI := (newBrontideMachine_built cfgI I ends.madeI).sealsWritten matching.patterns.1
    (by rw [outcomeI]; rfl) callsI
  have writtenR := (newBrontideMachine_built cfgR R ends.madeR).sealsWritten matching.patterns.2
    (by rw [outcomeR]; rfl) callsR
  have chainI : (I.succeeding suite p).machine.chainingKey = p.chainingKey :=
    congrArg (fun state => state.chainingKey) (completed_handshake I p)
  have chainR : (R.succeeding suite q).machine.chainingKey = q.chainingKey :=
    congrArg (fun state => state.chainingKey) (completed_handshake R q)
  rw [outcomeI] at writtenI
  rw [outcomeR] at writtenR
  rw [outcomeI,outcomeR]
  dsimp only
  rw [chainI,chainR]
  refine ⟨sendingI.ratcheted.each,sendingR.ratcheted.each,?_,writtenI,writtenR⟩
  rw [sendingI.calls,sendingR.calls]
  intro distinct
  rw [seals_append,seals_append,seals_append,seals_append,seals_append,sendingI.receives,sendingR.receives,
    List.append_nil,List.append_nil,agreed.paired.cipher.calls]
  exact seals_nodup fresh sendingI.fresh sendingR.fresh distinct

end Session

/-- A pairing after which the client sends one message, gets another one rejected and
flushes, and the server sends two. -/
theorem nonces_never_repeat_pairing :
    ∃ I R : Machine UInt8 UInt8,
      Ends plainSuite (plainEnd true ⟨5,none,[1,7],[],none,none,[]⟩ 0 2 11)
        (plainEnd false ⟨9,none,[1,7],ascii "macaroon",none,none,[]⟩ 0 2 13) I R ∧
    ∃ (toInitiator toResponder : Bytes) (callsI callsR : List SendCall), Session plainSuite I R toInitiator toResponder ∧
      let i := (callsI.foldl (Sender.step plainSuite) {machine := (I.handshakeOn plainSuite toInitiator).machine}).machine
      let r := (callsR.foldl (Sender.step plainSuite) {machine := (R.handshakeOn plainSuite toResponder).machine}).machine
      (seals (i.calls ++ r.calls)).length = 6 ∧ (seals i.sendCipher.calls).length = 2 ∧
      (seals r.sendCipher.calls).length = 4 ∧
      (installed (events (i.calls ++ i.sendCipher.calls ++ r.sendCipher.calls))).Nodup ∧
      (seals (i.calls ++ r.calls ++ i.sendCipher.calls ++ r.sendCipher.calls ++ i.recvCipher.calls ++
        r.recvCipher.calls)).Nodup := by
  have prepared : ∃ I R : Machine UInt8 UInt8,
      Ends plainSuite (plainEnd true ⟨5,none,[1,7],[],none,none,[]⟩ 0 2 11)
        (plainEnd false ⟨9,none,[1,7],ascii "macaroon",none,none,[]⟩ 0 2 13) I R ∧
      Matching plainSuite I R ∧ Ready I ∧ Ready R ∧ I.Maskable plainSuite ∧ Sendable R.maxVersion R.payloadToSend ∧
      Compatible I.toHandshakeState R.toHandshakeState ∧
      ∃ (toInitiator toResponder : Bytes) (callsI callsR : List SendCall),
        (I.handshakeOn plainSuite toInitiator).link.written.flatten = toResponder ∧
        (R.handshakeOn plainSuite toResponder).link.written.flatten = toInitiator ∧
        let i := (callsI.foldl (Sender.step plainSuite) {machine := (I.handshakeOn plainSuite toInitiator).machine}).machine
        let r := (callsR.foldl (Sender.step plainSuite) {machine := (R.handshakeOn plainSuite toResponder).machine}).machine
        (seals (i.calls ++ r.calls)).length = 6 ∧ (seals i.sendCipher.calls).length = 2 ∧
        (seals r.sendCipher.calls).length = 4 ∧
        (installed (events (i.calls ++ i.sendCipher.calls ++ r.sendCipher.calls))).Nodup := by
    let I := plainMachine (plainEnd true ⟨5,none,[1,7],[],none,none,[]⟩ 0 2 11)
    let R := plainMachine (plainEnd false ⟨9,none,[1,7],ascii "macaroon",none,none,[]⟩ 0 2 13)
    let second := (R.handshakeOn plainSuite (I.handshakeOn plainSuite []).link.written.flatten).link.written.flatten
    refine ⟨I,R,⟨rfl,rfl,rfl,rfl⟩,.inl ⟨rfl,rfl,rfl⟩,⟨⟨_,_,rfl⟩,nofun,nofun⟩,⟨⟨_,_,rfl⟩,nofun,nofun⟩,
      ?_,?_,?_,
      second,(I.handshakeOn plainSuite second).link.written.flatten,
      [.writeMessage [1,2],.writeMessage [3],.flush ⟨100,false⟩ ⟨100,false⟩],
      [.writeMessage [4],.flush ⟨100,false⟩ ⟨100,false⟩,.writeMessage []],?_⟩
    · rintro _ e later ⟨⟩
      decide +kernel
    · unfold Sendable
      decide
    · constructor <;> decide
    · decide +kernel
  obtain ⟨I,R,ends,matching,readyI,readyR,maskable,sendable,compatible,toInitiator,toResponder,callsI,callsR,fromI,fromR,
    handshake,sentI,sentR,distinct⟩ := prepared
  obtain ⟨_,_,unique,_⟩ := nonces_never_repeat plainSuite_lawful ends matching readyI readyR maskable sendable compatible
    ⟨fromI,fromR⟩ callsI callsR
  exact ⟨I,R,ends,toInitiator,toResponder,callsI,callsR,⟨fromI,fromR⟩,handshake,sentI,sentR,distinct,unique distinct⟩

end NodeConnect.Noise
