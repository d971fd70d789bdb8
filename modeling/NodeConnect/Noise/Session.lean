import NodeConnect.Noise.Agreement

/-! Sessions of two honest machines. Whether `DoHandshake` succeeds on both ends is a
question of the version ranges alone, and after it both ends hold the same session. -/
namespace NodeConnect.Noise
open Lib Fallible Handshake

variable {Point Key : Type} {suite : Suite Point Key}

/-- Results of `NewBrontideMachine` for an initiator and for a responder. -/
structure Ends (suite : Suite Point Key) (cfgI cfgR : BrontideMachineConfig Point Key) (I R : Machine Point Key) :
    Prop where
  madeI : newBrontideMachine suite cfgI = .ok I
  madeR : newBrontideMachine suite cfgR = .ok R
  roleI : cfgI.initiator = true
  roleR : cfgR.initiator = false

/-- Both ends run one pattern with matching secrets: the same stretched passphrase, or
the static key of each other. -/
def Matching (suite : Suite Point Key) (I R : Machine Point Key) : Prop :=
  (I.pattern = XXPattern ∧ R.pattern = XXPattern ∧ I.passphraseEntropy = R.passphraseEntropy) ∨
  (I.pattern = KKPattern ∧ R.pattern = KKPattern ∧ I.remoteStatic = some (suite.pubKey R.localStatic) ∧
    R.remoteStatic = some (suite.pubKey I.localStatic))

/-- The machine gets an ephemeral key, and its callbacks succeed. -/
structure Ready (m : Machine Point Key) : Prop where
  ephemeral : ∃ e later, m.ephemeralGen = some e :: later
  onRemoteStatic : ∀ callback, m.connData.onRemoteStatic = some callback → ∀ key, callback key = true
  onAuthData : ∀ callback, m.connData.onAuthData = some callback → ∀ data, callback data = true

/-- In a pairing, the ephemeral key that the initiator gets is masked to a point that can be parsed. -/
def Machine.Maskable [AddCommGroup Point] (suite : Suite Point Key) (m : Machine Point Key) : Prop :=
  m.pattern = XXPattern → ∀ e later, m.ephemeralGen = some e :: later → Noise.Maskable suite e m.passphraseEntropy

/-- What the ends `I'` and `R'` hold after the handshake of `I` and `R`. -/
structure Established (suite : Suite Point Key) (I R I' R' : Machine Point Key) : Prop where
  versionI : I'.version = R.maxVersion
  versionR : R'.version = R.maxVersion
  handshakeDigest : I'.handshakeDigest = R'.handshakeDigest
  chainingKey : I'.chainingKey = R'.chainingKey
  initiatorSends : I'.sendCipher = R'.recvCipher
  responderSends : I'.recvCipher = R'.sendCipher
  nonces : I'.sendCipher.nonce = 0 ∧ I'.recvCipher.nonce = 0
  remoteI : I'.remoteStatic = some (suite.pubKey R.localStatic)
  remoteR : R'.remoteStatic = some (suite.pubKey I.localStatic)
  receivedPayload : I'.receivedPayload = R.payloadToSend
  authData : I'.connData.authData = R.payloadToSend
  storedI : I'.connData.remoteKey =
    if HandshakeVersion2 ≤ R.maxVersion then some (suite.pubKey R.localStatic) else I.connData.remoteKey
  storedR : R'.connData.remoteKey =
    if HandshakeVersion2 ≤ R.maxVersion then some (suite.pubKey I.localStatic) else R.connData.remoteKey

def ConnData.RefusesRemote (c : ConnData Point Key) (key : Option Point) : Prop :=
  ∃ callback, c.onRemoteStatic = some callback ∧ callback key = false

def ConnData.RefusesAuthData (c : ConnData Point Key) (data : Bytes) : Prop :=
  ∃ callback, c.onAuthData = some callback ∧ callback data = false

theorem setRemote_cases (c : ConnData Point Key) (key : Option Point) :
    (c.RefusesRemote key ∧
      ConnData.setRemote key c = .error .setRemote {c with stored := c.stored ++ [.setRemote key]}) ∨
    (¬ c.RefusesRemote key ∧
      ConnData.setRemote key c = .ok () {c with stored := c.stored ++ [.setRemote key], remoteKey := key}) := by
  unfold ConnData.RefusesRemote
  rw [ConnData.setRemote,modify_bind,get_bind]
  cases callback : c.onRemoteStatic with
  | none => exact .inr ⟨nofun,rfl⟩
  | some succeeds =>
    cases answer : succeeds key with
    | false =>
      simp only [answer,Bool.false_eq_true,not_false_eq_true,if_true]
      exact .inl ⟨⟨succeeds,rfl,answer⟩,rfl⟩
    | true =>
      simp only [answer,not_true_eq_false,if_false]
      refine .inr ⟨?_,rfl⟩
      rintro ⟨_,⟨⟩,refused⟩
      exact absurd (answer.symm.trans refused) (by decide)

theorem setAuthData_cases (c : ConnData Point Key) (data : Bytes) :
    (c.RefusesAuthData data ∧
      ConnData.setAuthData data c = .error .setAuthData {c with stored := c.stored ++ [.setAuthData data]}) ∨
    (¬ c.RefusesAuthData data ∧
      ConnData.setAuthData data c = .ok () {c with stored := c.stored ++ [.setAuthData data], authData := data}) := by
  unfold ConnData.RefusesAuthData
  rw [ConnData.setAuthData,modify_bind,get_bind]
  cases callback : c.onAuthData with
  | none => exact .inr ⟨nofun,rfl⟩
  | some succeeds =>
    cases answer : succeeds data with
    | false =>
      simp only [answer,Bool.false_eq_true,not_false_eq_true,if_true]
      exact .inl ⟨⟨succeeds,rfl,answer⟩,rfl⟩
    | true =>
      simp only [answer,not_true_eq_false,if_false]
      refine .inr ⟨?_,rfl⟩
      rintro ⟨_,⟨⟩,refused⟩
      exact absurd (answer.symm.trans refused) (by decide)

theorem setRemote_ok {c c' : ConnData Point Key} {key : Option Point} {value : Unit}
    (set : ConnData.setRemote key c = .ok value c') :
    c' = {c with stored := c.stored ++ [.setRemote key], remoteKey := key} := by
  obtain ⟨_,ran⟩ | ⟨_,ran⟩ := setRemote_cases c key <;> cases ran.symm.trans set
  rfl

theorem setAuthData_ok {c c' : ConnData Point Key} {data : Bytes} {value : Unit}
    (set : ConnData.setAuthData data c = .ok value c') :
    c' = {c with stored := c.stored ++ [.setAuthData data], authData := data} := by
  obtain ⟨_,ran⟩ | ⟨_,ran⟩ := setAuthData_cases c data <;> cases ran.symm.trans set
  rfl

theorem setRemote_ready (c : ConnData Point Key) (key : Option Point)
    (ready : ∀ callback, c.onRemoteStatic = some callback → ∀ key, callback key = true) :
    ConnData.setRemote key c = .ok () {c with stored := c.stored ++ [.setRemote key], remoteKey := key} := by
  obtain ⟨⟨callback,set,refused⟩,_⟩ | ⟨_,ran⟩ := setRemote_cases c key
  · exact absurd ((ready callback set key).symm.trans refused) (by decide)
  · exact ran

theorem setAuthData_ready (c : ConnData Point Key) (data : Bytes)
    (ready : ∀ callback, c.onAuthData = some callback → ∀ data, callback data = true) :
    ConnData.setAuthData data c = .ok () {c with stored := c.stored ++ [.setAuthData data], authData := data} := by
  obtain ⟨⟨callback,set,refused⟩,_⟩ | ⟨_,ran⟩ := setAuthData_cases c data
  · exact absurd ((ready callback set data).symm.trans refused) (by decide)
  · exact ran

/-- What a handshake stores when no callback fails. -/
def Machine.storing (m : Machine Point Key) (c : ConnData Point Key) : ConnData Point Key :=
  {c with
    remoteKey := if HandshakeVersion2 ≤ m.version then m.remoteStatic else c.remoteKey
    authData := if m.initiator then m.receivedPayload else c.authData
    stored := c.stored ++ ((if HandshakeVersion2 ≤ m.version then [.setRemote m.remoteStatic] else []) ++
      if m.initiator then [.setAuthData m.receivedPayload] else [])}

theorem store_ok {m : Machine Point Key} {c c' : ConnData Point Key} {value : Unit} (stored : m.store c = .ok value c') :
    c' = m.storing c := by
  unfold Machine.store at stored
  unfold Machine.storing
  split_ifs at stored ⊢ with known role role
  · obtain ⟨_,middle,remote,auth⟩ := (bind_eq_ok _ _ _ _ _).mp stored
    rw [setAuthData_ok auth,setRemote_ok remote]
    simp
  · obtain ⟨_,middle,remote,done⟩ := (bind_eq_ok _ _ _ _ _).mp stored
    cases done
    rw [setRemote_ok remote]
    simp
  · rw [setAuthData_ok stored]
    simp
  · cases stored
    simp

theorem store_ready (m : Machine Point Key) (c : ConnData Point Key)
    (remote : ∀ callback, c.onRemoteStatic = some callback → ∀ key, callback key = true)
    (auth : ∀ callback, c.onAuthData = some callback → ∀ data, callback data = true) :
    m.store c = .ok () (m.storing c) := by
  have succeeds : ∃ c', m.store c = .ok () c' := by
    unfold Machine.store
    split_ifs with known role role
    · rw [bind_ok _ _ _ _ _ (setRemote_ready c m.remoteStatic remote)]
      exact ⟨_,setAuthData_ready _ _ auth⟩
    · rw [bind_ok _ _ _ _ _ (setRemote_ready c m.remoteStatic remote)]
      exact ⟨_,rfl⟩
    · exact ⟨_,setAuthData_ready _ _ auth⟩
    · exact ⟨_,rfl⟩
  obtain ⟨c',stored⟩ := succeeds
  rw [stored,store_ok stored]

variable {cfgI cfgR : BrontideMachineConfig Point Key} {I R : Machine Point Key}

theorem Ends.roles (ends : Ends suite cfgI cfgR I R) :
    I.initiator = true ∧ R.initiator = false ∧ I.version = I.minVersion ∧ R.version = R.maxVersion := by
  have builtI := newBrontideMachine_built cfgI I ends.madeI
  have builtR := newBrontideMachine_built cfgR R ends.madeR
  refine ⟨builtI.initiator.trans ends.roleI,builtR.initiator.trans ends.roleR,?_,?_⟩
  · rw [builtI.version,if_pos ends.roleI]
  · rw [builtR.version,if_neg (by simp [ends.roleR])]

theorem Ends.paired (ends : Ends suite cfgI cfgR I R) (matching : Matching suite I R) :
    Paired suite I.toSymmetricState R.toSymmetricState := by
  have builtI := newBrontideMachine_built cfgI I ends.madeI
  have builtR := newBrontideMachine_built cfgR R ends.madeR
  obtain ⟨patternI,patternR,_⟩ | ⟨patternI,patternR,remoteI,remoteR⟩ := matching
  · rw [builtI.symmetricXX (builtI.pattern.symm.trans patternI),builtR.symmetricXX (builtR.pattern.symm.trans patternR)]
    exact startState_paired .XX
  · obtain ⟨remote,keyI,stateI⟩ := builtI.symmetricKK (builtI.pattern.symm.trans patternI)
    obtain ⟨remote',keyR,stateR⟩ := builtR.symmetricKK (builtR.pattern.symm.trans patternR)
    rw [builtI.remoteStatic,keyI,builtR.localStatic] at remoteI
    rw [builtR.remoteStatic,keyR,builtI.localStatic] at remoteR
    cases remoteI
    cases remoteR
    rw [stateI,stateR,ends.roleI,ends.roleR]
    exact ((startState_paired .KK).mixHash _).mixHash _

theorem Ends.prepared (ends : Ends suite cfgI cfgR I R) (matching : Matching suite I R) {eI eR : Key}
    {laterI laterR : List (Option Key)} (ephemeralI : I.ephemeralGen = some eI :: laterI)
    (ephemeralR : R.ephemeralGen = some eR :: laterR) :
    Prepared suite I.toHandshakeState R.toHandshakeState eI eR laterI laterR := by
  obtain ⟨initiator,responder,startI,startR⟩ := ends.roles
  exact ⟨ends.paired matching,initiator,responder,startI,startR,ephemeralI,ephemeralR⟩

theorem split_handshake (m : Machine Point Key) : (m.split suite).toHandshakeState = m.toHandshakeState := by
  unfold Machine.split
  dsimp only
  split_ifs <;> rfl

theorem split_connData (m : Machine Point Key) : (m.split suite).connData = m.connData := by
  unfold Machine.split
  dsimp only
  split_ifs <;> rfl

def Machine.completed (suite : Suite Point Key) (m : Machine Point Key) (p : Party Point Key) : Machine Point Key :=
  Machine.split suite {m with toHandshakeState := p.toHandshakeState}

theorem completed_handshake (m : Machine Point Key) (p : Party Point Key) :
    (m.completed suite p).toHandshakeState = p.toHandshakeState := split_handshake _

def Machine.succeeding (suite : Suite Point Key) (m : Machine Point Key) (p : Party Point Key) : Outcome Point Key :=
  ⟨none,{m.completed suite p with connData := (m.completed suite p).storing m.connData},p.toLink⟩

theorem split_ciphers (suite : Suite Point Key) (i r : Machine Point Key) (initiator : i.initiator = true)
    (responder : r.initiator = false)
    (same : i.chainingKey = r.chainingKey) :
    (i.split suite).sendCipher = (r.split suite).recvCipher ∧ (i.split suite).recvCipher = (r.split suite).sendCipher ∧
      (i.split suite).sendCipher.nonce = 0 ∧ (i.split suite).recvCipher.nonce = 0 := by
  unfold Machine.split
  simp only [initiator,responder,if_true,Bool.false_eq_true,if_false,same]
  exact ⟨trivial,trivial,rfl,rfl⟩

variable [AddCommGroup Point]

/-- `DoHandshake` on a stream that delivers `incoming`, fills every buffer and takes every write. -/
def Machine.handshakeOn (suite : Suite Point Key) (m : Machine Point Key) (incoming : Bytes) : Outcome Point Key :=
  m.doHandshake suite {incoming := ⟨incoming,[]⟩}

structure Session (suite : Suite Point Key) (I R : Machine Point Key) (toInitiator toResponder : Bytes) : Prop where
  fromInitiator : (I.handshakeOn suite toInitiator).link.written.flatten = toResponder
  fromResponder : (R.handshakeOn suite toResponder).link.written.flatten = toInitiator

theorem doHandshake_link (m : Machine Point Key) (link : Link) :
    (m.doHandshake suite link).link = (final (acts suite m.pattern.pattern (m.party link))).toLink := by
  unfold Machine.doHandshake
  cases acts suite m.pattern.pattern (m.party link) with
  | error err p => rfl
  | ok value p =>
    dsimp only
    split <;> rfl

theorem doHandshake_handshake (suite : Suite Point Key) (m : Machine Point Key) (link : Link) :
    (m.doHandshake suite link).machine.toHandshakeState =
      (final (acts suite m.pattern.pattern (m.party link))).toHandshakeState := by
  unfold Machine.doHandshake
  cases acts suite m.pattern.pattern (m.party link) with
  | error err p => rfl
  | ok value p =>
    dsimp only
    split <;> exact split_handshake _

theorem doHandshake_error (m : Machine Point Key) (link : Link) {err : HandshakeError} {p : Party Point Key}
    (failed : acts suite m.pattern.pattern (m.party link) = .error err p) :
    (m.doHandshake suite link).err = some err ∧ (m.doHandshake suite link).machine.connData = m.connData := by
  unfold Machine.doHandshake
  rw [failed]
  exact ⟨rfl,rfl⟩

theorem doHandshake_ready (m : Machine Point Key) (ready : Ready m) (link : Link) (p : Party Point Key)
    (ran : acts suite m.pattern.pattern (m.party link) = .ok () p) :
    m.doHandshake suite link = m.succeeding suite p := by
  have stored := store_ready (m.completed suite p) m.connData ready.onRemoteStatic ready.onAuthData
  unfold Machine.succeeding
  unfold Machine.completed at stored ⊢
  simp only [Machine.doHandshake,ran,split_connData,stored]

theorem doHandshake_ok (m : Machine Point Key) (link : Link) (ok : (m.doHandshake suite link).ok) :
    ∃ p, acts suite m.pattern.pattern (m.party link) = .ok () p ∧ m.doHandshake suite link = m.succeeding suite p := by
  unfold Machine.doHandshake at ok ⊢
  cases ran : acts suite m.pattern.pattern (m.party link) with
  | error err p =>
    rw [ran] at ok
    contradiction
  | ok value p =>
    refine ⟨p,rfl,?_⟩
    rw [ran] at ok
    unfold Machine.succeeding Machine.completed
    simp only [split_connData] at ok ⊢
    cases stored : (Machine.split suite {m with toHandshakeState := p.toHandshakeState}).store m.connData with
    | error err connData =>
      rw [stored] at ok
      contradiction
    | ok value connData => rw [store_ok stored]

theorem acts_cons (mp : MessagePattern) (later : List MessagePattern) (p : Party Point Key) :
    acts suite (mp :: later) p =
      ((if mp.initiator = p.initiator then writeMsgPattern suite mp else readMsgPattern suite mp) >>=
        fun _ => acts suite later) p := by
  rw [acts,get_bind]
  split_ifs <;> rfl

theorem acts_cons_ok (mp : MessagePattern) (later : List MessagePattern) (p q : Party Point Key)
    (ran : acts suite (mp :: later) p = .ok () q) :
    ∃ middle, (if mp.initiator = p.initiator then writeMsgPattern suite mp else readMsgPattern suite mp) p =
      .ok () middle ∧ acts suite later middle = .ok () q := by
  rw [acts_cons] at ran
  obtain ⟨_,middle,act,rest⟩ := (bind_eq_ok _ _ _ _ _).mp ran
  exact ⟨middle,act,rest⟩

theorem acts_answered (first second : MessagePattern) (later : List MessagePattern) (opens : first.initiator = true)
    (answers : second.initiator = false) (p : Party Point Key) (responder : p.initiator = false)
    (silent : p.written = []) (answered : (final (acts suite (first :: second :: later) p)).written ≠ []) :
    ∃ q1 q2, readMsgPattern suite first p = .ok () q1 ∧ writeMsgPattern suite second q1 = .ok () q2 ∧
      acts suite (first :: second :: later) p = acts suite later q2 := by
  rw [acts_cons,if_neg (by simp [opens,responder])] at answered ⊢
  have quiet := readMsgPattern_written suite first p
  cases took : readMsgPattern suite first p with
  | error err q1 =>
    rw [bind_error _ _ _ _ _ took] at answered
    rw [took] at quiet
    exact absurd (quiet.trans silent) answered
  | ok value q1 =>
    have frame := (readMsgPattern_frame suite first).of_ok took
    rw [took] at quiet
    rw [bind_ok _ _ _ _ _ took] at answered ⊢
    rw [acts_cons,if_pos (by simp [frame.initiator,answers,responder])] at answered ⊢
    cases wrote : writeMsgPattern suite second q1 with
    | error err q2 =>
      rw [bind_error _ _ _ _ _ wrote] at answered
      exact absurd (((writeMsgPattern_error suite second q1 q2 err wrote).trans quiet).trans silent) answered
    | ok value' q2 => exact ⟨q1,q2,rfl,wrote,bind_ok _ _ _ _ _ wrote⟩

theorem head_of_written {version v : UInt8} {bytes wire : Bytes} {written : List Bytes}
    (begins : [] ++ [version :: bytes] <+: written) (sent : wire <+: written.flatten) (head : wire.head? = some v) :
    v = version := by
  obtain ⟨rest,rfl⟩ := begins
  obtain ⟨missing,whole⟩ := sent
  cases wire with
  | nil => contradiction
  | cons byte wire =>
    cases head
    exact (List.cons.inj whole).1

section Masked

variable {p q : Party Point Key} {e : Key} {later : List (Option Key)}

theorem writeMe_written (own : p.ephemeralGen = some e :: later)
    (wrote : writeMsgPattern suite ⟨[.me],true,act1⟩ p = .ok () q) :
    p.accepts.head? ≠ some false ∧ ∃ payload, q.written = p.written ++ [p.version ::
      (suite.serializeCompressed (ekeMask suite (suite.pubKey e) p.passphraseEntropy) ++ payload)] := by
  unfold writeMsgPattern at wrote
  rw [get_bind] at wrote
  obtain ⟨tokens,p1,wroteTokens,wroteRest⟩ := (bind_eq_ok _ _ _ _ _).mp wrote
  obtain ⟨payload,p2,wrotePayload,wroteAll⟩ := (bind_eq_ok _ _ _ _ _).mp wroteRest
  rw [writeTokens,bind_ok _ _ _ _ _ (writeToken_me own p.toLink)] at wroteTokens
  cases wroteTokens
  have link := ((link_keptBy suite).writePayload _ _).of_ok wrotePayload
  refine ⟨congrArg Link.accepts link ▸ accepted_of_writeBytes wroteAll,payload,?_⟩
  rw [writeBytes_ok wroteAll,congrArg Link.written link]
  simp

theorem readMe_parsed (lawful : suite.CurveLawful) {version : UInt8} {masked : Point} {rest : Bytes}
    (incoming : p.incoming = ⟨version :: (suite.serializeCompressed masked ++ rest),[]⟩)
    (took : readMsgPattern suite ⟨[.me],true,act1⟩ p = .ok () q) :
    suite.parsePubKey (suite.serializeCompressed masked) = some masked := by
  unfold readMsgPattern at took
  obtain ⟨scratch,p1,read,took⟩ := (bind_eq_ok _ _ _ _ _).mp took
  obtain ⟨_,p2,checked,took⟩ := (bind_eq_ok _ _ _ _ _).mp took
  obtain ⟨_,p3,tookTokens,_⟩ := (bind_eq_ok _ _ _ _ _).mp took
  unfold readBytes at read
  rw [incoming,← List.singleton_append,Reader.read_append _ _ 1 rfl] at read
  cases read
  have link := (checkVersion_field (fun p => p.toLink) (fun _ _ => rfl) _ _).of_ok checked
  obtain ⟨_,_,tookMe,_⟩ := (bind_eq_ok _ _ _ _ _).mp tookTokens
  obtain ⟨bytes,p4,read,took⟩ := (bind_eq_ok _ _ _ _ _).mp tookMe
  unfold readBytes at read
  rw [congrArg Link.incoming link,Reader.read_append _ rest 33 (lawful.serialize_length masked)] at read
  cases read
  obtain ⟨point,_,parsed,_⟩ := (bind_eq_ok _ _ _ _ _).mp took
  obtain ⟨known,_⟩ := parsePubKey_ok parsed
  rw [known,lawful.parse_unique masked point known]

end Masked

/-- Both patterns begin with an act of the initiator and an answer of the responder. An
initiator that completes got an answer, so the ranges are compatible. -/
theorem compatible_of_completed (pattern : List MessagePattern) (first second : MessagePattern) (later : List MessagePattern)
    (shape : pattern = first :: second :: later) (opens : first.initiator = true ∧ first.actNum = act1)
    (answers : second.initiator = false ∧ second.actNum = act2) (i r : HandshakeState Point Key)
    (initiator : i.initiator = true) (responder : r.initiator = false) (startI : i.version = i.minVersion)
    (startR : r.version = r.maxVersion) (toInitiator toResponder : Bytes) (acceptsI acceptsR : List Bool)
    (p q : Party Point Key) (ranI : acts suite pattern ⟨i,⟨⟨toInitiator,[]⟩,acceptsI,[]⟩⟩ = .ok () p)
    (leftR : final (acts suite pattern ⟨r,⟨⟨toResponder,[]⟩,acceptsR,[]⟩⟩) = q)
    (fromI : toResponder <+: p.written.flatten) (fromR : toInitiator <+: q.written.flatten) :
    Compatible i r ∧ Sendable r.maxVersion r.payloadToSend := by
  subst shape
  obtain ⟨p1,wrote,ranI⟩ := acts_cons_ok _ _ _ _ ranI
  rw [if_pos (by simp [opens.1,initiator])] at wrote
  obtain ⟨frameI,incoming,knownI,a,writtenI⟩ := writeMsgPattern_ok suite first _ p1 () wrote
  obtain ⟨p2,took,ranI⟩ := acts_cons_ok _ _ _ _ ranI
  rw [if_neg (by simp [frameI.initiator,answers.1,initiator])] at took
  obtain ⟨frameI',_,v,headI,lowerI,upperI⟩ :=
    readMsgPattern_ok suite second (.inr answers.2) p1 p2 () took toInitiator incoming
  rw [← leftR] at fromR
  have answered :
      (final (acts suite (first :: second :: later) ⟨r,⟨⟨toResponder,[]⟩,acceptsR,[]⟩⟩)).written ≠ [] := by
    intro silent
    rw [silent,List.flatten_nil] at fromR
    rw [List.prefix_nil.mp fromR] at headI
    contradiction
  obtain ⟨q1,q2,took,wrote,rest⟩ := acts_answered first second later opens.1 answers.1 _ responder rfl answered
  obtain ⟨frameR,quiet,v',headR,lowerR,upperR⟩ :=
    readMsgPattern_ok suite first (.inl opens.2) _ q1 () took toResponder rfl
  obtain ⟨frameR',_,knownR,b,writtenR⟩ := writeMsgPattern_ok suite second q1 q2 () wrote
  -- The byte each side checks first is the version the other one started from.
  have keptI : p1.written <+: p.written := by
    have rest := acts_frame suite later p2
    rw [ranI] at rest
    exact frameI'.written.trans rest.written
  have keptR : q2.written <+: (final (acts suite later q2)).written := (acts_frame suite later q2).written
  rw [rest] at fromR
  have versionR : q1.version = r.maxVersion := (frameR.version responder).trans startR
  have sentI : v' = i.minVersion := by
    rw [writtenI] at keptI
    exact (head_of_written keptI fromI headR).trans startI
  have sentR : v = r.maxVersion := by
    rw [writtenR,quiet] at keptR
    exact (head_of_written keptR fromR headI).trans versionR
  subst sentI sentR
  refine ⟨⟨lowerR,frameI.minVersion ▸ lowerI,frameI.maxVersion ▸ upperI,versionR ▸ knownR⟩,?_⟩
  intro sized
  rw [← frameR.payloadToSend]
  exact writeMsgPattern_sendable suite second answers.2 q1 q2 () wrote (versionR ▸ sized)

theorem Ends.exchange (lawful : suite.Lawful) (ends : Ends suite cfgI cfgR I R) (matching : Matching suite I R)
    (readyI : Ready I) (readyR : Ready R) (maskable : I.Maskable suite)
    (sendable : Sendable R.maxVersion R.payloadToSend) (compatible : Compatible I.toHandshakeState R.toHandshakeState) :
    I.pattern = R.pattern ∧ ∃ i' r' first second third,
      Exchange suite I.pattern.pattern I.toHandshakeState R.toHandshakeState i' r' first second third ∧
      Agreed suite I.toHandshakeState R.toHandshakeState i' r' := by
  obtain ⟨eI,laterI,ephemeralI⟩ := readyI.ephemeral
  obtain ⟨eR,laterR,ephemeralR⟩ := readyR.ephemeral
  have prepared := ends.prepared matching ephemeralI ephemeralR
  obtain ⟨patternI,patternR,secret⟩ | ⟨patternI,patternR,remoteI,remoteR⟩ := matching
  · refine ⟨patternI.trans patternR.symm,?_⟩
    rw [patternI]
    obtain ⟨_,_,i',_,_,r',first,second,third,all,agreed⟩ := xx_acts lawful prepared compatible sendable
      (maskable patternI eI laterI ephemeralI) (by rw [secret])
    exact ⟨i',r',first,second,[third],all.exchange,agreed⟩
  · refine ⟨patternI.trans patternR.symm,?_⟩
    rw [patternI]
    exact kk_exchange lawful prepared compatible sendable remoteI remoteR

theorem handshakeOn_written (m : Machine Point Key) (incoming : Bytes) :
    (m.handshakeOn suite incoming).link.written =
      (final (acts suite m.pattern.pattern (starting m.toHandshakeState incoming))).written :=
  congrArg Link.written (doHandshake_link m _)

section

variable {i' r' : HandshakeState Point Key} {first second toInitiator toResponder : Bytes} {third : List Bytes}

theorem Exchange.session_eq (same : I.pattern = R.pattern)
    (exchange : Exchange suite I.pattern.pattern I.toHandshakeState R.toHandshakeState i' r' first second third)
    (session : Session suite I R toInitiator toResponder) :
    toInitiator = second ∧ toResponder = first ++ third.flatten := by
  obtain ⟨fromI,fromR⟩ := session
  rw [handshakeOn_written] at fromI fromR
  rw [← same] at fromR
  obtain ⟨restI,writtenI⟩ := exchange.begins toInitiator
  rw [← writtenI] at fromI
  obtain ⟨restR,writtenR⟩ := exchange.answers restI.flatten
  have startR : toResponder = first ++ restI.flatten := fromI.symm
  rw [startR,← writtenR] at fromR
  have startI : toInitiator = second ++ restR.flatten := fromR.symm
  rw [startI,exchange.initiator] at writtenI
  have third_eq : third = restI := (List.cons.inj writtenI).2.symm
  subst third_eq
  have responder := exchange.responder []
  rw [List.append_nil] at responder
  rw [responder] at writtenR
  have nothing : restR = [] := (List.cons.inj writtenR).2
  exact ⟨by rw [startI,nothing,List.flatten_nil,List.append_nil],startR⟩

theorem Exchange.session (same : I.pattern = R.pattern)
    (exchange : Exchange suite I.pattern.pattern I.toHandshakeState R.toHandshakeState i' r' first second third) :
    Session suite I R second (first ++ third.flatten) := by
  have initiator := exchange.initiator []
  have responder := exchange.responder []
  rw [List.append_nil] at initiator responder
  refine ⟨?_,?_⟩
  · rw [handshakeOn_written,initiator]
    rfl
  · rw [handshakeOn_written,← same,responder]
    exact List.flatten_singleton

end

theorem Ends.compatible (ends : Ends suite cfgI cfgR I R) (matching : Matching suite I R)
    {toInitiator toResponder : Bytes} (session : Session suite I R toInitiator toResponder)
    (okI : (I.handshakeOn suite toInitiator).ok) : Compatible I.toHandshakeState R.toHandshakeState := by
  obtain ⟨initiator,responder,startI,startR⟩ := ends.roles
  obtain ⟨p,ranI,_⟩ := doHandshake_ok I _ okI
  obtain ⟨fromI,fromR⟩ := session
  rw [handshakeOn_written] at fromI fromR
  have writtenI : p.written.flatten = toResponder := by
    rw [← fromI]
    exact congrArg (fun result => (final result).written.flatten) ranI.symm
  obtain ⟨patternI,patternR,_⟩ | ⟨patternI,patternR,_⟩ := matching
  · rw [patternI] at ranI
    rw [patternR] at fromR
    exact (compatible_of_completed _ _ _ _ rfl ⟨rfl,rfl⟩ ⟨rfl,rfl⟩ _ _ initiator responder startI startR _ _ [] [] p _
      ranI rfl (by rw [writtenI]) (by rw [← fromR]; rfl)).1
  · rw [patternI] at ranI
    rw [patternR] at fromR
    exact (compatible_of_completed _ _ _ _ rfl ⟨rfl,rfl⟩ ⟨rfl,rfl⟩ _ _ initiator responder startI startR _ _ [] [] p _
      ranI rfl (by rw [writtenI]) (by rw [← fromR]; rfl)).1

/-- Honest ends with compatible versions complete every session, and agree after it. -/
theorem Ends.completes (lawful : suite.Lawful) (ends : Ends suite cfgI cfgR I R) (matching : Matching suite I R)
    (readyI : Ready I) (readyR : Ready R) (maskable : I.Maskable suite)
    (sendable : Sendable R.maxVersion R.payloadToSend)
    (compatible : Compatible I.toHandshakeState R.toHandshakeState) {toInitiator toResponder : Bytes}
    (session : Session suite I R toInitiator toResponder) :
    ∃ p q, I.handshakeOn suite toInitiator = I.succeeding suite p ∧
      R.handshakeOn suite toResponder = R.succeeding suite q ∧
      Agreed suite I.toHandshakeState R.toHandshakeState p.toHandshakeState q.toHandshakeState := by
  obtain ⟨same,i',r',first,second,third,exchange,agreed⟩ :=
    ends.exchange lawful matching readyI readyR maskable sendable compatible
  obtain ⟨rfl,rfl⟩ := exchange.session_eq same session
  have initiator := exchange.initiator []
  have responder := exchange.responder []
  rw [List.append_nil] at initiator responder
  rw [same] at responder
  exact ⟨_,_,doHandshake_ready I readyI _ _ initiator,doHandshake_ready R readyR _ _ responder,agreed⟩

omit [AddCommGroup Point] in
theorem Agreed.established (encodable : Encodable R.maxVersion R.payloadToSend) {p q : Party Point Key}
    (agreed : Agreed suite I.toHandshakeState R.toHandshakeState p.toHandshakeState q.toHandshakeState) :
    Established suite I R (I.succeeding suite p).machine (R.succeeding suite q).machine := by
  have payload := agreed.payload.trans (carried_encodable encodable)
  obtain ⟨sends,receives,nonces⟩ := split_ciphers suite {I with toHandshakeState := p.toHandshakeState}
    {R with toHandshakeState := q.toHandshakeState} agreed.initiator agreed.responder agreed.paired.chainingKey.symm
  constructor <;> dsimp only [Machine.succeeding,Machine.storing]
  · rw [completed_handshake,agreed.versionI]
  · rw [completed_handshake,agreed.versionR]
  · rw [completed_handshake,completed_handshake,agreed.paired.digest]
  · rw [completed_handshake,completed_handshake,agreed.paired.chainingKey]
  · exact sends
  · exact receives
  · exact nonces
  · rw [completed_handshake,agreed.remoteI]
  · rw [completed_handshake,agreed.remoteR]
  · rw [completed_handshake,payload]
  · rw [completed_handshake,if_pos agreed.initiator,payload]
  · rw [completed_handshake,agreed.versionI,agreed.remoteI]
  · rw [completed_handshake,agreed.versionR,agreed.remoteR]

/-- Over a reliable stream, the handshake of two ends with matching secrets succeeds on
both sides exactly for compatible version ranges, and both then hold one session. -/
theorem handshake_succeeds_iff_compatible (lawful : suite.Lawful) (ends : Ends suite cfgI cfgR I R)
    (matching : Matching suite I R) (readyI : Ready I) (readyR : Ready R) (maskable : I.Maskable suite)
    (encodable : Encodable R.maxVersion R.payloadToSend) :
    (∀ toInitiator toResponder, Session suite I R toInitiator toResponder →
      ((I.handshakeOn suite toInitiator).ok ∧ (R.handshakeOn suite toResponder).ok ↔
        Compatible I.toHandshakeState R.toHandshakeState) ∧
      (Compatible I.toHandshakeState R.toHandshakeState →
        Established suite I R (I.handshakeOn suite toInitiator).machine (R.handshakeOn suite toResponder).machine)) ∧
    (Compatible I.toHandshakeState R.toHandshakeState →
      ∃ toInitiator toResponder, Session suite I R toInitiator toResponder) := by
  refine ⟨?_,?_⟩
  · intro toInitiator toResponder session
    have succeeds (compatible : Compatible I.toHandshakeState R.toHandshakeState) :
        (I.handshakeOn suite toInitiator).ok ∧ (R.handshakeOn suite toResponder).ok ∧
        Established suite I R (I.handshakeOn suite toInitiator).machine (R.handshakeOn suite toResponder).machine := by
      obtain ⟨p,q,outcomeI,outcomeR,agreed⟩ :=
        ends.completes lawful matching readyI readyR maskable encodable.sendable compatible session
      rw [outcomeI,outcomeR]
      exact ⟨rfl,rfl,agreed.established encodable⟩
    refine ⟨⟨?_,fun compatible => ⟨(succeeds compatible).1,(succeeds compatible).2.1⟩⟩,
      fun compatible => (succeeds compatible).2.2⟩
    rintro ⟨okI,_⟩
    exact ends.compatible matching session okI
  · intro compatible
    obtain ⟨same,i',r',first,second,third,exchange,_⟩ :=
      ends.exchange lawful matching readyI readyR maskable encodable.sendable compatible
    exact ⟨second,first ++ third.flatten,exchange.session same⟩

theorem handshake_succeeds_iff_compatible_paired :
    ∃ I R : Machine UInt8 UInt8,
      Ends plainSuite (plainEnd true ⟨5,none,[1,7],[],none,none,[]⟩ 0 2 11)
        (plainEnd false ⟨9,none,[1,7],ascii "macaroon",none,none,[]⟩ 0 2 13) I R ∧
      Matching plainSuite I R ∧ Ready I ∧ Ready R ∧ I.Maskable plainSuite ∧ Encodable R.maxVersion R.payloadToSend ∧
      Compatible I.toHandshakeState R.toHandshakeState ∧
      ∃ toInitiator toResponder, Session plainSuite I R toInitiator toResponder ∧
        (I.handshakeOn plainSuite toInitiator).ok ∧ (R.handshakeOn plainSuite toResponder).ok ∧
        Established plainSuite I R (I.handshakeOn plainSuite toInitiator).machine
          (R.handshakeOn plainSuite toResponder).machine := by
  have prepared : ∃ I R : Machine UInt8 UInt8,
      Ends plainSuite (plainEnd true ⟨5,none,[1,7],[],none,none,[]⟩ 0 2 11)
        (plainEnd false ⟨9,none,[1,7],ascii "macaroon",none,none,[]⟩ 0 2 13) I R ∧
      Matching plainSuite I R ∧ Ready I ∧ Ready R ∧ I.Maskable plainSuite ∧ Encodable R.maxVersion R.payloadToSend ∧
      Compatible I.toHandshakeState R.toHandshakeState := by
    refine ⟨_,_,⟨rfl,rfl,rfl,rfl⟩,.inl ⟨rfl,rfl,rfl⟩,⟨⟨_,_,rfl⟩,nofun,nofun⟩,⟨⟨_,_,rfl⟩,nofun,nofun⟩,
      ?_,?_,?_⟩
    · rintro _ e later ⟨⟩
      decide +kernel
    · unfold Encodable
      decide
    · constructor <;> decide
  obtain ⟨I,R,ends,matching,readyI,readyR,maskable,encodable,compatible⟩ := prepared
  obtain ⟨outcomes,exist⟩ :=
    handshake_succeeds_iff_compatible plainSuite_lawful ends matching readyI readyR maskable encodable
  obtain ⟨toInitiator,toResponder,session⟩ := exist compatible
  obtain ⟨both,established⟩ := outcomes toInitiator toResponder session
  obtain ⟨okI,okR⟩ := both.mpr compatible
  exact ⟨I,R,ends,matching,readyI,readyR,maskable,encodable,compatible,toInitiator,toResponder,session,okI,okR,
    established compatible⟩

end NodeConnect.Noise
