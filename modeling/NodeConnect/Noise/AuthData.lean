import NodeConnect.Noise.Session

/-! The auth data that the responder sends with act two. Version 0 packs it into a block of
fixed size, the later versions send its length in front of it. -/
namespace NodeConnect.Noise
open Lib Fallible Handshake

variable {Point Key : Type} [AddCommGroup Point] {suite : Suite Point Key}

/-- The writer sends `bytes` as the act `mp`, and the reader succeeds on these bytes. -/
structure Crosses (suite : Suite Point Key) (mp : MessagePattern) (w r w' r' : HandshakeState Point Key)
    (bytes : Bytes) : Prop where
  wrote : ∃ link link', writeMsgPattern suite mp ⟨w,link⟩ = .ok () ⟨w',link'⟩ ∧
    link'.written = link.written ++ [bytes]
  took : ∃ rest accepts written link',
    readMsgPattern suite mp ⟨r,⟨⟨bytes ++ rest,[]⟩,accepts,written⟩⟩ = .ok () ⟨r',link'⟩

section Act

variable {mp : MessagePattern} {w r w' r' w'' r'' : HandshakeState Point Key} {bytes bytes' : Bytes}

theorem ActConveys.crosses (conveyed : ActConveys suite mp w r w' r' bytes) : Crosses suite mp w r w' r' bytes where
  wrote := ⟨{incoming := ⟨[],[]⟩},_,conveyed.wrote _,rfl⟩
  took := ⟨[],[],[],_,conveyed.took [] [] []⟩

theorem ActConveys.unique (conveyed : ActConveys suite mp w r w' r' bytes)
    (crosses : Crosses suite mp w r w'' r'' bytes') : w'' = w' ∧ r'' = r' := by
  obtain ⟨link,link',wrote,sent⟩ := crosses.wrote
  obtain ⟨rest,accepts,written,_,took⟩ := crosses.took
  rw [conveyed.wrote] at wrote
  cases writeBytes_ok wrote
  cases List.append_cancel_left sent
  rw [conveyed.took] at took
  cases took
  exact ⟨rfl,rfl⟩

/-- An act that got through is within the range of its reader and of a known version. -/
theorem Crosses.version (crosses : Crosses suite mp w r w' r' bytes) (negotiates : mp.actNum = act1 ∨ mp.actNum = act2) :
    r.minVersion ≤ w.version ∧ w.version ≤ r.maxVersion ∧ w.version ≤ HandshakeVersion2 := by
  obtain ⟨link,link',wrote,sent⟩ := crosses.wrote
  obtain ⟨rest,accepts,written,link'',took⟩ := crosses.took
  obtain ⟨_,_,known,tail,begins⟩ := writeMsgPattern_ok suite mp _ _ () wrote
  obtain ⟨_,_,version,head,lower,upper⟩ := readMsgPattern_ok suite mp negotiates _ _ () took _ rfl
  cases List.singleton_inj.mp (List.append_cancel_left (begins.symm.trans sent))
  cases head
  exact ⟨lower,upper,known⟩

theorem writeMsgPattern_ephemeral {tokens : List Token} (opens : mp.tokens = .e :: tokens ∨ mp.tokens = .me :: tokens)
    {p q : Party Point Key} (wrote : writeMsgPattern suite mp p = .ok () q) :
    ∃ e later, p.ephemeralGen = some e :: later := by
  unfold writeMsgPattern at wrote
  rw [get_bind] at wrote
  obtain ⟨_,_,wroteTokens,_⟩ := (bind_eq_ok _ _ _ _ _).mp wrote
  have generated : ∃ e q, newEphemeral p = .ok e q := by
    obtain same | same := opens
    all_goals
      rw [same,writeTokens] at wroteTokens
      obtain ⟨_,_,wroteToken,_⟩ := (bind_eq_ok _ _ _ _ _).mp wroteTokens
      obtain ⟨e,q,made,_⟩ := (bind_eq_ok _ _ _ _ _).mp wroteToken
      exact ⟨e,q,made⟩
  obtain ⟨e,q,made⟩ := generated
  unfold newEphemeral at made
  split at made
  · next later available => exact ⟨_,later,available⟩
  all_goals contradiction

theorem Crosses.ephemeral {tokens : List Token} (crosses : Crosses suite mp w r w' r' bytes)
    (opens : mp.tokens = .e :: tokens ∨ mp.tokens = .me :: tokens) : ∃ e later, w.ephemeralGen = some e :: later := by
  obtain ⟨_,_,wrote,_⟩ := crosses.wrote
  exact writeMsgPattern_ephemeral opens wrote

theorem Crosses.maskable (lawful : suite.CurveLawful) (crosses : Crosses suite ⟨[.me],true,act1⟩ w r w' r' bytes)
    {e : Key} {later : List (Option Key)} (own : w.ephemeralGen = some e :: later) :
    Maskable suite e w.passphraseEntropy := by
  obtain ⟨link,link',wrote,sent⟩ := crosses.wrote
  obtain ⟨rest,accepts,written,_,took⟩ := crosses.took
  obtain ⟨_,payload,begins⟩ := writeMe_written own wrote
  cases List.singleton_inj.mp (List.append_cancel_left (begins.symm.trans sent))
  rw [List.cons_append,List.append_assoc] at took
  exact readMe_parsed lawful rfl took

theorem Crosses.sendable (crosses : Crosses suite mp w r w' r' bytes) (act : mp.actNum = act2) :
    Sendable w.version w.payloadToSend := by
  obtain ⟨_,_,wrote,_⟩ := crosses.wrote
  exact writeMsgPattern_sendable suite mp act _ _ () wrote

end Act

variable {cfgI cfgR : BrontideMachineConfig Point Key} {I R : Machine Point Key} {mp mp' : MessagePattern}
  {later : List MessagePattern}

theorem Ends.answered (lawful : suite.Lawful) (ends : Ends suite cfgI cfgR I R) (matching : Matching suite I R)
    (shape : I.pattern.pattern = mp :: mp' :: later) {eI eR : Key} {laterI laterR : List (Option Key)}
    (ephemeralI : I.ephemeralGen = some eI :: laterI) (ephemeralR : R.ephemeralGen = some eR :: laterR)
    (maskable : I.Maskable suite)
    (compatible : Compatible I.toHandshakeState R.toHandshakeState) (sendable : Sendable R.maxVersion R.payloadToSend) :
    ∃ i1 r1 i2 r2 first second,
      Answered suite mp mp' I.toHandshakeState R.toHandshakeState i1 r1 i2 r2 eR first second := by
  have prepared := ends.prepared matching ephemeralI ephemeralR
  obtain ⟨pattern,_,secret⟩ | ⟨pattern,_,remoteI,remoteR⟩ := matching
  · rw [pattern,XXPattern] at shape
    cases shape
    exact xx_answered lawful prepared compatible sendable (maskable pattern eI laterI ephemeralI) (by rw [secret])
  · rw [pattern,KKPattern] at shape
    cases shape
    exact kk_answered lawful prepared compatible sendable remoteI remoteR

/-- What act one leaves of the two configurations. -/
structure Opened (I R i1 r1 : HandshakeState Point Key) : Prop where
  minVersion : i1.minVersion = I.minVersion
  maxVersion : i1.maxVersion = I.maxVersion
  version : r1.version = R.version
  payloadToSend : r1.payloadToSend = R.payloadToSend
  ephemeralGen : r1.ephemeralGen = R.ephemeralGen

variable {i1 r1 i2 r2 : HandshakeState Point Key} {first second : Bytes}

theorem Ends.opened (lawful : suite.Lawful) (ends : Ends suite cfgI cfgR I R) (matching : Matching suite I R)
    (shape : I.pattern.pattern = mp :: mp' :: later)
    (one : Crosses suite mp I.toHandshakeState R.toHandshakeState i1 r1 first) :
    Opened I.toHandshakeState R.toHandshakeState i1 r1 ∧ I.Maskable suite ∧
      ∃ e laterI, I.ephemeralGen = some e :: laterI := by
  have paired := ends.paired matching
  obtain ⟨initiator,responder,_,_⟩ := ends.roles
  obtain ⟨pattern,_,secret⟩ | ⟨pattern,_,remoteI,remoteR⟩ := matching
  · rw [pattern,XXPattern] at shape
    cases shape
    obtain ⟨lower,upper,known⟩ := one.version (.inl rfl)
    obtain ⟨e,later,own⟩ := one.ephemeral (.inr rfl)
    have maskable (e : Key) (later : List (Option Key)) (own : I.ephemeralGen = some e :: later) :
        Maskable suite e I.passphraseEntropy := one.maskable lawful.toCurveLawful own
    obtain ⟨_,_,_,_,conveyed⟩ :=
      xx_act1 lawful paired responder own (maskable e later own) lower upper known (by rw [secret])
    obtain ⟨rfl,rfl⟩ := conveyed.unique one
    exact ⟨⟨rfl,rfl,rfl,rfl,rfl⟩,fun _ => maskable,e,later,own⟩
  · rw [pattern,KKPattern] at shape
    cases shape
    obtain ⟨lower,upper,known⟩ := one.version (.inl rfl)
    obtain ⟨e,later,own⟩ := one.ephemeral (.inl rfl)
    obtain ⟨_,_,_,_,conveyed⟩ := kk_act1 lawful paired initiator responder own lower upper known remoteI remoteR
    obtain ⟨rfl,rfl⟩ := conveyed.unique one
    have notXX : ¬ I.pattern = XXPattern := by
      rw [pattern]
      decide
    exact ⟨⟨rfl,rfl,rfl,rfl,rfl⟩,fun xx => absurd xx notXX,e,later,own⟩

omit [AddCommGroup Point] in
theorem Matching.shape (matching : Matching suite I R) (shape : I.pattern.pattern = mp :: mp' :: later) :
    mp.actNum = act1 ∧ mp'.actNum = act2 ∧ ∃ tokens, mp'.tokens = .e :: tokens := by
  obtain ⟨pattern,_⟩ | ⟨pattern,_⟩ := matching
  · rw [pattern,XXPattern] at shape
    cases shape
    exact ⟨rfl,rfl,_,rfl⟩
  · rw [pattern,KKPattern] at shape
    cases shape
    exact ⟨rfl,rfl,_,rfl⟩

/-- The initiator gets what the version can carry of the auth data. -/
theorem Ends.received (lawful : suite.Lawful) (ends : Ends suite cfgI cfgR I R) (matching : Matching suite I R)
    (shape : I.pattern.pattern = mp :: mp' :: later)
    (one : Crosses suite mp I.toHandshakeState R.toHandshakeState i1 r1 first)
    (two : Crosses suite mp' r1 i1 r2 i2 second) : i2.receivedPayload = carried R.maxVersion R.payloadToSend := by
  obtain ⟨_,_,startI,startR⟩ := ends.roles
  obtain ⟨opens,answers,tokens,begins⟩ := matching.shape shape
  obtain ⟨opened,maskable,eI,laterI,ephemeralI⟩ := ends.opened lawful matching shape one
  obtain ⟨eR,laterR,ephemeralR⟩ := two.ephemeral (.inl begins)
  have sendable := two.sendable answers
  obtain ⟨lowerR,upperR,_⟩ := one.version (.inl opens)
  obtain ⟨lowerI,upperI,known⟩ := two.version (.inr answers)
  rw [opened.ephemeralGen] at ephemeralR
  rw [opened.version,opened.payloadToSend,startR] at sendable
  rw [opened.version,opened.minVersion,startR] at lowerI
  rw [opened.version,opened.maxVersion,startR] at upperI
  rw [opened.version,startR] at known
  rw [startI] at lowerR
  obtain ⟨_,_,_,_,_,_,answered⟩ := ends.answered lawful matching shape ephemeralI ephemeralR maskable
    ⟨lowerR,lowerI,upperI,known⟩ sendable
  obtain ⟨rfl,rfl⟩ := answered.first.unique one
  obtain ⟨_,rfl⟩ := answered.second.unique two
  exact answered.payload

/-- The initiator receives the auth data of the responder, unless version 0 cuts it off: its
block has a length field of two bytes and room for 498 bytes. -/
theorem authData_intact_iff (lawful : suite.Lawful) (ends : Ends suite cfgI cfgR I R) (matching : Matching suite I R)
    (shape : I.pattern.pattern = mp :: mp' :: later)
    (one : Crosses suite mp I.toHandshakeState R.toHandshakeState i1 r1 first)
    (two : Crosses suite mp' r1 i1 r2 i2 second) :
    i2.receivedPayload = R.payloadToSend ↔ (R.maxVersion = HandshakeVersion0 →
      R.payloadToSend.length < 2 ^ 16 ∧
        ∀ byte ∈ R.payloadToSend.drop (ActTwoPayloadSize - lengthHeaderSize), byte = 0) := by
  rw [ends.received lawful matching shape one two,carried]
  split_ifs with version
  · rw [unpack_fixedPayload]
    exact ⟨fun intact _ => intact,fun intact => intact version⟩
  · exact ⟨fun _ zero => absurd zero version,fun _ => rfl⟩

/-- Two ends that meet for the first time and know version 0 only. -/
def oldClient : BrontideMachineConfig UInt8 UInt8 := plainEnd true ⟨5,none,[1,7],[],none,none,[]⟩ 0 0 11

def oldServer (authData : Bytes) : BrontideMachineConfig UInt8 UInt8 :=
  plainEnd false ⟨9,none,[1,7],authData,none,none,[]⟩ 0 0 13

theorem old_crosses (authData : Bytes) :
    ∃ I R : Machine UInt8 UInt8, Ends plainSuite oldClient (oldServer authData) I R ∧ Matching plainSuite I R ∧
      R.maxVersion = HandshakeVersion0 ∧ R.payloadToSend = authData ∧
      ∃ mp mp' later i1 r1 i2 r2 first second, I.pattern.pattern = mp :: mp' :: later ∧
        Crosses plainSuite mp I.toHandshakeState R.toHandshakeState i1 r1 first ∧
        Crosses plainSuite mp' r1 i1 r2 i2 second := by
  have prepared : ∃ I R : Machine UInt8 UInt8, Ends plainSuite oldClient (oldServer authData) I R ∧
      Matching plainSuite I R ∧ I.pattern = XXPattern ∧ I.ephemeralGen = [some 11] ∧ R.ephemeralGen = [some 13] ∧
      I.Maskable plainSuite ∧ Compatible I.toHandshakeState R.toHandshakeState ∧ R.maxVersion = HandshakeVersion0 ∧
      R.payloadToSend = authData := by
    refine ⟨_,_,⟨rfl,rfl,rfl,rfl⟩,.inl ⟨rfl,rfl,rfl⟩,rfl,rfl,rfl,?_,?_,rfl,rfl⟩
    · rintro _ e later ⟨⟩
      decide +kernel
    · exact ⟨UInt8.le_refl 0,UInt8.le_refl 0,UInt8.le_refl 0,(by decide : HandshakeVersion0 ≤ HandshakeVersion2)⟩
  obtain ⟨I,R,ends,matching,pattern,ephemeralI,ephemeralR,maskable,compatible,version,payload⟩ := prepared
  have sendable : Sendable R.maxVersion R.payloadToSend := fun later => absurd version later
  obtain ⟨i1,r1,i2,r2,first,second,answered⟩ := ends.answered plainSuite_lawful matching
    (congrArg HandshakePattern.pattern pattern) ephemeralI ephemeralR maskable compatible sendable
  exact ⟨I,R,ends,matching,version,payload,_,_,_,i1,r1,i2,r2,first,second,congrArg HandshakePattern.pattern pattern,
    answered.first.crosses,answered.second.crosses⟩

/-- One byte more than the block can hold. -/
theorem authData_cut_off :
    ∃ I R : Machine UInt8 UInt8, Ends plainSuite oldClient (oldServer (List.replicate 499 1)) I R ∧
      Matching plainSuite I R ∧ ∃ mp mp' later i1 r1 i2 r2 first second, I.pattern.pattern = mp :: mp' :: later ∧
        Crosses plainSuite mp I.toHandshakeState R.toHandshakeState i1 r1 first ∧
        Crosses plainSuite mp' r1 i1 r2 i2 second ∧ R.payloadToSend = List.replicate 499 1 ∧
        i2.receivedPayload = List.replicate 498 1 ++ [0] := by
  obtain ⟨I,R,ends,matching,version,payload,mp,mp',later,i1,r1,i2,r2,first,second,shape,one,two⟩ :=
    old_crosses (List.replicate 499 1)
  refine ⟨I,R,ends,matching,mp,mp',later,i1,r1,i2,r2,first,second,shape,one,two,payload,?_⟩
  rw [ends.received plainSuite_lawful matching shape one two,version,payload]
  decide +kernel

theorem authData_intact_macaroon :
    ∃ I R : Machine UInt8 UInt8, Ends plainSuite oldClient (oldServer (ascii "macaroon")) I R ∧
      Matching plainSuite I R ∧ ∃ mp mp' later i1 r1 i2 r2 first second, I.pattern.pattern = mp :: mp' :: later ∧
        Crosses plainSuite mp I.toHandshakeState R.toHandshakeState i1 r1 first ∧
        Crosses plainSuite mp' r1 i1 r2 i2 second ∧ i2.receivedPayload = R.payloadToSend := by
  obtain ⟨I,R,ends,matching,_,payload,mp,mp',later,i1,r1,i2,r2,first,second,shape,one,two⟩ :=
    old_crosses (ascii "macaroon")
  refine ⟨I,R,ends,matching,mp,mp',later,i1,r1,i2,r2,first,second,shape,one,two,
    (authData_intact_iff plainSuite_lawful ends matching shape one two).mpr fun _ => ?_⟩
  rw [payload]
  decide +kernel

end NodeConnect.Noise
