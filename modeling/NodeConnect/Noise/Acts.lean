import NodeConnect.Noise.Conveys

/-! Whole acts between honest parties, for both patterns. Each act is one write of the
writer and a sequence of reads that consumes exactly those bytes. -/
namespace NodeConnect.Noise
open Lib Handshake

variable {Point Key : Type}

section Versions

variable {p : HandshakeState Point Key}

theorem checkVersion_responder (version : UInt8) (role : p.initiator = false) (lower : p.minVersion ≤ version)
    (upper : version ≤ p.maxVersion) (link : Link) :
    checkVersion version act1 (⟨p,link⟩ : Party Point Key) = .ok () ⟨p,link⟩ := by
  have inside : ¬ (version < p.minVersion ∨ p.maxVersion < version) :=
    not_or.mpr ⟨UInt8.not_lt.mpr lower,UInt8.not_lt.mpr upper⟩
  rw [checkVersion,Fallible.get_bind,if_pos (.inl rfl),if_neg inside,if_neg (by simp [role])]
  rfl

theorem checkVersion_initiator (version : UInt8) (role : p.initiator = true) (lower : p.minVersion ≤ version)
    (upper : version ≤ p.maxVersion) (link : Link) :
    checkVersion version act2 (⟨p,link⟩ : Party Point Key) = .ok () ⟨{p with version := version},link⟩ := by
  have inside : ¬ (version < p.minVersion ∨ p.maxVersion < version) :=
    not_or.mpr ⟨UInt8.not_lt.mpr lower,UInt8.not_lt.mpr upper⟩
  rw [checkVersion,Fallible.get_bind,if_pos (.inr rfl),if_neg inside,if_pos role]
  rfl

theorem checkVersion_same (version : UInt8) (same : version = p.version) (link : Link) :
    checkVersion version act3 (⟨p,link⟩ : Party Point Key) = .ok () ⟨p,link⟩ := by
  rw [checkVersion,Fallible.get_bind,if_neg (by decide),if_pos rfl,if_neg (not_not.mpr same)]
  rfl

end Versions

variable [AddCommGroup Point] {suite : Suite Point Key}

structure ActConveys (suite : Suite Point Key) (mp : MessagePattern) (w r w' r' : HandshakeState Point Key)
    (bytes : Bytes) : Prop where
  wrote : ∀ link, writeMsgPattern suite mp ⟨w,link⟩ = writeBytes bytes ⟨w',link⟩
  took : ∀ rest accepts written, readMsgPattern suite mp ⟨r,⟨⟨bytes ++ rest,[]⟩,accepts,written⟩⟩ =
    .ok () ⟨r',⟨⟨rest,[]⟩,accepts,written⟩⟩

theorem readMsgPattern_took (mp : MessagePattern) {version : UInt8} {w r checked w' r' r'' : HandshakeState Point Key}
    {tokens payload : Bytes} (accepted : ∀ link, checkVersion version mp.actNum ⟨r,link⟩ = .ok () ⟨checked,link⟩)
    (exchanged : Conveys (writeTokens suite mp.tokens) (readTokens suite mp.tokens) w checked w' r' tokens ())
    (carried : ∀ rest accepts written, readPayload suite version mp.actNum
      ⟨r',⟨⟨payload ++ rest,[]⟩,accepts,written⟩⟩ = .ok () ⟨r'',⟨⟨rest,[]⟩,accepts,written⟩⟩)
    (rest : Bytes) (accepts : List Bool) (written : List Bytes) :
    readMsgPattern suite mp ⟨r,⟨⟨([version] ++ tokens ++ payload) ++ rest,[]⟩,accepts,written⟩⟩ =
      .ok () ⟨r'',⟨⟨rest,[]⟩,accepts,written⟩⟩ := by
  have first := readBytes_append (r := r) [version] (tokens ++ (payload ++ rest)) 1 rfl accepts written
  rw [List.append_assoc,List.append_assoc,readMsgPattern,Fallible.bind_ok _ _ _ _ _ first,
    List.headD_cons,Fallible.bind_ok _ _ _ _ _ (accepted _),Fallible.bind_ok _ _ _ _ _ (exchanged.2 _ _ _)]
  exact carried rest accepts written

theorem ActConveys.intro {mp : MessagePattern} {w r checked w' r' w'' r'' : HandshakeState Point Key}
    {tokens payload : Bytes}
    (accepted : ∀ link, checkVersion w.version mp.actNum ⟨r,link⟩ = .ok () ⟨checked,link⟩)
    (exchanged : Conveys (writeTokens suite mp.tokens) (readTokens suite mp.tokens) w checked w' r' tokens ())
    (carried : Conveys (writePayload suite w.version mp.actNum) (readPayload suite w.version mp.actNum) w' r' w'' r''
      payload ()) :
    ActConveys suite mp w r w'' r'' ([w.version] ++ tokens ++ payload) where
  wrote := by
    intro link
    rw [writeMsgPattern,Fallible.get_bind,Fallible.bind_ok _ _ _ _ _ (exchanged.1 _),
      Fallible.bind_ok _ _ _ _ _ (carried.1 _)]
  took := readMsgPattern_took _ accepted exchanged carried.2

/-- The ranges for which the handshake goes through. -/
structure Compatible (i r : HandshakeState Point Key) : Prop where
  lower : r.minVersion ≤ i.minVersion
  middle : i.minVersion ≤ r.maxVersion
  upper : r.maxVersion ≤ i.maxVersion
  known : r.maxVersion ≤ HandshakeVersion2

omit [AddCommGroup Point] in
theorem Compatible.opening {i r : HandshakeState Point Key} (compatible : Compatible i r)
    (start : i.version = i.minVersion) :
    r.minVersion ≤ i.version ∧ i.version ≤ r.maxVersion ∧ i.version ≤ HandshakeVersion2 := by
  rw [start]
  exact ⟨compatible.lower,compatible.middle,UInt8.le_trans compatible.middle compatible.known⟩

structure Prepared (suite : Suite Point Key) (i r : HandshakeState Point Key) (eI eR : Key)
    (iLater rLater : List (Option Key)) : Prop where
  paired : Paired suite i.toSymmetricState r.toSymmetricState
  initiator : i.initiator = true
  responder : r.initiator = false
  startI : i.version = i.minVersion
  startR : r.version = r.maxVersion
  ephemeralI : i.ephemeralGen = some eI :: iLater
  ephemeralR : r.ephemeralGen = some eR :: rLater

section XX

variable {i r : HandshakeState Point Key} {eI eR : Key} {iLater rLater : List (Option Key)}

theorem xx_act1 (lawful : suite.Lawful) (paired : Paired suite i.toSymmetricState r.toSymmetricState)
    (reader : r.initiator = false) (own : i.ephemeralGen = some eI :: iLater)
    (maskable : Maskable suite eI i.passphraseEntropy) (lower : r.minVersion ≤ i.version)
    (middle : i.version ≤ r.maxVersion) (known : i.version ≤ HandshakeVersion2)
    (secret : suite.modNScalar r.passphraseEntropy = suite.modNScalar i.passphraseEntropy) :
    ∃ s s' bytes, Paired suite s s' ∧ ActConveys suite ⟨[.me],true,act1⟩ i r
      {i with toSymmetricState := s, localEphemeral := some eI, ephemeralGen := iLater}
      {r with toSymmetricState := s', remoteEphemeral := some (suite.pubKey eI)} bytes := by
  obtain ⟨s,s',me,paired,conveyed⟩ := conveys_me lawful.toCurveLawful paired eI iLater own maskable secret
  let i' : HandshakeState Point Key := {i with toSymmetricState := s, localEphemeral := some eI, ephemeralGen := iLater}
  let r' : HandshakeState Point Key := {r with toSymmetricState := s', remoteEphemeral := some (suite.pubKey eI)}
  obtain ⟨t,t',payload,paired,carried⟩ :=
    conveys_noPayload (w := i') (r := r') lawful.toAeadLawful paired i.version act1 known (.inl rfl)
  exact ⟨t,t',_,paired,.intro (checkVersion_responder i.version reader lower middle)
    (conveyed.cons conveys_nil) carried⟩

theorem xx_act1_writes (lawful : suite.AeadLawful) (paired : Paired suite i.toSymmetricState r.toSymmetricState)
    (own : i.ephemeralGen = some eI :: iLater) (known : i.version ≤ HandshakeVersion2) :
    ∃ s s' bytes, Paired suite s s' ∧ ∀ link, writeMsgPattern suite ⟨[.me],true,act1⟩ ⟨i,link⟩ =
      writeBytes bytes ⟨{i with toSymmetricState := s, localEphemeral := some eI, ephemeralGen := iLater},link⟩ := by
  let key := suite.serializeCompressed (suite.pubKey eI)
  let masked := suite.serializeCompressed (ekeMask suite (suite.pubKey eI) i.passphraseEntropy)
  let i' : HandshakeState Point Key :=
    {i with toSymmetricState := i.toSymmetricState.mixHash suite key, localEphemeral := some eI, ephemeralGen := iLater}
  have tokens (link : Link) : writeTokens suite [.me] ⟨i,link⟩ = .ok (masked ++ []) ⟨i',link⟩ := by
    rw [writeTokens,Fallible.bind_ok _ _ _ _ _ (writeToken_me own link)]
    rfl
  obtain ⟨s,s',payload,paired,carried⟩ := conveys_noPayload (w := i')
    (r := {r with toSymmetricState := r.toSymmetricState.mixHash suite key}) lawful (paired.mixHash key) i.version act1
    known (.inl rfl)
  refine ⟨s,s',[i.version] ++ (masked ++ []) ++ payload,paired,fun link => ?_⟩
  rw [writeMsgPattern,Fallible.get_bind,Fallible.bind_ok _ _ _ _ _ (tokens link),
    Fallible.bind_ok _ _ _ _ _ (carried.1 link)]

theorem xx_act2_tokens (lawful : suite.Lawful) {w r : HandshakeState Point Key}
    (paired : Paired suite w.toSymmetricState r.toSymmetricState) (writer : w.initiator = false)
    (reader : r.initiator = true) (own : w.ephemeralGen = some eR :: rLater) (ephemeral : r.localEphemeral = some eI)
    (remote : w.remoteEphemeral = some (suite.pubKey eI)) :
    ∃ s s' bytes, Paired suite s s' ∧
      Conveys (writeTokens suite [.e,.ee,.s,.es]) (readTokens suite [.e,.ee,.s,.es]) w r
        {w with toSymmetricState := s, localEphemeral := some eR, ephemeralGen := rLater}
        {r with
          toSymmetricState := s', remoteEphemeral := some (suite.pubKey eR)
          remoteStatic := some (suite.pubKey w.localStatic)} bytes () := by
  let w' (s : SymmetricState) : HandshakeState Point Key :=
    {w with toSymmetricState := s, localEphemeral := some eR, ephemeralGen := rLater}
  let r' (s : SymmetricState) : HandshakeState Point Key :=
    {r with toSymmetricState := s, remoteEphemeral := some (suite.pubKey eR)}
  let r'' (s : SymmetricState) : HandshakeState Point Key :=
    {r' s with remoteStatic := some (suite.pubKey w.localStatic)}
  obtain ⟨s1,t1,b1,paired,e⟩ := conveys_e (w := w) (r := r) lawful.toCurveLawful paired eR rLater own
  obtain ⟨s2,t2,paired,ee⟩ := conveys_ee (w := w' s1) (r := r' t1) lawful.toCurveLawful paired eR eI rfl remote ephemeral rfl
  obtain ⟨s3,t3,b3,paired,s⟩ := conveys_s (w := w' s2) (r := r' t2) lawful paired
  obtain ⟨s4,t4,paired,es⟩ := conveys_peerEphemeral (w := w' s3) (r := r'' t3) lawful.toCurveLawful paired
    (by simp [w',r'',r',writer,reader]) eI ephemeral rfl remote .es (by simp [w',writer])
  exact ⟨s4,t4,_,paired,e.cons (ee.cons (s.cons (es.cons conveys_nil)))⟩

theorem xx_act2 (lawful : suite.Lawful) {w r : HandshakeState Point Key}
    (paired : Paired suite w.toSymmetricState r.toSymmetricState) (writer : w.initiator = false)
    (reader : r.initiator = true) (own : w.ephemeralGen = some eR :: rLater) (ephemeral : r.localEphemeral = some eI)
    (remote : w.remoteEphemeral = some (suite.pubKey eI)) (lower : r.minVersion ≤ w.version)
    (upper : w.version ≤ r.maxVersion) (known : w.version ≤ HandshakeVersion2)
    (sendable : Sendable w.version w.payloadToSend) :
    ∃ s s' bytes, Paired suite s s' ∧ ActConveys suite ⟨[.e,.ee,.s,.es],false,act2⟩ w r
      {w with toSymmetricState := s, localEphemeral := some eR, ephemeralGen := rLater}
      {r with
        toSymmetricState := s', version := w.version, remoteEphemeral := some (suite.pubKey eR)
        remoteStatic := some (suite.pubKey w.localStatic), receivedPayload := carried w.version w.payloadToSend} bytes := by
  let checked : HandshakeState Point Key := {r with version := w.version}
  let w' (s : SymmetricState) : HandshakeState Point Key :=
    {w with toSymmetricState := s, localEphemeral := some eR, ephemeralGen := rLater}
  let r' (s : SymmetricState) : HandshakeState Point Key :=
    {checked with
      toSymmetricState := s, remoteEphemeral := some (suite.pubKey eR), remoteStatic := some (suite.pubKey w.localStatic)}
  obtain ⟨s,t,_,paired,tokens⟩ :=
    xx_act2_tokens (w := w) (r := checked) lawful paired writer reader own ephemeral remote
  obtain ⟨s,t,_,paired,payload⟩ :=
    conveys_payload (w := w' s) (r := r' t) lawful.toAeadLawful paired w.version known sendable
  exact ⟨s,t,_,paired,.intro (checkVersion_initiator w.version reader lower upper) tokens payload⟩

theorem xx_act3 (lawful : suite.Lawful) {w r : HandshakeState Point Key}
    (paired : Paired suite w.toSymmetricState r.toSymmetricState) (writer : w.initiator = true)
    (reader : r.initiator = false) (ephemeral : r.localEphemeral = some eR)
    (remote : w.remoteEphemeral = some (suite.pubKey eR)) (same : w.version = r.version)
    (known : w.version ≤ HandshakeVersion2) :
    ∃ s s' bytes, Paired suite s s' ∧ ActConveys suite ⟨[.s,.se],true,act3⟩ w r {w with toSymmetricState := s}
      {r with toSymmetricState := s', remoteStatic := some (suite.pubKey w.localStatic)} bytes := by
  let w' (s : SymmetricState) : HandshakeState Point Key := {w with toSymmetricState := s}
  let r' (s : SymmetricState) : HandshakeState Point Key :=
    {r with toSymmetricState := s, remoteStatic := some (suite.pubKey w.localStatic)}
  obtain ⟨s1,t1,b1,paired,s⟩ := conveys_s (w := w) (r := r) lawful paired
  obtain ⟨s2,t2,paired,se⟩ := conveys_peerEphemeral (w := w' s1) (r := r' t1) lawful.toCurveLawful paired
    (by simp [w',r',writer,reader]) eR ephemeral rfl remote .se (by simp [w',writer])
  obtain ⟨s3,t3,b3,paired,payload⟩ :=
    conveys_noPayload (w := w' s2) (r := r' t2) lawful.toAeadLawful paired w.version act3 known (.inr rfl)
  exact ⟨s3,t3,_,paired,.intro (checkVersion_same w.version same) (s.cons (se.cons conveys_nil)) payload⟩

end XX

section KK

variable {i r : HandshakeState Point Key} {eI eR : Key} {iLater rLater : List (Option Key)}

theorem kk_act1 (lawful : suite.Lawful) (paired : Paired suite i.toSymmetricState r.toSymmetricState)
    (writer : i.initiator = true) (reader : r.initiator = false) (own : i.ephemeralGen = some eI :: iLater)
    (lower : r.minVersion ≤ i.version) (middle : i.version ≤ r.maxVersion) (known : i.version ≤ HandshakeVersion2)
    (remoteI : i.remoteStatic = some (suite.pubKey r.localStatic))
    (remoteR : r.remoteStatic = some (suite.pubKey i.localStatic)) :
    ∃ s s' bytes, Paired suite s s' ∧ ActConveys suite ⟨[.e,.es,.ss],true,act1⟩ i r
      {i with toSymmetricState := s, localEphemeral := some eI, ephemeralGen := iLater}
      {r with toSymmetricState := s', remoteEphemeral := some (suite.pubKey eI)} bytes := by
  let i' (s : SymmetricState) : HandshakeState Point Key :=
    {i with toSymmetricState := s, localEphemeral := some eI, ephemeralGen := iLater}
  let r' (s : SymmetricState) : HandshakeState Point Key :=
    {r with toSymmetricState := s, remoteEphemeral := some (suite.pubKey eI)}
  obtain ⟨s1,t1,b1,paired,e⟩ := conveys_e lawful.toCurveLawful paired eI iLater own
  obtain ⟨s2,t2,paired,es⟩ := conveys_ownEphemeral (w := i' s1) (r := r' t1) lawful.toCurveLawful paired
    (by simp [i',r',writer,reader]) eI rfl remoteI rfl .es (by simp [i',writer])
  obtain ⟨s3,t3,paired,ss⟩ := conveys_ss (w := i' s2) (r := r' t2) lawful.toCurveLawful paired remoteI remoteR
  obtain ⟨s4,t4,b4,paired,payload⟩ :=
    conveys_noPayload (w := i' s3) (r := r' t3) lawful.toAeadLawful paired i.version act1 known (.inl rfl)
  exact ⟨s4,t4,_,paired,.intro (checkVersion_responder i.version reader lower middle)
    (e.cons (es.cons (ss.cons conveys_nil))) payload⟩

theorem kk_act2 (lawful : suite.Lawful) {w r : HandshakeState Point Key}
    (paired : Paired suite w.toSymmetricState r.toSymmetricState) (writer : w.initiator = false)
    (reader : r.initiator = true) (own : w.ephemeralGen = some eR :: rLater) (ephemeral : r.localEphemeral = some eI)
    (remote : w.remoteEphemeral = some (suite.pubKey eI))
    (static : w.remoteStatic = some (suite.pubKey r.localStatic)) (lower : r.minVersion ≤ w.version)
    (upper : w.version ≤ r.maxVersion) (known : w.version ≤ HandshakeVersion2)
    (sendable : Sendable w.version w.payloadToSend) :
    ∃ s s' bytes, Paired suite s s' ∧ ActConveys suite ⟨[.e,.ee,.se],false,act2⟩ w r
      {w with toSymmetricState := s, localEphemeral := some eR, ephemeralGen := rLater}
      {r with
        toSymmetricState := s', version := w.version, remoteEphemeral := some (suite.pubKey eR)
        receivedPayload := carried w.version w.payloadToSend} bytes := by
  let checked : HandshakeState Point Key := {r with version := w.version}
  let w' (s : SymmetricState) : HandshakeState Point Key :=
    {w with toSymmetricState := s, localEphemeral := some eR, ephemeralGen := rLater}
  let r' (s : SymmetricState) : HandshakeState Point Key :=
    {checked with toSymmetricState := s, remoteEphemeral := some (suite.pubKey eR)}
  obtain ⟨s1,t1,b1,paired,e⟩ := conveys_e (w := w) (r := checked) lawful.toCurveLawful paired eR rLater own
  obtain ⟨s2,t2,paired,ee⟩ := conveys_ee (w := w' s1) (r := r' t1) lawful.toCurveLawful paired eR eI rfl remote ephemeral rfl
  obtain ⟨s3,t3,paired,se⟩ := conveys_ownEphemeral (w := w' s2) (r := r' t2) lawful.toCurveLawful paired
    (by simp [w',r',checked,writer,reader]) eR rfl static rfl .se (by simp [w',writer])
  obtain ⟨s4,t4,b4,paired,payload⟩ :=
    conveys_payload (w := w' s3) (r := r' t3) lawful.toAeadLawful paired w.version known sendable
  exact ⟨s4,t4,_,paired,.intro (checkVersion_initiator w.version reader lower upper)
    (e.cons (ee.cons (se.cons conveys_nil))) payload⟩

end KK

end NodeConnect.Noise
