import NodeConnect.Noise.Completed
import NodeConnect.Noise.Interrupted

/-! Ends whose secrets do not match. The first ciphertext that the responder opens is
bound to all that was hashed before: the protocol, the static keys of a KK handshake, and
the unmasked ephemeral key of an XX handshake. -/
namespace NodeConnect.Noise
open Lib Fallible Handshake

variable {Point Key : Type} {suite : Suite Point Key}

/-- The ends run one pattern without sharing its secrets, or different patterns. -/
inductive Mismatched (suite : Suite Point Key) (I R : Machine Point Key) : Prop
  | passphrase (patternI : I.pattern = XXPattern) (patternR : R.pattern = XXPattern)
      (apart : suite.modNScalar I.passphraseEntropy ≠ suite.modNScalar R.passphraseEntropy)
  | staticKeys (patternI : I.pattern = KKPattern) (patternR : R.pattern = KKPattern)
      (apart : ¬ (I.remoteStatic = some (suite.pubKey R.localStatic) ∧ R.remoteStatic = some (suite.pubKey I.localStatic)))
  | patterns (apart : I.pattern = XXPattern ∧ R.pattern = KKPattern ∨ I.pattern = KKPattern ∧ R.pattern = XXPattern)

theorem Mismatched.known {I R : Machine Point Key} (mismatched : Mismatched suite I R) :
    I.pattern = XXPattern ∨ I.pattern = KKPattern := by
  cases mismatched with
  | passphrase patternI => exact .inl patternI
  | staticKeys patternI => exact .inr patternI
  | patterns apart =>
    rcases apart with ⟨patternI,_⟩ | ⟨patternI,_⟩
    · exact .inl patternI
    · exact .inr patternI

theorem Tracks.same_front (lawful : suite.Lawful) {start start' ciphertext plaintext : Bytes}
    {front front' added more rest' : List Entry} {s s' : SymmetricState}
    (tracks : Tracks suite start (front ++ (added ++ .theirs ciphertext plaintext :: more)) s)
    (tracks' : Tracks suite start' (front' ++ rest') s') (ideal : Ideal suite (s.calls ++ s'.calls))
    (short : start.length < 32 + macSize) (short' : start'.length < 32 + macSize)
    (same : front'.length = front.length) : start = start' ∧ front.map Entry.item = front'.map Entry.item := by
  have here : (front ++ (added ++ .theirs ciphertext plaintext :: more))[front.length + added.length]? =
      some (.theirs ciphertext plaintext) := by
    simp
  obtain ⟨starts,_,items⟩ := tracks.aligned lawful tracks' ideal short short' here
  have fronts := congrArg (List.take front.length) items
  have bound : front.length ≤ front.length + added.length + 1 := by omega
  rw [← List.map_take,← List.map_take,List.take_take,List.take_take,Nat.min_eq_left bound,List.take_left,← same,
    List.take_left] at fronts
  exact ⟨starts,fronts⟩

variable [AddCommGroup Point]

theorem acts_adds (lawful : suite.Lawful) {mp : MessagePattern} (later : List MessagePattern) {p q : Party Point Key}
    {value : Unit}
    (act : (if mp.initiator = p.initiator then writeMsgPattern suite mp else readMsgPattern suite mp) p = .ok value q)
    {added : List Entry} (adds : Adds suite p q added) {start : Bytes} {front : List Entry}
    (tracks : Tracks suite start front p.toSymmetricState) :
    ∃ more, Tracks suite start (front ++ added ++ more) (final (acts suite (mp :: later) p)).toSymmetricState := by
  rw [acts_cons,bind_ok _ _ _ _ _ act]
  exact acts_grows lawful later q start _ (adds start front tracks)

omit [AddCommGroup Point] in
theorem payload_act1 {version : UInt8} {payload : List Entry}
    (fits : List.Forall₂ Entry.Fits payload (payloadTaken version act1)) :
    ∃ ciphertext plaintext, payload = [.theirs ciphertext plaintext] := by
  rw [payloadTaken,if_neg (by decide)] at fits
  obtain ⟨entry,rfl⟩ := List.length_eq_one_iff.mp fits.length_eq
  cases fits with
  | cons fit _ =>
    cases entry with
    | theirs ciphertext plaintext => exact ⟨ciphertext,plaintext,rfl⟩
    | plain item => exact fit.elim
    | mine ciphertext plaintext => exact fit.elim

theorem act1_opens (lawful : suite.Lawful) {mp : MessagePattern} (act : mp.actNum = act1) {p q : Party Point Key}
    {value : Unit} (took : readMsgPattern suite mp p = .ok value q) :
    ∃ added ciphertext plaintext, Adds suite p q (added ++ [.theirs ciphertext plaintext]) := by
  obtain ⟨version,_,_,_,tokens,payload,adds,_,fits,_⟩ := readMsgPattern_adds lawful mp took
  rw [act] at fits
  obtain ⟨ciphertext,plaintext,rfl⟩ := payload_act1 fits
  exact ⟨tokens,ciphertext,plaintext,adds⟩

theorem writeMe_ok (lawful : suite.Lawful) {p q : Party Point Key} {bytes : Bytes}
    (wrote : writeTokens suite [.me] p = .ok bytes q) :
    ∃ e, bytes = suite.serializeCompressed (ekeMask suite (suite.pubKey e) p.passphraseEntropy) ∧
      Adds suite p q [.plain (suite.serializeCompressed (suite.pubKey e))] := by
  obtain ⟨first,p1,wroteMe,returned⟩ := (bind_eq_ok _ _ _ _ _).mp wrote
  cases returned
  obtain ⟨e,p2,made,wroteKey⟩ := (bind_eq_ok _ _ _ _ _).mp wroteMe
  obtain ⟨symmetric,_,passphrase⟩ := newEphemeral_made made
  obtain ⟨_,p3,mixed,returned⟩ := (bind_eq_ok _ _ _ _ _).mp wroteKey
  have adds := (mixHash_adds lawful _ mixed).congr symmetric.symm rfl
  cases mixed
  cases returned
  refine ⟨e,?_,adds⟩
  rw [List.append_nil,← passphrase]

theorem readMe_ok (lawful : suite.Lawful) {p q : Party Point Key} {value : Unit} (took : readTokens suite [.me] p = .ok value q)
    {masked : Point} {rest : Bytes} (incoming : p.incoming = ⟨suite.serializeCompressed masked ++ rest,[]⟩) :
    Adds suite p q [.plain (suite.serializeCompressed (ekeUnmask suite masked p.passphraseEntropy))] := by
  obtain ⟨_,p1,tookMe,returned⟩ := (bind_eq_ok _ _ _ _ _).mp took
  cases returned
  obtain ⟨bytes,p2,read,tookKey⟩ := (bind_eq_ok _ _ _ _ _).mp tookMe
  unfold readBytes at read
  rw [incoming,Reader.read_append _ rest 33 (lawful.serialize_length masked)] at read
  cases read
  obtain ⟨point,p3,parsed,mixed⟩ := (bind_eq_ok _ _ _ _ _).mp tookKey
  obtain ⟨known,rfl⟩ := parsePubKey_ok parsed
  cases lawful.parse_unique masked point known
  exact (mixHash_adds lawful _ mixed).congr rfl rfl

theorem xx_act1_wrote (lawful : suite.Lawful) {p q : Party Point Key} {value : Unit}
    (wrote : writeMsgPattern suite ⟨[.me],true,act1⟩ p = .ok value q) :
    ∃ e payload added, Adds suite p q (.plain (suite.serializeCompressed (suite.pubKey e)) :: added) ∧
      q.written = p.written ++ [p.version ::
        (suite.serializeCompressed (ekeMask suite (suite.pubKey e) p.passphraseEntropy) ++ payload)] := by
  unfold writeMsgPattern at wrote
  rw [get_bind] at wrote
  obtain ⟨tokens,p1,wroteTokens,wroteRest⟩ := (bind_eq_ok _ _ _ _ _).mp wrote
  obtain ⟨payload,p2,wrotePayload,wroteAll⟩ := (bind_eq_ok _ _ _ _ _).mp wroteRest
  have link1 := ((link_keptBy suite).writeTokens [.me]).of_ok wroteTokens
  have link2 := ((link_keptBy suite).writePayload _ _).of_ok wrotePayload
  have written : p2.written = p.written := congrArg Link.written (link2.trans link1)
  obtain ⟨e,rfl,adds⟩ := writeMe_ok lawful wroteTokens
  obtain ⟨added,addsPayload,_⟩ := writePayload_adds lawful _ _ wrotePayload
  rw [writeBytes_ok wroteAll]
  refine ⟨e,payload,added,(adds.trans addsPayload).congr rfl rfl,?_⟩
  rw [written]
  simp

theorem xx_act1_took (lawful : suite.Lawful) {p q : Party Point Key} {value : Unit}
    (took : readMsgPattern suite ⟨[.me],true,act1⟩ p = .ok value q) {version : UInt8} {masked : Point} {rest : Bytes}
    (incoming : p.incoming = ⟨version :: (suite.serializeCompressed masked ++ rest),[]⟩) :
    ∃ ciphertext plaintext, Adds suite p q
      [.plain (suite.serializeCompressed (ekeUnmask suite masked p.passphraseEntropy)),.theirs ciphertext plaintext] := by
  unfold readMsgPattern at took
  obtain ⟨scratch,p1,read,tookAct⟩ := (bind_eq_ok _ _ _ _ _).mp took
  obtain ⟨_,p2,checked,tookRest⟩ := (bind_eq_ok _ _ _ _ _).mp tookAct
  obtain ⟨_,p3,tookTokens,tookPayload⟩ := (bind_eq_ok _ _ _ _ _).mp tookRest
  unfold readBytes at read
  rw [incoming,← List.singleton_append,Reader.read_append _ _ 1 rfl] at read
  cases read
  have link := (checkVersion_field (fun p => p.toLink) (fun _ _ => rfl) _ _).of_ok checked
  have adds := readMe_ok lawful tookTokens (congrArg Link.incoming link)
  rw [((checkVersion_frame _ _).of_ok checked).passphraseEntropy] at adds
  obtain ⟨_,payload,addsPayload,fits,_⟩ := readPayload_adds _ _ tookPayload
  obtain ⟨ciphertext,plaintext,rfl⟩ := payload_act1 fits
  exact ⟨ciphertext,plaintext,(adds.trans addsPayload).congr (checkVersion_ok checked).1.symm rfl⟩

section Refused

variable {m : Machine Point Key} {start : Bytes} {base : List Entry}

theorem handshakeOn_tracks (lawful : suite.Lawful) (tracks : Tracks suite start base m.toSymmetricState) (incoming : Bytes) :
    ∃ added, Tracks suite start (base ++ added) (m.handshakeOn suite incoming).machine.toSymmetricState := by
  have state := congrArg (fun h => h.toSymmetricState) (doHandshake_handshake suite m {incoming := ⟨incoming,[]⟩})
  have grows := acts_grows lawful m.pattern.pattern (m.party {incoming := ⟨incoming,[]⟩}) start base tracks
  rw [← state] at grows
  exact grows

theorem handshakeOn_adds (lawful : suite.Lawful) (tracks : Tracks suite start base m.toSymmetricState) {incoming : Bytes}
    {mp : MessagePattern} {later : List MessagePattern} (shape : m.pattern.pattern = mp :: later) {q : Party Point Key}
    (act : (if mp.initiator = m.initiator then writeMsgPattern suite mp else readMsgPattern suite mp)
      (m.party {incoming := ⟨incoming,[]⟩}) = .ok () q) {added : List Entry}
    (adds : Adds suite (m.party {incoming := ⟨incoming,[]⟩}) q added) :
    ∃ more, Tracks suite start (base ++ added ++ more) (m.handshakeOn suite incoming).machine.toSymmetricState := by
  have state := congrArg (fun h => h.toSymmetricState) (doHandshake_handshake suite m {incoming := ⟨incoming,[]⟩})
  have grows := acts_adds lawful later act adds tracks
  rw [← shape,← state] at grows
  exact grows

end Refused

section Act1

variable {cfgI cfgR : BrontideMachineConfig Point Key} {I R : Machine Point Key} {toInitiator toResponder : Bytes}

/-- A responder that accepts the first act runs the protocol of the initiator, and both
began with the same items. -/
theorem accepted_start (lawful : suite.Lawful) {nameI nameR : PatternName} {baseI baseR : List Entry}
    (tracksI : Tracks suite (protocolName nameI) baseI I.toSymmetricState)
    (tracksR : Tracks suite (protocolName nameR) baseR R.toSymmetricState)
    (ideal : Ideal suite ((I.handshakeOn suite toInitiator).machine.calls ++ (R.handshakeOn suite toResponder).machine.calls))
    (responder : R.initiator = false) {mp : MessagePattern} {later : List MessagePattern}
    (shape : R.pattern.pattern = mp :: later) (opens : mp.initiator = true ∧ mp.actNum = act1) {q : Party Point Key}
    (took : readMsgPattern suite mp (R.party {incoming := ⟨toResponder,[]⟩}) = .ok () q) :
    protocolName nameR = protocolName nameI ∧
      (baseI.length = baseR.length → baseR.map Entry.item = baseI.map Entry.item) := by
  obtain ⟨added,ciphertext,plaintext,adds⟩ := act1_opens lawful opens.2 took
  obtain ⟨more,finalR⟩ := handshakeOn_adds lawful tracksR shape (by rwa [if_neg (by simp [opens.1,responder])]) adds
  obtain ⟨rest,finalI⟩ := handshakeOn_tracks lawful tracksI toInitiator
  rw [List.append_assoc,List.append_assoc,List.singleton_append] at finalR
  have ideal := ideal.symm
  refine ⟨?_,?_⟩
  · have wholeR : Tracks suite (protocolName nameR) ([] ++ (baseR ++ added ++ .theirs ciphertext plaintext :: more))
        (R.handshakeOn suite toResponder).machine.toSymmetricState := by
      rw [List.nil_append,List.append_assoc]
      exact finalR
    have wholeI : Tracks suite (protocolName nameI) ([] ++ (baseI ++ rest))
      (I.handshakeOn suite toInitiator).machine.toSymmetricState := finalI
    exact (wholeR.same_front lawful wholeI ideal (protocolName_short _) (protocolName_short _) rfl).1
  · intro same
    exact (finalR.same_front lawful finalI ideal (protocolName_short _) (protocolName_short _) same).2

theorem kk_refused (lawful : suite.Lawful) (ends : Ends suite cfgI cfgR I R) (patternI : I.pattern = KKPattern)
    (patternR : R.pattern = KKPattern)
    (apart : ¬ (I.remoteStatic = some (suite.pubKey R.localStatic) ∧ R.remoteStatic = some (suite.pubKey I.localStatic)))
    (ideal : Ideal suite ((I.handshakeOn suite toInitiator).machine.calls ++ (R.handshakeOn suite toResponder).machine.calls))
    {q : Party Point Key}
    (took : readMsgPattern suite ⟨[.e,.es,.ss],true,act1⟩ (R.party {incoming := ⟨toResponder,[]⟩}) = .ok () q) :
    False := by
  obtain ⟨initiator,responder,_⟩ := ends.roles
  obtain ⟨remoteI,knownI,tracksI⟩ := (newBrontideMachine_built cfgI I ends.madeI).tracksKK lawful patternI
  obtain ⟨remoteR,knownR,tracksR⟩ := (newBrontideMachine_built cfgR R ends.madeR).tracksKK lawful patternR
  have items := (accepted_start lawful tracksI tracksR ideal responder (by rw [patternR]; rfl) ⟨rfl,rfl⟩ took).2 rfl
  rw [if_pos initiator,if_pos initiator,if_neg (by simp [responder]),if_neg (by simp [responder])] at items
  have keys := (List.cons.inj items).2
  have first := lawful.serialize_injective (List.cons.inj keys).1
  have second := lawful.serialize_injective (List.cons.inj (List.cons.inj keys).2).1
  apply apart
  rw [knownI,knownR,first,second]
  exact ⟨rfl,rfl⟩

/-- A passphrase with another scalar unmasks another ephemeral key. -/
theorem xx_refused (lawful : suite.Lawful) (ends : Ends suite cfgI cfgR I R) (patternI : I.pattern = XXPattern)
    (patternR : R.pattern = XXPattern)
    (distinct : ∀ first second, suite.modNScalar first • suite.N = suite.modNScalar second • suite.N →
      suite.modNScalar first = suite.modNScalar second)
    (apart : suite.modNScalar I.passphraseEntropy ≠ suite.modNScalar R.passphraseEntropy)
    (sent : (I.handshakeOn suite toInitiator).link.written.flatten = toResponder)
    (ideal : Ideal suite ((I.handshakeOn suite toInitiator).machine.calls ++ (R.handshakeOn suite toResponder).machine.calls))
    {q : Party Point Key}
    (took : readMsgPattern suite ⟨[.me],true,act1⟩ (R.party {incoming := ⟨toResponder,[]⟩}) = .ok () q) : False := by
  obtain ⟨initiator,responder,_⟩ := ends.roles
  have tracksI := (newBrontideMachine_built cfgI I ends.madeI).tracksXX patternI
  have tracksR := (newBrontideMachine_built cfgR R ends.madeR).tracksXX patternR
  rw [handshakeOn_written,patternI,XXPattern,acts_cons,if_pos (by simp [starting,initiator])] at sent
  cases wrote : writeMsgPattern suite ⟨[.me],true,act1⟩ (starting I.toHandshakeState toInitiator) with
  | error err p =>
    rw [bind_error _ _ _ _ _ wrote,final,writeMsgPattern_error suite _ _ p err wrote] at sent
    rw [← sent,readMsgPattern_nothing _ _ rfl] at took
    contradiction
  | ok value p =>
    rw [bind_ok _ _ _ _ _ wrote] at sent
    obtain ⟨e,payload,added,addsI,written⟩ := xx_act1_wrote lawful wrote
    obtain ⟨tail,begins⟩ := (acts_frame suite [⟨[.e,.ee,.s,.es],false,act2⟩,⟨[.s,.se],true,act3⟩] p).written
    have bytes : toResponder = I.version :: (suite.serializeCompressed
        (ekeMask suite (suite.pubKey e) I.passphraseEntropy) ++ (payload ++ tail.flatten)) := by
      rw [← sent,← begins,written]
      simp [starting]
    obtain ⟨ciphertext,plaintext,addsR⟩ := xx_act1_took lawful took (congrArg (Reader.mk · []) bytes)
    obtain ⟨moreI,finalI⟩ := handshakeOn_adds lawful tracksI (by rw [patternI]; rfl)
      (by rw [if_pos (by simp [initiator])]; exact wrote) addsI
    obtain ⟨moreR,finalR⟩ := handshakeOn_adds lawful tracksR (by rw [patternR]; rfl)
      (by rwa [if_neg (by simp [responder])]) addsR
    -- Both hashed one key after the prologue, and these keys are the same.
    let front (key : Point) : List Entry :=
      [.plain lightningNodeConnectPrologue,.plain (suite.serializeCompressed key)]
    have afterI : Tracks suite (protocolName .XX) (front (suite.pubKey e) ++ (added ++ moreI)) _ := finalI
    have afterR : Tracks suite (protocolName .XX) (front (ekeUnmask suite (ekeMask suite (suite.pubKey e)
      I.passphraseEntropy) R.passphraseEntropy) ++ ([] ++ .theirs ciphertext plaintext :: moreR)) _ := finalR
    have items := (afterR.same_front lawful afterI ideal.symm (protocolName_short _) (protocolName_short _) rfl).2
    have unmasked := lawful.serialize_injective (List.cons.inj (List.cons.inj items).2).1
    apply apart
    apply distinct
    unfold ekeUnmask ekeMask at unmasked
    change suite.pubKey e + suite.modNScalar I.passphraseEntropy • suite.N +
      -(suite.modNScalar R.passphraseEntropy • suite.N) = suite.pubKey e at unmasked
    rw [add_assoc,add_eq_left] at unmasked
    exact eq_of_sub_eq_zero (by rwa [sub_eq_add_neg])

/-- A responder never accepts the first act of an initiator whose secrets do not match. -/
theorem act1_refused (lawful : suite.Lawful) (ends : Ends suite cfgI cfgR I R) (mismatched : Mismatched suite I R)
    (distinct : ∀ first second, suite.modNScalar first • suite.N = suite.modNScalar second • suite.N →
      suite.modNScalar first = suite.modNScalar second)
    (sent : (I.handshakeOn suite toInitiator).link.written.flatten = toResponder)
    (ideal : Ideal suite ((I.handshakeOn suite toInitiator).machine.calls ++ (R.handshakeOn suite toResponder).machine.calls)) :
    ∃ mp later, R.pattern.pattern = mp :: later ∧ mp.initiator = true ∧ mp.actNum = act1 ∧
      ∀ q, readMsgPattern suite mp (R.party {incoming := ⟨toResponder,[]⟩}) ≠ .ok () q := by
  have builtI := newBrontideMachine_built cfgI I ends.madeI
  have builtR := newBrontideMachine_built cfgR R ends.madeR
  have responder := ends.roles.2.1
  cases mismatched with
  | passphrase patternI patternR apart =>
    refine ⟨_,_,congrArg HandshakePattern.pattern patternR,rfl,rfl,?_⟩
    intro q took
    exact xx_refused lawful ends patternI patternR distinct apart sent ideal took
  | staticKeys patternI patternR apart =>
    refine ⟨_,_,congrArg HandshakePattern.pattern patternR,rfl,rfl,?_⟩
    intro q took
    exact kk_refused lawful ends patternI patternR apart ideal took
  | patterns apart =>
    rcases apart with ⟨patternI,patternR⟩ | ⟨patternI,patternR⟩
    · refine ⟨_,_,congrArg HandshakePattern.pattern patternR,rfl,rfl,?_⟩
      intro q took
      obtain ⟨_,_,tracksR⟩ := builtR.tracksKK lawful patternR
      have names := (accepted_start lawful (builtI.tracksXX patternI) tracksR ideal responder
        (congrArg HandshakePattern.pattern patternR) ⟨rfl,rfl⟩ took).1
      exact absurd names (by decide)
    · refine ⟨_,_,congrArg HandshakePattern.pattern patternR,rfl,rfl,?_⟩
      intro q took
      obtain ⟨_,_,tracksI⟩ := builtI.tracksKK lawful patternI
      have names := (accepted_start lawful tracksI (builtR.tracksXX patternR) ideal responder
        (congrArg HandshakePattern.pattern patternR) ⟨rfl,rfl⟩ took).1
      exact absurd names (by decide)

/-- Ends whose secrets do not match: the responder fails in the first act, the initiator
fails as well, and neither of them stores anything. -/
theorem mismatch_rejected (lawful : suite.Lawful) (ends : Ends suite cfgI cfgR I R) (mismatched : Mismatched suite I R)
    (distinct : ∀ first second, suite.modNScalar first • suite.N = suite.modNScalar second • suite.N →
      suite.modNScalar first = suite.modNScalar second)
    (session : Session suite I R toInitiator toResponder)
    (ideal : Ideal suite ((I.handshakeOn suite toInitiator).machine.calls ++ (R.handshakeOn suite toResponder).machine.calls)) :
    (∃ mp later err q, R.pattern.pattern = mp :: later ∧ mp.actNum = act1 ∧
      readMsgPattern suite mp (R.party {incoming := ⟨toResponder,[]⟩}) = .error err q ∧
      (R.handshakeOn suite toResponder).err = some err) ∧
    ¬ (I.handshakeOn suite toInitiator).ok ∧
    (I.handshakeOn suite toInitiator).machine.connData = I.connData ∧
    (R.handshakeOn suite toResponder).machine.connData = R.connData := by
  obtain ⟨initiator,responder,_⟩ := ends.roles
  obtain ⟨mp,later,shape,opens,act,refused⟩ := act1_refused lawful ends mismatched distinct session.fromInitiator ideal
  cases took : readMsgPattern suite mp (R.party {incoming := ⟨toResponder,[]⟩}) with
  | ok value q => exact absurd took (refused q)
  | error err q =>
    have failedR : acts suite R.pattern.pattern (R.party {incoming := ⟨toResponder,[]⟩}) = .error err q := by
      rw [shape,acts_cons,if_neg (by simp [opens,Machine.party,responder])]
      exact bind_error _ _ _ _ _ took
    obtain ⟨errR,dataR⟩ := doHandshake_error R _ failedR
    have silent : toInitiator = [] := by
      have quiet := readMsgPattern_written suite mp (R.party {incoming := ⟨toResponder,[]⟩})
      rw [took] at quiet
      rw [← session.fromResponder,Machine.handshakeOn,doHandshake_link,failedR]
      exact congrArg List.flatten quiet
    have failsI : ∃ err p, acts suite I.pattern.pattern (I.party {incoming := ⟨toInitiator,[]⟩}) = .error err p := by
      rw [silent]
      obtain ⟨_,_,_,shapeI,opensI,_,answersI⟩ := known_shape mismatched.known
      rw [shapeI]
      exact initiator_nothing _ _ _ opensI answersI _ initiator rfl
    obtain ⟨err',p,failedI⟩ := failsI
    obtain ⟨errI,dataI⟩ := doHandshake_error I _ failedI
    refine ⟨⟨mp,later,err,q,shape,act,took,errR⟩,?_,dataI,dataR⟩
    intro ok
    exact nomatch errI.symm.trans ok

end Act1

theorem plainSuite_distinct (first second : Bytes)
    (same : plainSuite.modNScalar first • plainSuite.N = plainSuite.modNScalar second • plainSuite.N) :
    plainSuite.modNScalar first = plainSuite.modNScalar second := by
  have multiple : ∀ n < 256, (n • (1 : UInt8)).toNat = n := by decide +kernel
  have bound (bytes : Bytes) : plainSuite.modNScalar bytes < 256 := Nat.mod_lt _ (by decide)
  have values := congrArg UInt8.toNat same
  rwa [show plainSuite.N = 1 from rfl,multiple _ (bound first),multiple _ (bound second)] at values

/-- A client and a server with passphrases that differ in the last byte. -/
theorem mismatch_rejected_passphrase :
    ∃ I R : Machine UInt8 UInt8,
      Ends plainSuite (plainEnd true ⟨5,none,[1,7],[],none,none,[]⟩ 0 2 11)
        (plainEnd false ⟨9,none,[1,8],ascii "macaroon",none,none,[]⟩ 0 2 13) I R ∧ Mismatched plainSuite I R ∧
      ∃ toResponder, toResponder.length = 50 ∧ Session plainSuite I R [] toResponder ∧
        Ideal plainSuite ((I.handshakeOn plainSuite []).machine.calls ++
          (R.handshakeOn plainSuite toResponder).machine.calls) ∧
        ¬ (I.handshakeOn plainSuite []).ok ∧ (R.handshakeOn plainSuite toResponder).err = some .decrypt ∧
        (I.handshakeOn plainSuite []).machine.connData = I.connData ∧
        (R.handshakeOn plainSuite toResponder).machine.connData = R.connData := by
  have prepared : ∃ I R : Machine UInt8 UInt8,
      Ends plainSuite (plainEnd true ⟨5,none,[1,7],[],none,none,[]⟩ 0 2 11)
        (plainEnd false ⟨9,none,[1,8],ascii "macaroon",none,none,[]⟩ 0 2 13) I R ∧
      I.pattern = XXPattern ∧ R.pattern = XXPattern ∧
      ∃ toResponder, plainSuite.modNScalar I.passphraseEntropy ≠ plainSuite.modNScalar R.passphraseEntropy ∧
        toResponder.length = 50 ∧ (I.handshakeOn plainSuite []).link.written.flatten = toResponder ∧
        (R.handshakeOn plainSuite toResponder).link.written.flatten = [] ∧
        Ideal plainSuite ((I.handshakeOn plainSuite []).machine.calls ++
          (R.handshakeOn plainSuite toResponder).machine.calls) ∧
        (R.handshakeOn plainSuite toResponder).err = some .decrypt := by
    let I := plainMachine (plainEnd true ⟨5,none,[1,7],[],none,none,[]⟩ 0 2 11)
    let R := plainMachine (plainEnd false ⟨9,none,[1,8],ascii "macaroon",none,none,[]⟩ 0 2 13)
    refine ⟨I,R,⟨rfl,rfl,rfl,rfl⟩,rfl,rfl,(I.handshakeOn plainSuite []).link.written.flatten,?_⟩
    decide +kernel
  obtain ⟨I,R,ends,patternI,patternR,toResponder,apart,length,fromI,fromR,ideal,err⟩ := prepared
  have mismatched : Mismatched plainSuite I R := .passphrase patternI patternR apart
  have session : Session plainSuite I R [] toResponder := ⟨fromI,fromR⟩
  obtain ⟨_,fails,dataI,dataR⟩ :=
    mismatch_rejected plainSuite_lawful ends mismatched plainSuite_distinct session ideal
  exact ⟨I,R,ends,mismatched,toResponder,length,session,ideal,fails,err,dataI,dataR⟩

end NodeConnect.Noise
