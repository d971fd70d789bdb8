import NodeConnect.Noise.Machine

/-! What no act changes, whether it succeeds or fails. A relation between the state
before and after is kept by all acts as soon as it is kept by the few operations that
the interpreters are made of. Those that not every part of them uses, such as reads and
writes of the stream, are asked for where they are used. -/
namespace NodeConnect.Noise
open Lib Fallible Handshake

variable {Point Key : Type}

/-- The relation is kept by the operations on the keys and the symmetric state that seal nothing. -/
structure KeptUnsealed (suite : Suite Point Key) (relation : Party Point Key → Party Point Key → Prop) : Prop where
  refl : ∀ p, relation p p
  trans : ∀ p q t, relation p q → relation q t → relation p t
  mixHash : ∀ point, Keeps relation (Handshake.mixHash suite (suite.serializeCompressed point))
  mixKey : ∀ input, Keeps relation (mixKey suite input)
  decryptAndHash : ∀ ciphertext, Keeps relation (decryptAndHash suite ciphertext)
  newEphemeral : Keeps relation newEphemeral
  remoteEphemeral : ∀ key (p : Party Point Key), relation p {p with remoteEphemeral := key}

structure KeptBy (suite : Suite Point Key) (relation : Party Point Key → Party Point Key → Prop) : Prop
    extends KeptUnsealed suite relation where
  encryptAndHash : ∀ plaintext, Keeps relation (encryptAndHash suite plaintext)

def TakesStatic (relation : Party Point Key → Party Point Key → Prop) : Prop :=
  ∀ key p, relation p {p with remoteStatic := key}

namespace KeptUnsealed

variable {suite : Suite Point Key} {relation : Party Point Key → Party Point Key → Prop}

theorem bind {α β : Type} (kept : KeptUnsealed suite relation) {first : Handshake Point Key α}
    {next : α → Handshake Point Key β} (before : Keeps relation first)
    (after : ∀ value, Keeps relation (next value)) : Keeps relation (first >>= next) :=
  Keeps.bind kept.trans before after

theorem pure {α : Type} (kept : KeptUnsealed suite relation) (value : α) :
    Keeps relation (Pure.pure value : Handshake Point Key α) := Keeps.pure kept.refl value

theorem throw {α : Type} (kept : KeptUnsealed suite relation) (err : HandshakeError) :
    Keeps relation (MonadExcept.throw err : Handshake Point Key α) := Keeps.throw kept.refl err

theorem get (kept : KeptUnsealed suite relation) : Keeps relation (MonadState.get : Handshake Point Key (Party Point Key)) :=
  kept.refl

theorem parsePubKey (kept : KeptUnsealed suite relation) (bytes : Bytes) :
    Keeps relation (Handshake.parsePubKey suite bytes) := by
  unfold Handshake.parsePubKey
  split
  · exact kept.pure _
  · exact kept.throw _

theorem mixECDH (kept : KeptUnsealed suite relation) (remote : Party Point Key → Option Point)
    (own : Party Point Key → Option Key) : Keeps relation (Handshake.mixECDH suite remote own) := by
  refine kept.bind kept.get fun p => kept.bind ?_ fun secret => kept.mixKey _
  unfold Handshake.ecdh
  split
  · split
    · exact kept.pure _
    · exact kept.throw _
  · exact kept.throw _

theorem mixES (kept : KeptUnsealed suite relation) : Keeps relation (Handshake.mixES suite) :=
  kept.bind kept.get fun _ => .ite (kept.mixECDH _ _) (kept.mixECDH _ _)

theorem mixSE (kept : KeptUnsealed suite relation) : Keeps relation (Handshake.mixSE suite) :=
  kept.bind kept.get fun _ => .ite (kept.mixECDH _ _) (kept.mixECDH _ _)

variable [AddCommGroup Point]

theorem writeToken (kept : KeptUnsealed suite relation) (token : Token)
    (encrypts : token = .s → ∀ plaintext, Keeps relation (Handshake.encryptAndHash suite plaintext)) :
    Keeps relation (Handshake.writeToken suite token) := by
  have quiet {m : Handshake Point Key Unit} (mixed : Keeps relation m) :
      Keeps relation (do m; Pure.pure ([] : Bytes)) := kept.bind mixed fun _ => kept.pure _
  cases token with
  | e => exact kept.bind kept.newEphemeral fun _ => kept.bind (kept.mixHash _) fun _ => kept.pure _
  | me =>
    exact kept.bind kept.newEphemeral fun _ => kept.bind (kept.mixHash _) fun _ => kept.bind kept.get fun _ => kept.pure _
  | s => exact kept.bind kept.get fun _ => encrypts rfl _
  | ee => exact quiet (kept.mixECDH _ _)
  | ss => exact quiet (kept.mixECDH _ _)
  | es => exact quiet kept.mixES
  | se => exact quiet kept.mixSE

theorem readToken (kept : KeptUnsealed suite relation) (reads : ∀ k, Keeps relation (Handshake.readBytes k)) (token : Token)
    (static : token = .s → TakesStatic relation) : Keeps relation (Handshake.readToken suite token) := by
  cases token with
  | e =>
    exact kept.bind (reads _) fun _ => kept.bind (kept.remoteEphemeral _) fun _ =>
      kept.bind (kept.parsePubKey _) fun _ => kept.mixHash _
  | me =>
    exact kept.bind (reads _) fun _ => kept.bind (kept.parsePubKey _) fun _ =>
      kept.bind kept.get fun _ => kept.bind (kept.remoteEphemeral _) fun _ => kept.mixHash _
  | s =>
    exact kept.bind (reads _) fun _ => kept.bind (kept.decryptAndHash _) fun _ =>
      kept.bind (static rfl _) fun _ => kept.bind (kept.parsePubKey _) fun _ => kept.pure _
  | ee => exact kept.mixECDH _ _
  | ss => exact kept.mixECDH _ _
  | es => exact kept.mixES
  | se => exact kept.mixSE

theorem readTokens (kept : KeptUnsealed suite relation) (reads : ∀ k, Keeps relation (Handshake.readBytes k))
    (tokens : List Token) (static : .s ∈ tokens → TakesStatic relation) :
    Keeps relation (Handshake.readTokens suite tokens) := by
  induction tokens with
  | nil => exact kept.pure _
  | cons token tokens ih =>
    have now (same : token = .s) : TakesStatic relation := static (same ▸ List.mem_cons_self)
    have later (member : .s ∈ tokens) : TakesStatic relation := static (List.mem_cons_of_mem _ member)
    exact kept.bind (kept.readToken reads token now) fun _ => ih later

omit [AddCommGroup Point] in
theorem readPayload (kept : KeptUnsealed suite relation) (reads : ∀ k, Keeps relation (Handshake.readBytes k))
    (receives : ∀ data (p : Party Point Key), relation p {p with receivedPayload := data}) (version actNum : UInt8) :
    Keeps relation (Handshake.readPayload suite version actNum) := by
  have body (k : Nat) : Keeps relation (do
      let cipherText ← Handshake.readBytes k
      let authData ← Handshake.decryptAndHash suite cipherText
      if actNum = act2 then modify fun p => {p with receivedPayload := authData} else return ()) :=
    kept.bind (reads _) fun _ => kept.bind (kept.decryptAndHash _) fun data =>
      .ite (receives data) (kept.pure _)
  refine .ite ?_ (.ite (.ite (body _) (.ite ?_ (kept.throw _))) (kept.bind kept.get fun _ => kept.throw _))
  · refine kept.bind (reads _) fun _ => kept.bind (kept.decryptAndHash _) fun payload => ?_
    exact .ite (kept.pure _) (.ite (kept.throw _) (receives _))
  · exact kept.bind (reads _) fun _ => kept.bind (kept.decryptAndHash _) fun _ => body _

theorem readMsgPattern (kept : KeptUnsealed suite relation) (reads : ∀ k, Keeps relation (Handshake.readBytes k))
    (checks : ∀ version actNum, Keeps relation (Handshake.checkVersion version actNum))
    (receives : ∀ data (p : Party Point Key), relation p {p with receivedPayload := data}) (mp : MessagePattern)
    (static : .s ∈ mp.tokens → TakesStatic relation) : Keeps relation (Handshake.readMsgPattern suite mp) :=
  kept.bind (reads _) fun _ => kept.bind (checks _ _) fun _ =>
    kept.bind (kept.readTokens reads _ static) fun _ => kept.readPayload reads receives _ _

end KeptUnsealed

namespace KeptBy

variable {suite : Suite Point Key} {relation : Party Point Key → Party Point Key → Prop}

theorem writePayload (kept : KeptBy suite relation) (version actNum : UInt8) :
    Keeps relation (Handshake.writePayload suite version actNum) := by
  refine kept.bind kept.get fun p => ?_
  refine .ite (.ite (kept.encryptAndHash _) (.ite (kept.encryptAndHash _) (kept.throw _))) ?_
  refine .ite (.ite (kept.encryptAndHash _) (.ite (.ite (kept.throw _) ?_) (kept.throw _))) (kept.throw _)
  exact kept.bind (kept.encryptAndHash _) fun _ => kept.bind (kept.encryptAndHash _) fun _ => kept.pure _

variable [AddCommGroup Point]

theorem writeToken (kept : KeptBy suite relation) (token : Token) : Keeps relation (Handshake.writeToken suite token) :=
  kept.toKeptUnsealed.writeToken token fun _ => kept.encryptAndHash

theorem writeTokens (kept : KeptBy suite relation) (tokens : List Token) :
    Keeps relation (Handshake.writeTokens suite tokens) := by
  induction tokens with
  | nil => exact kept.pure _
  | cons token tokens ih => exact kept.bind (kept.writeToken token) fun _ => kept.bind ih fun _ => kept.pure _

theorem writeMsgPattern (kept : KeptBy suite relation) (writes : ∀ bytes, Keeps relation (Handshake.writeBytes bytes))
    (mp : MessagePattern) :
    Keeps relation (Handshake.writeMsgPattern suite mp) :=
  kept.bind kept.get fun _ => kept.bind (kept.writeTokens _) fun _ => kept.bind (kept.writePayload _ _) fun _ =>
    writes _

theorem acts (kept : KeptBy suite relation) (reads : ∀ k, Keeps relation (Handshake.readBytes k))
    (writes : ∀ bytes, Keeps relation (Handshake.writeBytes bytes))
    (checks : ∀ version actNum, Keeps relation (Handshake.checkVersion version actNum))
    (receives : ∀ data (p : Party Point Key), relation p {p with receivedPayload := data})
    (patterns : List MessagePattern) (static : ∀ mp ∈ patterns, .s ∈ mp.tokens → TakesStatic relation) :
    Keeps relation (Handshake.acts suite patterns) := by
  induction patterns with
  | nil => exact kept.pure _
  | cons mp rest ih =>
    have later := ih fun mp' member => static mp' (List.mem_cons_of_mem _ member)
    have read := kept.readMsgPattern reads checks receives mp (static mp List.mem_cons_self)
    exact kept.bind kept.get fun _ => .ite (kept.bind (kept.writeMsgPattern writes mp) fun _ => later)
      (kept.bind read fun _ => later)

end KeptBy

/-- What a party brings to a handshake stays; what it wrote and called is only extended.
Only an initiator changes its version. -/
structure Frame (p q : Party Point Key) : Prop where
  initiator : q.initiator = p.initiator
  localStatic : q.localStatic = p.localStatic
  passphraseEntropy : q.passphraseEntropy = p.passphraseEntropy
  payloadToSend : q.payloadToSend = p.payloadToSend
  minVersion : q.minVersion = p.minVersion
  maxVersion : q.maxVersion = p.maxVersion
  version : p.initiator = false → q.version = p.version
  written : p.written <+: q.written
  calls : p.calls <+: q.calls

theorem bumpNonce_calls (suite : Suite Point Key) (c : CipherState) : c.calls <+: (c.bumpNonce suite).calls := by
  dsimp only [CipherState.bumpNonce]
  split_ifs
  · exact List.prefix_append _ _
  · exact List.prefix_refl _

theorem mixHash_calls (suite : Suite Point Key) (s : SymmetricState) (data : Bytes) :
    s.calls <+: (s.mixHash suite data).calls := List.prefix_append _ _

theorem Frame.of_symmetric (p : Party Point Key) (s : SymmetricState) (calls : p.calls <+: s.calls) :
    Frame p {p with toSymmetricState := s} :=
  ⟨rfl,rfl,rfl,rfl,rfl,rfl,fun _ => rfl,List.prefix_refl _,calls⟩

theorem Frame.refl (p : Party Point Key) : Frame p p := .of_symmetric p p.toSymmetricState (List.prefix_refl _)

theorem Frame.trans (p q t : Party Point Key) (first : Frame p q) (second : Frame q t) : Frame p t where
  initiator := second.initiator.trans first.initiator
  localStatic := second.localStatic.trans first.localStatic
  passphraseEntropy := second.passphraseEntropy.trans first.passphraseEntropy
  payloadToSend := second.payloadToSend.trans first.payloadToSend
  minVersion := second.minVersion.trans first.minVersion
  maxVersion := second.maxVersion.trans first.maxVersion
  version := fun role => (second.version (first.initiator.trans role)).trans (first.version role)
  written := first.written.trans second.written
  calls := first.calls.trans second.calls

theorem logged_calls (suite : Suite Point Key) (s : SymmetricState) (call : Call) (data : Bytes) :
    s.calls <+: (SymmetricState.mixHash suite
      {s with toCipherState := (s.toCipherState.log call).bumpNonce suite} data).calls := by
  have first : s.calls <+: (s.toCipherState.log call).calls := List.prefix_append _ _
  have second := bumpNonce_calls suite (s.toCipherState.log call)
  exact (first.trans second).trans (List.prefix_append _ _)

theorem encryptAndHash_calls (suite : Suite Point Key) (s : SymmetricState) (plaintext : Bytes) :
    s.calls <+: (s.encryptAndHash suite plaintext).2.calls := logged_calls suite s _ _

theorem decryptAndHash_calls (suite : Suite Point Key) (s : SymmetricState) (ciphertext : Bytes) :
    s.calls <+: (s.decryptAndHash suite ciphertext).2.calls := by
  unfold SymmetricState.decryptAndHash CipherState.decrypt
  cases suite.aeadOpen s.secretKey s.nonce s.handshakeDigest.val ciphertext with
  | none => exact bumpNonce_calls suite _
  | some plaintext => exact logged_calls suite s _ _

theorem frame_keptBy (suite : Suite Point Key) : KeptBy suite Frame where
  refl := Frame.refl
  trans := Frame.trans
  mixHash := fun point p => .of_symmetric p _ (mixHash_calls suite _ _)
  mixKey := fun input p => .of_symmetric p _ (List.prefix_append _ _)
  encryptAndHash := fun plaintext p => .of_symmetric p _ (encryptAndHash_calls suite _ _)
  decryptAndHash := by
    intro ciphertext p
    have calls := decryptAndHash_calls suite p.toSymmetricState ciphertext
    unfold Handshake.decryptAndHash
    split
    next plaintext symmetric decrypted =>
      rw [decrypted] at calls
      exact .of_symmetric p symmetric calls
    next symmetric decrypted =>
      rw [decrypted] at calls
      exact .of_symmetric p symmetric calls
  newEphemeral := by
    intro p
    unfold Handshake.newEphemeral
    split <;> exact ⟨rfl,rfl,rfl,rfl,rfl,rfl,fun _ => rfl,List.prefix_refl _,List.prefix_refl _⟩
  remoteEphemeral := fun _ _ => ⟨rfl,rfl,rfl,rfl,rfl,rfl,fun _ => rfl,List.prefix_refl _,List.prefix_refl _⟩

theorem static_frame : TakesStatic (Frame : Party Point Key → Party Point Key → Prop) :=
  fun _ _ => ⟨rfl,rfl,rfl,rfl,rfl,rfl,fun _ => rfl,List.prefix_refl _,List.prefix_refl _⟩

theorem receives_frame (data : Bytes) (p : Party Point Key) : Frame p {p with receivedPayload := data} :=
  ⟨rfl,rfl,rfl,rfl,rfl,rfl,fun _ => rfl,List.prefix_refl _,List.prefix_refl _⟩

theorem checkVersion_frame (version actNum : UInt8) :
    Keeps Frame (Handshake.checkVersion version actNum : Handshake Point Key Unit) := by
  intro p
  unfold Handshake.checkVersion
  rw [get_bind]
  split_ifs with act outside initiator
  · exact Frame.refl p
  · exact ⟨rfl,rfl,rfl,rfl,rfl,rfl,fun responder => absurd (initiator.symm.trans responder) (by decide),
      List.prefix_refl _,List.prefix_refl _⟩
  all_goals exact Frame.refl p

theorem readBytes_frame (k : Nat) : Keeps Frame (Handshake.readBytes k : Handshake Point Key Bytes) := by
  intro p
  unfold Handshake.readBytes
  split <;> exact ⟨rfl,rfl,rfl,rfl,rfl,rfl,fun _ => rfl,List.prefix_refl _,List.prefix_refl _⟩

theorem writeBytes_frame (bytes : Bytes) : Keeps Frame (Handshake.writeBytes bytes : Handshake Point Key Unit) := by
  intro p
  unfold Handshake.writeBytes
  split
  · exact ⟨rfl,rfl,rfl,rfl,rfl,rfl,fun _ => rfl,List.prefix_refl _,List.prefix_refl _⟩
  · exact ⟨rfl,rfl,rfl,rfl,rfl,rfl,fun _ => rfl,List.prefix_append _ _,List.prefix_refl _⟩

theorem writeBytes_accepted {bytes : Bytes} {p : Party Point Key} (accepted : p.accepts.head? ≠ some false) :
    writeBytes bytes p = .ok () {p with accepts := p.accepts.tail, written := p.written ++ [bytes]} := by
  unfold writeBytes
  split
  · next refused =>
    rw [refused] at accepted
    contradiction
  · rfl

theorem accepted_of_writeBytes {bytes : Bytes} {p q : Party Point Key} {value : Unit}
    (wrote : writeBytes bytes p = .ok value q) : p.accepts.head? ≠ some false := by
  intro refused
  obtain ⟨later,accepts⟩ := List.head?_eq_some_iff.mp refused
  simp only [writeBytes,accepts] at wrote
  contradiction

theorem writeBytes_ok {bytes : Bytes} {p q : Party Point Key} {value : Unit} (wrote : writeBytes bytes p = .ok value q) :
    q = {p with accepts := p.accepts.tail, written := p.written ++ [bytes]} := by
  rw [writeBytes_accepted (accepted_of_writeBytes wrote)] at wrote
  cases wrote
  rfl

theorem field_keptBy (suite : Suite Point Key) {β : Type} (field : Party Point Key → β)
    (symmetric : ∀ p s, field {p with toSymmetricState := s} = field p)
    (own : ∀ p e later, field {p with localEphemeral := e, ephemeralGen := later} = field p)
    (ephemeral : ∀ p key, field {p with remoteEphemeral := key} = field p) :
    KeptBy suite (fun p q => field q = field p) where
  refl := fun _ => rfl
  trans := fun _ _ _ first second => second.trans first
  mixHash := fun _ p => symmetric p _
  mixKey := fun _ p => symmetric p _
  encryptAndHash := fun _ p => symmetric p _
  decryptAndHash := by
    intro ciphertext p
    unfold Handshake.decryptAndHash
    split <;> exact symmetric p _
  newEphemeral := by
    intro p
    unfold Handshake.newEphemeral
    split
    · exact own p _ _
    · exact own p p.localEphemeral _
    · rfl
  remoteEphemeral := fun key p => ephemeral p key

theorem link_keptBy (suite : Suite Point Key) : KeptBy suite (fun p q : Party Point Key => q.toLink = p.toLink) :=
  field_keptBy suite (fun p => p.toLink) (fun _ _ => rfl) (fun _ _ _ => rfl) (fun _ _ => rfl)

theorem written_keptBy (suite : Suite Point Key) : KeptBy suite (fun p q : Party Point Key => q.written = p.written) :=
  field_keptBy suite (fun p => p.written) (fun _ _ => rfl) (fun _ _ _ => rfl) (fun _ _ => rfl)

theorem version_keptBy (suite : Suite Point Key) : KeptBy suite (fun p q : Party Point Key => q.version = p.version) :=
  field_keptBy suite (fun p => p.version) (fun _ _ => rfl) (fun _ _ _ => rfl) (fun _ _ => rfl)

theorem receivedPayload_keptBy (suite : Suite Point Key) :
    KeptBy suite (fun p q : Party Point Key => q.receivedPayload = p.receivedPayload) :=
  field_keptBy suite (fun p => p.receivedPayload) (fun _ _ => rfl) (fun _ _ _ => rfl) (fun _ _ => rfl)

theorem readBytes_field {β : Type} (field : Party Point Key → β)
    (incoming : ∀ p r, field {p with incoming := r} = field p) (k : Nat) :
    Keeps (fun p q => field q = field p) (Handshake.readBytes k : Handshake Point Key Bytes) := by
  intro p
  unfold Handshake.readBytes
  split
  · exact incoming p _
  · rfl

theorem checkVersion_field {β : Type} (field : Party Point Key → β)
    (adapts : ∀ p version, field {p with version := version} = field p) (version actNum : UInt8) :
    Keeps (fun p q => field q = field p) (Handshake.checkVersion version actNum : Handshake Point Key Unit) := by
  intro p
  unfold Handshake.checkVersion
  rw [get_bind]
  split_ifs
  · rfl
  · exact adapts p version
  all_goals rfl

theorem checkVersion_range {version actNum : UInt8} (negotiates : actNum = act1 ∨ actNum = act2) {p q : Party Point Key}
    {value : Unit} (checked : Handshake.checkVersion version actNum p = .ok value q) :
    p.minVersion ≤ version ∧ version ≤ p.maxVersion := by
  unfold Handshake.checkVersion at checked
  rw [get_bind,if_pos negotiates] at checked
  split at checked
  · contradiction
  · next inside =>
    obtain ⟨lower,upper⟩ := not_or.mp inside
    exact ⟨UInt8.not_lt.mp lower,UInt8.not_lt.mp upper⟩

section

variable [AddCommGroup Point] (suite : Suite Point Key)

theorem acts_frame (patterns : List MessagePattern) : Keeps Frame (Handshake.acts suite patterns) :=
  (frame_keptBy suite).acts readBytes_frame writeBytes_frame checkVersion_frame receives_frame patterns
    fun _ _ _ => static_frame

theorem readMsgPattern_frame (mp : MessagePattern) : Keeps Frame (Handshake.readMsgPattern suite mp) :=
  (frame_keptBy suite).readMsgPattern readBytes_frame checkVersion_frame receives_frame mp fun _ => static_frame

theorem readMsgPattern_written (mp : MessagePattern) :
    Keeps (fun p q => q.written = p.written) (Handshake.readMsgPattern suite mp) :=
  (written_keptBy suite).readMsgPattern (readBytes_field _ fun _ _ => rfl) (checkVersion_field _ fun _ _ => rfl)
    (fun _ _ => rfl) mp fun _ _ _ => rfl

theorem writeMsgPattern_ok (mp : MessagePattern) (p q : Party Point Key) (value : Unit)
    (wrote : Handshake.writeMsgPattern suite mp p = .ok value q) :
    Frame p q ∧ q.incoming = p.incoming ∧ p.version ≤ HandshakeVersion2 ∧
      ∃ bytes, q.written = p.written ++ [p.version :: bytes] := by
  have frame := (frame_keptBy suite).writeMsgPattern writeBytes_frame mp p
  rw [wrote] at frame
  unfold Handshake.writeMsgPattern at wrote
  rw [get_bind] at wrote
  obtain ⟨tokens,p1,wroteTokens,wrote⟩ := (bind_eq_ok _ _ _ _ _).mp wrote
  obtain ⟨payload,p2,wrotePayload,wrote⟩ := (bind_eq_ok _ _ _ _ _).mp wrote
  have link1 := (link_keptBy suite).writeTokens mp.tokens p
  rw [wroteTokens] at link1
  have link2 := (link_keptBy suite).writePayload p.version mp.actNum p1
  rw [wrotePayload] at link2
  have link : p2.toLink = p.toLink := link2.trans link1
  refine ⟨frame,?_⟩
  have known : p.version ≤ HandshakeVersion2 := by
    by_contra unknown
    have apart : p.version ≠ HandshakeVersion0 ∧ p.version ≠ HandshakeVersion1 ∧ p.version ≠ HandshakeVersion2 := by
      refine ⟨?_,?_,?_⟩ <;> intro same <;> exact unknown (by rw [same]; decide)
    unfold Handshake.writePayload at wrotePayload
    rw [get_bind,if_neg apart.1,if_neg (not_or.mpr apart.2)] at wrotePayload
    contradiction
  have incoming : p2.incoming = p.incoming := congrArg Link.incoming link
  have written : p2.written = p.written := congrArg Link.written link
  rw [writeBytes_ok wrote]
  exact ⟨incoming,known,tokens ++ payload,by simp [written]⟩

theorem writeMsgPattern_sendable (mp : MessagePattern) (act : mp.actNum = act2) (p q : Party Point Key) (value : Unit)
    (wrote : Handshake.writeMsgPattern suite mp p = .ok value q) (sized : p.version ≠ HandshakeVersion0) :
    p.payloadToSend.length < MaxInt32 := by
  unfold Handshake.writeMsgPattern at wrote
  rw [get_bind] at wrote
  obtain ⟨tokens,p1,wroteTokens,wrote⟩ := (bind_eq_ok _ _ _ _ _).mp wrote
  obtain ⟨payload,p2,wrotePayload,_⟩ := (bind_eq_ok _ _ _ _ _).mp wrote
  have frame := ((frame_keptBy suite).writeTokens mp.tokens).of_ok wroteTokens
  rw [← frame.payloadToSend]
  unfold Handshake.writePayload at wrotePayload
  rw [get_bind,if_neg sized,act] at wrotePayload
  by_cases known : p.version = HandshakeVersion1 ∨ p.version = HandshakeVersion2
  · rw [if_pos known,if_neg (by decide : ¬ (act2 = act1 ∨ act2 = act3)),if_pos rfl] at wrotePayload
    by_contra tooLong
    rw [if_pos (Nat.not_lt.mp tooLong)] at wrotePayload
    contradiction
  · rw [if_neg known] at wrotePayload
    contradiction

theorem writeMsgPattern_error (mp : MessagePattern) (p q : Party Point Key) (err : HandshakeError)
    (failed : Handshake.writeMsgPattern suite mp p = .error err q) : q.written = p.written := by
  unfold Handshake.writeMsgPattern at failed
  rw [get_bind] at failed
  have tokensLink := (link_keptBy suite).writeTokens mp.tokens p
  rcases (bind_eq_error _ _ _ _ _).mp failed with tokensFailed | ⟨tokens,p1,wroteTokens,failed⟩
  · rw [tokensFailed] at tokensLink
    exact congrArg Link.written tokensLink
  · rw [wroteTokens] at tokensLink
    have payloadLink := (link_keptBy suite).writePayload p.version mp.actNum p1
    rcases (bind_eq_error _ _ _ _ _).mp failed with payloadFailed | ⟨payload,p2,wrotePayload,failed⟩
    · rw [payloadFailed] at payloadLink
      exact congrArg Link.written (payloadLink.trans tokensLink)
    · rw [wrotePayload] at payloadLink
      have same : p2.written = p.written := congrArg Link.written (payloadLink.trans tokensLink)
      unfold Handshake.writeBytes at failed
      split at failed
      · cases failed
        exact same
      · contradiction

/-- An act that was read starts with a version inside the range of the reader. -/
theorem readMsgPattern_ok (mp : MessagePattern) (negotiates : mp.actNum = act1 ∨ mp.actNum = act2)
    (p q : Party Point Key) (value : Unit) (took : Handshake.readMsgPattern suite mp p = .ok value q)
    (data : Bytes) (incoming : p.incoming = ⟨data,[]⟩) :
    Frame p q ∧ q.written = p.written ∧
      ∃ version, data.head? = some version ∧ p.minVersion ≤ version ∧ version ≤ p.maxVersion := by
  have frame := readMsgPattern_frame suite mp p
  have written := readMsgPattern_written suite mp p
  rw [took] at frame written
  refine ⟨frame,written,?_⟩
  unfold Handshake.readMsgPattern at took
  obtain ⟨scratch,p1,read,took⟩ := (bind_eq_ok _ _ _ _ _).mp took
  obtain ⟨_,p2,checked,_⟩ := (bind_eq_ok _ _ _ _ _).mp took
  unfold Handshake.readBytes at read
  rw [incoming] at read
  cases data with
  | nil => simp [Reader.read] at read
  | cons version rest =>
    simp only [Reader.read,List.length_cons,Nat.le_add_left,if_true,List.take_succ_cons,List.take_zero] at read
    cases read
    have range := checkVersion_range negotiates checked
    exact ⟨version,rfl,range⟩

end

end NodeConnect.Noise
