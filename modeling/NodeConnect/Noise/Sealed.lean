import NodeConnect.Noise.Session
import NodeConnect.Noise.Transport

/-! What is sealed goes out. In the handshake the ciphertext of every seal is part of what the
party writes in the same act; in the transport phase the ciphertexts are, in the order of the
seals, the bytes on the wire and the pending ones. -/
namespace NodeConnect.Noise
open Lib Fallible Handshake

variable {Point Key : Type} {suite : Suite Point Key}

def Call.ciphertext? (suite : Suite Point Key) : Call → Option Bytes
  | .sealed key nonce ad plaintext => some (suite.aeadSeal key nonce ad plaintext)
  | _ => none

def ciphertexts (suite : Suite Point Key) (calls : List Call) : List Bytes := calls.filterMap (Call.ciphertext? suite)

theorem ciphertexts_concat (calls : List Call) (call : Call) :
    ciphertexts suite (calls ++ [call]) = ciphertexts suite calls ++ (call.ciphertext? suite).toList := by
  rw [ciphertexts,List.filterMap_append]
  cases found : call.ciphertext? suite <;> simp [ciphertexts,found]

theorem bumpNonce_ciphertexts (suite : Suite Point Key) (c : CipherState) :
    ciphertexts suite (c.bumpNonce suite).calls = ciphertexts suite c.calls := by
  dsimp only [CipherState.bumpNonce]
  split_ifs
  · exact (ciphertexts_concat _ _).trans (List.append_nil _)
  · rfl

theorem encrypt_ciphertexts (suite : Suite Point Key) (c : CipherState) (ad plaintext : Bytes) :
    ciphertexts suite (c.encrypt suite ad plaintext).2.calls =
      ciphertexts suite c.calls ++ [(c.encrypt suite ad plaintext).1] := by
  rw [CipherState.encrypt,bumpNonce_ciphertexts]
  exact ciphertexts_concat _ _

theorem decrypt_ciphertexts (suite : Suite Point Key) (c : CipherState) (ad ciphertext : Bytes) :
    ciphertexts suite (c.decrypt suite ad ciphertext).2.calls = ciphertexts suite c.calls := by
  unfold CipherState.decrypt
  split
  · rw [bumpNonce_ciphertexts]
    exact (ciphertexts_concat _ _).trans (List.append_nil _)
  · exact bumpNonce_ciphertexts suite c

section Transport

theorem sealFrames_ciphertexts (c : CipherState) (messages : List Bytes) :
    (ciphertexts suite (sealFrames suite c messages).2.calls).flatten =
      (ciphertexts suite c.calls).flatten ++ (sealFrames suite c messages).1 := by
  induction messages generalizing c with
  | nil => exact (List.append_nil _).symm
  | cons p later ih =>
    have frame : (ciphertexts suite (sealFrame suite c p).2.calls).flatten =
        (ciphertexts suite c.calls).flatten ++ (sealFrame suite c p).1 := by
      dsimp only [sealFrame]
      rw [encrypt_ciphertexts,encrypt_ciphertexts]
      simp
    change (ciphertexts suite (sealFrames suite (sealFrame suite c p).2 later).2.calls).flatten = _
    rw [ih,frame,List.append_assoc]
    rfl

/-- A machine that starts with nothing pending and nothing sealed has sealed what is on the wire or pending. -/
theorem Sender.run_ciphertexts (m : Machine Point Key) (idle : m.pending = [])
    (unused : ciphertexts suite m.sendCipher.calls = []) (calls : List SendCall) :
    let s := calls.foldl (Sender.step suite) {machine := m}
    s.wire ++ s.machine.pending = (ciphertexts suite s.machine.sendCipher.calls).flatten := by
  intro s
  have initial : Sent suite m.sendCipher ({machine := m} : Sender Point Key) := ⟨idle,rfl,by simp⟩
  have sent : Sent suite m.sendCipher s := initial.run calls
  rw [sent.frames,sent.cipher,sealFrames_ciphertexts,unused]
  rfl

end Transport

section Acts

theorem decryptAndHash_ciphertexts (suite : Suite Point Key) (s : SymmetricState) (ciphertext : Bytes) :
    ciphertexts suite (s.decryptAndHash suite ciphertext).2.calls = ciphertexts suite s.calls := by
  have decrypted := decrypt_ciphertexts suite s.toCipherState s.handshakeDigest.val ciphertext
  unfold SymmetricState.decryptAndHash
  split
  next outcome =>
    rw [outcome] at decrypted
    exact (ciphertexts_concat _ _).trans ((List.append_nil _).trans decrypted)
  next outcome =>
    rw [outcome] at decrypted
    exact decrypted

theorem ciphertexts_kept (suite : Suite Point Key) :
    KeptUnsealed suite (fun p q : Party Point Key => ciphertexts suite q.calls = ciphertexts suite p.calls) where
  refl := fun _ => rfl
  trans := fun _ _ _ first second => second.trans first
  mixHash := fun _ _ => (ciphertexts_concat _ _).trans (List.append_nil _)
  mixKey := fun _ _ => (ciphertexts_concat _ _).trans (List.append_nil _)
  decryptAndHash := by
    intro ciphertext p
    have after := decryptAndHash_ciphertexts suite p.toSymmetricState ciphertext
    unfold Handshake.decryptAndHash
    split
    next outcome =>
      rw [outcome] at after
      exact after
    next outcome =>
      rw [outcome] at after
      exact after
  newEphemeral := by
    intro p
    unfold Handshake.newEphemeral
    split <;> rfl
  remoteEphemeral := fun _ _ => rfl

/-- Between `p` and `q` only parts of `bytes` were sealed. -/
def Emits (suite : Suite Point Key) (p q : Party Point Key) (bytes : Bytes) : Prop :=
  ∀ ciphertext ∈ ciphertexts suite q.calls, ciphertext ∈ ciphertexts suite p.calls ∨ ciphertext <:+: bytes

variable {p q t : Party Point Key} {bytes : Bytes}

theorem Emits.of_eq (same : ciphertexts suite q.calls = ciphertexts suite p.calls) : Emits suite p q bytes :=
  fun _ member => .inl (same ▸ member)

theorem Emits.trans {first second : Bytes} (before : Emits suite p q first) (after : Emits suite q t second) :
    Emits suite p t (first ++ second) := by
  intro ciphertext member
  rcases after ciphertext member with earlier | within
  · exact (before ciphertext earlier).imp_right fun within => within.trans (List.prefix_append _ _).isInfix
  · exact .inr (within.trans (List.suffix_append _ _).isInfix)

theorem encryptAndHash_emits {plaintext : Bytes} (encrypted : encryptAndHash suite plaintext p = .ok bytes q) :
    Emits suite p q bytes := by
  cases encrypted
  intro ciphertext member
  have hashed : ciphertexts suite (p.toSymmetricState.encryptAndHash suite plaintext).2.calls =
      ciphertexts suite (p.toCipherState.encrypt suite p.handshakeDigest.val plaintext).2.calls :=
    (ciphertexts_concat _ _).trans (List.append_nil _)
  change ciphertext ∈ ciphertexts suite (p.toSymmetricState.encryptAndHash suite plaintext).2.calls at member
  rw [hashed,encrypt_ciphertexts] at member
  rcases List.mem_append.mp member with earlier | last
  · exact .inl earlier
  · rw [List.mem_singleton.mp last]
    exact .inr (List.infix_refl _)

theorem writePayload_emits {version actNum : UInt8} (wrote : writePayload suite version actNum p = .ok bytes q) :
    Emits suite p q bytes := by
  unfold writePayload at wrote
  rw [get_bind] at wrote
  split_ifs at wrote
  · exact encryptAndHash_emits wrote
  · exact encryptAndHash_emits wrote
  · cases wrote
  · exact encryptAndHash_emits wrote
  · cases wrote
  · obtain ⟨header,p1,sealedHeader,wrote⟩ := (bind_eq_ok _ _ _ _ _).mp wrote
    obtain ⟨body,p2,sealedBody,returned⟩ := (bind_eq_ok _ _ _ _ _).mp wrote
    cases returned
    exact (encryptAndHash_emits sealedHeader).trans (encryptAndHash_emits sealedBody)
  · cases wrote
  · cases wrote

variable [AddCommGroup Point]

theorem writeToken_emits {token : Token} (wrote : writeToken suite token p = .ok bytes q) : Emits suite p q bytes := by
  by_cases static : token = .s
  · subst static
    exact encryptAndHash_emits wrote
  · exact .of_eq (((ciphertexts_kept suite).writeToken token fun same => absurd same static).of_ok wrote)

theorem writeTokens_emits {tokens : List Token} (wrote : writeTokens suite tokens p = .ok bytes q) :
    Emits suite p q bytes := by
  induction tokens generalizing p bytes with
  | nil =>
    cases wrote
    exact .of_eq rfl
  | cons token tokens ih =>
    obtain ⟨first,p1,wroteFirst,wrote⟩ := (bind_eq_ok _ _ _ _ _).mp wrote
    obtain ⟨rest,p2,wroteRest,returned⟩ := (bind_eq_ok _ _ _ _ _).mp wrote
    cases returned
    exact (writeToken_emits wroteFirst).trans (ih wroteRest)

/-- Everything that was sealed is part of something that was written. -/
def Posted (suite : Suite Point Key) (p : Party Point Key) : Prop :=
  ∀ ciphertext ∈ ciphertexts suite p.calls, ∃ bytes ∈ p.written, ciphertext <:+: bytes

theorem writeMsgPattern_posted {mp : MessagePattern} {value : Unit} (posted : Posted suite p)
    (wrote : writeMsgPattern suite mp p = .ok value q) : Posted suite q := by
  unfold writeMsgPattern at wrote
  rw [get_bind] at wrote
  obtain ⟨tokens,p1,wroteTokens,wrote⟩ := (bind_eq_ok _ _ _ _ _).mp wrote
  obtain ⟨payload,p2,wrotePayload,wrote⟩ := (bind_eq_ok _ _ _ _ _).mp wrote
  have same1 := ((written_keptBy suite).writeTokens mp.tokens).of_ok wroteTokens
  have same2 := ((written_keptBy suite).writePayload _ _).of_ok wrotePayload
  have emits := (writeTokens_emits wroteTokens).trans (writePayload_emits wrotePayload)
  cases writeBytes_ok wrote
  intro ciphertext member
  rcases emits ciphertext member with earlier | within
  · obtain ⟨bytes,sent,within⟩ := posted ciphertext earlier
    refine ⟨bytes,List.mem_append_left _ ?_,within⟩
    rw [same2,same1]
    exact sent
  · refine ⟨_,List.mem_append_right _ (List.mem_singleton.mpr rfl),?_⟩
    rw [List.append_assoc]
    exact within.trans (List.suffix_append _ _).isInfix

theorem readMsgPattern_posted {mp : MessagePattern} {value : Unit} (posted : Posted suite p)
    (took : readMsgPattern suite mp p = .ok value q) : Posted suite q := by
  have written := readMsgPattern_written suite mp p
  rw [took] at written
  have same : ciphertexts suite q.calls = ciphertexts suite p.calls := by
    refine ((ciphertexts_kept suite).readMsgPattern ?_ ?_ (fun _ _ => rfl) mp fun _ _ _ => rfl).of_ok took
    · exact readBytes_field (fun p => ciphertexts suite p.calls) fun _ _ => rfl
    · exact checkVersion_field (fun p => ciphertexts suite p.calls) fun _ _ => rfl
  unfold Posted
  rw [same,show q.written = p.written from written]
  exact posted

theorem acts_posted {patterns : List MessagePattern} {value : Unit} (posted : Posted suite p)
    (ran : acts suite patterns p = .ok value q) : Posted suite q := by
  induction patterns generalizing p with
  | nil =>
    cases ran
    exact posted
  | cons mp later ih =>
    obtain ⟨middle,act,rest⟩ := acts_cons_ok mp later p q ran
    refine ih ?_ rest
    split_ifs at act
    · exact writeMsgPattern_posted posted act
    · exact readMsgPattern_posted posted act

end Acts

section Session

variable [AddCommGroup Point] {cfg : BrontideMachineConfig Point Key} {m : Machine Point Key}

omit [AddCommGroup Point] in
theorem Built.ciphertexts (built : Built suite cfg m) (known : m.pattern = XXPattern ∨ m.pattern = KKPattern) :
    ciphertexts suite m.calls = [] := by
  rcases known with pattern | pattern
  · rw [built.symmetricXX (built.pattern.symm.trans pattern)]
    rfl
  · obtain ⟨remote,_,state⟩ := built.symmetricKK (built.pattern.symm.trans pattern)
    rw [state]
    rfl

/-- Everything that the machine sealed in the handshake was written there, and everything that it sealed afterwards is on
the wire or pending. -/
def SealsWritten (suite : Suite Point Key) (handshake : Outcome Point Key) (s : Sender Point Key) : Prop :=
  (∀ ciphertext ∈ Noise.ciphertexts suite handshake.machine.calls,
    ∃ bytes ∈ handshake.link.written, ciphertext <:+: bytes) ∧
    s.wire ++ s.machine.pending = (Noise.ciphertexts suite s.machine.sendCipher.calls).flatten

theorem Built.sealsWritten (built : Built suite cfg m) (known : m.pattern = XXPattern ∨ m.pattern = KKPattern)
    {incoming : Bytes} (ok : (m.handshakeOn suite incoming).ok) (calls : List SendCall) :
    SealsWritten suite (m.handshakeOn suite incoming)
      (calls.foldl (Sender.step suite) {machine := (m.handshakeOn suite incoming).machine}) := by
  obtain ⟨p,ran,outcome⟩ := doHandshake_ok m _ ok
  rw [Machine.handshakeOn,outcome]
  constructor
  · have start : Posted suite (m.party {incoming := ⟨incoming,[]⟩}) := by
      intro ciphertext member
      rw [show Noise.ciphertexts suite (m.party _).calls = [] from built.ciphertexts known] at member
      contradiction
    have posted := acts_posted start ran
    have same : (m.succeeding suite p).machine.calls = p.calls := congrArg (fun h => h.calls) (completed_handshake m p)
    rw [same]
    exact posted
  · refine Sender.run_ciphertexts _ ?_ ?_ calls
    · unfold Machine.pending Machine.succeeding Machine.completed Machine.split
      dsimp only
      split_ifs <;> simp [built.idle]
    · unfold Machine.succeeding Machine.completed Machine.split
      dsimp only
      split_ifs <;> rfl

end Session

end NodeConnect.Noise
