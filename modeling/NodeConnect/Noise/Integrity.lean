import NodeConnect.Noise.Nonces

/-! The transport phase over a relay that is not trusted. It may hold back, change, repeat
and invent bytes as it likes. As long as it does not forge an AEAD tag and no key is
installed twice, the receiver reads the messages that were written, in order and from the
first one on, out of the very bytes of their frames. -/
namespace NodeConnect.Noise
open Lib Fallible KeyedCounter

variable {Point Key : Type} {suite : Suite Point Key}

/-- What was opened had been sealed under the same key and nonce. -/
def Unforged (suite : Suite Point Key) (sender receiver : CipherState) : Prop :=
  ∀ key nonce ad ciphertext plaintext, Call.opened key nonce ad ciphertext plaintext ∈ receiver.calls →
    ∃ original, Call.sealed key nonce ad original ∈ sender.calls ∧ suite.aeadSeal key nonce ad original = ciphertext

theorem Unforged.earlier {sender receiver receiver' : CipherState} (unforged : Unforged suite sender receiver')
    (grown : receiver.calls <+: receiver'.calls) : Unforged suite sender receiver :=
  fun key nonce ad ciphertext plaintext opened => unforged key nonce ad ciphertext plaintext (grown.subset opened)

namespace CipherState

/-- No key was installed twice. -/
def Distinct (c : CipherState) : Prop := (installed (events c.calls)).Nodup

theorem log_bumpNonce_calls (suite : Suite Point Key) (c : CipherState) (call : Call) :
    c.calls <+: ((c.log call).bumpNonce suite).calls ∧ call ∈ ((c.log call).bumpNonce suite).calls := by
  have logged := bumpNonce_calls suite (c.log call)
  refine ⟨(List.prefix_append _ _).trans logged,logged.subset ?_⟩
  exact List.mem_append_right _ (List.mem_singleton.mpr rfl)

theorem encrypt_calls (suite : Suite Point Key) (c : CipherState) (ad plaintext : Bytes) :
    c.calls <+: (c.encrypt suite ad plaintext).2.calls := (log_bumpNonce_calls suite c _).1

theorem decrypt_calls (suite : Suite Point Key) (c : CipherState) (ad ciphertext : Bytes) :
    c.calls <+: (c.decrypt suite ad ciphertext).2.calls := by
  unfold decrypt
  split
  · exact (log_bumpNonce_calls suite c _).1
  · exact bumpNonce_calls suite c

theorem sealFrames_calls (suite : Suite Point Key) (c : CipherState) (messages : List Bytes) :
    c.calls <+: (sealFrames suite c messages).2.calls := by
  induction messages generalizing c with
  | nil => exact List.prefix_refl _
  | cons p later ih =>
    have header := encrypt_calls suite c [] (bigEndian 2 p.length)
    have body := encrypt_calls suite (c.encrypt suite [] (bigEndian 2 p.length)).2 [] p
    exact (header.trans body).trans (ih _)

theorem Fresh.sealFrames {c : CipherState} (fresh : c.Fresh) (messages : List Bytes) :
    (sealFrames suite c messages).2.Fresh := by
  induction messages generalizing c with
  | nil => exact fresh
  | cons p later ih => exact ih ((fresh.encrypt [] (bigEndian 2 p.length)).encrypt [] p)

/-- The plaintext that a cipher seals next is the only one that is ever sealed there. -/
theorem sealed_unique {c last : CipherState} {plaintext other : Bytes} (fresh : last.Fresh) (distinct : last.Distinct)
    (continued : (c.encrypt suite [] plaintext).2.calls <+: last.calls)
    (found : Call.sealed c.secretKey c.nonce [] other ∈ last.calls) : other = plaintext := by
  have own : Call.sealed c.secretKey c.nonce [] plaintext ∈ last.calls :=
    continued.subset (log_bumpNonce_calls suite c _).2
  cases eq_of_same_use (fresh.once distinct) found own rfl rfl
  rfl

/-- Nothing is sealed in advance. -/
theorem not_sealed_yet {c : CipherState} (fresh : c.Fresh) (distinct : c.Distinct) (ad plaintext : Bytes) :
    Call.sealed c.secretKey c.nonce ad plaintext ∉ c.calls := by
  intro found
  have used : (c.secretKey,c.nonce) ∈ used (events c.calls) :=
    List.mem_filterMap.mpr ⟨_,List.mem_filterMap.mpr ⟨_,found,rfl⟩,rfl⟩
  exact Nat.lt_irrefl _ (fresh.below distinct _ used)

end CipherState

section Reading

/-- The calls of the receiving cipher only grow. -/
def Extends (p q : Machine.Receiver Point Key) : Prop := p.1.recvCipher.calls <+: q.1.recvCipher.calls

theorem readFull_extends (k : Nat) : Keeps Extends (Machine.readFull k : EStateM _ (Machine.Receiver Point Key) _) := by
  intro (b,r)
  unfold Machine.readFull
  dsimp only
  cases r.readFull k with
  | none => exact List.prefix_refl _
  | some found => exact List.prefix_refl _

theorem decryptNext_extends (ciphertext : Bytes) :
    Keeps Extends (Machine.decryptNext suite ciphertext : EStateM _ (Machine.Receiver Point Key) _) := by
  intro (b,r)
  have grown := b.recvCipher.decrypt_calls suite [] ciphertext
  unfold Machine.decryptNext
  dsimp only
  cases outcome : b.recvCipher.decrypt suite [] ciphertext with
  | mk found after =>
    rw [outcome] at grown
    cases found <;> exact grown

theorem readMessages_extends (n : Nat) :
    Keeps Extends (Machine.readMessages suite n : EStateM _ (Machine.Receiver Point Key) _) := by
  have refl (p : Machine.Receiver Point Key) : Extends p p := List.prefix_refl _
  have trans (p q r : Machine.Receiver Point Key) (first : Extends p q) (second : Extends q r) : Extends p r :=
    List.IsPrefix.trans first second
  have header : Keeps Extends (Machine.readHeader suite : EStateM _ (Machine.Receiver Point Key) _) :=
    (readFull_extends _).bind trans fun _ => (decryptNext_extends _).bind trans fun _ => Keeps.pure refl _
  have message : Keeps Extends (Machine.readMessage suite : EStateM _ (Machine.Receiver Point Key) _) :=
    header.bind trans fun _ => (readFull_extends _).bind trans fun _ => decryptNext_extends _
  induction n with
  | zero => exact Keeps.pure refl _
  | succ n ih => exact message.bind trans fun _ => ih.bind trans fun _ => Keeps.pure refl _

variable {b b' : Machine Point Key} {r r' : Reader}

theorem readFull_ok {k : Nat} {bytes : Bytes} (read : Machine.readFull k (b,r) = .ok bytes (b',r')) :
    b' = b ∧ r.data = bytes ++ r'.data := by
  cases found : r.readFull k with
  | none =>
    simp only [Machine.readFull,found] at read
    cases read
  | some result =>
    simp only [Machine.readFull,found] at read
    cases read
    exact ⟨rfl,(Reader.readFull_some found).2⟩

/-- A ciphertext that is opened without a forgery is the one that a cipher in step makes of some
plaintext that was sealed there. -/
theorem decryptNext_ok (lawful : suite.AeadLawful) {c sender : CipherState} (inStep : c.InStep b.recvCipher)
    {ciphertext plaintext : Bytes} (opened : Machine.decryptNext suite ciphertext (b,r) = .ok plaintext (b',r'))
    (unforged : Unforged suite sender b'.recvCipher) :
    r' = r ∧ Call.sealed c.secretKey c.nonce [] plaintext ∈ sender.calls ∧
      ciphertext = (c.encrypt suite [] plaintext).1 ∧ (c.encrypt suite [] plaintext).2.InStep b'.recvCipher := by
  cases outcome : suite.aeadOpen b.recvCipher.secretKey b.recvCipher.nonce [] ciphertext with
  | none =>
    simp only [Machine.decryptNext,CipherState.decrypt,outcome] at opened
    cases opened
  | some found =>
    simp only [Machine.decryptNext,CipherState.decrypt,outcome] at opened
    cases opened
    obtain ⟨original,sealing,same⟩ := unforged _ _ _ _ _ (b.recvCipher.log_bumpNonce_calls suite _).2
    rw [← same,lawful.open_seal] at outcome
    cases Option.some.inj outcome
    rw [inStep.secretKey,inStep.nonce] at sealing same
    exact ⟨rfl,sealing,same.symm,(inStep.log _ _).bumpNonce⟩

/-- A message that a receiver in step reads, from whatever bytes there are, is the next one that was sealed. -/
theorem readMessage_unforged (lawful : suite.AeadLawful) {c last : CipherState} (inStep : c.InStep b.recvCipher)
    (fresh : last.Fresh) (distinct : last.Distinct) {messages : List Bytes} (ends : last = (sealFrames suite c messages).2)
    {message : Bytes} (read : Machine.readMessage suite (b,r) = .ok message (b',r'))
    (unforged : Unforged suite last b'.recvCipher) :
    ∃ later, messages = message :: later ∧ r.data = (sealFrame suite c message).1 ++ r'.data ∧
      (sealFrame suite c message).2.InStep b'.recvCipher := by
  obtain ⟨length,⟨b2,r2⟩,readHeader,readBody⟩ := (bind_eq_ok _ _ _ _ _).mp read
  obtain ⟨headerBytes,⟨b1,r1⟩,gotHeader,openHeader⟩ := (bind_eq_ok _ _ _ _ _).mp readHeader
  obtain ⟨header,_,openedHeader,returned⟩ := (bind_eq_ok _ _ _ _ _).mp openHeader
  cases returned
  obtain ⟨bodyBytes,⟨b3,r3⟩,gotBody,openedBody⟩ := (bind_eq_ok _ _ _ _ _).mp readBody
  obtain ⟨rfl,headerData⟩ := readFull_ok gotHeader
  obtain ⟨rfl,bodyData⟩ := readFull_ok gotBody
  have grown : b3.recvCipher.calls <+: b'.recvCipher.calls := (decryptNext_extends bodyBytes).of_ok openedBody
  obtain ⟨rfl,sealedHeader,rfl,inStep1⟩ := decryptNext_ok lawful inStep openedHeader (unforged.earlier grown)
  cases messages with
  | nil =>
    cases ends
    exact absurd sealedHeader (CipherState.not_sealed_yet fresh distinct _ _)
  | cons p later =>
    have continued : (sealFrame suite c p).2.calls <+: last.calls := by
      rw [ends]
      exact CipherState.sealFrames_calls suite _ later
    have body := CipherState.encrypt_calls suite (c.encrypt suite [] (bigEndian 2 p.length)).2 [] p
    obtain rfl := CipherState.sealed_unique fresh distinct (body.trans continued) sealedHeader
    obtain ⟨rfl,sealedBody,rfl,inStep2⟩ := decryptNext_ok lawful inStep1 openedBody unforged
    obtain rfl := CipherState.sealed_unique fresh distinct continued sealedBody
    refine ⟨later,rfl,?_,inStep2⟩
    rw [headerData,bodyData,← List.append_assoc]
    rfl

theorem readMessages_unforged (lawful : suite.AeadLawful) (n : Nat) {c last : CipherState} (inStep : c.InStep b.recvCipher)
    (fresh : last.Fresh) (distinct : last.Distinct) {messages : List Bytes} (ends : last = (sealFrames suite c messages).2)
    {received : List Bytes} (read : Machine.readMessages suite n (b,r) = .ok received (b',r'))
    (unforged : Unforged suite last b'.recvCipher) :
    n ≤ messages.length ∧ received = messages.take n ∧ r.data = (sealFrames suite c received).1 ++ r'.data := by
  -- The invariant is that the receiver is in step with the sender as it was before the next message.
  induction n generalizing b r c messages received with
  | zero =>
    cases read
    exact ⟨Nat.zero_le _,rfl,rfl⟩
  | succ n ih =>
    obtain ⟨message,⟨b1,r1⟩,first,more⟩ := (bind_eq_ok _ _ _ _ _).mp read
    obtain ⟨rest,⟨b2,r2⟩,others,returned⟩ := (bind_eq_ok _ _ _ _ _).mp more
    cases returned
    have grown : b1.recvCipher.calls <+: b'.recvCipher.calls := (readMessages_extends n).of_ok others
    obtain ⟨later,rfl,data,inStep⟩ :=
      readMessage_unforged lawful inStep fresh distinct ends first (unforged.earlier grown)
    obtain ⟨bound,rfl,data'⟩ := ih inStep ends others
    refine ⟨Nat.succ_le_succ bound,rfl,?_⟩
    rw [data,data',← List.append_assoc]
    rfl

/-- Whatever a relay makes of what the sender puts out, the messages that the peer reads until its first
error are the first ones that the sender accepted, and the bytes it reads them from are their frames. -/
theorem relay_cannot_alter (lawful : suite.AeadLawful) (m peer : Machine Point Key) (idle : m.pending = [])
    (fresh : m.sendCipher.Fresh) (inStep : m.sendCipher.InStep peer.recvCipher) (calls : List SendCall)
    (relayed : Reader) (n : Nat) (received : List Bytes) (peer' : Machine Point Key) (rest : Reader)
    (read : Machine.readMessages suite n (peer,relayed) = .ok received (peer',rest)) :
    let s := calls.foldl (Sender.step suite) {machine := m}
    s.machine.sendCipher.Distinct → Unforged suite s.machine.sendCipher peer'.recvCipher →
      n ≤ s.accepted.length ∧ received = s.accepted.take n ∧
        relayed.data = (sealFrames suite m.sendCipher received).1 ++ rest.data := by
  intro s distinct unforged
  have initial : Sent suite m.sendCipher ({machine := m} : Sender Point Key) := ⟨idle,rfl,by simp⟩
  have sent : Sent suite m.sendCipher s := initial.run calls
  have freshNow : s.machine.sendCipher.Fresh := by
    rw [sent.cipher]
    exact fresh.sealFrames s.accepted
  exact readMessages_unforged lawful n inStep freshNow distinct sent.cipher read unforged

end Reading

/-- Two messages that go out whole. -/
def twoMessages : List SendCall :=
  [.writeMessage [1,2,3],.flush ⟨100,false⟩ ⟨100,false⟩,.writeMessage [4],.flush ⟨100,false⟩ ⟨100,false⟩]

def twoSent : Sender UInt8 UInt8 := twoMessages.foldl (Sender.step plainSuite) {machine := plainClient}

/-- A relay that puts other bytes in the place of the second message. -/
def secondReplaced : Reader := ⟨twoSent.wire.take 37 ++ [7,7],[4,30]⟩

theorem relay_cannot_alter_replaced :
    twoSent.accepted = [[1,2,3],[4]] ∧ ¬ secondReplaced.data <+: twoSent.wire ∧
      ∃ received peer' rest, Machine.readMessages plainSuite 1 (plainServer,secondReplaced) = .ok received (peer',rest) ∧
        received = twoSent.accepted.take 1 := by
  let key := plainServer.recvCipher.secretKey
  obtain ⟨⟨peer',rest⟩,last⟩ :
      ∃ after, final (Machine.readMessages plainSuite 1 (plainServer,secondReplaced)) = after :=
    ⟨_,rfl⟩
  have read : Machine.readMessages plainSuite 1 (plainServer,secondReplaced) = .ok [[1,2,3]] (peer',rest) := by
    rw [← last]
    exact eq_ok_of_value? (by decide +kernel)
  have fresh : plainClient.sendCipher.Fresh := by
    rw [plainClient,split_sendCipher]
    exact initializeKeyWithSalt_fresh _ _
  have inStep : plainClient.sendCipher.InStep plainServer.recvCipher := ⟨rfl,by decide +kernel,by decide +kernel⟩
  have distinct : twoSent.machine.sendCipher.Distinct := by
    unfold CipherState.Distinct
    decide +kernel
  have opened : peer'.recvCipher.calls = [.install key,.opened key 0 [] (twoSent.wire.take 18) [0,3],
      .opened key 1 [] ((twoSent.wire.drop 18).take 19) [1,2,3]] := by
    rw [← congrArg (fun after => after.1.recvCipher.calls) last]
    decide +kernel
  have sealedHeader : Call.sealed key 0 [] [0,3] ∈ twoSent.machine.sendCipher.calls := by decide +kernel
  have sealedBody : Call.sealed key 1 [] [1,2,3] ∈ twoSent.machine.sendCipher.calls := by decide +kernel
  have unforged : Unforged plainSuite twoSent.machine.sendCipher peer'.recvCipher := by
    intro key nonce ad ciphertext plaintext member
    rw [opened] at member
    rcases List.mem_cons.mp member with none | later
    · cases none
    · rcases List.mem_cons.mp later with header | last
      · cases header
        exact ⟨[0,3],sealedHeader,by decide +kernel⟩
      · cases List.mem_singleton.mp last
        exact ⟨[1,2,3],sealedBody,by decide +kernel⟩
  refine ⟨by decide +kernel,by decide +kernel,[[1,2,3]],peer',rest,read,?_⟩
  exact (relay_cannot_alter plainSuite_lawful.toAeadLawful plainClient plainServer rfl fresh inStep twoMessages secondReplaced 1
    [[1,2,3]] peer' rest read distinct unforged).2.1

end NodeConnect.Noise
