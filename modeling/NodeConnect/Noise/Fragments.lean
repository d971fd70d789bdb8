import NodeConnect.Noise.Relay

/-! The handshake on a stream that arrives in pieces. Its fields are read with single calls
of `Read`, so the run depends on the pieces unless every call fills its buffer. -/
namespace NodeConnect.Noise
open Lib Fallible Handshake

variable {Point Key : Type} {α β : Type}

def Party.reading (p : Party Point Key) (r : Reader) : Party Point Key := {p with incoming := r}

def resultReading (r : Reader) : EStateM.Result HandshakeError (Party Point Key) α →
    EStateM.Result HandshakeError (Party Point Key) α
  | .ok value p => .ok value (p.reading r)
  | .error err p => .error err (p.reading r)

/-- The computation neither reads from the stream nor looks at it. -/
def Silent (m : Handshake Point Key α) : Prop := ∀ p r, m (p.reading r) = resultReading r (m p)

namespace Silent

theorem pure (value : α) : Silent (Pure.pure value : Handshake Point Key α) := fun _ _ => rfl

theorem throw (err : HandshakeError) : Silent (MonadExcept.throw err : Handshake Point Key α) := fun _ _ => rfl

theorem bind {first : Handshake Point Key α} {next : α → Handshake Point Key β} (before : Silent first)
    (after : ∀ value, Silent (next value)) : Silent (first >>= next) := by
  intro p r
  have same := before p r
  cases outcome : first p with
  | ok value q =>
    rw [outcome] at same
    rw [bind_ok _ _ _ _ _ same,bind_ok _ _ _ _ _ outcome]
    exact after value q r
  | error err q =>
    rw [outcome] at same
    rw [bind_error _ _ _ _ _ same,bind_error _ _ _ _ _ outcome]
    rfl

theorem get {next : Party Point Key → Handshake Point Key β} (blind : ∀ p r, next (p.reading r) = next p)
    (after : ∀ p, Silent (next p)) : Silent (MonadState.get >>= next) := by
  intro p r
  rw [get_bind,get_bind,blind]
  exact after p p r

theorem ite {condition : Prop} [Decidable condition] {first second : Handshake Point Key α} (yes : Silent first)
    (no : Silent second) : Silent (if condition then first else second) := by
  split_ifs
  · exact yes
  · exact no

variable (suite : Suite Point Key)

theorem mixHash (data : Bytes) : Silent (Handshake.mixHash suite data) := fun _ _ => rfl

theorem mixKey (input : Bytes) : Silent (Handshake.mixKey suite input) := fun _ _ => rfl

theorem encryptAndHash (plaintext : Bytes) : Silent (Handshake.encryptAndHash suite plaintext) := fun _ _ => rfl

theorem decryptAndHash (ciphertext : Bytes) : Silent (Handshake.decryptAndHash suite ciphertext) := by
  intro p r
  have same : (p.reading r).toSymmetricState = p.toSymmetricState := rfl
  cases opened : p.toSymmetricState.decryptAndHash suite ciphertext with
  | mk plaintext symmetric => cases plaintext <;> simp only [Handshake.decryptAndHash,same,opened] <;> rfl

theorem newEphemeral : Silent (Handshake.newEphemeral : Handshake Point Key Key) := by
  intro p r
  have same : (p.reading r).ephemeralGen = p.ephemeralGen := rfl
  cases available : p.ephemeralGen with
  | nil => simp only [Handshake.newEphemeral,same,available,resultReading]
  | cons key later => cases key <;> simp only [Handshake.newEphemeral,same,available] <;> rfl

theorem parsePubKey (bytes : Bytes) : Silent (Handshake.parsePubKey suite bytes) := by
  unfold Handshake.parsePubKey
  split
  · exact pure _
  · exact throw _

theorem ecdh (pub : Option Point) (priv : Option Key) : Silent (Handshake.ecdh suite pub priv) := by
  unfold Handshake.ecdh
  split
  · split
    · exact pure _
    · exact throw _
  · exact throw _

theorem mixECDH {remote : Party Point Key → Option Point} {own : Party Point Key → Option Key}
    (remoteBlind : ∀ p r, remote (p.reading r) = remote p) (ownBlind : ∀ p r, own (p.reading r) = own p) :
    Silent (Handshake.mixECDH suite remote own) := by
  refine get ?_ fun p => bind (ecdh suite _ _) fun secret => mixKey suite _
  intro p r
  rw [remoteBlind,ownBlind]

theorem mixES : Silent (Handshake.mixES suite) :=
  get (fun _ _ => rfl) fun _ => ite (mixECDH suite (fun _ _ => rfl) (fun _ _ => rfl))
    (mixECDH suite (fun _ _ => rfl) (fun _ _ => rfl))

theorem mixSE : Silent (Handshake.mixSE suite) :=
  get (fun _ _ => rfl) fun _ => ite (mixECDH suite (fun _ _ => rfl) (fun _ _ => rfl))
    (mixECDH suite (fun _ _ => rfl) (fun _ _ => rfl))

theorem checkVersion (version actNum : UInt8) :
    Silent (Handshake.checkVersion version actNum : Handshake Point Key Unit) := by
  refine get (fun _ _ => rfl) fun p => ite (ite (throw _) (ite ?_ (pure _))) (ite (ite (throw _) (pure _)) (throw _))
  exact fun _ _ => rfl

theorem writeBytes (bytes : Bytes) : Silent (Handshake.writeBytes bytes : Handshake Point Key Unit) := by
  intro p r
  have same : (p.reading r).accepts = p.accepts := rfl
  cases outcomes : p.accepts with
  | nil =>
    simp only [Handshake.writeBytes,same,outcomes]
    rfl
  | cons accepted later => cases accepted <;> simp only [Handshake.writeBytes,same,outcomes] <;> rfl

theorem writePayload (version actNum : UInt8) : Silent (Handshake.writePayload suite version actNum) := by
  refine get (fun _ _ => rfl) fun p => ite (ite (encryptAndHash suite _) (ite (encryptAndHash suite _) (throw _))) ?_
  refine ite (ite (encryptAndHash suite _) (ite (ite (throw _) ?_) (throw _))) (throw _)
  exact bind (encryptAndHash suite _) fun _ => bind (encryptAndHash suite _) fun _ => pure _

variable [AddCommGroup Point]

theorem writeToken (token : Token) : Silent (Handshake.writeToken suite token) := by
  cases token with
  | e => exact bind newEphemeral fun e => bind (mixHash suite _) fun _ => pure _
  | me =>
    exact bind newEphemeral fun e => bind (mixHash suite _) fun _ => get (fun _ _ => rfl) fun _ => pure _
  | s => exact get (fun _ _ => rfl) fun p => encryptAndHash suite _
  | ee => exact bind (mixECDH suite (fun _ _ => rfl) (fun _ _ => rfl)) fun _ => pure _
  | ss => exact bind (mixECDH suite (fun _ _ => rfl) (fun _ _ => rfl)) fun _ => pure _
  | es => exact bind (mixES suite) fun _ => pure _
  | se => exact bind (mixSE suite) fun _ => pure _

theorem writeTokens (tokens : List Token) : Silent (Handshake.writeTokens suite tokens) := by
  induction tokens with
  | nil => exact pure _
  | cons token tokens ih => exact bind (writeToken suite token) fun _ => bind ih fun _ => pure _

theorem writeMsgPattern (mp : MessagePattern) : Silent (Handshake.writeMsgPattern suite mp) :=
  get (fun _ _ => rfl) fun _ => bind (writeTokens suite mp.tokens) fun _ =>
    bind (writePayload suite _ mp.actNum) fun _ => writeBytes _

end Silent

section Requests

def afterwards (first : Handshake Point Key α) (next : α → Party Point Key → List Nat) (p : Party Point Key) : List Nat :=
  match first p with
  | .ok value q => next value q
  | .error _ _ => []

def Token.requests : Token → List Nat
  | .e | .me => [33]
  | .s => [33 + macSize]
  | .ee | .ss | .es | .se => []

variable (suite : Suite Point Key)

def payloadRequests (version actNum : UInt8) (p : Party Point Key) : List Nat :=
  if version = HandshakeVersion0 then [(if actNum = act2 then ActTwoPayloadSize else 0) + macSize]
  else if version = HandshakeVersion1 ∨ version = HandshakeVersion2 then
    if actNum = act1 ∨ actNum = act3 then [macSize]
    else if actNum = act2 then
      (4 + macSize) :: afterwards (readBytes (4 + macSize)) (fun header =>
        afterwards (decryptAndHash suite header) fun pktLenBytes _ => [(macSize + fromBigEndian pktLenBytes) % 2 ^ 32]) p
    else []
  else []

variable [AddCommGroup Point]

def tokenRequests : List Token → Party Point Key → List Nat
  | [], _ => []
  | token :: tokens, p => token.requests ++ afterwards (readToken suite token) (fun _ => tokenRequests tokens) p

def msgRequests (mp : MessagePattern) (p : Party Point Key) : List Nat :=
  1 :: afterwards (readBytes 1) (fun versionScratch =>
    let version := versionScratch.headD 0
    afterwards (checkVersion version mp.actNum) fun _ q =>
      tokenRequests suite mp.tokens q ++
        afterwards (readTokens suite mp.tokens) (fun _ => payloadRequests suite version mp.actNum) q) p

/-- The sizes of the buffers that the acts pass to `Read`, up to the first failure. -/
def requests : List MessagePattern → Party Point Key → List Nat
  | [], _ => []
  | mp :: later, p =>
    if mp.initiator = p.initiator then afterwards (writeMsgPattern suite mp) (fun _ => requests later) p
    else msgRequests suite mp p ++ afterwards (readMsgPattern suite mp) (fun _ => requests later) p

end Requests

def Party.uncut (p : Party Point Key) : Party Point Key := p.reading p.incoming.uncut

/-- A run on a stream in pieces ends as the run on the whole stream, and what it left of
the stream fills the buffers still to come. -/
inductive Follows (more : List Nat) : EStateM.Result HandshakeError (Party Point Key) α →
    EStateM.Result HandshakeError (Party Point Key) α → Prop
  | ok (value : α) (p : Party Point Key) (whole : p.incoming.whole more = true) :
    Follows more (.ok value p) (.ok value p.uncut)
  | error (err : HandshakeError) (p : Party Point Key) : Follows more (.error err p) (.error err p.uncut)

def Requests (m : Handshake Point Key α) (sizes : Party Point Key → List Nat) : Prop :=
  ∀ p more, p.incoming.whole (sizes p.uncut ++ more) = true → Follows more (m p) (m p.uncut)

namespace Requests

theorem silent {m : Handshake Point Key α} (silent : Silent m) : Requests m fun _ => [] := by
  intro p more whole
  have kept : m p.uncut = _ := silent p.uncut p.uncut.incoming
  have cut : m p = _ := silent p.uncut p.incoming
  cases outcome : m p.uncut with
  | ok value q =>
    rw [outcome] at kept cut
    have same : q = (q.reading p.incoming).uncut := (EStateM.Result.ok.inj kept).2
    rw [cut,same]
    exact .ok value (q.reading p.incoming) whole
  | error err q =>
    rw [outcome] at kept cut
    have same : q = (q.reading p.incoming).uncut := (EStateM.Result.error.inj kept).2
    rw [cut,same]
    exact .error err (q.reading p.incoming)

theorem readBytes (k : Nat) : Requests (Handshake.readBytes k : Handshake Point Key Bytes) fun _ => [k] := by
  intro p more whole
  obtain ⟨full,rest⟩ := Bool.and_eq_true_iff.mp whole
  have read := p.incoming.read_of_fills k full
  rw [read] at rest
  have uncut : p.uncut.incoming.read k = _ := p.incoming.read_uncut k
  unfold Handshake.readBytes
  rw [read,uncut]
  split_ifs at rest ⊢ with enough
  · exact .ok _ (p.reading ⟨p.incoming.data.drop k,p.incoming.cuts.tail⟩) rest
  · exact .error _ p

theorem bind {first : Handshake Point Key α} {next : α → Handshake Point Key β} {sizes : Party Point Key → List Nat}
    {sizes' : α → Party Point Key → List Nat} (before : Requests first sizes)
    (after : ∀ value, Requests (next value) (sizes' value)) :
    Requests (first >>= next) fun p => sizes p ++ afterwards first sizes' p := by
  intro p more whole
  rw [List.append_assoc] at whole
  have begun := before p _ whole
  unfold afterwards at begun
  generalize cut : first p = result,uncut : first p.uncut = result' at begun
  cases begun with
  | ok value q rest =>
    rw [bind_ok _ _ _ _ _ cut,bind_ok _ _ _ _ _ uncut]
    exact after value q more rest
  | error err q =>
    rw [bind_error _ _ _ _ _ cut,bind_error _ _ _ _ _ uncut]
    exact .error err q

theorem ite {condition : Prop} [Decidable condition] {first second : Handshake Point Key α}
    {sizes sizes' : Party Point Key → List Nat} (yes : Requests first sizes) (no : Requests second sizes') :
    Requests (if condition then first else second) fun p => if condition then sizes p else sizes' p := by
  split_ifs
  · exact yes
  · exact no

theorem thenSilent {first : Handshake Point Key α} {next : α → Handshake Point Key β} {sizes : Party Point Key → List Nat}
    (before : Requests first sizes) (after : ∀ value, Silent (next value)) : Requests (first >>= next) sizes := by
  have nothing : ∀ p, sizes p = sizes p ++ afterwards first (fun _ _ => []) p := by
    intro p
    unfold afterwards
    split <;> rw [List.append_nil]
  rw [funext nothing]
  exact before.bind fun value => silent (after value)

variable (suite : Suite Point Key)

theorem readPayload (version actNum : UInt8) :
    Requests (Handshake.readPayload suite version actNum) (payloadRequests suite version actNum) := by
  unfold Handshake.readPayload payloadRequests
  refine ite ?_ (ite ?_ (silent (.get (fun _ _ => rfl) fun _ => .throw _)))
  · refine (readBytes _).thenSilent fun _ => .bind (.decryptAndHash suite _) fun _ => ?_
    exact .ite (.pure _) (.ite (.throw _) fun _ _ => rfl)
  have body (size : Nat) : Requests (do
      let cipherText ← Handshake.readBytes size
      let authData ← decryptAndHash suite cipherText
      if actNum = act2 then modify fun p => {p with receivedPayload := authData} else return ()) fun _ => [size] :=
    (readBytes size).thenSilent fun _ => .bind (.decryptAndHash suite _) fun _ => .ite (fun _ _ => rfl) (.pure _)
  by_cases ends : actNum = act1 ∨ actNum = act3
  · simp only [if_pos ends,pure_bind]
    exact body macSize
  · by_cases middle : actNum = act2
    · simp only [if_neg ends,if_pos middle,pure_bind] at body ⊢
      exact (readBytes (4 + macSize)).bind fun _ => (silent (.decryptAndHash suite _)).bind fun _ => body _
    · simp only [if_neg ends,if_neg middle]
      exact silent fun _ _ => rfl

variable [AddCommGroup Point]

theorem readToken (token : Token) : Requests (Handshake.readToken suite token) fun _ => token.requests := by
  cases token with
  | e =>
    exact (readBytes 33).thenSilent fun _ => .bind (fun _ _ => rfl) fun _ =>
      .bind (.parsePubKey suite _) fun _ => .mixHash suite _
  | me =>
    exact (readBytes 33).thenSilent fun _ => .bind (.parsePubKey suite _) fun _ => .get (fun _ _ => rfl) fun _ =>
      .bind (fun _ _ => rfl) fun _ => .mixHash suite _
  | s =>
    exact (readBytes (33 + macSize)).thenSilent fun _ => .bind (.decryptAndHash suite _) fun _ =>
      .bind (fun _ _ => rfl) fun _ => .bind (.parsePubKey suite _) fun _ => .pure _
  | ee => exact silent (.mixECDH suite (fun _ _ => rfl) (fun _ _ => rfl))
  | ss => exact silent (.mixECDH suite (fun _ _ => rfl) (fun _ _ => rfl))
  | es => exact silent (.mixES suite)
  | se => exact silent (.mixSE suite)

theorem readTokens (tokens : List Token) : Requests (Handshake.readTokens suite tokens) (tokenRequests suite tokens) := by
  induction tokens with
  | nil => exact silent (.pure _)
  | cons token tokens ih => exact (readToken suite token).bind fun _ => ih

theorem readMsgPattern (mp : MessagePattern) : Requests (Handshake.readMsgPattern suite mp) (msgRequests suite mp) :=
  (readBytes 1).bind fun _ => (silent (.checkVersion _ mp.actNum)).bind fun _ =>
    (readTokens suite mp.tokens).bind fun _ => readPayload suite _ mp.actNum

theorem acts (patterns : List MessagePattern) : Requests (Handshake.acts suite patterns) (requests suite patterns) := by
  induction patterns with
  | nil => exact silent (.pure _)
  | cons mp later ih =>
    intro p more whole
    rw [acts_cons,acts_cons]
    by_cases mine : mp.initiator = p.initiator
    · have sizes : requests suite (mp :: later) p.uncut = _ := if_pos mine
      rw [sizes] at whole
      rw [if_pos mine,if_pos (show mp.initiator = p.uncut.initiator from mine)]
      exact (silent (.writeMsgPattern suite mp)).bind (fun _ => ih) p more whole
    · have sizes : requests suite (mp :: later) p.uncut = _ := if_neg mine
      rw [sizes] at whole
      rw [if_neg mine,if_neg (show ¬ mp.initiator = p.uncut.initiator from mine)]
      exact (readMsgPattern suite mp).bind (fun _ => ih) p more whole

end Requests

structure SameOutcome (outcome outcome' : Outcome Point Key) : Prop where
  err : outcome.err = outcome'.err
  machine : outcome.machine = outcome'.machine
  written : outcome.link.written = outcome'.link.written

variable [AddCommGroup Point] {suite : Suite Point Key}

theorem doHandshake_uncut (m : Machine Point Key) (link : Link)
    (whole : link.incoming.whole (requests suite m.pattern.pattern (m.party link).uncut) = true) :
    SameOutcome (m.doHandshake suite link) (m.doHandshake suite {link with incoming := link.incoming.uncut}) := by
  have follows := Requests.acts suite m.pattern.pattern (m.party link) [] (by rwa [List.append_nil])
  have same : (m.party link).uncut = m.party {link with incoming := link.incoming.uncut} := rfl
  unfold Machine.doHandshake
  rw [← same]
  generalize acts suite m.pattern.pattern (m.party link) = result,
    acts suite m.pattern.pattern (m.party link).uncut = result' at follows
  cases follows with
  | ok value p _ =>
    have state : p.uncut.toHandshakeState = p.toHandshakeState := rfl
    have written : p.uncut.written = p.written := rfl
    simp only [state]
    split
    · exact ⟨rfl,rfl,written.symm⟩
    · exact ⟨rfl,rfl,written.symm⟩
  | error err p => exact ⟨rfl,rfl,rfl⟩

/-- Two readers of one stream that fill every buffer of the handshake give one outcome. -/
theorem handshake_unfragmented (m : Machine Point Key) (data : Bytes) (accepts : List Bool) (cuts cuts' : List Nat)
    (whole : (Reader.mk data cuts).whole
      (requests suite m.pattern.pattern (m.party ⟨⟨data,[]⟩,accepts,[]⟩)) = true)
    (whole' : (Reader.mk data cuts').whole
      (requests suite m.pattern.pattern (m.party ⟨⟨data,[]⟩,accepts,[]⟩)) = true) :
    SameOutcome (m.doHandshake suite ⟨⟨data,cuts⟩,accepts,[]⟩)
      (m.doHandshake suite ⟨⟨data,cuts'⟩,accepts,[]⟩) := by
  obtain ⟨err,machine,written⟩ := doHandshake_uncut m ⟨⟨data,cuts⟩,accepts,[]⟩ whole
  obtain ⟨err',machine',written'⟩ := doHandshake_uncut m ⟨⟨data,cuts'⟩,accepts,[]⟩ whole'
  exact ⟨err.trans err'.symm,machine.trans machine'.symm,written.trans written'.symm⟩

/-- The second call of `Read`, for the 33 bytes of the ephemeral key, returns ten of them. -/
theorem fragmented_handshake_fails :
    ∃ I R : Machine UInt8 UInt8, Ends plainSuite pairingClient pairingServer I R ∧ Matching plainSuite I R ∧
      ∃ answer : Bytes,
        (R.handshakeOn plainSuite (I.handshakeOn plainSuite []).link.written.flatten).link.written.flatten = answer ∧
        (I.doHandshake plainSuite ⟨⟨answer,[]⟩,[],[]⟩).ok ∧
        ¬ (I.doHandshake plainSuite ⟨⟨answer,[0,9]⟩,[],[]⟩).ok := by
  let I := plainMachine pairingClient
  let R := plainMachine pairingServer
  refine ⟨I,R,⟨rfl,rfl,rfl,rfl⟩,.inl ⟨rfl,rfl,rfl⟩,_,rfl,?_⟩
  decide +kernel

/-- One reader returns field by field, the other one has larger pieces ready. -/
theorem handshake_unfragmented_pieces :
    ∃ I R : Machine UInt8 UInt8, Ends plainSuite pairingClient pairingServer I R ∧ Matching plainSuite I R ∧
      ∃ answer : Bytes,
        (R.handshakeOn plainSuite (I.handshakeOn plainSuite []).link.written.flatten).link.written.flatten = answer ∧
        (I.doHandshake plainSuite ⟨⟨answer,[0,32,48,19,23]⟩,[],[]⟩).ok ∧
        SameOutcome (I.doHandshake plainSuite ⟨⟨answer,[0,32,48,19,23]⟩,[],[]⟩)
          (I.doHandshake plainSuite ⟨⟨answer,[90,90,90]⟩,[],[]⟩) := by
  have prepared : ∃ I R : Machine UInt8 UInt8, Ends plainSuite pairingClient pairingServer I R ∧ Matching plainSuite I R ∧
      ∃ answer : Bytes,
        (R.handshakeOn plainSuite (I.handshakeOn plainSuite []).link.written.flatten).link.written.flatten = answer ∧
        (I.doHandshake plainSuite ⟨⟨answer,[0,32,48,19,23]⟩,[],[]⟩).ok ∧
        (Reader.mk answer [0,32,48,19,23]).whole
          (requests plainSuite I.pattern.pattern (I.party ⟨⟨answer,[]⟩,[],[]⟩)) = true ∧
        (Reader.mk answer [90,90,90]).whole
          (requests plainSuite I.pattern.pattern (I.party ⟨⟨answer,[]⟩,[],[]⟩)) = true := by
    let I := plainMachine pairingClient
    let R := plainMachine pairingServer
    refine ⟨I,R,⟨rfl,rfl,rfl,rfl⟩,.inl ⟨rfl,rfl,rfl⟩,_,rfl,?_⟩
    decide +kernel
  obtain ⟨I,R,ends,matching,answer,answered,ok,whole,whole'⟩ := prepared
  exact ⟨I,R,ends,matching,answer,answered,ok,handshake_unfragmented I answer [] _ _ whole whole'⟩

end NodeConnect.Noise
