import NodeConnect.Noise.Conveys
import NodeConnect.Noise.Transcript

/-! What a completed act adds to the transcript of a party. The tokens, the act and the
version decide which items are plain, sealed and opened, and how long they are. -/
namespace NodeConnect.Noise
open Lib Fallible Handshake

variable {Point Key : Type} {suite : Suite Point Key}

inductive Slot where
  | plain
  | mine (plaintext : Bytes)
  | theirs (length : Option Nat)

def Entry.Fits : Entry → Slot → Prop
  | .plain _, .plain => True
  | .mine ciphertext plaintext, .mine expected => plaintext = expected ∧ ciphertext.length = plaintext.length + macSize
  | .theirs ciphertext _, .theirs length => ∀ k ∈ length, ciphertext.length = k
  | _, _ => False

def Token.written (static : Bytes) : Token → List Slot
  | .e | .me => [.plain]
  | .s => [.mine static]
  | _ => []

def Token.taken : Token → List Slot
  | .e | .me => [.plain]
  | .s => [.theirs (some (33 + macSize))]
  | _ => []

def payloadWritten (version actNum : UInt8) (payload : Bytes) : List Slot :=
  if actNum = act2 then
    if version = HandshakeVersion0 then [.mine (fixedPayload payload)]
    else [.mine (bigEndian 4 payload.length),.mine payload]
  else [.mine []]

def payloadTaken (version actNum : UInt8) : List Slot :=
  if actNum = act2 then
    if version = HandshakeVersion0 then [.theirs (some (ActTwoPayloadSize + macSize))]
    else [.theirs (some (4 + macSize)),.theirs none]
  else [.theirs (some macSize)]

def Adds (suite : Suite Point Key) (p q : Party Point Key) (added : List Entry) : Prop :=
  ∀ start entries, Tracks suite start entries p.toSymmetricState →
    Tracks suite start (entries ++ added) q.toSymmetricState

theorem Adds.nil {p q : Party Point Key} (same : q.toSymmetricState = p.toSymmetricState) : Adds suite p q [] := by
  intro start entries tracks
  rw [List.append_nil,same]
  exact tracks

theorem Adds.trans {p q t : Party Point Key} {first second : List Entry} (before : Adds suite p q first)
    (after : Adds suite q t second) : Adds suite p t (first ++ second) := by
  intro start entries tracks
  rw [← List.append_assoc]
  exact after start _ (before start entries tracks)

theorem Adds.congr {p q p' q' : Party Point Key} {added : List Entry} (adds : Adds suite p q added)
    (before : p'.toSymmetricState = p.toSymmetricState) (after : q'.toSymmetricState = q.toSymmetricState) :
    Adds suite p' q' added := by
  intro start entries
  rw [before,after]
  exact adds start entries

section Operations

variable {p q : Party Point Key}

theorem readBytes_ok {k : Nat} {bytes : Bytes} (read : readBytes k p = .ok bytes q) :
    bytes.length = k ∧ ∃ incoming, q = {p with incoming := incoming} := by
  unfold readBytes at read
  split at read
  next bytes incoming readSome =>
    cases read
    refine ⟨?_,incoming,rfl⟩
    unfold Reader.read at readSome
    split at readSome <;> split_ifs at readSome with enough
    · cases readSome
      exact List.length_take_of_le enough
    · cases readSome
      simp only [List.length_append,List.length_take,List.length_replicate]
      omega
  next => cases read

theorem mixHash_adds (lawful : suite.Lawful) (point : Point) {value : Unit}
    (mixed : Handshake.mixHash suite (suite.serializeCompressed point) p = .ok value q) :
    Adds suite p q [.plain (suite.serializeCompressed point)] := by
  cases mixed
  intro start entries tracks
  exact tracks.mixHash _ (by rw [lawful.serialize_length]; decide)

theorem encryptAndHash_adds (lawful : suite.Lawful) {plaintext ciphertext : Bytes}
    (encrypted : encryptAndHash suite plaintext p = .ok ciphertext q) :
    Adds suite p q [.mine ciphertext plaintext] ∧ ciphertext.length = plaintext.length + macSize := by
  cases encrypted
  exact ⟨fun start entries tracks => tracks.encryptAndHash lawful plaintext,lawful.seal_length _ _ _ _⟩

theorem decryptAndHash_adds {plaintext ciphertext : Bytes}
    (decrypted : decryptAndHash suite ciphertext p = .ok plaintext q) :
    Adds suite p q [.theirs ciphertext plaintext] ∧ ∃ s, q = {p with toSymmetricState := s} := by
  unfold decryptAndHash at decrypted
  split at decrypted
  next plain symmetric outcome =>
    cases decrypted
    refine ⟨?_,symmetric,rfl⟩
    intro start entries tracks
    have after := tracks.decryptAndHash ciphertext
    rw [outcome] at after
    exact after
  next => cases decrypted

theorem newEphemeral_made {key : Key} (made : newEphemeral p = .ok key q) :
    q.toSymmetricState = p.toSymmetricState ∧ q.localEphemeral = some key ∧ q.passphraseEntropy = p.passphraseEntropy := by
  unfold newEphemeral at made
  split at made
  · cases made
    exact ⟨rfl,rfl,rfl⟩
  all_goals cases made

theorem ecdh_ok {pub : Option Point} {priv : Option Key} {secret : Block} (agreed : ecdh suite pub priv p = .ok secret q) :
    q = p := by
  cases pub with
  | none => cases agreed
  | some pub =>
    cases priv with
    | none => cases agreed
    | some priv =>
      cases known : suite.ecdh pub priv with
      | none =>
        simp only [ecdh,known] at agreed
        cases agreed
      | some found =>
        simp only [ecdh,known] at agreed
        cases agreed
        rfl

theorem mixECDH_adds (remote : Party Point Key → Option Point) (own : Party Point Key → Option Key) {value : Unit}
    (mixed : mixECDH suite remote own p = .ok value q) : Adds suite p q [] := by
  unfold mixECDH at mixed
  rw [get_bind] at mixed
  obtain ⟨secret,middle,agreed,keyed⟩ := (bind_eq_ok _ _ _ _ _).mp mixed
  obtain rfl := ecdh_ok agreed
  cases keyed
  intro start entries tracks
  rw [List.append_nil]
  exact tracks.mixKey _

theorem mixES_adds {value : Unit} (mixed : mixES suite p = .ok value q) : Adds suite p q [] := by
  unfold mixES at mixed
  rw [get_bind] at mixed
  split_ifs at mixed <;> exact mixECDH_adds _ _ mixed

theorem mixSE_adds {value : Unit} (mixed : mixSE suite p = .ok value q) : Adds suite p q [] := by
  unfold mixSE at mixed
  rw [get_bind] at mixed
  split_ifs at mixed <;> exact mixECDH_adds _ _ mixed

theorem Adds.returned {m : Handshake Point Key Unit} {bytes result : Bytes}
    (quiet : ∀ {value : Unit} {r : Party Point Key}, m p = .ok value r → Adds suite p r [])
    (wrote : (do m; return bytes : Handshake Point Key Bytes) p = .ok result q) : Adds suite p q [] := by
  obtain ⟨_,p1,mixed,returned⟩ := (bind_eq_ok _ _ _ _ _).mp wrote
  cases returned
  exact quiet mixed

variable [AddCommGroup Point]

theorem writeToken_adds (lawful : suite.Lawful) (token : Token) {bytes : Bytes}
    (wrote : writeToken suite token p = .ok bytes q) :
    ∃ added, Adds suite p q added ∧
      List.Forall₂ Entry.Fits added (token.written (suite.serializeCompressed (suite.pubKey p.localStatic))) := by
  have plain (point : Point) : List.Forall₂ Entry.Fits [.plain (suite.serializeCompressed point)] [.plain] :=
    .cons trivial .nil
  cases token with
  | e =>
    obtain ⟨key,p1,made,wrote⟩ := (bind_eq_ok _ _ _ _ _).mp wrote
    obtain ⟨_,p2,mixed,returned⟩ := (bind_eq_ok _ _ _ _ _).mp wrote
    cases returned
    exact ⟨_,(mixHash_adds lawful _ mixed).congr (newEphemeral_made made).1.symm rfl,plain _⟩
  | me =>
    obtain ⟨key,p1,made,wrote⟩ := (bind_eq_ok _ _ _ _ _).mp wrote
    obtain ⟨_,p2,mixed,returned⟩ := (bind_eq_ok _ _ _ _ _).mp wrote
    cases returned
    exact ⟨_,(mixHash_adds lawful _ mixed).congr (newEphemeral_made made).1.symm rfl,plain _⟩
  | s =>
    obtain ⟨adds,length⟩ := encryptAndHash_adds lawful wrote
    exact ⟨_,adds,.cons ⟨rfl,length⟩ .nil⟩
  | ee => exact ⟨[],.returned (mixECDH_adds _ _) wrote,.nil⟩
  | ss => exact ⟨[],.returned (mixECDH_adds _ _) wrote,.nil⟩
  | es => exact ⟨[],.returned mixES_adds wrote,.nil⟩
  | se => exact ⟨[],.returned mixSE_adds wrote,.nil⟩

theorem readToken_adds (lawful : suite.Lawful) (token : Token) {value : Unit}
    (took : readToken suite token p = .ok value q) :
    ∃ added, Adds suite p q added ∧ List.Forall₂ Entry.Fits added token.taken := by
  cases token with
  | e =>
    obtain ⟨bytes,p1,read,took⟩ := (bind_eq_ok _ _ _ _ _).mp took
    obtain ⟨_,incoming,rfl⟩ := readBytes_ok read
    rw [modify_bind] at took
    obtain ⟨key,p2,parsed,mixed⟩ := (bind_eq_ok _ _ _ _ _).mp took
    obtain ⟨_,rfl⟩ := parsePubKey_ok parsed
    exact ⟨_,(mixHash_adds lawful key mixed).congr rfl rfl,.cons trivial .nil⟩
  | me =>
    obtain ⟨bytes,p1,read,took⟩ := (bind_eq_ok _ _ _ _ _).mp took
    obtain ⟨_,incoming,rfl⟩ := readBytes_ok read
    obtain ⟨masked,p2,parsed,mixed⟩ := (bind_eq_ok _ _ _ _ _).mp took
    obtain ⟨_,rfl⟩ := parsePubKey_ok parsed
    exact ⟨_,(mixHash_adds lawful _ mixed).congr rfl rfl,.cons trivial .nil⟩
  | s =>
    obtain ⟨bytes,p1,read,took⟩ := (bind_eq_ok _ _ _ _ _).mp took
    obtain ⟨length,incoming,rfl⟩ := readBytes_ok read
    obtain ⟨plaintext,p2,decrypted,took⟩ := (bind_eq_ok _ _ _ _ _).mp took
    rw [modify_bind] at took
    obtain ⟨key,p3,parsed,returned⟩ := (bind_eq_ok _ _ _ _ _).mp took
    obtain ⟨_,rfl⟩ := parsePubKey_ok parsed
    cases returned
    refine ⟨_,(decryptAndHash_adds decrypted).1.congr rfl rfl,.cons ?_ .nil⟩
    rintro k ⟨⟩
    exact length
  | ee => exact ⟨[],mixECDH_adds _ _ took,.nil⟩
  | ss => exact ⟨[],mixECDH_adds _ _ took,.nil⟩
  | es => exact ⟨[],mixES_adds took,.nil⟩
  | se => exact ⟨[],mixSE_adds took,.nil⟩

theorem writeTokens_adds (lawful : suite.Lawful) (tokens : List Token) {bytes : Bytes}
    (wrote : writeTokens suite tokens p = .ok bytes q) :
    ∃ added, Adds suite p q added ∧ List.Forall₂ Entry.Fits added
      (tokens.flatMap (Token.written (suite.serializeCompressed (suite.pubKey p.localStatic)))) := by
  induction tokens generalizing p bytes with
  | nil =>
    cases wrote
    exact ⟨[],.nil rfl,.nil⟩
  | cons token tokens ih =>
    obtain ⟨first,p1,wroteFirst,wrote⟩ := (bind_eq_ok _ _ _ _ _).mp wrote
    obtain ⟨rest,p2,wroteRest,returned⟩ := (bind_eq_ok _ _ _ _ _).mp wrote
    cases returned
    obtain ⟨added,adds,fits⟩ := writeToken_adds lawful token wroteFirst
    obtain ⟨more,addsMore,fitsMore⟩ := ih wroteRest
    have frame := ((frame_keptBy suite).writeToken token).of_ok wroteFirst
    rw [frame.localStatic] at fitsMore
    exact ⟨added ++ more,adds.trans addsMore,List.rel_append fits fitsMore⟩

theorem readTokens_adds (lawful : suite.Lawful) (tokens : List Token) {value : Unit}
    (took : readTokens suite tokens p = .ok value q) :
    ∃ added, Adds suite p q added ∧ List.Forall₂ Entry.Fits added (tokens.flatMap Token.taken) := by
  induction tokens generalizing p with
  | nil =>
    cases took
    exact ⟨[],.nil rfl,.nil⟩
  | cons token tokens ih =>
    obtain ⟨_,p1,tookFirst,tookRest⟩ := (bind_eq_ok _ _ _ _ _).mp took
    obtain ⟨added,adds,fits⟩ := readToken_adds lawful token tookFirst
    obtain ⟨more,addsMore,fitsMore⟩ := ih tookRest
    exact ⟨added ++ more,adds.trans addsMore,List.rel_append fits fitsMore⟩

omit [AddCommGroup Point] in
theorem writePayload_adds (lawful : suite.Lawful) (version actNum : UInt8) {bytes : Bytes}
    (wrote : writePayload suite version actNum p = .ok bytes q) :
    ∃ added, Adds suite p q added ∧ List.Forall₂ Entry.Fits added (payloadWritten version actNum p.payloadToSend) := by
  have one {plaintext : Bytes} (encrypted : encryptAndHash suite plaintext p = .ok bytes q) :
      ∃ added, Adds suite p q added ∧ List.Forall₂ Entry.Fits added [.mine plaintext] := by
    obtain ⟨adds,length⟩ := encryptAndHash_adds lawful encrypted
    exact ⟨_,adds,.cons ⟨rfl,length⟩ .nil⟩
  have notTwo : actNum = act1 ∨ actNum = act3 → actNum ≠ act2 := by
    rintro (rfl | rfl) <;> decide
  unfold writePayload at wrote
  rw [get_bind] at wrote
  unfold payloadWritten
  split_ifs at wrote with zero outer two known outer' two' tooLong
  · rw [if_neg (notTwo outer)]
    exact one wrote
  · rw [if_pos two,if_pos zero]
    exact one wrote
  · cases wrote
  · rw [if_neg (notTwo outer')]
    exact one wrote
  · cases wrote
  · rw [if_pos two',if_neg zero]
    obtain ⟨header,p1,sealedHeader,wrote⟩ := (bind_eq_ok _ _ _ _ _).mp wrote
    obtain ⟨body,p2,sealedBody,returned⟩ := (bind_eq_ok _ _ _ _ _).mp wrote
    cases returned
    obtain ⟨adds,length⟩ := encryptAndHash_adds lawful sealedHeader
    obtain ⟨addsMore,lengthMore⟩ := encryptAndHash_adds lawful sealedBody
    exact ⟨_,adds.trans addsMore,.cons ⟨rfl,length⟩ (.cons ⟨rfl,lengthMore⟩ .nil)⟩
  · cases wrote
  · cases wrote

omit [AddCommGroup Point] in
theorem readPayload_adds_zero (actNum : UInt8) {value : Unit}
    (took : readPayload suite HandshakeVersion0 actNum p = .ok value q) :
    ∃ ciphertext plaintext, Adds suite p q [.theirs ciphertext plaintext] ∧
      ciphertext.length = (if actNum = act2 then ActTwoPayloadSize else 0) + macSize ∧
      (plaintext ≠ [] → q.receivedPayload = unpack HandshakeVersion0 plaintext) := by
  rw [readPayload,if_pos rfl] at took
  obtain ⟨bytes,p1,read,took⟩ := (bind_eq_ok _ _ _ _ _).mp took
  obtain ⟨length,incoming,rfl⟩ := readBytes_ok read
  obtain ⟨payload,p2,decrypted,took⟩ := (bind_eq_ok _ _ _ _ _).mp took
  have adds := (decryptAndHash_adds decrypted).1
  by_cases empty : payload.length = 0
  · rw [if_pos empty] at took
    cases took
    exact ⟨bytes,payload,adds.congr rfl rfl,length,fun nonempty => absurd (List.length_eq_zero_iff.mp empty) nonempty⟩
  · rw [if_neg empty] at took
    by_cases missing : payload.drop lengthHeaderSize = []
    · rw [if_pos missing] at took
      cases took
    · rw [if_neg missing] at took
      cases took
      exact ⟨bytes,payload,adds.congr rfl rfl,length,fun _ => by rw [unpack,if_pos rfl]⟩

omit [AddCommGroup Point] in
theorem readBody_adds (size : Nat) (actNum : UInt8) {value : Unit}
    (took : (do
      let cipherText ← readBytes size
      let authData ← decryptAndHash suite cipherText
      if actNum = act2 then modify fun p => {p with receivedPayload := authData} else return ()
        : Handshake Point Key Unit) p = .ok value q) :
    ∃ ciphertext plaintext, Adds suite p q [.theirs ciphertext plaintext] ∧ ciphertext.length = size ∧
      (actNum = act2 → q.receivedPayload = plaintext) := by
  obtain ⟨bytes,p1,read,took⟩ := (bind_eq_ok _ _ _ _ _).mp took
  obtain ⟨length,incoming,rfl⟩ := readBytes_ok read
  obtain ⟨payload,p2,decrypted,took⟩ := (bind_eq_ok _ _ _ _ _).mp took
  have adds := (decryptAndHash_adds decrypted).1
  by_cases two : actNum = act2
  · rw [if_pos two] at took
    cases took
    exact ⟨bytes,payload,adds.congr rfl rfl,length,fun _ => rfl⟩
  · rw [if_neg two] at took
    cases took
    exact ⟨bytes,payload,adds.congr rfl rfl,length,fun same => absurd same two⟩

omit [AddCommGroup Point] in
theorem readPayload_adds (version actNum : UInt8) {value : Unit} (took : readPayload suite version actNum p = .ok value q) :
    version ≤ HandshakeVersion2 ∧
    ∃ added, Adds suite p q added ∧ List.Forall₂ Entry.Fits added (payloadTaken version actNum) ∧
      ∀ ciphertext plaintext, actNum = act2 → added.getLast? = some (.theirs ciphertext plaintext) →
        (version = HandshakeVersion0 → plaintext ≠ []) → q.receivedPayload = unpack version plaintext := by
  have single {bytes plaintext : Bytes} {size : Nat} (length : bytes.length = size) :
      List.Forall₂ Entry.Fits [.theirs bytes plaintext] [.theirs (some size)] := by
    refine .cons ?_ .nil
    rintro k ⟨⟩
    exact length
  by_cases zero : version = HandshakeVersion0
  · subst zero
    obtain ⟨ciphertext,plaintext,adds,length,received⟩ := readPayload_adds_zero actNum took
    refine ⟨by decide,_,adds,?_,?_⟩
    · unfold payloadTaken
      split_ifs at length ⊢
      · exact single length
      · exact absurd rfl ‹_›
      · exact single (length.trans (Nat.zero_add _))
    · intro ciphertext plaintext _ last nonempty
      cases last
      exact received (nonempty rfl)
  · rw [readPayload,if_neg zero] at took
    by_cases known : version = HandshakeVersion1 ∨ version = HandshakeVersion2
    · have bound : version ≤ HandshakeVersion2 := by
        rcases known with rfl | rfl <;> decide
      rw [if_pos known] at took
      by_cases outer : actNum = act1 ∨ actNum = act3
      · have notTwo : actNum ≠ act2 := by
          rcases outer with rfl | rfl <;> decide
        rw [if_pos outer] at took
        obtain ⟨ciphertext,plaintext,adds,length,_⟩ := readBody_adds macSize actNum took
        refine ⟨bound,_,adds,?_,fun _ _ two => absurd two notTwo⟩
        rw [payloadTaken,if_neg notTwo]
        exact single length
      · rw [if_neg outer] at took
        by_cases two : actNum = act2
        · rw [if_pos two] at took
          obtain ⟨header,p1,read,took⟩ := (bind_eq_ok _ _ _ _ _).mp took
          obtain ⟨length,incoming,rfl⟩ := readBytes_ok read
          obtain ⟨size,p2,decrypted,took⟩ := (bind_eq_ok _ _ _ _ _).mp took
          have adds := (decryptAndHash_adds decrypted).1
          obtain ⟨ciphertext,plaintext,addsMore,_,received⟩ :=
            readBody_adds ((macSize + fromBigEndian size) % 2 ^ 32) actNum took
          refine ⟨bound,_,(adds.trans addsMore).congr rfl rfl,?_,?_⟩
          · rw [payloadTaken,if_pos two,if_neg zero]
            refine .cons ?_ (.cons ?_ .nil)
            · rintro k ⟨⟩
              exact length
            · rintro k ⟨⟩
          · intro ciphertext plaintext _ last _
            cases last
            rw [unpack,if_neg zero]
            exact received two
        · rw [if_neg two] at took
          cases took
    · rw [if_neg known] at took
      cases took

end Operations

section Acts

variable {p q : Party Point Key}

theorem readBytes_one {bytes : Bytes} (read : readBytes 1 p = .ok bytes q) :
    p.incoming.data.head? = some (bytes.headD 0) := by
  unfold readBytes at read
  split at read
  next bytes incoming readSome =>
    cases read
    unfold Reader.read at readSome
    cases data : p.incoming.data with
    | nil => split at readSome <;> simp [data] at readSome
    | cons byte rest =>
      split at readSome <;> simp only [data] at readSome <;> cases readSome <;> simp
  next => cases read

theorem checkVersion_ok {version actNum : UInt8} {value : Unit} (checked : checkVersion version actNum p = .ok value q) :
    q.toSymmetricState = p.toSymmetricState ∧ q.receivedPayload = p.receivedPayload ∧
      (actNum = act2 → p.initiator = true → q.version = version) := by
  unfold checkVersion at checked
  rw [get_bind] at checked
  split_ifs at checked with negotiates outside initiator confirms different
  · cases checked
  · cases checked
    exact ⟨rfl,rfl,fun _ _ => rfl⟩
  · cases checked
    exact ⟨rfl,rfl,fun _ role => absurd role initiator⟩
  · cases checked
  · cases checked
    exact ⟨rfl,rfl,fun two => absurd (.inr two) negotiates⟩
  · cases checked

variable [AddCommGroup Point]

theorem writeMsgPattern_adds (lawful : suite.Lawful) (mp : MessagePattern) {value : Unit}
    (wrote : writeMsgPattern suite mp p = .ok value q) :
    q.version = p.version ∧ q.receivedPayload = p.receivedPayload ∧ ∃ added, Adds suite p q added ∧
      List.Forall₂ Entry.Fits added
        (mp.tokens.flatMap (Token.written (suite.serializeCompressed (suite.pubKey p.localStatic))) ++
          payloadWritten p.version mp.actNum p.payloadToSend) := by
  unfold writeMsgPattern at wrote
  rw [get_bind] at wrote
  obtain ⟨tokens,p1,wroteTokens,wrote⟩ := (bind_eq_ok _ _ _ _ _).mp wrote
  obtain ⟨payload,p2,wrotePayload,wrote⟩ := (bind_eq_ok _ _ _ _ _).mp wrote
  have same : q.toHandshakeState = p2.toHandshakeState := congrArg (fun p => p.toHandshakeState) (writeBytes_ok wrote)
  have frame := ((frame_keptBy suite).writeTokens mp.tokens).of_ok wroteTokens
  have version1 := ((version_keptBy suite).writeTokens mp.tokens).of_ok wroteTokens
  have version2 := ((version_keptBy suite).writePayload _ _).of_ok wrotePayload
  have received1 := ((receivedPayload_keptBy suite).writeTokens mp.tokens).of_ok wroteTokens
  have received2 := ((receivedPayload_keptBy suite).writePayload _ _).of_ok wrotePayload
  obtain ⟨added,adds,fits⟩ := writeTokens_adds lawful mp.tokens wroteTokens
  obtain ⟨more,addsMore,fitsMore⟩ := writePayload_adds lawful _ _ wrotePayload
  rw [frame.payloadToSend] at fitsMore
  refine ⟨?_,?_,added ++ more,(adds.trans addsMore).congr rfl ?_,List.rel_append fits fitsMore⟩
  · rw [same,version2,version1]
  · rw [same,received2,received1]
  · rw [same]

theorem readMsgPattern_adds (lawful : suite.Lawful) (mp : MessagePattern) {value : Unit}
    (took : readMsgPattern suite mp p = .ok value q) :
    ∃ version, p.incoming.data.head? = some version ∧ version ≤ HandshakeVersion2 ∧
      (mp.actNum = act2 → p.initiator = true → q.version = version) ∧
      ∃ tokens payload, Adds suite p q (tokens ++ payload) ∧
        List.Forall₂ Entry.Fits tokens (mp.tokens.flatMap Token.taken) ∧
        List.Forall₂ Entry.Fits payload (payloadTaken version mp.actNum) ∧
        ∀ ciphertext plaintext, mp.actNum = act2 → payload.getLast? = some (.theirs ciphertext plaintext) →
          (version = HandshakeVersion0 → plaintext ≠ []) → q.receivedPayload = unpack version plaintext := by
  unfold readMsgPattern at took
  obtain ⟨scratch,p1,read,took⟩ := (bind_eq_ok _ _ _ _ _).mp took
  have head := readBytes_one read
  obtain ⟨_,incoming,rfl⟩ := readBytes_ok read
  obtain ⟨_,p2,checked,took⟩ := (bind_eq_ok _ _ _ _ _).mp took
  obtain ⟨symmetric,_,adapts⟩ := checkVersion_ok checked
  obtain ⟨_,p3,tookTokens,tookPayload⟩ := (bind_eq_ok _ _ _ _ _).mp took
  have reads (k : Nat) : Keeps (fun p q : Party Point Key => q.version = p.version) (readBytes k) :=
    readBytes_field (fun p => p.version) (fun _ _ => rfl) k
  have version1 := ((version_keptBy suite).readTokens reads mp.tokens fun _ _ _ => rfl).of_ok tookTokens
  have version2 := ((version_keptBy suite).readPayload reads (fun _ _ => rfl) _ _).of_ok tookPayload
  obtain ⟨added,adds,fits⟩ := readTokens_adds lawful mp.tokens tookTokens
  obtain ⟨known,more,addsMore,fitsMore,received⟩ := readPayload_adds _ _ tookPayload
  refine ⟨_,head,known,?_,added,more,(adds.trans addsMore).congr symmetric.symm rfl,fits,fitsMore,received⟩
  intro two initiator
  rw [version2,version1,adapts two initiator]

end Acts

end NodeConnect.Noise
