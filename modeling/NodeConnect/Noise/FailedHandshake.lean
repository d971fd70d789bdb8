import NodeConnect.Noise.AuthData
import NodeConnect.Noise.Pairing
import NodeConnect.Noise.Relay

/-! What a failed `DoHandshake` leaves in the connection data. The acts never touch it, and
each of the two setters asks its callback before it stores anything; but the setters run one
after the other, and a refusal of the second one does not undo the first. Which machines this
can happen to is decided by their configuration: the bytes that make it happen exist whenever
the configuration allows them. -/
namespace NodeConnect.Noise
open Lib Fallible Handshake

variable {Point Key : Type}

structure SameIdentity (suite : Suite Point Key) (before after : ConnData Point Key) : Prop where
  remoteKey : after.remoteKey = before.remoteKey
  authData : after.authData = before.authData
  sid : after.sid suite = before.sid suite
  handshakePattern : after.handshakePattern = before.handshakePattern

/-- The completed acts `s` make `DoHandshake` call both setters; `SetRemote` stores the key
and `SetAuthData` is refused. -/
structure ConnData.RefusesLate (c : ConnData Point Key) (s : HandshakeState Point Key) : Prop where
  version : HandshakeVersion2 ≤ s.version
  initiator : s.initiator = true
  remote : ¬ c.RefusesRemote s.remoteStatic
  authData : c.RefusesAuthData s.receivedPayload

structure FailedStore (m : Machine Point Key) (c c' : ConnData Point Key) : Prop where
  kept : Kept c c'
  authData : c'.authData = c.authData
  late : c.RefusesLate m.toHandshakeState → c'.remoteKey = m.remoteStatic
  early : ¬ c.RefusesLate m.toHandshakeState → c'.remoteKey = c.remoteKey

theorem store_error {m : Machine Point Key} {c c' : ConnData Point Key} {err : HandshakeError}
    (failed : m.store c = .error err c') : FailedStore m c c' := by
  unfold Machine.store at failed
  split_ifs at failed with known role role
  · obtain ⟨refused,ran⟩ | ⟨accepted,ran⟩ := setRemote_cases c m.remoteStatic
    · rw [bind_error _ _ _ _ _ ran] at failed
      cases failed
      exact ⟨⟨rfl,rfl,rfl,rfl⟩,rfl,fun late => absurd refused late.remote,fun _ => rfl⟩
    · rw [bind_ok _ _ _ _ _ ran] at failed
      obtain ⟨refused,set⟩ | ⟨_,set⟩ := setAuthData_cases
        {c with stored := c.stored ++ [.setRemote m.remoteStatic], remoteKey := m.remoteStatic} m.receivedPayload
      · cases set.symm.trans failed
        exact ⟨⟨rfl,rfl,rfl,rfl⟩,rfl,fun _ => rfl,fun early => absurd ⟨known,role,accepted,refused⟩ early⟩
      · cases set.symm.trans failed
  · obtain ⟨refused,ran⟩ | ⟨_,ran⟩ := setRemote_cases c m.remoteStatic
    · rw [bind_error _ _ _ _ _ ran] at failed
      cases failed
      exact ⟨⟨rfl,rfl,rfl,rfl⟩,rfl,fun late => absurd refused late.remote,fun _ => rfl⟩
    · rw [bind_ok _ _ _ _ _ ran] at failed
      cases failed
  · obtain ⟨_,set⟩ | ⟨_,set⟩ := setAuthData_cases c m.receivedPayload
    · cases set.symm.trans failed
      exact ⟨⟨rfl,rfl,rfl,rfl⟩,rfl,fun late => absurd late.version known,fun _ => rfl⟩
    · cases set.symm.trans failed
  · cases failed

theorem store_refusesLate {m : Machine Point Key} {c : ConnData Point Key} (late : c.RefusesLate m.toHandshakeState) :
    ∃ c', m.store c = .error .setAuthData c' := by
  unfold Machine.store
  rw [if_pos late.version,if_pos late.initiator]
  obtain ⟨refused,_⟩ | ⟨_,ran⟩ := setRemote_cases c m.remoteStatic
  · exact absurd refused late.remote
  rw [bind_ok _ _ _ _ _ ran]
  obtain ⟨_,set⟩ | ⟨accepted,_⟩ := setAuthData_cases
    {c with stored := c.stored ++ [.setRemote m.remoteStatic], remoteKey := m.remoteStatic} m.receivedPayload
  · exact ⟨_,set⟩
  · exact absurd late.authData accepted

theorem FailedStore.sameIdentity_iff (suite : Suite Point Key) {m : Machine Point Key} {c c' : ConnData Point Key}
    (failed : FailedStore m c c') :
    SameIdentity suite c c' ↔ (c.RefusesLate m.toHandshakeState → m.remoteStatic = c.remoteKey) := by
  constructor
  · intro same late
    exact (failed.late late).symm.trans same.remoteKey
  · intro known
    have remoteKey : c'.remoteKey = c.remoteKey := by
      by_cases late : c.RefusesLate m.toHandshakeState
      · exact (failed.late late).trans (known late)
      · exact failed.early late
    exact ⟨remoteKey,failed.authData,sid_congr suite failed.kept remoteKey,pattern_congr remoteKey⟩

variable [AddCommGroup Point] {suite : Suite Point Key}

theorem doHandshake_failed (m : Machine Point Key) (link : Link) (failed : ¬ (m.doHandshake suite link).ok) :
    (∃ err p, acts suite m.pattern.pattern (m.party link) = .error err p ∧
      (m.doHandshake suite link).machine.connData = m.connData) ∨
    ∃ p, acts suite m.pattern.pattern (m.party link) = .ok () p ∧
      FailedStore (m.completed suite p) m.connData (m.doHandshake suite link).machine.connData := by
  cases ran : acts suite m.pattern.pattern (m.party link) with
  | error err p => exact .inl ⟨err,p,rfl,(doHandshake_error m link ran).2⟩
  | ok value p =>
    refine .inr ⟨p,rfl,?_⟩
    unfold Machine.doHandshake at failed ⊢
    simp only [ran,split_connData] at failed ⊢
    cases stored : (Machine.split suite {m with toHandshakeState := p.toHandshakeState}).store m.connData with
    | ok value connData =>
      rw [stored] at failed
      exact absurd rfl failed
    | error err connData => exact store_error stored

section Received

/-- What the exact condition takes for granted beyond the laws: every point that can be parsed is
a public key, and a ciphertext that opens is longer than its plaintext by the tag. -/
structure Suite.Tight (suite : Suite Point Key) : Prop where
  parsed_pubKey : ∀ bytes point, suite.parsePubKey bytes = some point → ∃ key, point = suite.pubKey key
  open_length : ∀ key nonce ad ciphertext plaintext, suite.aeadOpen key nonce ad ciphertext = some plaintext →
    ciphertext.length = plaintext.length + macSize

theorem plainSuite_tight : plainSuite.Tight where
  parsed_pubKey bytes point parsed := by
    obtain ⟨⟨_,nonzero⟩,last⟩ := Option.ite_none_right_eq_some.mp parsed
    have other : point ≠ 0 := fun zero => nonzero (zero ▸ last)
    exact ⟨point,(if_neg other).symm⟩
  open_length key nonce ad ciphertext plaintext opened := by
    obtain ⟨is_seal,⟨⟩⟩ := Option.ite_none_right_eq_some.mp opened
    exact (congrArg List.length is_seal).trans (plainSeal_length _ _ _ _)

variable {p q : Party Point Key}

omit [AddCommGroup Point] in
theorem decryptAndHash_length (tight : suite.Tight) {ciphertext plaintext : Bytes}
    (decrypted : decryptAndHash suite ciphertext p = .ok plaintext q) : ciphertext.length = plaintext.length + macSize := by
  unfold decryptAndHash SymmetricState.decryptAndHash CipherState.decrypt at decrypted
  cases opened : suite.aeadOpen p.secretKey p.nonce p.handshakeDigest.val ciphertext with
  | none =>
    simp only [opened] at decrypted
    contradiction
  | some found =>
    simp only [opened] at decrypted
    cases decrypted
    exact tight.open_length _ _ _ _ _ opened

omit [AddCommGroup Point] in
theorem receivedPayload_short (tight : suite.Tight) {value : Unit}
    (took : readPayload suite HandshakeVersion2 act2 p = .ok value q) : q.receivedPayload.length + macSize < 2 ^ 32 := by
  rw [readPayload,if_neg (by decide),if_pos (.inr rfl),if_neg (by decide),if_pos rfl] at took
  obtain ⟨header,p1,_,took⟩ := (bind_eq_ok _ _ _ _ _).mp took
  obtain ⟨size,p2,_,took⟩ := (bind_eq_ok _ _ _ _ _).mp took
  rw [pure_bind] at took
  obtain ⟨body,p3,read,took⟩ := (bind_eq_ok _ _ _ _ _).mp took
  obtain ⟨authData,p4,decrypted,took⟩ := (bind_eq_ok _ _ _ _ _).mp took
  rw [if_pos rfl] at took
  cases took
  have lengths := (decryptAndHash_length tight decrypted).symm.trans (readBytes_ok read).1
  exact lengths ▸ Nat.mod_lt _ (Nat.two_pow_pos 32)

theorem remoteStatic_pubKey (tight : suite.Tight) {value : Unit}
    (took : readTokens suite [.e,.ee,.s,.es] p = .ok value q) : ∃ key, q.remoteStatic = some (suite.pubKey key) := by
  obtain ⟨_,p1,_,took⟩ := (bind_eq_ok _ _ _ _ _).mp took
  obtain ⟨_,p2,_,took⟩ := (bind_eq_ok _ _ _ _ _).mp took
  obtain ⟨_,p3,tookStatic,took⟩ := (bind_eq_ok _ _ _ _ _).mp took
  obtain ⟨_,p4,mixed,returned⟩ := (bind_eq_ok _ _ _ _ _).mp took
  cases returned
  obtain ⟨_,p5,_,tookKey⟩ := (bind_eq_ok _ _ _ _ _).mp tookStatic
  obtain ⟨bytes,p6,_,tookKey⟩ := (bind_eq_ok _ _ _ _ _).mp tookKey
  rw [modify_bind] at tookKey
  obtain ⟨point,p7,parsed,returned⟩ := (bind_eq_ok _ _ _ _ _).mp tookKey
  obtain ⟨known,rfl⟩ := parsePubKey_ok parsed
  cases returned
  obtain ⟨key,rfl⟩ := tight.parsed_pubKey _ _ known
  have static : KeptBy suite (fun p q : Party Point Key => q.remoteStatic = p.remoteStatic) :=
    field_keptBy suite (fun p => p.remoteStatic) (fun _ _ => rfl) (fun _ _ _ => rfl) (fun _ _ => rfl)
  exact ⟨key,(static.mixES.of_ok mixed).trans known⟩

theorem act2_received (tight : suite.Tight) (role : p.initiator = true) {value : Unit}
    (took : readMsgPattern suite ⟨[.e,.ee,.s,.es],false,act2⟩ p = .ok value q) (two : q.version = HandshakeVersion2) :
    p.minVersion ≤ HandshakeVersion2 ∧ HandshakeVersion2 ≤ p.maxVersion ∧
      (∃ key, q.remoteStatic = some (suite.pubKey key)) ∧ q.receivedPayload.length + macSize < 2 ^ 32 := by
  unfold readMsgPattern at took
  obtain ⟨scratch,p1,read,took⟩ := (bind_eq_ok _ _ _ _ _).mp took
  obtain ⟨_,incoming,rfl⟩ := readBytes_ok read
  obtain ⟨_,p2,checked,took⟩ := (bind_eq_ok _ _ _ _ _).mp took
  obtain ⟨_,p3,tookTokens,tookPayload⟩ := (bind_eq_ok _ _ _ _ _).mp took
  have reads {β : Type} (field : Party Point Key → β) (incoming : ∀ p r, field {p with incoming := r} = field p)
      (k : Nat) : Keeps (fun p q => field q = field p) (readBytes k : Handshake Point Key Bytes) :=
    readBytes_field field incoming k
  have version1 := ((version_keptBy suite).readTokens (reads _ fun _ _ => rfl) _ fun _ _ _ => rfl).of_ok tookTokens
  have version2 := ((version_keptBy suite).readPayload (reads _ fun _ _ => rfl) (fun _ _ => rfl) _ _).of_ok tookPayload
  have static : KeptBy suite (fun p q : Party Point Key => q.remoteStatic = p.remoteStatic) :=
    field_keptBy suite (fun p => p.remoteStatic) (fun _ _ => rfl) (fun _ _ _ => rfl) (fun _ _ => rfl)
  have kept := (static.readPayload (reads _ fun _ _ => rfl) (fun _ _ => rfl) _ _).of_ok tookPayload
  obtain ⟨_,_,adapts⟩ := checkVersion_ok checked
  have same : scratch.headD 0 = HandshakeVersion2 := by rw [← two,version2,version1,adapts rfl role]
  rw [same] at checked tookPayload
  obtain ⟨lower,upper⟩ := checkVersion_range (.inr rfl) checked
  obtain ⟨key,stored⟩ := remoteStatic_pubKey tight tookTokens
  exact ⟨lower,upper,⟨key,kept.trans stored⟩,receivedPayload_short tight tookPayload⟩

/-- What an initiator of a pairing has received once it is done with version 2. -/
theorem xx_received (lawful : suite.Lawful) (tight : suite.Tight) (role : p.initiator = true)
    (ran : acts suite XXPattern.pattern p = .ok () q) (enough : HandshakeVersion2 ≤ q.version) :
    p.minVersion ≤ HandshakeVersion2 ∧ HandshakeVersion2 ≤ p.maxVersion ∧
      (∃ e later, p.ephemeralGen = some e :: later) ∧ (∃ key, q.remoteStatic = some (suite.pubKey key)) ∧
      q.receivedPayload.length + macSize < 2 ^ 32 := by
  obtain ⟨p1,wrote,ran⟩ := acts_cons_ok _ _ _ _ ran
  rw [if_pos role.symm] at wrote
  obtain ⟨frame,_⟩ := writeMsgPattern_ok suite _ p p1 () wrote
  obtain ⟨p2,took,ran⟩ := acts_cons_ok _ _ _ _ ran
  rw [if_neg (by simp [frame.initiator,role])] at took
  obtain ⟨p3,last,done⟩ := acts_cons_ok _ _ _ _ ran
  cases done
  have frame2 := (readMsgPattern_frame suite _).of_ok took
  rw [if_pos (by simp [frame2.initiator,frame.initiator,role])] at last
  obtain ⟨_,_,known,_⟩ := writeMsgPattern_ok suite _ p2 q () last
  obtain ⟨version,received,_⟩ := writeMsgPattern_adds lawful _ last
  have static : KeptBy suite (fun p q : Party Point Key => q.remoteStatic = p.remoteStatic) :=
    field_keptBy suite (fun p => p.remoteStatic) (fun _ _ => rfl) (fun _ _ _ => rfl) (fun _ _ => rfl)
  have kept := (static.writeMsgPattern (fun bytes p => by unfold writeBytes; split <;> rfl) _).of_ok last
  have two : p2.version = HandshakeVersion2 := UInt8.le_antisymm known (version ▸ enough)
  obtain ⟨lower,upper,⟨key,stored⟩,short⟩ := act2_received tight (frame.initiator.trans role) took two
  rw [frame.minVersion] at lower
  rw [frame.maxVersion] at upper
  exact ⟨lower,upper,writeMsgPattern_ephemeral (.inr rfl) wrote,⟨key,kept.trans stored⟩,received ▸ short⟩

end Received

/-- An answer that makes an initiator of a pairing take the key and the auth data. -/
theorem xx_answer (lawful : suite.Lawful) {i : HandshakeState Point Key} {t : SymmetricState}
    (paired : Paired suite i.toSymmetricState t) (role : i.initiator = true) (start : i.version = i.minVersion)
    (lower : i.minVersion ≤ HandshakeVersion2) (upper : HandshakeVersion2 ≤ i.maxVersion) {e : Key}
    {later : List (Option Key)} (own : i.ephemeralGen = some e :: later) (key : Key) {data : Bytes}
    (short : data.length + macSize < 2 ^ 32) :
    ∃ answer i' link, acts suite XXPattern.pattern (starting i answer) = .ok () ⟨i',link⟩ ∧ i'.initiator = true ∧
      i'.version = HandshakeVersion2 ∧ i'.remoteStatic = some (suite.pubKey key) ∧ i'.receivedPayload = data := by
  -- The responder uses one key for both of its keys, and sends `data`, which may be too long for an honest one.
  let r : HandshakeState Point Key := {i with
    toSymmetricState := t, initiator := false, localStatic := key, ephemeralGen := [some key], version := HandshakeVersion2}
  obtain ⟨s1,t1,first,paired,wrote1⟩ :=
    xx_act1_writes (r := r) lawful.toAeadLawful paired own (start ▸ lower)
  let i0 : HandshakeState Point Key :=
    {i with toSymmetricState := s1, localEphemeral := some e, ephemeralGen := later}
  let i1 : HandshakeState Point Key := {i0 with version := HandshakeVersion2}
  let r1 : HandshakeState Point Key := {r with toSymmetricState := t1, remoteEphemeral := some (suite.pubKey e)}
  obtain ⟨t2,s2,tokens,paired,exchanged⟩ :=
    xx_act2_tokens (w := r1) (r := i1) lawful paired.symm rfl role rfl rfl rfl
  let r2 (s : SymmetricState) : HandshakeState Point Key :=
    {r1 with toSymmetricState := s, localEphemeral := some key, ephemeralGen := []}
  let i2 (s : SymmetricState) : HandshakeState Point Key := {i1 with
    toSymmetricState := s, remoteEphemeral := some (suite.pubKey key), remoteStatic := some (suite.pubKey key)}
  obtain ⟨t3,s3,payload,paired,carried⟩ :=
    conveys_sized (w := r2 t2) (r := i2 s2) lawful.toAeadLawful paired HandshakeVersion2 (.inr rfl) data short
  let i3 : HandshakeState Point Key := {i2 s3 with receivedPayload := data}
  have adapted (link : Link) := checkVersion_initiator (p := i0) HandshakeVersion2 role lower upper link
  have took := readMsgPattern_took ⟨[.e,.ee,.s,.es],false,act2⟩ adapted exchanged carried.2
  obtain ⟨s4,_,third,_,wrote3⟩ := xx_act3 (w := i3) (r := r2 t3) lawful paired.symm role rfl rfl rfl rfl
    (UInt8.le_refl HandshakeVersion2)
  refine ⟨[HandshakeVersion2] ++ tokens ++ payload ++ [],{i3 with toSymmetricState := s4},
    ⟨⟨[],[]⟩,[],[] ++ [first] ++ [third]⟩,?_,role,rfl,rfl,rfl⟩
  rw [starting,XXPattern,acts_wrote_accepted wrote1 role.symm _ _ (by simp) _,acts,get_bind,
    if_neg (by simp [role]),bind_ok _ _ _ _ _ (took [] _ _)]
  exact acts_wrote_accepted wrote3.wrote role.symm [] ⟨[],[]⟩ (by simp) ([] ++ [first])

theorem doHandshake_refusesLate {m : Machine Point Key} {link : Link} {p : Party Point Key}
    (ran : acts suite m.pattern.pattern (m.party link) = .ok () p) (late : m.connData.RefusesLate p.toHandshakeState) :
    ¬ (m.doHandshake suite link).ok := by
  have kept : m.connData.RefusesLate (m.completed suite p).toHandshakeState := (completed_handshake m p).symm ▸ late
  obtain ⟨c,failed⟩ := store_refusesLate kept
  unfold Machine.completed at failed
  unfold Machine.doHandshake Outcome.ok
  simp only [ran,split_connData,failed]
  nofun

/-- The machine can be made to keep the identity of a server whose auth data it refuses: it is
a client that pairs and may use version 2, and there are a key, other than the one it has, and
auth data, of a length that the wire can carry, such that its callbacks accept the key and
refuse the auth data. -/
structure BrontideMachineConfig.Exposed (suite : Suite Point Key) (cfg : BrontideMachineConfig Point Key) (key : Key)
    (data : Bytes) : Prop where
  initiator : cfg.initiator = true
  pattern : cfg.handshakePattern = XXPattern
  lower : cfg.minHandshakeVersion ≤ HandshakeVersion2
  upper : HandshakeVersion2 ≤ cfg.maxHandshakeVersion
  ephemeral : ∃ e later, cfg.ephemeralGen = some e :: later
  short : data.length + macSize < 2 ^ 32
  other : cfg.connData.remoteKey ≠ some (suite.pubKey key)
  remote : ¬ cfg.connData.RefusesRemote (some (suite.pubKey key))
  authData : cfg.connData.RefusesAuthData data

section Exposed

variable {cfg : BrontideMachineConfig Point Key} {m : Machine Point Key}

theorem exposed_stores (lawful : suite.Lawful) (built : Built suite cfg m) {key : Key} {data : Bytes}
    (exposed : cfg.Exposed suite key data) :
    ∃ answer, ¬ (m.handshakeOn suite answer).ok ∧
      ¬ SameIdentity suite m.connData (m.handshakeOn suite answer).machine.connData := by
  have lower := built.minVersion_xx exposed.pattern
  have start : m.version = m.minVersion := by rw [built.version,exposed.initiator,if_pos rfl]
  have paired : Paired suite m.toSymmetricState (startState suite .XX) :=
    (built.symmetricXX exposed.pattern).symm ▸ startState_paired .XX
  obtain ⟨e,later,own⟩ := exposed.ephemeral
  obtain ⟨answer,i,link,ran,role,version,static,payload⟩ := xx_answer lawful paired
    (built.initiator.trans exposed.initiator) start (lower ▸ exposed.lower) (built.maxVersion ▸ exposed.upper)
    (built.ephemeralGen.trans own) key exposed.short
  replace ran : acts suite m.pattern.pattern (m.party {incoming := ⟨answer,[]⟩}) = .ok () ⟨i,link⟩ := by
    rw [built.pattern,exposed.pattern]
    exact ran
  have late : m.connData.RefusesLate i := by
    rw [built.connData]
    exact ⟨version ▸ UInt8.le_refl _,role,static ▸ exposed.remote,payload ▸ exposed.authData⟩
  have failed : ¬ (m.handshakeOn suite answer).ok := doHandshake_refusesLate ran late
  refine ⟨answer,failed,fun same => ?_⟩
  obtain ⟨_,_,stopped,_⟩ | ⟨p,completed,stored⟩ := doHandshake_failed m _ failed
  · cases ran.symm.trans stopped
  · cases ran.symm.trans completed
    have known := (stored.sameIdentity_iff suite).mp same ((completed_handshake m _).symm ▸ late)
    rw [completed_handshake,static,built.connData] at known
    exact exposed.other known.symm

/-- What a late refusal needs, whatever the bytes were that led to it. -/
theorem refusesLate_exposed (lawful : suite.Lawful) (tight : suite.Tight) (built : Built suite cfg m)
    (pattern : cfg.handshakePattern = XXPattern) {link : Link} {p : Party Point Key}
    (ran : acts suite m.pattern.pattern (m.party link) = .ok () p) (late : m.connData.RefusesLate p.toHandshakeState)
    (other : p.remoteStatic ≠ m.connData.remoteKey) : ∃ key data, cfg.Exposed suite key data := by
  have frame := acts_frame suite m.pattern.pattern (m.party link)
  rw [ran] at frame
  have role : m.initiator = true := frame.initiator.symm.trans late.initiator
  rw [built.pattern,pattern] at ran
  obtain ⟨lower,upper,⟨e,later,own⟩,⟨key,static⟩,short⟩ := xx_received lawful tight role ran late.version
  have remote := late.remote
  have refused := late.authData
  rw [static] at other remote
  rw [built.connData] at other remote refused
  exact ⟨key,p.receivedPayload,built.initiator.symm.trans role,pattern,built.minVersion_xx pattern ▸ lower,
    built.maxVersion ▸ upper,⟨e,later,built.ephemeralGen.symm.trans own⟩,short,other.symm,remote,refused⟩

/-- The KK pattern sends no static key, so the key that `SetRemote` stores is the key that
was configured. -/
theorem kk_keeps_remoteKey (built : Built suite cfg m) (pattern : cfg.handshakePattern = KKPattern) {link : Link}
    {p : Party Point Key} (ran : acts suite m.pattern.pattern (m.party link) = .ok () p) :
    p.remoteStatic = m.connData.remoteKey := by
  have kept := kk_remoteStatic suite (m.party link)
  rw [built.pattern,pattern] at ran
  rw [ran] at kept
  exact kept.trans (built.remoteStatic.trans (built.connData ▸ rfl))

/-- No failed handshake of a machine changes its identity, whatever bytes reach it, exactly if
its configuration does not expose it. -/
theorem failed_handshake_sameIdentity_iff (lawful : suite.Lawful) (tight : suite.Tight)
    (made : newBrontideMachine suite cfg = .ok m)
    (known : cfg.handshakePattern = XXPattern ∨ cfg.handshakePattern = KKPattern) :
    (∀ link, ¬ (m.doHandshake suite link).ok →
      SameIdentity suite m.connData (m.doHandshake suite link).machine.connData) ↔
    ¬ ∃ key data, cfg.Exposed suite key data := by
  have built := newBrontideMachine_built _ m made
  constructor
  · rintro safe ⟨key,data,exposed⟩
    obtain ⟨answer,failed,changed⟩ := exposed_stores lawful built exposed
    exact changed (safe _ failed)
  · intro unexposed link failed
    obtain ⟨_,_,_,same⟩ | ⟨p,ran,stored⟩ := doHandshake_failed m link failed
    · rw [same]
      exact ⟨rfl,rfl,rfl,rfl⟩
    · refine (stored.sameIdentity_iff suite).mpr fun late => ?_
      rw [completed_handshake] at late ⊢
      obtain xx | kk := known
      · by_contra other
        exact unexposed (refusesLate_exposed lawful tight built xx ran late other)
      · exact kk_keeps_remoteKey built kk ran

end Exposed

def suspiciousClient : BrontideMachineConfig UInt8 UInt8 :=
  plainEnd true ⟨5,none,[1,7],[],none,some fun _ => false,[]⟩ 0 2 11

def closedClient : BrontideMachineConfig UInt8 UInt8 :=
  plainEnd true ⟨5,none,[1,7],[],some fun _ => false,none,[]⟩ 0 2 11

/-- The client refuses the auth data of a server that it meets for the first time, and
keeps the key of that server all the same. -/
theorem refused_authData_keeps_remoteKey :
    ∃ I : Machine UInt8 UInt8, newBrontideMachine plainSuite suspiciousClient = .ok I ∧ ∃ incoming,
      (I.handshakeOn plainSuite incoming).err = some .setAuthData ∧ I.connData.remoteKey = none ∧
      (I.handshakeOn plainSuite incoming).machine.connData.remoteKey = some (plainSuite.pubKey 9) ∧
      ¬ SameIdentity plainSuite I.connData (I.handshakeOn plainSuite incoming).machine.connData := by
  let I := plainMachine suspiciousClient
  let R := plainMachine pairingServer
  let first := (I.handshakeOn plainSuite []).link.written.flatten
  let second := (R.handshakeOn plainSuite first).link.written.flatten
  have result : (I.handshakeOn plainSuite second).err = some .setAuthData ∧ I.connData.remoteKey = none ∧
      (I.handshakeOn plainSuite second).machine.connData.remoteKey = some (plainSuite.pubKey 9) := by
    decide +kernel
  obtain ⟨failed,before,after⟩ := result
  refine ⟨I,rfl,second,failed,before,after,?_⟩
  intro same
  exact absurd (after.symm.trans (same.remoteKey.trans before)) nofun

/-- A client whose first callback refuses every server stores nothing. -/
theorem failed_handshake_sameIdentity_refused :
    ∃ I : Machine UInt8 UInt8, newBrontideMachine plainSuite closedClient = .ok I ∧
      (∃ incoming, (I.handshakeOn plainSuite incoming).err = some .setRemote) ∧
      ∀ link, ¬ (I.doHandshake plainSuite link).ok →
        SameIdentity plainSuite I.connData (I.doHandshake plainSuite link).machine.connData := by
  have made : newBrontideMachine plainSuite closedClient = .ok (plainMachine closedClient) := rfl
  refine ⟨plainMachine closedClient,made,?_,?_⟩
  · let R := plainMachine pairingServer
    let first := ((plainMachine closedClient).handshakeOn plainSuite []).link.written.flatten
    refine ⟨(R.handshakeOn plainSuite first).link.written.flatten,?_⟩
    decide +kernel
  · refine (failed_handshake_sameIdentity_iff plainSuite_lawful plainSuite_tight made (.inl rfl)).mpr ?_
    rintro ⟨key,data,exposed⟩
    exact exposed.remote ⟨_,rfl,rfl⟩

end NodeConnect.Noise
