import NodeConnect.Lib.Run
import NodeConnect.Noise.Interrupted

/-! The pairing of a client and a server over many connection attempts. After each of
them both sides derive the stream ID and the handshake pattern of the next attempt from
what they stored, and they can only meet again if these are the same. -/
namespace NodeConnect.Noise
open Lib Fallible Handshake

variable {Point Key : Type}

/-- What one side brings to an attempt: its versions, an ephemeral key, and which of its
writes succeed. -/
structure Setup (Key : Type) where
  minHandshakeVersion : UInt8
  maxHandshakeVersion : UInt8
  ephemeral : Key
  accepts : List Bool := []

structure Connected (Point Key : Type) where
  connData : ConnData Point Key
  written : List Bytes

def ConnData.config (c : ConnData Point Key) (initiator : Bool) (setup : Setup Key) : BrontideMachineConfig Point Key where
  connData := c
  initiator := initiator
  handshakePattern := c.handshakePattern
  minHandshakeVersion := setup.minHandshakeVersion
  maxHandshakeVersion := setup.maxHandshakeVersion
  ephemeralGen := [some setup.ephemeral]

def Setup.link (setup : Setup Key) (incoming : Bytes) : Link := ⟨⟨incoming,[]⟩,setup.accepts,[]⟩

def ConnData.connect [AddCommGroup Point] (suite : Suite Point Key) (c : ConnData Point Key) (initiator : Bool)
    (setup : Setup Key) (incoming : Bytes) : Connected Point Key :=
  match newBrontideMachine suite (c.config initiator setup) with
  | .error _ => ⟨c,[]⟩
  | .ok m =>
    let outcome := m.doHandshake suite (setup.link incoming)
    ⟨outcome.machine.connData,outcome.link.written⟩

/-- An attempt, the bytes that are delivered in it, and how many acts they are. -/
structure Attempt (Key : Type) where
  client : Setup Key
  server : Setup Key
  toClient : Bytes
  toServer : Bytes
  actsToClient : Nat
  actsToServer : Nat

structure Pairing (Point Key : Type) where
  client : ConnData Point Key
  server : ConnData Point Key

namespace Pairing

/-- Each side gets the first acts that the other one wrote, and keeps what it stored. -/
def attempt [AddCommGroup Point] (suite : Suite Point Key) (state : Pairing Point Key) (a : Attempt Key) :
    Option (Pairing Point Key) :=
  let client := state.client.connect suite true a.client a.toClient
  let server := state.server.connect suite false a.server a.toServer
  if a.toServer = (client.written.take a.actsToServer).flatten ∧
      a.toClient = (server.written.take a.actsToClient).flatten then
    some ⟨client.connData,server.connData⟩
  else none

/-- Both sides find the same stream, and run the same pattern on it. -/
def Meets (suite : Suite Point Key) (state : Pairing Point Key) : Prop :=
  (∃ sid, state.client.sid suite = some sid ∧ state.server.sid suite = some sid) ∧
    state.client.handshakePattern = state.server.handshakePattern

/-- The versions on offer make both sides take version 2, the first two acts are written and
delivered, and the client hands its last act to the transport. The last two conditions are those
under which the first two acts can be read and written at all. -/
structure Completes [AddCommGroup Point] (suite : Suite Point Key) (state : Pairing Point Key) (a : Attempt Key) :
    Prop where
  lower : a.server.minHandshakeVersion ≤ a.client.minHandshakeVersion
  middle : a.client.minHandshakeVersion ≤ a.server.maxHandshakeVersion
  upper : a.server.maxHandshakeVersion ≤ a.client.maxHandshakeVersion
  version : a.server.maxHandshakeVersion = HandshakeVersion2
  passed : Passed a.client.accepts a.server.accepts a.actsToClient a.actsToServer
  masked : ∃ stretched, suite.scrypt state.client.passphraseEntropy = some stretched ∧
    Maskable suite a.client.ephemeral stretched
  authData : state.server.authData.length < MaxInt32

/-- If a client without a remote key comes to write its last act, this act is delivered. -/
def Delivered [AddCommGroup Point] (suite : Suite Point Key) (state : Pairing Point Key) (a : Attempt Key) : Prop :=
  state.client.remoteKey = none → state.Completes suite a → 2 ≤ a.actsToServer

end Pairing

structure Accepting (c : ConnData Point Key) : Prop where
  onRemoteStatic : ∀ callback, c.onRemoteStatic = some callback → ∀ key, callback key = true
  onAuthData : ∀ callback, c.onAuthData = some callback → ∀ data, callback data = true

structure Kept (c c' : ConnData Point Key) : Prop where
  localKey : c'.localKey = c.localKey
  passphraseEntropy : c'.passphraseEntropy = c.passphraseEntropy
  onRemoteStatic : c'.onRemoteStatic = c.onRemoteStatic
  onAuthData : c'.onAuthData = c.onAuthData

/-- What the attempts take for granted: no callback fails, and the two passphrases are no
collision of the hash that gives the stream ID. -/
structure Pairing.Regular (suite : Suite Point Key) (state : Pairing Point Key) : Prop where
  client : Accepting state.client
  server : Accepting state.server
  collisionFree : suite.sha512 state.client.passphraseEntropy = suite.sha512 state.server.passphraseEntropy →
    state.client.passphraseEntropy = state.server.passphraseEntropy

theorem Accepting.kept {c c' : ConnData Point Key} (accepting : Accepting c) (kept : Kept c c') : Accepting c' := by
  constructor
  · rw [kept.onRemoteStatic]
    exact accepting.onRemoteStatic
  · rw [kept.onAuthData]
    exact accepting.onAuthData

theorem sid_congr (suite : Suite Point Key) {c c' : ConnData Point Key} (kept : Kept c c') (same : c'.remoteKey = c.remoteKey) :
    c'.sid suite = c.sid suite := by
  unfold ConnData.sid
  rw [same,kept.localKey,kept.passphraseEntropy]

theorem pattern_congr {c c' : ConnData Point Key} (same : c'.remoteKey = c.remoteKey) :
    c'.handshakePattern = c.handshakePattern := by
  unfold ConnData.handshakePattern
  rw [same]

variable [AddCommGroup Point] {suite : Suite Point Key}

theorem kk_remoteStatic (suite : Suite Point Key) (p : Party Point Key) :
    (final (acts suite KKPattern.pattern p)).remoteStatic = p.remoteStatic := by
  have kept : KeptBy suite (fun p q : Party Point Key => q.remoteStatic = p.remoteStatic) :=
    field_keptBy suite (fun p => p.remoteStatic) (fun _ _ => rfl) (fun _ _ _ => rfl) (fun _ _ => rfl)
  refine kept.acts (readBytes_field _ fun _ _ => rfl) ?_ (checkVersion_field _ fun _ _ => rfl) (fun _ _ => rfl) _ ?_ p
  · intro bytes p
    unfold writeBytes
    split <;> rfl
  · simp [KKPattern]

section Connect

variable {c : ConnData Point Key} {initiator : Bool} {setup : Setup Key} {incoming : Bytes} {m : Machine Point Key}

theorem connect_refused {err : HandshakeError} (made : newBrontideMachine suite (c.config initiator setup) = .error err) :
    c.connect suite initiator setup incoming = ⟨c,[]⟩ := by
  unfold ConnData.connect
  rw [made]

theorem connect_written (made : newBrontideMachine suite (c.config initiator setup) = .ok m) :
    (c.connect suite initiator setup incoming).written =
      (final (acts suite c.handshakePattern.pattern ⟨m.toHandshakeState,setup.link incoming⟩)).written := by
  have pattern : m.pattern = c.handshakePattern := (newBrontideMachine_built _ m made).pattern
  unfold ConnData.connect
  rw [made,← pattern]
  exact congrArg Link.written (doHandshake_link m _)

theorem connect_failed (made : newBrontideMachine suite (c.config initiator setup) = .ok m) {err : HandshakeError}
    {p : Party Point Key}
    (failed : acts suite c.handshakePattern.pattern ⟨m.toHandshakeState,setup.link incoming⟩ = .error err p) :
    (c.connect suite initiator setup incoming).connData = c := by
  have built := newBrontideMachine_built _ m made
  have pattern : m.pattern = c.handshakePattern := built.pattern
  rw [← pattern] at failed
  unfold ConnData.connect Machine.doHandshake Machine.party
  simp only [made,failed]
  exact built.connData

theorem connect_completed (accepting : Accepting c) (made : newBrontideMachine suite (c.config initiator setup) = .ok m)
    {p : Party Point Key}
    (ran : acts suite c.handshakePattern.pattern ⟨m.toHandshakeState,setup.link incoming⟩ = .ok () p) :
    (c.connect suite initiator setup incoming).connData = (m.completed suite p).storing c := by
  have built := newBrontideMachine_built _ m made
  have pattern : m.pattern = c.handshakePattern := built.pattern
  have data : m.connData = c := built.connData
  rw [← pattern] at ran
  have ready : Ready m := ⟨⟨_,_,built.ephemeralGen⟩,data ▸ accepting.onRemoteStatic,data ▸ accepting.onAuthData⟩
  have outcome := doHandshake_ready m ready (setup.link incoming) p ran
  unfold ConnData.connect
  simp only [made,outcome,Machine.succeeding,data]

omit [AddCommGroup Point] in
theorem completed_remoteKey (p : Party Point Key) :
    ((m.completed suite p).storing c).remoteKey =
      if HandshakeVersion2 ≤ p.version then p.remoteStatic else c.remoteKey := by
  rw [Machine.storing,completed_handshake]

theorem connect_cases (accepting : Accepting c) :
    (c.connect suite initiator setup incoming).connData = c ∨
    ∃ m p, newBrontideMachine suite (c.config initiator setup) = .ok m ∧
      acts suite c.handshakePattern.pattern ⟨m.toHandshakeState,setup.link incoming⟩ = .ok () p ∧
      (c.connect suite initiator setup incoming).connData = (m.completed suite p).storing c := by
  cases made : newBrontideMachine suite (c.config initiator setup) with
  | error err =>
    left
    rw [connect_refused made]
  | ok m =>
    cases ended : acts suite c.handshakePattern.pattern ⟨m.toHandshakeState,setup.link incoming⟩ with
    | error err p => exact .inl (connect_failed made ended)
    | ok value p => exact .inr ⟨m,p,rfl,ended,connect_completed accepting made ended⟩

theorem connect_kept (accepting : Accepting c) : Kept c (c.connect suite initiator setup incoming).connData := by
  rcases connect_cases accepting with same | ⟨m,p,_,_,stored⟩
  · rw [same]
    exact ⟨rfl,rfl,rfl,rfl⟩
  · rw [stored]
    exact ⟨rfl,rfl,rfl,rfl⟩

theorem connect_known (accepting : Accepting c) {key : Point} (known : c.remoteKey = some key) :
    (c.connect suite initiator setup incoming).connData.remoteKey = some key := by
  rcases connect_cases accepting with same | ⟨m,p,made,ran,stored⟩
  · rw [same,known]
  · have kk : c.handshakePattern = KKPattern := by
      unfold ConnData.handshakePattern
      rw [known]
    have static := kk_remoteStatic suite ⟨m.toHandshakeState,setup.link incoming⟩
    rw [kk] at ran
    rw [ran] at static
    have remote : m.remoteStatic = some key := (newBrontideMachine_built _ m made).remoteStatic.trans known
    rw [stored,completed_remoteKey]
    split_ifs
    · exact static.trans remote
    · exact known

theorem connect_nothing (initiator : Bool) : (c.connect suite initiator setup []).connData = c ∧
    (initiator = false → (c.connect suite initiator setup []).written = []) := by
  cases made : newBrontideMachine suite (c.config initiator setup) with
  | error err =>
    rw [connect_refused made]
    exact ⟨rfl,fun _ => rfl⟩
  | ok m =>
    have role : m.initiator = initiator := (newBrontideMachine_built _ m made).initiator
    have known : c.handshakePattern = XXPattern ∨ c.handshakePattern = KKPattern := by
      unfold ConnData.handshakePattern
      cases c.remoteKey with
      | none => exact .inl rfl
      | some key => exact .inr rfl
    obtain ⟨first,second,later,shape,opens,_,answers⟩ := known_shape known
    cases initiator with
    | true =>
      obtain ⟨err,p,failed⟩ := initiator_nothing first second later opens answers
        ⟨m.toHandshakeState,setup.link []⟩ role rfl
      rw [← shape] at failed
      exact ⟨connect_failed made failed,nofun⟩
    | false =>
      have failed : acts suite (first :: second :: later) ⟨m.toHandshakeState,setup.link []⟩ = .error .read _ :=
        responder_nothing first _ opens _ role rfl
      rw [← shape] at failed
      refine ⟨connect_failed made failed,fun _ => ?_⟩
      rw [connect_written made,failed]
      rfl

end Connect

namespace Pairing

variable {state next : Pairing Point Key} {a : Attempt Key}

theorem attempt_eq (step : state.attempt suite a = some next) :
    next = ⟨(state.client.connect suite true a.client a.toClient).connData,
      (state.server.connect suite false a.server a.toServer).connData⟩ ∧
    a.toServer = ((state.client.connect suite true a.client a.toClient).written.take a.actsToServer).flatten ∧
    a.toClient = ((state.server.connect suite false a.server a.toServer).written.take a.actsToClient).flatten := by
  unfold attempt at step
  dsimp only at step
  split_ifs at step with delivered
  cases step
  exact ⟨rfl,delivered⟩

theorem attempt_kept (acceptingC : Accepting state.client) (acceptingS : Accepting state.server)
    (step : state.attempt suite a = some next) : Kept state.client next.client ∧ Kept state.server next.server := by
  obtain ⟨rfl,_⟩ := attempt_eq step
  exact ⟨connect_kept acceptingC,connect_kept acceptingS⟩

omit [AddCommGroup Point] in
theorem Meets.same (meets : state.Meets suite) (client : Kept state.client next.client)
    (server : Kept state.server next.server) (sameC : next.client.remoteKey = state.client.remoteKey)
    (sameS : next.server.remoteKey = state.server.remoteKey) : next.Meets suite := by
  obtain ⟨⟨sid,sidC,sidS⟩,pattern⟩ := meets
  refine ⟨⟨sid,(sid_congr suite client sameC).trans sidC,(sid_congr suite server sameS).trans sidS⟩,?_⟩
  rw [pattern_congr sameC,pattern_congr sameS,pattern]

omit [AddCommGroup Point] in
theorem meets_of_keys (lawful : suite.CurveLawful) (client : next.client.remoteKey = some (suite.pubKey next.server.localKey))
    (server : next.server.remoteKey = some (suite.pubKey next.client.localKey)) : next.Meets suite := by
  obtain ⟨secret,fromC,fromS⟩ := lawful.ecdh_comm next.server.localKey next.client.localKey
  unfold Meets ConnData.sid ConnData.handshakePattern
  rw [client,server]
  refine ⟨⟨suite.sha512 (suite.hmac256 secret.val (ascii "mailbox")),?_,?_⟩,rfl⟩
  · simp only [fromC,Option.map_some]
  · simp only [fromS,Option.map_some]

theorem meets_known (acceptingC : Accepting state.client) (acceptingS : Accepting state.server) (meets : state.Meets suite)
    {keyC keyS : Point} (knownC : state.client.remoteKey = some keyC) (knownS : state.server.remoteKey = some keyS)
    (step : state.attempt suite a = some next) : next.Meets suite := by
  obtain ⟨keptC,keptS⟩ := attempt_kept acceptingC acceptingS step
  obtain ⟨rfl,_⟩ := attempt_eq step
  exact meets.same keptC keptS ((connect_known acceptingC knownC).trans knownC.symm)
    ((connect_known acceptingS knownS).trans knownS.symm)

omit [AddCommGroup Point] in
theorem pattern_unknown {c : ConnData Point Key} (unknown : c.remoteKey = none) : c.handshakePattern = XXPattern := by
  unfold ConnData.handshakePattern
  rw [unknown]

omit [AddCommGroup Point] in
theorem matching_unknown {I R : Machine Point Key} (unknownC : state.client.remoteKey = none)
    (unknownS : state.server.remoteKey = none)
    (secret : state.client.passphraseEntropy = state.server.passphraseEntropy)
    (builtC : Built suite (state.client.config true a.client) I)
    (builtS : Built suite (state.server.config false a.server) R) :
    I.pattern = XXPattern ∧ R.pattern = XXPattern ∧ I.passphraseEntropy = R.passphraseEntropy := by
  have patternC := pattern_unknown unknownC
  have patternS := pattern_unknown unknownS
  have stretchedC := builtC.passphrase (congrArg HandshakePattern.name patternC)
  have stretchedS := builtS.passphrase (congrArg HandshakePattern.name patternS)
  change suite.scrypt state.client.passphraseEntropy = _ at stretchedC
  rw [secret] at stretchedC
  exact ⟨builtC.pattern.trans patternC,builtS.pattern.trans patternS,
    Option.some.inj (stretchedC.symm.trans stretchedS)⟩

theorem attempt_agreed {I R : Machine Point Key} {i' r' : HandshakeState Point Key}
    (acceptingC : Accepting state.client) (acceptingS : Accepting state.server)
    (unknownC : state.client.remoteKey = none) (unknownS : state.server.remoteKey = none)
    (madeC : newBrontideMachine suite (state.client.config true a.client) = .ok I)
    (madeS : newBrontideMachine suite (state.server.config false a.server) = .ok R)
    (agreed : Agreed suite I.toHandshakeState R.toHandshakeState i' r')
    (client : ∃ link, acts suite XXPattern.pattern ⟨I.toHandshakeState,a.client.link a.toClient⟩ = .ok () ⟨i',link⟩)
    (delivered : 2 ≤ a.actsToServer →
      ∃ link, acts suite XXPattern.pattern ⟨R.toHandshakeState,a.server.link a.toServer⟩ = .ok () ⟨r',link⟩)
    (lost : a.actsToServer < 2 →
      ∃ err q, acts suite XXPattern.pattern ⟨R.toHandshakeState,a.server.link a.toServer⟩ = .error err q) :
    (state.client.connect suite true a.client a.toClient).connData.remoteKey =
      (if HandshakeVersion2 ≤ R.maxVersion then some (suite.pubKey state.server.localKey) else none) ∧
    (state.server.connect suite false a.server a.toServer).connData.remoteKey =
      if 2 ≤ a.actsToServer ∧ HandshakeVersion2 ≤ R.maxVersion then some (suite.pubKey state.client.localKey)
      else none := by
  have patternC := pattern_unknown unknownC
  have patternS := pattern_unknown unknownS
  obtain ⟨_,ranC⟩ := client
  constructor
  · rw [connect_completed acceptingC madeC (patternC ▸ ranC),completed_remoteKey,agreed.versionI,agreed.remoteI,unknownC,
      (newBrontideMachine_built _ R madeS).localStatic]
    rfl
  · rcases Nat.lt_or_ge a.actsToServer 2 with few | enough
    · obtain ⟨err,q,failedS⟩ := lost few
      rw [connect_failed madeS (patternS ▸ failedS),unknownS,if_neg (fun both => absurd both.1 (Nat.not_le.mpr few))]
    · obtain ⟨_,ranS⟩ := delivered enough
      rw [connect_completed acceptingS madeS (patternS ▸ ranS),completed_remoteKey,agreed.versionR,agreed.remoteR,
        unknownS,(newBrontideMachine_built _ I madeC).localStatic]
      simp only [enough,true_and]
      rfl

omit [AddCommGroup Point] in
/-- The machine of a first pairing is made unless the passphrase cannot be stretched. -/
theorem scrypt_of_refused {c : ConnData Point Key} {initiator : Bool} {setup : Setup Key} {err : HandshakeError}
    (unknown : c.remoteKey = none) (refused : newBrontideMachine suite (c.config initiator setup) = .error err) :
    suite.scrypt c.passphraseEntropy = none := by
  cases stretched : suite.scrypt c.passphraseEntropy with
  | none => rfl
  | some passphrase =>
    simp [newBrontideMachine,newHandshakeState,ConnData.config,pattern_unknown unknown,stretched,XXPattern,bind,Except.bind,
      pure,Except.pure] at refused

theorem completes_iff {I R : Machine Point Key} (unknownC : state.client.remoteKey = none)
    (unknownS : state.server.remoteKey = none) (builtC : Built suite (state.client.config true a.client) I)
    (builtS : Built suite (state.server.config false a.server) R) :
    state.Completes suite a ↔ Completing suite I.toHandshakeState R.toHandshakeState a.client.ephemeral a.client.accepts
      a.server.accepts a.actsToClient a.actsToServer ∧ HandshakeVersion2 ≤ R.maxVersion := by
  have patternC := pattern_unknown unknownC
  have minC : I.minVersion = a.client.minHandshakeVersion := builtC.minVersion_xx patternC
  have minS : R.minVersion = a.server.minHandshakeVersion := builtS.minVersion_xx (pattern_unknown unknownS)
  have maxC : I.maxVersion = a.client.maxHandshakeVersion := builtC.maxVersion
  have maxS : R.maxVersion = a.server.maxHandshakeVersion := builtS.maxVersion
  have stretched : suite.scrypt state.client.passphraseEntropy = some I.passphraseEntropy :=
    builtC.passphrase (congrArg HandshakePattern.name patternC)
  have payload : R.payloadToSend = state.server.authData := builtS.payloadToSend
  constructor
  · rintro ⟨lower,middle,upper,version,passed,⟨_,same,maskable⟩,authData⟩
    cases same.symm.trans stretched
    refine ⟨⟨⟨?_,?_,?_,?_⟩,?_,maskable,passed⟩,?_⟩
    · rwa [minS,minC]
    · rwa [minC,maxS]
    · rwa [maxS,maxC]
    · rw [maxS,version]
      exact UInt8.le_refl _
    · intro _
      rwa [payload]
    · rw [maxS,version]
      exact UInt8.le_refl _
  · rintro ⟨⟨⟨lower,middle,upper,known⟩,sendable,maskable,passed⟩,enough⟩
    have version : R.maxVersion = HandshakeVersion2 := UInt8.le_antisymm known enough
    refine ⟨?_,?_,?_,maxS ▸ version,passed,⟨_,stretched,maskable⟩,payload ▸ sendable ?_⟩
    · rwa [← minS,← minC]
    · rwa [← minC,← maxS]
    · rwa [← maxS,← maxC]
    · rw [version]
      decide

theorem attempt_unknown (lawful : suite.Lawful) (acceptingC : Accepting state.client) (acceptingS : Accepting state.server)
    (unknownC : state.client.remoteKey = none) (unknownS : state.server.remoteKey = none)
    (secret : state.client.passphraseEntropy = state.server.passphraseEntropy)
    (step : state.attempt suite a = some next) :
    (¬ state.Completes suite a ∧ next.client.remoteKey = none ∧ next.server.remoteKey = none) ∨
    (state.Completes suite a ∧ next.client.remoteKey = some (suite.pubKey state.server.localKey) ∧
      next.server.remoteKey = if 2 ≤ a.actsToServer then some (suite.pubKey state.client.localKey) else none) := by
  obtain ⟨rfl,toServer,toClient⟩ := attempt_eq step
  -- A side whose machine cannot be built writes nothing, so the other one hears nothing.
  cases madeC : newBrontideMachine suite (state.client.config true a.client) with
  | error err =>
    left
    rw [connect_refused madeC,List.take_nil,List.flatten_nil] at toServer
    rw [connect_refused madeC,toServer,(connect_nothing false).1]
    refine ⟨fun completes => ?_,unknownC,unknownS⟩
    obtain ⟨_,stretched,_⟩ := completes.masked
    exact nomatch (scrypt_of_refused unknownC madeC).symm.trans stretched
  | ok I =>
    cases madeS : newBrontideMachine suite (state.server.config false a.server) with
    | error err =>
      left
      rw [connect_refused madeS,List.take_nil,List.flatten_nil] at toClient
      rw [connect_refused madeS,toClient,(connect_nothing true).1]
      refine ⟨fun completes => ?_,unknownC,unknownS⟩
      obtain ⟨_,stretched,_⟩ := completes.masked
      rw [secret] at stretched
      exact nomatch (scrypt_of_refused unknownS madeS).symm.trans stretched
    | ok R =>
      have ends : Ends suite _ _ I R := ⟨madeC,madeS,rfl,rfl⟩
      have builtC := newBrontideMachine_built _ I madeC
      have builtS := newBrontideMachine_built _ R madeS
      have patternC := pattern_unknown unknownC
      have patternS := pattern_unknown unknownS
      have matching := matching_unknown unknownC unknownS secret builtC builtS
      have prepared := ends.prepared (.inl matching) builtC.ephemeralGen builtS.ephemeralGen
      rw [connect_written madeC,patternC] at toServer
      rw [connect_written madeS,patternS] at toClient
      have interrupted : Interrupted suite I.toHandshakeState R.toHandshakeState a.client.accepts a.server.accepts
        a.toClient a.toServer a.actsToClient a.actsToServer := ⟨toServer,toClient⟩
      rw [completes_iff unknownC unknownS builtC builtS]
      obtain ⟨incomplete,⟨err,p,failedC⟩,err',q,failedS⟩ | ⟨complete,i',r',agreed,⟨link,ranC⟩,delivered,lost⟩ :=
        interrupted.outcome lawful prepared (by rw [matching.2.2])
      · left
        rw [connect_failed madeC (patternC ▸ failedC),connect_failed madeS (patternS ▸ failedS)]
        exact ⟨fun both => incomplete both.1,unknownC,unknownS⟩
      · obtain ⟨keyC,keyS⟩ := attempt_agreed acceptingC acceptingS unknownC unknownS madeC madeS agreed ⟨link,ranC⟩
          delivered lost
        by_cases known : HandshakeVersion2 ≤ R.maxVersion
        · rw [if_pos known] at keyC
          simp only [known,and_true] at keyS
          exact .inr ⟨⟨complete,known⟩,keyC,keyS⟩
        · rw [if_neg known] at keyC
          rw [if_neg (fun both => known both.2)] at keyS
          exact .inl ⟨fun both => known both.2,keyC,keyS⟩

omit [AddCommGroup Point] in
theorem Meets.both (meets : state.Meets suite) :
    (state.client.remoteKey = none ∧ state.server.remoteKey = none) ∨
      ∃ keyC keyS, state.client.remoteKey = some keyC ∧ state.server.remoteKey = some keyS := by
  have pattern := meets.2
  unfold ConnData.handshakePattern at pattern
  cases client : state.client.remoteKey with
  | none =>
    cases server : state.server.remoteKey with
    | none => exact .inl ⟨rfl,rfl⟩
    | some keyS =>
      rw [client,server] at pattern
      exact absurd pattern (by decide : ¬ XXPattern = KKPattern)
  | some keyC =>
    cases server : state.server.remoteKey with
    | none =>
      rw [client,server] at pattern
      exact absurd pattern (by decide : ¬ KKPattern = XXPattern)
    | some keyS => exact .inr ⟨keyC,keyS,rfl,rfl⟩

omit [AddCommGroup Point] in
theorem Meets.entropy (meets : state.Meets suite) (unknownC : state.client.remoteKey = none)
    (unknownS : state.server.remoteKey = none) :
    suite.sha512 state.client.passphraseEntropy = suite.sha512 state.server.passphraseEntropy := by
  obtain ⟨⟨sid,sidC,sidS⟩,_⟩ := meets
  unfold ConnData.sid at sidC sidS
  rw [unknownC] at sidC
  rw [unknownS] at sidS
  exact Option.some.inj (sidC.trans sidS.symm)

/-- An attempt of two sides that meet is one after which they meet again, exactly if the
last act of a client that takes over the key of the server is delivered. -/
theorem attempt_meets_iff (lawful : suite.Lawful) (regular : state.Regular suite) (meets : state.Meets suite)
    (step : state.attempt suite a = some next) : next.Meets suite ↔ state.Delivered suite a := by
  obtain ⟨acceptingC,acceptingS,collisionFree⟩ := regular
  obtain ⟨keptC,keptS⟩ := attempt_kept acceptingC acceptingS step
  obtain ⟨unknownC,unknownS⟩ | ⟨keyC,keyS,knownC,knownS⟩ := meets.both
  · have secret := collisionFree (meets.entropy unknownC unknownS)
    obtain ⟨incomplete,noneC,noneS⟩ | ⟨complete,keyC,keyS⟩ :=
      attempt_unknown lawful acceptingC acceptingS unknownC unknownS secret step
    · refine ⟨fun _ _ complete => absurd complete incomplete,fun _ => ?_⟩
      exact meets.same keptC keptS (noneC.trans unknownC.symm) (noneS.trans unknownS.symm)
    · constructor
      · intro again _ _
        by_contra lost
        rw [if_neg lost] at keyS
        obtain ⟨unknown,_⟩ | ⟨_,_,_,known⟩ := again.both
        · exact nomatch keyC.symm.trans unknown
        · exact nomatch keyS.symm.trans known
      · intro delivered
        rw [if_pos (delivered unknownC complete)] at keyS
        exact meets_of_keys lawful.toCurveLawful (keptS.localKey ▸ keyC) (keptC.localKey ▸ keyS)
  · have again := meets_known acceptingC acceptingS meets knownC knownS step
    exact ⟨fun _ unknown => absurd (knownC.symm.trans unknown) (Option.some_ne_none _),fun _ => again⟩

theorem Regular.attempt (regular : state.Regular suite) (step : state.attempt suite a = some next) :
    next.Regular suite := by
  obtain ⟨keptC,keptS⟩ := attempt_kept regular.client regular.server step
  refine ⟨regular.client.kept keptC,regular.server.kept keptS,?_⟩
  rw [keptC.passphraseEntropy,keptS.passphraseEntropy]
  exact regular.collisionFree

/-- No callback refuses. In every run of attempts between two sides that can meet, they can then
meet again after each attempt exactly if in none of them a client takes over the key of the
server while its last act is lost. -/
theorem meets_iff_delivered (lawful : suite.Lawful) (regular : state.Regular suite) (meets : state.Meets suite)
    {attempts : List (Attempt Key)} {last : Pairing Point Key}
    (reached : run (Pairing.attempt suite) state attempts = some last) :
    (Along (Pairing.attempt suite) (fun state a => ∀ next, state.attempt suite a = some next → next.Meets suite)
        state attempts ↔
      Along (Pairing.attempt suite) (Pairing.Delivered suite) state attempts) ∧
    (Along (Pairing.attempt suite) (Pairing.Delivered suite) state attempts → last.Meets suite) := by
  constructor
  · refine along_iff _ _ _ (fun state => state.Regular suite ∧ state.Meets suite) ?_ ?_ _ _ last ⟨regular,meets⟩ reached
    · rintro state a next ⟨regular,meets⟩ again step
      exact ⟨regular.attempt step,again next step⟩
    · rintro state a next ⟨regular,meets⟩ step
      rw [← attempt_meets_iff lawful regular meets step]
      simp only [step,Option.some.injEq,forall_eq']
  · intro along
    have kept := along_invariant _ (Pairing.Delivered suite) (fun state => state.Regular suite ∧ state.Meets suite) ?_ _ _
      last ⟨regular,meets⟩ along reached
    · exact kept.2
    · rintro state a next ⟨regular,meets⟩ delivered step
      exact ⟨regular.attempt step,(attempt_meets_iff lawful regular meets step).mpr delivered⟩

theorem run_silent (attempts : List (Attempt Key)) (silent : ∀ a ∈ attempts, a.toClient = [] ∧ a.toServer = [])
    {last : Pairing Point Key} (reached : run (Pairing.attempt suite) state attempts = some last) : last = state := by
  induction attempts generalizing state with
  | nil => exact (Option.some.inj reached).symm
  | cons a attempts ih =>
    obtain ⟨next,step,rest⟩ := (run_cons _ _ _ _ _).mp reached
    obtain ⟨toClient,toServer⟩ := silent a List.mem_cons_self
    obtain ⟨same,_⟩ := attempt_eq step
    rw [toClient,toServer,(connect_nothing true).1,(connect_nothing false).1] at same
    exact (ih (fun b member => silent b (List.mem_cons_of_mem _ member)) rest).trans same

end Pairing

section Strangers

def strangers : Pairing UInt8 UInt8 := ⟨⟨5,none,[1,7],[],none,none,[]⟩,⟨9,none,[1,7],ascii "macaroon",none,none,[]⟩⟩

theorem strangers_regular : strangers.Regular plainSuite := ⟨⟨nofun,nofun⟩,⟨nofun,nofun⟩,fun _ => rfl⟩

theorem strangers_meet : strangers.Meets plainSuite := ⟨⟨_,rfl,rfl⟩,rfl⟩

def clientSetup : Setup UInt8 where
  minHandshakeVersion := 0
  maxHandshakeVersion := 2
  ephemeral := 11

def serverSetup : Setup UInt8 where
  minHandshakeVersion := 0
  maxHandshakeVersion := 2
  ephemeral := 13

def exchangeOf (state : Pairing UInt8 UInt8) : Bytes × Bytes × Bytes :=
  let first := (state.client.connect plainSuite true clientSetup []).written.flatten
  let second := (state.server.connect plainSuite false serverSetup first).written.flatten
  (first,second,((state.client.connect plainSuite true clientSetup second).written.drop 1).flatten)

instance (acceptsI acceptsR : List Bool) (reachI reachR : Nat) : Decidable (Passed acceptsI acceptsR reachI reachR) :=
  decidable_of_iff ((acceptsI.head? ≠ some false ∧ 1 ≤ reachR) ∧ (acceptsR.head? ≠ some false ∧ 1 ≤ reachI) ∧
      acceptsI.tail.head? ≠ some false)
    ⟨fun ⟨act1,act2,act3⟩ => ⟨act1,act2,act3⟩,fun ⟨act1,act2,act3⟩ => ⟨act1,act2,act3⟩⟩

instance (state : Pairing UInt8 UInt8) (a : Attempt UInt8) : Decidable (state.Completes plainSuite a) :=
  decidable_of_iff (a.server.minHandshakeVersion ≤ a.client.minHandshakeVersion ∧
      a.client.minHandshakeVersion ≤ a.server.maxHandshakeVersion ∧
      a.server.maxHandshakeVersion ≤ a.client.maxHandshakeVersion ∧ a.server.maxHandshakeVersion = HandshakeVersion2 ∧
      Passed a.client.accepts a.server.accepts a.actsToClient a.actsToServer ∧
      (∃ stretched ∈ plainSuite.scrypt state.client.passphraseEntropy, Maskable plainSuite a.client.ephemeral stretched) ∧
      state.server.authData.length < MaxInt32)
    ⟨fun ⟨lower,middle,upper,version,passed,masked,authData⟩ => ⟨lower,middle,upper,version,passed,masked,authData⟩,
      fun ⟨lower,middle,upper,version,passed,masked,authData⟩ => ⟨lower,middle,upper,version,passed,masked,authData⟩⟩

instance (state : Pairing UInt8 UInt8) (a : Attempt UInt8) : Decidable (state.Delivered plainSuite a) :=
  inferInstanceAs (Decidable (_ → _ → _))


/-- The third act of the first pairing is lost: the client goes on with the key of the
server, and the server waits for another first pairing on the old stream. As long as
they do not hear each other this remains so. -/
theorem pairing_lost :
    ∃ (a : Attempt UInt8) (next : Pairing UInt8 UInt8), strangers.Meets plainSuite ∧
      a.actsToClient = 1 ∧ a.actsToServer = 1 ∧ strangers.attempt plainSuite a = some next ∧
      next.client.handshakePattern = KKPattern ∧ next.server.handshakePattern = XXPattern ∧
      next.client.sid plainSuite ≠ next.server.sid plainSuite ∧
      ∀ attempts last, (∀ b ∈ attempts, b.toClient = [] ∧ b.toServer = []) →
        run (Pairing.attempt plainSuite) next attempts = some last → ¬ last.Meets plainSuite := by
  have prepared : ∃ (a : Attempt UInt8) (next : Pairing UInt8 UInt8), a.actsToClient = 1 ∧ a.actsToServer = 1 ∧
      strangers.attempt plainSuite a = some next ∧ next.client.handshakePattern = KKPattern ∧
      next.server.handshakePattern = XXPattern ∧ next.client.sid plainSuite ≠ next.server.sid plainSuite := by
    let a : Attempt UInt8 := ⟨clientSetup,serverSetup,(exchangeOf strangers).2.1,(exchangeOf strangers).1,1,1⟩
    have found : ∃ next ∈ strangers.attempt plainSuite a, next.client.handshakePattern = KKPattern ∧
      next.server.handshakePattern = XXPattern ∧ next.client.sid plainSuite ≠ next.server.sid plainSuite := by
      decide +kernel
    obtain ⟨next,step,facts⟩ := found
    exact ⟨a,next,rfl,rfl,step,facts⟩
  obtain ⟨a,next,toClient,toServer,step,patternC,patternS,apart⟩ := prepared
  refine ⟨a,next,strangers_meet,toClient,toServer,step,patternC,patternS,apart,?_⟩
  intro attempts last silent reached meets
  rw [Pairing.run_silent attempts silent reached] at meets
  exact absurd (patternC.symm.trans (meets.2.trans patternS)) (by decide)

/-- An attempt whose second act is lost, a complete pairing, and a handshake between the
two sides that now know each other whose answer is lost. -/
theorem meets_iff_delivered_three :
    ∃ (attempts : List (Attempt UInt8)) (last : Pairing UInt8 UInt8), attempts.length = 3 ∧
      run (Pairing.attempt plainSuite) strangers attempts = some last ∧
      last.client.handshakePattern = KKPattern ∧
      Along (Pairing.attempt plainSuite) (Pairing.Delivered plainSuite) strangers attempts ∧ last.Meets plainSuite := by
  have prepared : ∃ (attempts : List (Attempt UInt8)) (last : Pairing UInt8 UInt8), attempts.length = 3 ∧
      run (Pairing.attempt plainSuite) strangers attempts = some last ∧
      last.client.handshakePattern = KKPattern ∧
      Along (Pairing.attempt plainSuite) (Pairing.Delivered plainSuite) strangers attempts := by
    let acts := exchangeOf strangers
    let cut : Attempt UInt8 := ⟨clientSetup,serverSetup,[],acts.1,0,1⟩
    let whole : Attempt UInt8 := ⟨clientSetup,serverSetup,acts.2.1,acts.1 ++ acts.2.2,1,2⟩
    let paired := (strangers.attempt plainSuite whole).getD strangers
    let again : Attempt UInt8 := ⟨clientSetup,serverSetup,[],(exchangeOf paired).1,0,1⟩
    have found : (∃ last ∈ run (Pairing.attempt plainSuite) strangers [cut,whole,again],
        last.client.handshakePattern = KKPattern) ∧
        Along (Pairing.attempt plainSuite) (Pairing.Delivered plainSuite) strangers [cut,whole,again] := by
      decide +kernel
    obtain ⟨⟨last,reached,pattern⟩,along⟩ := found
    exact ⟨_,last,rfl,reached,pattern,along⟩
  obtain ⟨attempts,last,three,reached,pattern,along⟩ := prepared
  have meets := (Pairing.meets_iff_delivered plainSuite_lawful strangers_regular strangers_meet reached).2 along
  exact ⟨attempts,last,three,reached,pattern,along,meets⟩

end Strangers

end NodeConnect.Noise
