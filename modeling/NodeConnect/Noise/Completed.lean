import NodeConnect.Noise.Session
import NodeConnect.Noise.Views

/-! Parties that completed all their acts, over a stream that delivered any bytes it
liked. With an ideal AEAD and hash the last ciphertext that was opened fixes the whole
transcript, and with it the payload of act two. -/
namespace NodeConnect.Noise
open Lib Fallible Handshake

variable {Point Key : Type} {suite : Suite Point Key}

theorem protocolName_short (name : PatternName) : (protocolName name).length < 32 + macSize := by
  cases name <;> decide

theorem startState_tracks (name : PatternName) :
    Tracks suite (protocolName name) [.plain lightningNodeConnectPrologue] (startState suite name) := by
  have initial : Tracks suite (protocolName name) []
      (({} : SymmetricState).initializeSymmetric suite (protocolName name)) := by
    refine ⟨rfl,⟨?_,?_⟩,?_,?_,nofun⟩
    · exact List.mem_cons_self
    · intro before item within
      have lengths := within.length_le
      simp at lengths
    · intro key nonce ad plaintext called
      simp [SymmetricState.initializeSymmetric,CipherState.initializeKey,CipherState.log] at called
    · intro before ciphertext plaintext within
      have lengths := within.length_le
      simp at lengths
  exact initial.mixHash _ (by decide)

section Built

variable {cfg : BrontideMachineConfig Point Key} {m : Machine Point Key}

theorem Built.tracksXX (built : Built suite cfg m) (pattern : m.pattern = XXPattern) :
    Tracks suite (protocolName .XX) [.plain lightningNodeConnectPrologue] m.toSymmetricState := by
  rw [built.symmetricXX (built.pattern.symm.trans pattern)]
  exact startState_tracks .XX

theorem Built.tracksKK (lawful : suite.Lawful) (built : Built suite cfg m) (pattern : m.pattern = KKPattern) :
    ∃ remote, m.remoteStatic = some remote ∧ Tracks suite (protocolName .KK)
      [.plain lightningNodeConnectPrologue,
        .plain (suite.serializeCompressed (if m.initiator then suite.pubKey m.localStatic else remote)),
        .plain (suite.serializeCompressed (if m.initiator then remote else suite.pubKey m.localStatic))]
      m.toSymmetricState := by
  obtain ⟨remote,known,state⟩ := built.symmetricKK (built.pattern.symm.trans pattern)
  have long (point : Point) : macSize ≤ (suite.serializeCompressed point).length := by
    rw [lawful.serialize_length]
    decide
  refine ⟨remote,built.remoteStatic.trans known,?_⟩
  rw [state,built.localStatic,built.initiator]
  exact ((startState_tracks .KK).mixHash _ (long _)).mixHash _ (long _)

theorem Built.tracks (lawful : suite.Lawful) (built : Built suite cfg m) (name : PatternName)
    (pattern : m.pattern = match name with | .XX => XXPattern | .KK => KKPattern) :
    ∃ base, Tracks suite (protocolName name) base m.toSymmetricState ∧
      List.Forall₂ Entry.Fits base (List.replicate (match name with | .XX => 1 | .KK => 3) .plain) := by
  cases name with
  | XX => exact ⟨_,built.tracksXX pattern,.cons trivial .nil⟩
  | KK =>
    obtain ⟨_,_,tracks⟩ := built.tracksKK lawful pattern
    exact ⟨_,tracks,.cons trivial (.cons trivial (.cons trivial .nil))⟩

end Built

theorem fits_at {entries : List Entry} {slots : List Slot} (fits : List.Forall₂ Entry.Fits entries slots) {k : Nat}
    {slot : Slot} (here : slots[k]? = some slot) : ∃ entry, entries[k]? = some entry ∧ entry.Fits slot := by
  obtain ⟨inside,rfl⟩ := List.getElem?_eq_some_iff.mp here
  have inside' : k < entries.length := fits.length_eq ▸ inside
  exact ⟨entries[k],List.getElem?_eq_getElem inside',fits.get inside' inside⟩

theorem slot_at {entries : List Entry} {slots : List Slot} (fits : List.Forall₂ Entry.Fits entries slots) {k : Nat}
    {entry : Entry} (here : entries[k]? = some entry) : ∃ slot, slots[k]? = some slot ∧ entry.Fits slot := by
  obtain ⟨inside,rfl⟩ := List.getElem?_eq_some_iff.mp here
  have inside' : k < slots.length := fits.length_eq ▸ inside
  exact ⟨slots[k],List.getElem?_eq_getElem inside',fits.get inside inside'⟩

theorem opened_slot (lawful : suite.Lawful) {name : PatternName} {entries entries' : List Entry} {slots slots' : List Slot}
    {s s' : SymmetricState} (tracks : Tracks suite (protocolName name) entries s)
    (tracks' : Tracks suite (protocolName name) entries' s') (ideal : Ideal suite (s.calls ++ s'.calls))
    (fits : List.Forall₂ Entry.Fits entries slots) (fits' : List.Forall₂ Entry.Fits entries' slots') {k : Nat}
    {length : Option Nat} (here : slots[k]? = some (.theirs length)) :
    ∃ ciphertext plaintext, entries[k]? = some (.theirs ciphertext plaintext) ∧
      slots'[k]? = some (.mine plaintext) ∧ (∀ n ∈ length, n = plaintext.length + macSize) ∧
      (entries.take (k + 1)).map Entry.item = (entries'.take (k + 1)).map Entry.item := by
  obtain ⟨entry,at_k,fit⟩ := fits_at fits here
  cases entry with
  | theirs ciphertext plaintext =>
    obtain ⟨_,at_k',items⟩ := tracks.aligned lawful tracks' ideal (protocolName_short name) (protocolName_short name) at_k
    obtain ⟨slot,slot_k,fit'⟩ := slot_at fits' at_k'
    cases slot with
    | mine expected =>
      obtain ⟨rfl,sealedLength⟩ := fit'
      exact ⟨ciphertext,plaintext,at_k,slot_k,fun n within => (fit n within).symm.trans sealedLength,items⟩
    | plain => exact fit'.elim
    | theirs other => exact fit'.elim
  | plain item => exact fit.elim
  | mine ciphertext plaintext => exact fit.elim

theorem payload_lengths (version version' : UInt8) (data : Bytes)
    (same : version = HandshakeVersion0 ↔ version' = HandshakeVersion0) :
    (payloadTaken version act2).length = (payloadWritten version' act2 data).length := by
  rw [payloadTaken,payloadWritten,if_pos rfl,if_pos rfl]
  by_cases zero : version = HandshakeVersion0
  · rw [if_pos zero,if_pos (same.mp zero)]
    rfl
  · rw [if_neg zero,if_neg (fun zero' => zero (same.mpr zero'))]
    rfl

/-- The initiator reads the payload that the responder sent, in the encoding it was sent in. -/
theorem payload_agrees (lawful : suite.Lawful) {name : PatternName} {entries entries' : List Entry}
    {s s' : SymmetricState} (tracks : Tracks suite (protocolName name) entries s)
    (tracks' : Tracks suite (protocolName name) entries' s') (ideal : Ideal suite (s.calls ++ s'.calls))
    {before after before' after' : List Slot} {version version' : UInt8} {data : Bytes}
    (fits : List.Forall₂ Entry.Fits entries (before ++ (payloadTaken version act2 ++ after)))
    (fits' : List.Forall₂ Entry.Fits entries' (before' ++ (payloadWritten version' act2 data ++ after')))
    (aligned : before'.length = before.length) :
    (version = HandshakeVersion0 ↔ version' = HandshakeVersion0) ∧
    ∃ ciphertext, entries[before.length + ((payloadTaken version act2).length - 1)]? =
        some (.theirs ciphertext (if version = HandshakeVersion0 then fixedPayload data else data)) := by
  by_cases zero : version = HandshakeVersion0
  · have taken : payloadTaken version act2 = [.theirs (some (ActTwoPayloadSize + macSize))] := by
      rw [payloadTaken,if_pos rfl,if_pos zero]
    rw [taken] at fits ⊢
    have here : (before ++ ([.theirs (some (ActTwoPayloadSize + macSize))] ++ after))[before.length]? =
        some (.theirs (some (ActTwoPayloadSize + macSize))) := by
      simp
    obtain ⟨ciphertext,plaintext,entry,slot,length,_⟩ := opened_slot lawful tracks tracks' ideal fits fits' here
    rw [← aligned,List.getElem?_append_right (Nat.le_refl _),Nat.sub_self,payloadWritten,if_pos rfl] at slot
    have size := length _ rfl
    by_cases zero' : version' = HandshakeVersion0
    · rw [if_pos zero'] at slot
      cases slot
      rw [if_pos zero]
      exact ⟨iff_of_true zero zero',ciphertext,entry⟩
    · rw [if_neg zero'] at slot
      cases slot
      rw [bigEndian_length] at size
      exact absurd size (by decide)
  · have taken : payloadTaken version act2 = [.theirs (some (4 + macSize)),.theirs none] := by
      rw [payloadTaken,if_pos rfl,if_neg zero]
    rw [taken] at fits ⊢
    have header : (before ++ ([.theirs (some (4 + macSize)),.theirs none] ++ after))[before.length]? =
        some (.theirs (some (4 + macSize))) := by
      simp
    have body : (before ++ ([.theirs (some (4 + macSize)),.theirs none] ++ after))[before.length + 1]? =
        some (.theirs none) := by
      simp
    obtain ⟨_,plaintext,_,slot,length,_⟩ := opened_slot lawful tracks tracks' ideal fits fits' header
    rw [← aligned,List.getElem?_append_right (Nat.le_refl _),Nat.sub_self,payloadWritten,if_pos rfl] at slot
    have size := length _ rfl
    by_cases zero' : version' = HandshakeVersion0
    · rw [if_pos zero'] at slot
      cases slot
      rw [fixedPayload_length] at size
      exact absurd size (by decide)
    · obtain ⟨ciphertext,plaintext,entry,slot,_,_⟩ := opened_slot lawful tracks tracks' ideal fits fits' body
      rw [← aligned,List.getElem?_append_right (Nat.le_add_right _ _),Nat.add_sub_cancel_left,payloadWritten,if_pos rfl,
        if_neg zero'] at slot
      cases slot
      rw [if_neg zero]
      exact ⟨iff_of_false zero zero',ciphertext,entry⟩

def InitiatorView (suite : Suite Point Key) (p q : Party Point Key) (before after : List Slot) : Prop :=
  ∃ version, p.incoming.data.head? = some version ∧ version ≤ HandshakeVersion2 ∧ q.version = version ∧
    ∃ opening payload closing, Adds suite p q (opening ++ (payload ++ closing)) ∧
      List.Forall₂ Entry.Fits opening before ∧ List.Forall₂ Entry.Fits payload (payloadTaken version act2) ∧
      List.Forall₂ Entry.Fits closing after ∧
      ∀ ciphertext plaintext, payload.getLast? = some (.theirs ciphertext plaintext) →
        (version = HandshakeVersion0 → plaintext ≠ []) → q.receivedPayload = unpack version plaintext

def ResponderView (suite : Suite Point Key) (p q : Party Point Key) (before after : List Slot) : Prop :=
  q.version = p.version ∧ ∃ added, Adds suite p q added ∧
    List.Forall₂ Entry.Fits added (before ++ (payloadWritten p.version act2 p.payloadToSend ++ after))

def staticBytes (suite : Suite Point Key) (p : Party Point Key) : Bytes :=
  suite.serializeCompressed (suite.pubKey p.localStatic)

section Views

variable [AddCommGroup Point] {first second : MessagePattern} {later : List MessagePattern} {p q : Party Point Key}

theorem initiator_acts (lawful : suite.Lawful) (opens : first.initiator = true) (answers : second.initiator = false)
    (act : second.actNum = act2) (role : p.initiator = true) (ran : acts suite (first :: second :: later) p = .ok () q) :
    ∃ p2 version opening payload, acts suite later p2 = .ok () q ∧ Frame p p2 ∧
      p.incoming.data.head? = some version ∧ version ≤ HandshakeVersion2 ∧ p2.version = version ∧
      Adds suite p p2 (opening ++ payload) ∧
      List.Forall₂ Entry.Fits opening (first.tokens.flatMap (Token.written (staticBytes suite p)) ++
        payloadWritten p.version first.actNum p.payloadToSend ++ second.tokens.flatMap Token.taken) ∧
      List.Forall₂ Entry.Fits payload (payloadTaken version act2) ∧
      ∀ ciphertext plaintext, payload.getLast? = some (.theirs ciphertext plaintext) →
        (version = HandshakeVersion0 → plaintext ≠ []) → p2.receivedPayload = unpack version plaintext := by
  obtain ⟨p1,wrote,ran⟩ := acts_cons_ok _ _ _ _ ran
  rw [if_pos (opens.trans role.symm)] at wrote
  obtain ⟨frame1,incoming,_⟩ := writeMsgPattern_ok suite _ p p1 () wrote
  obtain ⟨_,_,added,adds1,fits1⟩ := writeMsgPattern_adds lawful _ wrote
  obtain ⟨p2,took,ran⟩ := acts_cons_ok _ _ _ _ ran
  rw [if_neg (by simp [frame1.initiator,role,answers])] at took
  have frame2 := (readMsgPattern_frame suite _).of_ok took
  obtain ⟨version,head,known,adapts,tokens,payload,adds2,fitsTokens,fitsPayload,received⟩ :=
    readMsgPattern_adds lawful _ took
  rw [act] at adapts fitsPayload
  refine ⟨p2,version,added ++ tokens,payload,ran,Frame.trans _ _ _ frame1 frame2,incoming ▸ head,known,
    adapts rfl (frame1.initiator.trans role),?_,List.rel_append fits1 fitsTokens,fitsPayload,
    fun ciphertext plaintext => received ciphertext plaintext act⟩
  rw [List.append_assoc]
  exact adds1.trans adds2

theorem xx_initiatorView (lawful : suite.Lawful) (role : p.initiator = true)
    (ran : acts suite XXPattern.pattern p = .ok () q) :
    InitiatorView suite p q [.plain,.mine [],.plain,.theirs (some (33 + macSize))]
      [.mine (staticBytes suite p),.mine []] := by
  obtain ⟨p2,version,opening,payload,ran,frame,head,known,version2,adds,fitsOpening,fitsPayload,received⟩ :=
    initiator_acts lawful rfl rfl rfl role ran
  obtain ⟨p3,wrote,done⟩ := acts_cons_ok _ _ _ _ ran
  rw [if_pos (by simp [frame.initiator,role])] at wrote
  obtain ⟨version3,received3,third,adds3,fits3⟩ := writeMsgPattern_adds lawful _ wrote
  cases done
  rw [frame.localStatic] at fits3
  refine ⟨version,head,known,version3.trans version2,opening,payload,third,?_,fitsOpening,fitsPayload,fits3,?_⟩
  · rw [← List.append_assoc]
    exact adds.trans adds3
  · rw [received3]
    exact received

theorem kk_initiatorView (lawful : suite.Lawful) (role : p.initiator = true)
    (ran : acts suite KKPattern.pattern p = .ok () q) :
    InitiatorView suite p q [.plain,.mine [],.plain] [] := by
  obtain ⟨p2,version,opening,payload,done,_,head,known,version2,adds,fitsOpening,fitsPayload,received⟩ :=
    initiator_acts lawful rfl rfl rfl role ran
  cases done
  refine ⟨version,head,known,version2,opening,payload,[],?_,fitsOpening,fitsPayload,.nil,received⟩
  rw [List.append_nil]
  exact adds

theorem responder_acts (lawful : suite.Lawful) (opens : first.initiator = true) (answers : second.initiator = false)
    (act : second.actNum = act2) (empty : first.actNum = act1) (role : p.initiator = false)
    (ran : acts suite (first :: second :: later) p = .ok () q) :
    ∃ p2 added, acts suite later p2 = .ok () q ∧ Frame p p2 ∧ Adds suite p p2 added ∧
      List.Forall₂ Entry.Fits added (first.tokens.flatMap Token.taken ++ [.theirs (some macSize)] ++
        (second.tokens.flatMap (Token.written (staticBytes suite p)) ++
          payloadWritten p.version act2 p.payloadToSend)) := by
  obtain ⟨p1,took,ran⟩ := acts_cons_ok _ _ _ _ ran
  rw [if_neg (by simp [role,opens])] at took
  have frame1 := (readMsgPattern_frame suite _).of_ok took
  obtain ⟨version,_,_,_,tokens,payload,adds1,fitsTokens,fitsPayload,_⟩ := readMsgPattern_adds lawful _ took
  rw [empty] at fitsPayload
  obtain ⟨p2,wrote,ran⟩ := acts_cons_ok _ _ _ _ ran
  rw [if_pos (by simp [frame1.initiator,role,answers])] at wrote
  obtain ⟨frame2,_⟩ := writeMsgPattern_ok suite _ p1 p2 () wrote
  obtain ⟨_,_,second,adds2,fits2⟩ := writeMsgPattern_adds lawful _ wrote
  rw [frame1.localStatic,frame1.version role,frame1.payloadToSend,act] at fits2
  exact ⟨p2,_,ran,Frame.trans _ _ _ frame1 frame2,adds1.trans adds2,
    List.rel_append (List.rel_append fitsTokens fitsPayload) fits2⟩

theorem xx_responderView (lawful : suite.Lawful) (role : p.initiator = false)
    (ran : acts suite XXPattern.pattern p = .ok () q) :
    ResponderView suite p q [.plain,.theirs (some macSize),.plain,.mine (staticBytes suite p)]
      [.theirs (some (33 + macSize)),.theirs (some macSize)] := by
  obtain ⟨p2,added,ran,frame,adds,fits⟩ := responder_acts lawful rfl rfl rfl rfl role ran
  obtain ⟨p3,took,done⟩ := acts_cons_ok _ _ _ _ ran
  rw [if_neg (by simp [frame.initiator,role])] at took
  have frame3 := (readMsgPattern_frame suite _).of_ok took
  obtain ⟨_,_,_,_,tokens,payload,adds3,fitsTokens,fitsPayload,_⟩ := readMsgPattern_adds lawful _ took
  cases done
  refine ⟨(Frame.trans _ _ _ frame frame3).version role,_,adds.trans adds3,?_⟩
  have whole := List.rel_append fits (List.rel_append fitsTokens fitsPayload)
  simp only [List.append_assoc] at whole
  exact whole

theorem kk_responderView (lawful : suite.Lawful) (role : p.initiator = false)
    (ran : acts suite KKPattern.pattern p = .ok () q) :
    ResponderView suite p q [.plain,.theirs (some macSize),.plain] [] := by
  obtain ⟨p2,added,done,frame,adds,fits⟩ := responder_acts lawful rfl rfl rfl rfl role ran
  cases done
  refine ⟨frame.version role,added,adds,?_⟩
  rw [List.append_nil]
  exact fits

end Views

/-- A party that opened the last item of its transcript ends with the digest of its peer. -/
theorem digest_of_last (lawful : suite.Lawful) {name : PatternName} {entries entries' : List Entry}
    {slots slots' : List Slot} {s s' : SymmetricState} (tracks : Tracks suite (protocolName name) entries s)
    (tracks' : Tracks suite (protocolName name) entries' s') (ideal : Ideal suite (s.calls ++ s'.calls))
    (fits : List.Forall₂ Entry.Fits entries slots) (fits' : List.Forall₂ Entry.Fits entries' slots')
    (same : slots'.length = slots.length) {length : Option Nat} (last : slots.getLast? = some (.theirs length)) :
    s.handshakeDigest = s'.handshakeDigest := by
  have nonempty : 0 < slots.length := by
    rw [List.length_pos_iff]
    rintro rfl
    contradiction
  rw [List.getLast?_eq_getElem?] at last
  obtain ⟨_,_,_,_,_,items⟩ := opened_slot lawful tracks tracks' ideal fits fits' last
  have size := fits.length_eq
  have size' := fits'.length_eq
  rw [List.take_of_length_le (by omega),List.take_of_length_le (by omega)] at items
  rw [tracks.digest,tracks'.digest,digestOf,digestOf,items]

theorem payloadTaken_last (version : UInt8) :
    ∃ length, (payloadTaken version act2).getLast? = some (.theirs length) := by
  rw [payloadTaken,if_pos rfl]
  split_ifs
  · exact ⟨_,rfl⟩
  · exact ⟨_,rfl⟩

theorem received_carried {version : UInt8} {ciphertext data received : Bytes} {payload : List Entry}
    (keeps : ∀ ciphertext plaintext, payload.getLast? = some (.theirs ciphertext plaintext) →
      (version = HandshakeVersion0 → plaintext ≠ []) → received = unpack version plaintext)
    (last : payload.getLast? =
      some (.theirs ciphertext (if version = HandshakeVersion0 then fixedPayload data else data))) :
    received = carried version data := by
  have kept := keeps _ _ last
  unfold carried
  by_cases zero : version = HandshakeVersion0
  · rw [if_pos zero] at kept ⊢
    rw [kept,zero]
    intro _ empty
    have size := congrArg List.length empty
    rw [fixedPayload_length] at size
    contradiction
  · rw [if_neg zero] at kept ⊢
    rw [kept (fun zero' => absurd zero' zero),unpack,if_neg zero]

/-- Completed views agree on the digest, on the encoding of the payload and on its content. -/
theorem views_agree (lawful : suite.Lawful) {name : PatternName} {base base' : List Entry} {known : List Slot}
    {p p' q q' : Party Point Key} {before after before' after' : List Slot}
    (tracks : Tracks suite (protocolName name) base p.toSymmetricState)
    (tracks' : Tracks suite (protocolName name) base' p'.toSymmetricState) (fits : List.Forall₂ Entry.Fits base known)
    (fits' : List.Forall₂ Entry.Fits base' known) (initiator : InitiatorView suite p q before after)
    (responder : ResponderView suite p' q' before' after') (ideal : Ideal suite (q.calls ++ q'.calls))
    (aligned : before'.length = before.length) (aligned' : after'.length = after.length)
    (ends : after = [] ∨ ∃ middle, after' = middle ++ [.theirs (some macSize)]) :
    p.incoming.data.head? = some q.version ∧ q.version ≤ HandshakeVersion2 ∧ q'.version = p'.version ∧
      (q.version = HandshakeVersion0 ↔ p'.version = HandshakeVersion0) ∧ q.handshakeDigest = q'.handshakeDigest ∧
      q.receivedPayload = carried q.version p'.payloadToSend := by
  obtain ⟨version,head,bound,rfl,opening,payload,closing,adds,fitsOpening,fitsPayload,fitsClosing,received⟩ := initiator
  obtain ⟨versionR,added,adds',fitsAdded⟩ := responder
  have tracksI := adds _ _ tracks
  have tracksR := adds' _ _ tracks'
  have fitsI : List.Forall₂ Entry.Fits (base ++ (opening ++ (payload ++ closing)))
      ((known ++ before) ++ (payloadTaken q.version act2 ++ after)) := by
    rw [List.append_assoc]
    exact List.rel_append fits (List.rel_append fitsOpening (List.rel_append fitsPayload fitsClosing))
  have fitsR : List.Forall₂ Entry.Fits (base' ++ added)
      ((known ++ before') ++ (payloadWritten p'.version act2 p'.payloadToSend ++ after')) := by
    rw [List.append_assoc]
    exact List.rel_append fits' fitsAdded
  have lengths : (known ++ before').length = (known ++ before).length := by
    rw [List.length_append,List.length_append,aligned]
  obtain ⟨same,ciphertext,entry⟩ := payload_agrees lawful tracksI tracksR ideal fitsI fitsR lengths
  have sizes := payload_lengths q.version p'.version p'.payloadToSend same
  have allSizes : ((known ++ before') ++ (payloadWritten p'.version act2 p'.payloadToSend ++ after')).length =
      ((known ++ before) ++ (payloadTaken q.version act2 ++ after)).length := by
    simp only [List.length_append,aligned,aligned',sizes]
  refine ⟨head,bound,versionR,same,?_,?_⟩
  · -- Whoever reads the last act opens its last item.
    rcases ends with rfl | ⟨middle,rfl⟩
    · obtain ⟨length,last⟩ := payloadTaken_last q.version
      have lastI : ((known ++ before) ++ (payloadTaken q.version act2 ++ [])).getLast? = some (.theirs length) := by
        rw [List.append_nil,List.getLast?_append,last]
        rfl
      exact digest_of_last lawful tracksI tracksR ideal fitsI fitsR allSizes lastI
    · have lastR : ((known ++ before') ++ (payloadWritten p'.version act2 p'.payloadToSend ++
          (middle ++ [Slot.theirs (some macSize)]))).getLast? = some (Slot.theirs (some macSize)) := by
        simp
      exact (digest_of_last lawful tracksR tracksI ideal.symm fitsR fitsI allSizes.symm lastR).symm
  · have inPayload : (known ++ before).length = (base ++ opening).length := by
      rw [List.length_append,List.length_append,fits.length_eq,fitsOpening.length_eq]
    have nonempty : (payloadTaken q.version act2).length - 1 < payload.length := by
      rw [fitsPayload.length_eq,payloadTaken,if_pos rfl]
      split_ifs <;> decide
    rw [← List.append_assoc,inPayload,List.getElem?_append_right (Nat.le_add_right _ _),Nat.add_sub_cancel_left,
      List.getElem?_append_left nonempty,← fitsPayload.length_eq,← List.getLast?_eq_getElem?] at entry
    exact received_carried received entry

end NodeConnect.Noise
