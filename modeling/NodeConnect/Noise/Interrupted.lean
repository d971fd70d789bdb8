import NodeConnect.Noise.Session

/-! Pairings that are cut off. Any write may fail, and of the acts that were written only
the first ones are delivered. The responder completes the handshake only if the
initiator does, but not the other way round: the last act may be lost. -/
namespace NodeConnect.Noise
open Lib Fallible Handshake

variable {Point Key : Type} {suite : Suite Point Key}

theorem readBytes_nothing (k : Nat) (some : 0 < k) (p : Party Point Key) (nothing : p.incoming = ⟨[],[]⟩) :
    readBytes k p = .error .read p := by
  unfold readBytes
  rw [nothing]
  simp only [Reader.read,List.length_nil,if_neg (Nat.not_le.mpr some)]

theorem known_shape {pattern : HandshakePattern} (known : pattern = XXPattern ∨ pattern = KKPattern) :
    ∃ first second rest, pattern.pattern = first :: second :: rest ∧ first.initiator = true ∧ first.actNum = act1 ∧
      second.initiator = false := by
  rcases known with rfl | rfl
  · exact ⟨_,_,_,rfl,rfl,rfl,rfl⟩
  · exact ⟨_,_,_,rfl,rfl,rfl,rfl⟩

variable [AddCommGroup Point]

theorem readMsgPattern_nothing (mp : MessagePattern) (p : Party Point Key) (nothing : p.incoming = ⟨[],[]⟩) :
    readMsgPattern suite mp p = .error .read p :=
  bind_error _ _ _ _ _ (readBytes_nothing 1 Nat.one_pos p nothing)

theorem responder_nothing (first : MessagePattern) (later : List MessagePattern) (opens : first.initiator = true)
    (p : Party Point Key) (responder : p.initiator = false) (nothing : p.incoming = ⟨[],[]⟩) :
    acts suite (first :: later) p = .error .read p := by
  rw [acts_cons,if_neg (by simp [opens,responder])]
  exact bind_error _ _ _ _ _ (readMsgPattern_nothing first p nothing)

theorem initiator_nothing (first second : MessagePattern) (later : List MessagePattern) (opens : first.initiator = true)
    (answers : second.initiator = false) (p : Party Point Key) (initiator : p.initiator = true)
    (nothing : p.incoming = ⟨[],[]⟩) : ∃ err q, acts suite (first :: second :: later) p = .error err q := by
  cases ended : acts suite (first :: second :: later) p with
  | error err q => exact ⟨err,q,rfl⟩
  | ok value q =>
    obtain ⟨p1,wrote,ran⟩ := acts_cons_ok _ _ _ _ ended
    rw [if_pos (by simp [opens,initiator])] at wrote
    obtain ⟨frame,incoming,_⟩ := writeMsgPattern_ok suite _ _ p1 () wrote
    obtain ⟨p2,took,_⟩ := acts_cons_ok _ _ _ _ ran
    rw [if_neg (by simp [frame.initiator,answers,initiator]),
      readMsgPattern_nothing _ p1 (incoming.trans nothing)] at took
    contradiction

theorem acts_written_length (suite : Suite Point Key) (patterns : List MessagePattern) (p : Party Point Key) :
    (final (acts suite patterns p)).written.length ≤
      p.written.length + patterns.countP (fun mp => mp.initiator = p.initiator) := by
  induction patterns generalizing p with
  | nil => exact Nat.le_refl _
  | cons mp later ih =>
    rw [acts_cons,List.countP_cons]
    split_ifs with mine same same
    · cases wrote : writeMsgPattern suite mp p with
      | error err q =>
        rw [bind_error _ _ _ _ _ wrote,final,writeMsgPattern_error suite mp p q err wrote]
        exact Nat.le_add_right _ _
      | ok value q =>
        obtain ⟨frame,_,_,bytes,written⟩ := writeMsgPattern_ok suite mp p q value wrote
        have rest := ih q
        rw [frame.initiator,written,List.length_append,List.length_singleton] at rest
        rw [bind_ok _ _ _ _ _ wrote]
        omega
    · exact absurd (decide_eq_true mine) same
    · exact absurd (of_decide_eq_true same) mine
    · cases took : readMsgPattern suite mp p with
      | error err q =>
        have quiet := readMsgPattern_written suite mp p
        rw [took] at quiet
        rw [bind_error _ _ _ _ _ took]
        exact Nat.le_trans (Nat.le_of_eq (congrArg List.length quiet)) (Nat.le_add_right _ _)
      | ok value q =>
        have rest := ih q
        rw [((readMsgPattern_frame suite mp).of_ok took).initiator,(readMsgPattern_written suite mp).of_ok took] at rest
        rw [bind_ok _ _ _ _ _ took]
        exact rest

theorem acts_cons_error {mp : MessagePattern} {later : List MessagePattern} {p q : Party Point Key} {err : HandshakeError}
    (failed : acts suite (mp :: later) p = .error err q) :
    q.written = p.written ∨
      ∃ middle, (if mp.initiator = p.initiator then writeMsgPattern suite mp else readMsgPattern suite mp) p =
        .ok () middle ∧ acts suite later middle = .error err q := by
  rw [acts_cons] at failed
  rcases (bind_eq_error _ _ _ _ _).mp failed with now | ⟨_,middle,act,rest⟩
  · left
    split_ifs at now with mine
    · exact writeMsgPattern_error suite mp p q err now
    · have quiet := readMsgPattern_written suite mp p
      rw [now] at quiet
      exact quiet
  · exact .inr ⟨middle,act,rest⟩

/-- An initiator whose pairing failed did not write its last act. -/
theorem xx_initiator_error {p q : Party Point Key} {err : HandshakeError} (initiator : p.initiator = true)
    (silent : p.written = []) (failed : acts suite XXPattern.pattern p = .error err q) : q.written.length ≤ 1 := by
  obtain same | ⟨p1,wrote,failed⟩ := acts_cons_error failed
  · rw [same,silent]
    exact Nat.zero_le _
  rw [if_pos initiator.symm] at wrote
  obtain ⟨frame1,_,_,bytes,written⟩ := writeMsgPattern_ok suite _ p p1 () wrote
  rw [silent] at written
  obtain same | ⟨p2,took,failed⟩ := acts_cons_error failed
  · rw [same,written]
    exact Nat.le_refl _
  rw [if_neg (by simp [frame1.initiator,initiator])] at took
  have quiet := (readMsgPattern_written suite _).of_ok took
  obtain same | ⟨p3,_,done⟩ := acts_cons_error failed
  · rw [same,quiet,written]
    exact Nat.le_refl _
  · contradiction

section Pairing

variable {i r i1 r1 i2 r2 i3 r3 : HandshakeState Point Key} {first second third : Bytes}

theorem XXActs.responder_waits (all : XXActs suite i r i1 r1 i2 r2 i3 r3 first second third) (rest : Bytes)
    (accepts : List Bool)
    (answered : (final (acts suite XXPattern.pattern ⟨r,⟨⟨first ++ rest,[]⟩,accepts,[]⟩⟩)).written ≠ []) :
    accepts.head? ≠ some false ∧ acts suite XXPattern.pattern ⟨r,⟨⟨first ++ rest,[]⟩,accepts,[]⟩⟩ =
      acts suite [⟨[.s,.se],true,act3⟩] ⟨r2,⟨⟨rest,[]⟩,accepts.tail,[second]⟩⟩ := by
  obtain ⟨q1,q2,took,wrote,continued⟩ := acts_answered _ _ _ rfl rfl _ all.responder rfl answered
  rw [all.first.took rest accepts []] at took
  cases took
  rw [all.second.wrote] at wrote
  refine ⟨accepted_of_writeBytes wrote,?_⟩
  rw [XXPattern,continued,writeBytes_ok wrote]
  rfl

theorem XXActs.initiator_completes (all : XXActs suite i r i1 r1 i2 r2 i3 r3 first second third) {accepts : List Bool}
    {p : Party Point Key} (ran : acts suite XXPattern.pattern ⟨i,⟨⟨second,[]⟩,accepts,[]⟩⟩ = .ok () p) :
    accepts.head? ≠ some false ∧ accepts.tail.head? ≠ some false ∧
      ∃ link, p = ⟨i3,link⟩ ∧ link.written = [first,third] := by
  obtain ⟨p1,wrote,ran⟩ := acts_cons_ok _ _ _ _ ran
  rw [if_pos all.initiator.symm,all.first.wrote] at wrote
  have opened := accepted_of_writeBytes wrote
  cases writeBytes_ok wrote
  obtain ⟨p2,took,ran⟩ := acts_cons_ok _ _ _ _ ran
  have answer := all.second.took [] accepts.tail [first]
  rw [List.append_nil] at answer
  rw [if_neg (by simp [all.initiator1])] at took
  cases answer.symm.trans took
  obtain ⟨p3,wrote,ran⟩ := acts_cons_ok _ _ _ _ ran
  rw [if_pos all.initiator2.symm,all.third.wrote] at wrote
  have closed := accepted_of_writeBytes wrote
  cases writeBytes_ok wrote
  cases ran
  exact ⟨opened,closed,_,rfl,rfl⟩

/-- What each side gets is the first `reachR` and `reachI` acts that the other one wrote. -/
structure Interrupted (suite : Suite Point Key) (i r : HandshakeState Point Key) (acceptsI acceptsR : List Bool)
    (toInitiator toResponder : Bytes) (reachI reachR : Nat) : Prop where
  fromInitiator : toResponder =
    ((final (acts suite XXPattern.pattern ⟨i,⟨⟨toInitiator,[]⟩,acceptsI,[]⟩⟩)).written.take reachR).flatten
  fromResponder : toInitiator =
    ((final (acts suite XXPattern.pattern ⟨r,⟨⟨toResponder,[]⟩,acceptsR,[]⟩⟩)).written.take reachI).flatten

/-- The first two acts are written and delivered, and the last one is written. -/
structure Passed (acceptsI acceptsR : List Bool) (reachI reachR : Nat) : Prop where
  act1 : acceptsI.head? ≠ some false ∧ 1 ≤ reachR
  act2 : acceptsR.head? ≠ some false ∧ 1 ≤ reachI
  act3 : acceptsI.tail.head? ≠ some false

/-- The versions fit, the first two acts can be written and read, and the acts pass. -/
structure Completing (suite : Suite Point Key) (i r : HandshakeState Point Key) (eI : Key)
    (acceptsI acceptsR : List Bool) (reachI reachR : Nat) : Prop where
  compatible : Compatible i r
  sendable : Sendable r.maxVersion r.payloadToSend
  maskable : Maskable suite eI i.passphraseEntropy
  passed : Passed acceptsI acceptsR reachI reachR

omit [AddCommGroup Point] in
theorem pos_of_taken {bytes : Bytes} {written : List Bytes} {reach : Nat} (sent : bytes = (written.take reach).flatten)
    (reached : bytes ≠ []) : 1 ≤ reach := by
  by_contra none
  apply reached
  rw [sent,show reach = 0 by omega]
  rfl

variable {acceptsI acceptsR : List Bool} {toInitiator toResponder : Bytes} {reachI reachR : Nat}

namespace Interrupted

theorem begins (interrupted : Interrupted suite i r acceptsI acceptsR toInitiator toResponder reachI reachR)
    (initiator : i.initiator = true) {e : Key} {later : List (Option Key)} (own : i.ephemeralGen = some e :: later)
    (reached : toResponder ≠ []) : acceptsI.head? ≠ some false ∧ i.version ≤ HandshakeVersion2 ∧
      ∃ rest, toResponder = i.version ::
        (suite.serializeCompressed (ekeMask suite (suite.pubKey e) i.passphraseEntropy) ++ rest) := by
  have some := pos_of_taken interrupted.fromInitiator reached
  have sent := interrupted.fromInitiator
  rw [XXPattern,acts_cons,if_pos initiator.symm] at sent
  cases wrote : writeMsgPattern suite ⟨[.me],true,act1⟩ ⟨i,⟨⟨toInitiator,[]⟩,acceptsI,[]⟩⟩ with
  | error err p =>
    rw [bind_error _ _ _ _ _ wrote,final,writeMsgPattern_error suite _ _ p err wrote,List.take_nil] at sent
    exact absurd sent reached
  | ok value p =>
    rw [bind_ok _ _ _ _ _ wrote] at sent
    obtain ⟨_,_,known,_⟩ := writeMsgPattern_ok suite _ _ p value wrote
    obtain ⟨accepted,payload,written⟩ := writeMe_written own wrote
    obtain ⟨tail,begins⟩ := (acts_frame suite [⟨[.e,.ee,.s,.es],false,act2⟩,⟨[.s,.se],true,act3⟩] p).written
    obtain ⟨n,rfl⟩ := Nat.exists_eq_add_of_le' some
    rw [← begins,written] at sent
    refine ⟨accepted,known,payload ++ (tail.take n).flatten,sent.trans ?_⟩
    simp

theorem maskable (lawful : suite.CurveLawful)
    (interrupted : Interrupted suite i r acceptsI acceptsR toInitiator toResponder reachI reachR)
    (initiator : i.initiator = true) {e : Key} {later : List (Option Key)} (own : i.ephemeralGen = some e :: later)
    {q : Party Point Key}
    (took : readMsgPattern suite ⟨[.me],true,act1⟩ ⟨r,⟨⟨toResponder,[]⟩,acceptsR,[]⟩⟩ = .ok () q) :
    Maskable suite e i.passphraseEntropy := by
  have reached : toResponder ≠ [] := by
    rintro rfl
    rw [readMsgPattern_nothing _ _ rfl] at took
    contradiction
  obtain ⟨_,_,rest,bytes⟩ := interrupted.begins initiator own reached
  exact readMe_parsed lawful (congrArg (Reader.mk · []) bytes) took

theorem opening (interrupted : Interrupted suite i r acceptsI acceptsR toInitiator toResponder reachI reachR)
    (initiator : i.initiator = true) (conveyed : ActConveys suite ⟨[.me],true,act1⟩ i r i1 r1 first)
    (accepted : acceptsI.head? ≠ some false) (some : 1 ≤ reachR) : ∃ tail,
      (final (acts suite XXPattern.pattern ⟨i,⟨⟨toInitiator,[]⟩,acceptsI,[]⟩⟩)).written = first :: tail ∧
      toResponder = first ++ (tail.take (reachR - 1)).flatten := by
  have delivered := interrupted.fromInitiator
  have wrote := conveyed.wrote ⟨⟨toInitiator,[]⟩,acceptsI,[]⟩
  rw [writeBytes_accepted accepted] at wrote
  rw [XXPattern,acts_cons,if_pos initiator.symm,bind_ok _ _ _ _ _ wrote] at delivered ⊢
  obtain ⟨tail,begins⟩ := (acts_frame suite [⟨[.e,.ee,.s,.es],false,act2⟩,⟨[.s,.se],true,act3⟩]
    ⟨i1,⟨⟨toInitiator,[]⟩,acceptsI.tail,[first]⟩⟩).written
  obtain ⟨n,rfl⟩ := Nat.exists_eq_add_of_le' some
  exact ⟨tail,begins.symm,delivered.trans (congrArg (fun written => (List.take (n + 1) written).flatten) begins.symm)⟩

/-- An initiator that completes got an answer, so the responder has read its first act. -/
theorem answered (interrupted : Interrupted suite i r acceptsI acceptsR toInitiator toResponder reachI reachR)
    (initiator : i.initiator = true) (responder : r.initiator = false) {p : Party Point Key}
    (ran : acts suite XXPattern.pattern ⟨i,⟨⟨toInitiator,[]⟩,acceptsI,[]⟩⟩ = .ok () p) :
    1 ≤ reachI ∧ 1 ≤ reachR ∧
      (final (acts suite XXPattern.pattern ⟨r,⟨⟨toResponder,[]⟩,acceptsR,[]⟩⟩)).written ≠ [] ∧
      ∃ q, readMsgPattern suite ⟨[.me],true,act1⟩ ⟨r,⟨⟨toResponder,[]⟩,acceptsR,[]⟩⟩ = .ok () q := by
  have heard : toInitiator ≠ [] := by
    rintro rfl
    have fails : ∃ err q, acts suite XXPattern.pattern ⟨i,⟨⟨[],[]⟩,acceptsI,[]⟩⟩ = .error err q :=
      initiator_nothing _ _ _ rfl rfl _ initiator rfl
    obtain ⟨err,q,failed⟩ := fails
    exact nomatch failed.symm.trans ran
  have answered : (final (acts suite XXPattern.pattern ⟨r,⟨⟨toResponder,[]⟩,acceptsR,[]⟩⟩)).written ≠ [] := by
    intro silent
    apply heard
    rw [interrupted.fromResponder,silent,List.take_nil,List.flatten_nil]
  obtain ⟨q,_,took,_⟩ := acts_answered _ _ _ rfl rfl _ responder rfl answered
  have reached : toResponder ≠ [] := by
    rintro rfl
    rw [readMsgPattern_nothing _ _ rfl] at took
    contradiction
  exact ⟨pos_of_taken interrupted.fromResponder heard,pos_of_taken interrupted.fromInitiator reached,answered,q,took⟩

/-- The responder writes nothing but its answer, so this is all the initiator gets. -/
theorem answer (interrupted : Interrupted suite i r acceptsI acceptsR toInitiator toResponder reachI reachR)
    (responder : r.initiator = false) (some : 1 ≤ reachI)
    (begins : [second] <+: (final (acts suite XXPattern.pattern ⟨r,⟨⟨toResponder,[]⟩,acceptsR,[]⟩⟩)).written) :
    toInitiator = second := by
  have size := acts_written_length suite XXPattern.pattern ⟨r,⟨⟨toResponder,[]⟩,acceptsR,[]⟩⟩
  rw [responder] at size
  have only := (begins.eq_of_length_le size).symm
  have got := interrupted.fromResponder
  obtain ⟨n,rfl⟩ := Nat.exists_eq_add_of_le' some
  rw [only] at got
  simpa using got

theorem completed (interrupted : Interrupted suite i r acceptsI acceptsR toInitiator toResponder reachI reachR)
    (all : XXActs suite i r i1 r1 i2 r2 i3 r3 first second third) {p : Party Point Key}
    (ran : acts suite XXPattern.pattern ⟨i,⟨⟨toInitiator,[]⟩,acceptsI,[]⟩⟩ = .ok () p) :
    Passed acceptsI acceptsR reachI reachR ∧ (∃ link, p = ⟨i3,link⟩) ∧
    (2 ≤ reachR → ∃ link,
      acts suite XXPattern.pattern ⟨r,⟨⟨toResponder,[]⟩,acceptsR,[]⟩⟩ = .ok () ⟨r3,link⟩) ∧
    (reachR < 2 → ∃ err q, acts suite XXPattern.pattern ⟨r,⟨⟨toResponder,[]⟩,acceptsR,[]⟩⟩ = .error err q) := by
  obtain ⟨heard,reached,answered,_⟩ := interrupted.answered all.initiator all.responder ran
  have accepted : acceptsI.head? ≠ some false := by
    obtain ⟨p1,wrote,_⟩ := acts_cons_ok _ _ _ _ ran
    rw [if_pos all.initiator.symm,all.first.wrote] at wrote
    exact accepted_of_writeBytes wrote
  obtain ⟨tail,written,delivered⟩ := interrupted.opening all.initiator all.first accepted reached
  have waiting := all.responder_waits (tail.take (reachR - 1)).flatten acceptsR (delivered ▸ answered)
  rw [← delivered] at waiting
  obtain ⟨acceptedR,waiting⟩ := waiting
  have answer : toInitiator = second := by
    apply interrupted.answer all.responder heard
    rw [waiting]
    exact (acts_frame suite [⟨[.s,.se],true,act3⟩]
      ⟨r2,⟨⟨(tail.take (reachR - 1)).flatten,[]⟩,acceptsR.tail,[second]⟩⟩).written
  obtain ⟨opened,closed,link,done,sent⟩ := all.initiator_completes (answer ▸ ran)
  have last : tail = [third] := by
    rw [ran,final,done] at written
    exact (List.cons.inj (sent.symm.trans written)).2.symm
  refine ⟨⟨⟨opened,reached⟩,⟨acceptedR,heard⟩,closed⟩,⟨link,done⟩,?_,?_⟩
  · intro delivered
    have rest : (tail.take (reachR - 1)).flatten = third ++ [] := by
      rw [last,List.take_of_length_le (by simp; omega),List.flatten_singleton,List.append_nil]
    rw [waiting,rest,acts_took all.third (by simp [all.responder2])]
    exact ⟨_,rfl⟩
  · intro lost
    have rest : (tail.take (reachR - 1)).flatten = [] := by
      rw [show reachR - 1 = 0 by omega,List.take_zero,List.flatten_nil]
    rw [waiting,rest,acts_cons,if_neg (by simp [all.responder2]),
      bind_error _ _ _ _ _ (readMsgPattern_nothing _ _ rfl)]
    exact ⟨_,_,rfl⟩

/-- If the acts pass, the initiator completes. -/
theorem completes (interrupted : Interrupted suite i r acceptsI acceptsR toInitiator toResponder reachI reachR)
    (all : XXActs suite i r i1 r1 i2 r2 i3 r3 first second third) (passed : Passed acceptsI acceptsR reachI reachR) :
    ∃ p, acts suite XXPattern.pattern ⟨i,⟨⟨toInitiator,[]⟩,acceptsI,[]⟩⟩ = .ok () p := by
  obtain ⟨⟨openedI,reached⟩,⟨openedR,heard⟩,closed⟩ := passed
  obtain ⟨tail,_,delivered⟩ := interrupted.opening all.initiator all.first openedI reached
  have answer : toInitiator = second := by
    apply interrupted.answer all.responder heard
    rw [XXPattern,delivered,acts_took all.first (by simp [all.responder]),
      acts_wrote_accepted all.second.wrote all.responder1.symm _ _ openedR]
    exact (acts_frame suite [⟨[.s,.se],true,act3⟩]
      ⟨r2,⟨⟨(tail.take (reachR - 1)).flatten,[]⟩,acceptsR.tail,[second]⟩⟩).written
  rw [answer,← List.append_nil second,XXPattern,acts_wrote_accepted all.first.wrote all.initiator.symm _ _ openedI,
    acts_took all.second (by simp [all.initiator1]),acts_wrote_accepted all.third.wrote all.initiator2.symm _ _ closed]
  exact ⟨_,rfl⟩

/-- The responder completes a pairing only if the initiator does. -/
theorem responder_last (lawful : suite.Lawful) {eI eR : Key} {laterI laterR : List (Option Key)}
    (prepared : Prepared suite i r eI eR laterI laterR)
    (secret : suite.modNScalar r.passphraseEntropy = suite.modNScalar i.passphraseEntropy)
    (interrupted : Interrupted suite i r acceptsI acceptsR toInitiator toResponder reachI reachR) {q : Party Point Key}
    (ran : acts suite XXPattern.pattern ⟨r,⟨⟨toResponder,[]⟩,acceptsR,[]⟩⟩ = .ok () q) :
    ∃ p, acts suite XXPattern.pattern ⟨i,⟨⟨toInitiator,[]⟩,acceptsI,[]⟩⟩ = .ok () p := by
  obtain ⟨q1,took,ran⟩ := acts_cons_ok _ _ _ _ ran
  rw [if_neg (by simp [prepared.responder])] at took
  obtain ⟨_,_,version,head,lower,upper⟩ := readMsgPattern_ok suite _ (.inl rfl) _ q1 () took toResponder rfl
  have reached : toResponder ≠ [] := by
    rintro rfl
    contradiction
  obtain ⟨accepted,known,rest,bytes⟩ := interrupted.begins prepared.initiator prepared.ephemeralI reached
  have same : version = i.version := by
    rw [bytes] at head
    exact (Option.some.inj head).symm
  have maskable := interrupted.maskable lawful.toCurveLawful prepared.initiator prepared.ephemeralI took
  obtain ⟨_,_,first,_,conveyed⟩ := xx_act1 lawful prepared.paired prepared.responder prepared.ephemeralI maskable
    (same ▸ lower) (same ▸ upper) known secret
  obtain ⟨tail,written,delivered⟩ := interrupted.opening prepared.initiator conveyed accepted
    (pos_of_taken interrupted.fromInitiator reached)
  rw [delivered,conveyed.took] at took
  cases took
  obtain ⟨q2,wrote,ran⟩ := acts_cons_ok _ _ _ _ ran
  rw [if_pos prepared.responder.symm] at wrote
  obtain ⟨frame,incoming,_⟩ := writeMsgPattern_ok suite _ _ q2 () wrote
  obtain ⟨q3,took,_⟩ := acts_cons_ok _ _ _ _ ran
  rw [if_neg (by simp [frame.initiator,prepared.responder])] at took
  cases ended : acts suite XXPattern.pattern ⟨i,⟨⟨toInitiator,[]⟩,acceptsI,[]⟩⟩ with
  | ok value p => exact ⟨p,rfl⟩
  | error err p =>
    have short := xx_initiator_error prepared.initiator rfl ended
    rw [ended,final] at written
    rw [written,List.length_cons] at short
    have none : tail = [] := List.length_eq_zero_iff.mp (by omega)
    rw [none,List.take_nil,List.flatten_nil] at incoming
    rw [readMsgPattern_nothing _ q2 incoming] at took
    contradiction

theorem completing (lawful : suite.Lawful) {eI eR : Key} {laterI laterR : List (Option Key)}
    (prepared : Prepared suite i r eI eR laterI laterR)
    (interrupted : Interrupted suite i r acceptsI acceptsR toInitiator toResponder reachI reachR) {p : Party Point Key}
    (ran : acts suite XXPattern.pattern ⟨i,⟨⟨toInitiator,[]⟩,acceptsI,[]⟩⟩ = .ok () p) :
    Compatible i r ∧ Sendable r.maxVersion r.payloadToSend ∧ Maskable suite eI i.passphraseEntropy := by
  have fromI := interrupted.fromInitiator
  have fromR := interrupted.fromResponder
  rw [ran,final] at fromI
  obtain ⟨compatible,sendable⟩ := compatible_of_completed _ _ _ _ rfl ⟨rfl,rfl⟩ ⟨rfl,rfl⟩ i r prepared.initiator
    prepared.responder prepared.startI prepared.startR toInitiator toResponder acceptsI acceptsR p _ ran rfl
    (fromI ▸ (List.take_prefix _ _).flatten) (fromR ▸ (List.take_prefix _ _).flatten)
  obtain ⟨_,_,_,q,took⟩ := interrupted.answered prepared.initiator prepared.responder ran
  exact ⟨compatible,sendable,interrupted.maskable lawful.toCurveLawful prepared.initiator prepared.ephemeralI took⟩

/-- Either both fail, or the initiator completes; the responder then completes exactly
if the third act reaches it, and agrees with the initiator. -/
theorem outcome (lawful : suite.Lawful) {eI eR : Key} {laterI laterR : List (Option Key)}
    (prepared : Prepared suite i r eI eR laterI laterR)
    (secret : suite.modNScalar r.passphraseEntropy = suite.modNScalar i.passphraseEntropy)
    (interrupted : Interrupted suite i r acceptsI acceptsR toInitiator toResponder reachI reachR) :
    (¬ Completing suite i r eI acceptsI acceptsR reachI reachR ∧
      (∃ err p, acts suite XXPattern.pattern ⟨i,⟨⟨toInitiator,[]⟩,acceptsI,[]⟩⟩ = .error err p) ∧
      ∃ err q, acts suite XXPattern.pattern ⟨r,⟨⟨toResponder,[]⟩,acceptsR,[]⟩⟩ = .error err q) ∨
    (Completing suite i r eI acceptsI acceptsR reachI reachR ∧ ∃ i' r', Agreed suite i r i' r' ∧
      (∃ link, acts suite XXPattern.pattern ⟨i,⟨⟨toInitiator,[]⟩,acceptsI,[]⟩⟩ = .ok () ⟨i',link⟩) ∧
      (2 ≤ reachR → ∃ link,
        acts suite XXPattern.pattern ⟨r,⟨⟨toResponder,[]⟩,acceptsR,[]⟩⟩ = .ok () ⟨r',link⟩) ∧
      (reachR < 2 → ∃ err q,
        acts suite XXPattern.pattern ⟨r,⟨⟨toResponder,[]⟩,acceptsR,[]⟩⟩ = .error err q)) := by
  cases ended : acts suite XXPattern.pattern ⟨i,⟨⟨toInitiator,[]⟩,acceptsI,[]⟩⟩ with
  | error err p =>
    left
    refine ⟨?_,⟨err,p,rfl⟩,?_⟩
    · rintro ⟨compatible,sendable,maskable,passed⟩
      obtain ⟨_,_,_,_,_,_,_,_,_,all,_⟩ := xx_acts lawful prepared compatible sendable maskable secret
      obtain ⟨p',ok⟩ := interrupted.completes all passed
      exact nomatch ended.symm.trans ok
    · cases ran : acts suite XXPattern.pattern ⟨r,⟨⟨toResponder,[]⟩,acceptsR,[]⟩⟩ with
      | error err' q => exact ⟨err',q,rfl⟩
      | ok value q =>
        obtain ⟨p',ok⟩ := interrupted.responder_last lawful prepared secret ran
        rw [ended] at ok
        contradiction
  | ok value p =>
    right
    obtain ⟨compatible,sendable,maskable⟩ := interrupted.completing lawful prepared ended
    obtain ⟨_,_,i',_,_,r',first,second,third,all,agreed⟩ := xx_acts lawful prepared compatible sendable maskable secret
    obtain ⟨passed,⟨link,rfl⟩,delivered,lost⟩ := interrupted.completed all ended
    exact ⟨⟨compatible,sendable,maskable,passed⟩,i',r',agreed,⟨link,rfl⟩,delivered,lost⟩

end Interrupted

end Pairing

end NodeConnect.Noise
