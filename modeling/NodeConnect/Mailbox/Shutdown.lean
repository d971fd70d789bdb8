import NodeConnect.Mailbox.StreamDelivery

/-! How a connection ends. `Close` sends its FIN through the mutex of the streams, cancels
the context and waits for both loops. The first part says who has the mutex and what each
place of `Close` can rely on; then a connection can always be closed by its own steps, is
silent when it is closed, and waits for a stream to the mailbox however long that takes. -/
namespace NodeConnect.Mailbox
open Lib Gbn

section Mutex

variable {st st' : Streams}

/-- The places where a call has the mutex. -/
def SendPlace.Owns (impl : ControlConn) : SendPlace → Prop
  | .connect => True
  | .check | .attempt => impl = .client
  | .enter | .failed => False

def Streams.Locked (st : Streams) : Prop :=
  ∀ loop, st.sendMu = some loop ↔ ∃ call, st.calls loop = some call ∧ call.place.Owns st.impl

theorem Streams.Locked.setCall (locked : st.Locked) (loop : Loop) (call : Option SendCall) (sendMu : Option Loop)
    (connected : Bool) (others : ∀ x, x ≠ loop → (sendMu = some x ↔ st.sendMu = some x))
    (own : sendMu = some loop ↔ ∃ c, call = some c ∧ c.place.Owns st.impl) :
    Locked {st.setCall loop call with sendMu := sendMu, sendConnected := connected} := by
  intro x
  by_cases here : x = loop
  · subst here
    simpa [Streams.setCall] using own
  · simpa [Streams.setCall,here] using (others x here).trans (locked x)

theorem Streams.Sends.locked {loop : Loop} {payload : Bytes} {place : SendPlace} {reached : List Bytes} (locked : st.Locked)
    (called : st.calls loop = some ⟨payload,place⟩) (sends : st.Sends loop payload place st' reached) : st'.Locked := by
  have has : st.sendMu = some loop ↔ place.Owns st.impl := by
    rw [locked loop,called]
    simp
  have result (call : Option SendCall) (sendMu : Option Loop) (connected : Bool)
      (before : st.sendMu = none ∨ st.sendMu = some loop) (after : sendMu = none ∨ sendMu = some loop)
      (own : sendMu = some loop ↔ ∃ c, call = some c ∧ c.place.Owns st.impl) :
      Locked {st.setCall loop call with sendMu := sendMu, sendConnected := connected} := by
    refine locked.setCall loop call sendMu connected (fun x other => ?_) own
    rcases before with before | before <;> rcases after with after | after <;> simp [before,after,Ne.symm other]
  have between (call : SendCall) (connected : Bool) (before : st.sendMu = none ∨ st.sendMu = some loop)
      (checks : call.place = .check) :
      Locked {st.setCall loop (some call) with sendMu := st.betweenAttempts loop, sendConnected := connected} := by
    refine result _ _ _ before ?_ ?_ <;> cases impl : st.impl <;> simp [betweenAttempts,impl,checks,SendPlace.Owns]
  have releases (call : Option SendCall) (checked : place = .check) (left : ∀ c, call = some c → c.place = .failed) :
      Locked {st.setCall loop call with sendMu := st.released} := by
    subst checked
    have gone : ¬ ∃ c, call = some c ∧ c.place.Owns st.impl := by
      rintro ⟨c,same,owns⟩
      rw [left c same] at owns
      exact owns
    cases impl : st.impl with
    | client =>
      exact result call _ _ (.inr (has.mpr impl)) (.inl (by simp [released,impl]))
        (iff_of_false (by simp [released,impl]) gone)
    | server =>
      have free : st.sendMu ≠ some loop := fun held => by
        have := has.mp held
        rw [impl] at this
        contradiction
      exact locked.setCall loop call _ _ (fun x _ => by simp [released,impl])
        (iff_of_false (by simp [released,impl,free]) gone)
  have attempts (free : ¬ (st.impl = .server ∧ st.sendMu ≠ none)) (attempting : place = .attempt) :
      st.sendMu = none ∨ st.sendMu = some loop := by
    subst attempting
    cases impl : st.impl with
    | client => exact .inr (has.mpr impl)
    | server => exact .inl (by_contra fun held => free ⟨impl,held⟩)
  cases sends with
  | finds free connected => exact between _ _ (.inl free) rfl
  | misses free missing => exact result _ _ _ (.inl free) (.inr rfl) (by simp [SendPlace.Owns])
  | givesUp stopping => exact between _ _ (.inr (has.mpr trivial)) rfl
  | connects => exact between _ _ (.inr (has.mpr trivial)) rfl
  | waits => exact locked
  | quits quit => exact releases none rfl (by simp)
  | fails finished => exact releases _ rfl fun c same => by cases same; rfl
  | tries going => exact locked.setCall loop _ _ _ (fun _ _ => Iff.rfl) (by simpa [SendPlace.Owns] using has)
  | faults missing => exact locked
  | sent free reaches => exact result none _ _ (attempts free rfl) (.inl rfl) (by simp)
  | retries free reaches => exact result _ _ _ (attempts free rfl) (.inr rfl) (by simp [SendPlace.Owns])
  | rejected client reaches => exact result _ _ _ (.inr (has.mpr client)) (.inl rfl) (by simp [SendPlace.Owns])

end Mutex

section Order

variable {st st' : Streams} {c c' : Closing}

/-- What each place of `Close`, and each loop that has returned, can rely on. -/
structure Orderly (st : Streams) (c : Closing) : Prop where
  locked : st.Locked
  quits : c.place ≠ .idle → c.quit = true
  cancelled : c.place = .stop ∨ c.place = .wait ∨ c.place = .closed → st.ctxDone = true
  stopped : c.place = .wait ∨ c.place = .closed → c.queueQuit = true
  working : c.place ≠ .closed → st.quit = false
  fin : c.place ≠ .fin → st.calls .closer = none
  returned : c.place = .closed → c.sendReturned = true ∧ c.receiveReturned = true
  sendDone : c.sendReturned = true → ∀ call, st.calls .sender = some call → call.place = .failed
  receiveDone : c.receiveReturned = true →
    (∀ call, st.calls .receiver = some call → call.place = .failed) ∧ ∀ place, st.recv = some place → place = .failed

theorem Streams.Sends.frame {loop : Loop} {payload : Bytes} {place : SendPlace} {reached : List Bytes}
    (sends : st.Sends loop payload place st' reached) :
    place ≠ .failed ∧ st'.impl = st.impl ∧ st'.quit = st.quit ∧ st'.ctxDone = st.ctxDone ∧ st'.recv = st.recv ∧
      ∀ x, x ≠ loop → st'.calls x = st.calls x := by
  have others (call : Option SendCall) (x : Loop) (other : x ≠ loop) : (st.setCall loop call).calls x = st.calls x :=
    Function.update_of_ne other _ _
  cases sends with
  | waits => exact ⟨by simp,rfl,rfl,rfl,rfl,fun _ _ => rfl⟩
  | faults missing => exact ⟨by simp,rfl,rfl,rfl,rfl,fun _ _ => rfl⟩
  | _ => exact ⟨by simp,rfl,rfl,rfl,rfl,others _⟩

theorem begins_enter (messages : List Message) {call : SendCall} (begun : begins messages = some call) : call.place = .enter := by
  obtain ⟨_,_,rfl⟩ := Option.map_eq_some_iff.mp begun
  rfl

namespace Orderly

theorem call (orderly : Orderly st c) {loop : Loop} {outcome : Outcome} {reached : List Bytes}
    (moved : st.sendMove loop outcome = some (st',reached)) : Orderly st' c := by
  obtain ⟨payload,place,called,sends⟩ := Streams.sendMove_sends moved
  obtain ⟨pending,_,quit,ctxDone,recv,others⟩ := sends.frame
  have busy (x : Loop) (over_ : ∀ call, st.calls x = some call → call.place = .failed) : x ≠ loop := by
    rintro rfl
    exact pending (over_ _ called)
  refine ⟨sends.locked orderly.locked called,orderly.quits,ctxDone ▸ orderly.cancelled,orderly.stopped,
    quit ▸ orderly.working,
    fun other => ?_,orderly.returned,fun returned => ?_,fun returned => ⟨?_,recv ▸ (orderly.receiveDone returned).2⟩⟩
  · have none_ := orderly.fin other
    rw [others .closer (busy .closer (by simp [none_]))]
    exact none_
  · rw [others .sender (busy .sender (orderly.sendDone returned))]
    exact orderly.sendDone returned
  · rw [others .receiver (busy .receiver (orderly.receiveDone returned).1)]
    exact (orderly.receiveDone returned).1

/-- A loop that has not returned begins a call. -/
theorem begin (orderly : Orderly st c) (loop : Loop) (call : Option SendCall) (free : st.calls loop = none)
    (enters : ∀ new, call = some new → new.place = .enter) (send : loop = .sender → c.sendReturned = false)
    (receive : loop = .receiver → c.receiveReturned = false) (fin : loop = .closer → c.place = .fin) :
    Orderly (st.setCall loop call) c := by
  have others (x : Loop) (other : x ≠ loop) : (st.setCall loop call).calls x = st.calls x := Function.update_of_ne other _ _
  have locked : (st.setCall loop call).Locked := by
    refine orderly.locked.setCall loop call _ _ (fun _ _ => Iff.rfl) (iff_of_false ?_ ?_)
    · rw [orderly.locked loop,free]
      simp
    · rintro ⟨new,same,owns⟩
      rw [enters new same] at owns
      exact owns
  refine ⟨locked,orderly.quits,orderly.cancelled,orderly.stopped,orderly.working,fun other => ?_,orderly.returned,
    fun returned => ?_,fun returned => ⟨?_,(orderly.receiveDone returned).2⟩⟩
  · rw [others .closer fun same => other (fin same.symm)]
    exact orderly.fin other
  · rw [others .sender fun same => by simp [send same.symm] at returned]
    exact orderly.sendDone returned
  · rw [others .receiver fun same => by simp [receive same.symm] at returned]
    exact (orderly.receiveDone returned).1

/-- The receive loop, which has not returned, is somewhere else in `recv`. -/
theorem receive (orderly : Orderly st c) (place : Option RecvPlace) (connected faulted : Bool)
    (working : c.receiveReturned = false) :
    Orderly {st with recv := place, receiveConnected := connected, faulted := faulted} c :=
  ⟨orderly.locked,orderly.quits,orderly.cancelled,orderly.stopped,orderly.working,orderly.fin,orderly.returned,orderly.sendDone,
    fun returned => by simp [working] at returned⟩

theorem recvMove (orderly : Orderly st c) {outcome : Outcome} (moved : st.recvMove outcome = some st') :
    c.receiveReturned = false ∧ Orderly st' c := by
  have working (place : RecvPlace) (receiving : st.recv = some place) (pending : place ≠ .failed) :
      c.receiveReturned = false := by
    rw [← Bool.not_eq_true]
    exact fun returned => pending ((orderly.receiveDone returned).2 place receiving)
  unfold Streams.recvMove at moved
  split at moved
  next => contradiction
  next => contradiction
  next entered =>
    cases moved
    have busy := working _ entered (by simp)
    exact ⟨busy,orderly.receive _ _ _ busy⟩
  next connecting =>
    have busy := working _ connecting (by simp)
    refine ⟨busy,?_⟩
    split_ifs at moved <;> cases moved
    · exact orderly.receive _ _ _ busy
    · exact orderly.receive _ _ _ busy
    · exact orderly
  next checking =>
    have busy := working _ checking (by simp)
    refine ⟨busy,?_⟩
    split_ifs at moved <;> cases moved <;> exact orderly.receive _ _ _ busy
  next receiving =>
    have busy := working _ receiving (by simp)
    refine ⟨busy,?_⟩
    split_ifs at moved
    · split at moved <;> cases moved <;> exact orderly.receive _ _ _ busy
    · cases moved
      exact orderly.receive _ _ _ busy

theorem closeMove (orderly : Orderly st c) (moved : closeMove st c = some (st',c')) : Orderly st' c' := by
  unfold Mailbox.closeMove at moved
  split at moved
  next => contradiction
  next => contradiction
  next place =>
    have quit := orderly.quits (by simp [place])
    have working := orderly.working (by simp [place])
    have fin := orderly.fin (by simp [place])
    split_ifs at moved <;> cases moved
    · exact ⟨orderly.locked,fun _ => quit,by simp,by simp,fun _ => working,fun _ => fin,by simp,orderly.sendDone,
        orderly.receiveDone⟩
    · have moving : Orderly st {c with place := .fin} :=
        ⟨orderly.locked,fun _ => quit,by simp,by simp,fun _ => working,fun _ => fin,by simp,orderly.sendDone,
          orderly.receiveDone⟩
      exact moving.begin .closer _ fin (fun new begun => by cases begun; rfl) (by simp) (by simp) fun _ => rfl
  next place =>
    have quit := orderly.quits (by simp [place])
    have working := orderly.working (by simp [place])
    have over_ (free : ∀ call, st.calls .closer = some call → call.place = .failed) :
        Orderly (st.setCall .closer none) {c with place := .cancel} := by
      have others (x : Loop) (other : x ≠ .closer) : (st.setCall .closer none).calls x = st.calls x :=
        Function.update_of_ne other _ _
      refine ⟨orderly.locked.setCall .closer none _ _ (fun _ _ => Iff.rfl) (iff_of_false ?_ (by simp)),fun _ => quit,
        by simp,by simp,
        fun _ => working,fun _ => by simp [Streams.setCall],by simp,?_,?_⟩
      · rw [orderly.locked .closer]
        rintro ⟨call,called,owns⟩
        rw [free call called] at owns
        exact owns
      · rw [others .sender (by decide)]
        exact orderly.sendDone
      · rw [others .receiver (by decide)]
        exact orderly.receiveDone
    split at moved <;> cases moved
    next called => exact over_ (by simp [called])
    next called => exact over_ (by simp [called])
  next place =>
    cases moved
    exact ⟨orderly.locked,fun _ => orderly.quits (by simp [place]),fun _ => rfl,by simp,
      fun _ => orderly.working (by simp [place]),
      fun _ => orderly.fin (by simp [place]),by simp,orderly.sendDone,orderly.receiveDone⟩
  next place =>
    cases moved
    exact ⟨orderly.locked,fun _ => orderly.quits (by simp [place]),fun _ => orderly.cancelled (.inl place),fun _ => rfl,
      fun _ => orderly.working (by simp [place]),fun _ => orderly.fin (by simp [place]),by simp,orderly.sendDone,
      orderly.receiveDone⟩
  next place =>
    split_ifs at moved with both
    cases moved
    exact ⟨orderly.locked,fun _ => orderly.quits (by simp [place]),fun _ => orderly.cancelled (.inr (.inl place)),
      fun _ => orderly.stopped (.inl place),by simp,fun _ => orderly.fin (by simp [place]),fun _ => both,orderly.sendDone,
      orderly.receiveDone⟩

end Orderly

namespace Mail

variable {s s' : Mail}

theorem orderly_update (orderly : ∀ x, Orderly (s.streams x) (s.closing x)) (side : Side) (st : Streams) (c : Closing)
    (streams : s'.streams = Function.update s.streams side st) (closing : s'.closing = Function.update s.closing side c)
    (here : Orderly st c) : ∀ x, Orderly (s'.streams x) (s'.closing x) := by
  have apart := side.other_ne
  rw [streams,closing]
  refine Side.forall_of_both side ?_ ?_
  · simpa using here
  · simpa [apart] using orderly side.other

theorem step_orderly {n : UInt8} (event : MailEvent) (sound : s.Sound n)
    (orderly : ∀ x, Orderly (s.streams x) (s.closing x)) (stepped : s.step event = some s') :
    ∀ x, Orderly (s'.streams x) (s'.closing x) := by
  have streams (side : Side) (st : Streams) (moved : s'.streams = (s.setStreams side st).streams)
      (same : s'.closing = s.closing) (here : Orderly st (s.closing side)) : ∀ x, Orderly (s'.streams x) (s'.closing x) :=
    orderly_update orderly side st (s.closing side) moved (by rw [same,Function.update_eq_self]) here
  have closing (side : Side) (c : Closing) (moved : s'.closing = (s.setClosing side c).closing)
      (same : s'.streams = s.streams) (here : Orderly (s.streams side) c) : ∀ x, Orderly (s'.streams x) (s'.closing x) :=
    orderly_update orderly side (s.streams side) c (by rw [same,Function.update_eq_self]) moved here
  cases event with
  | send side action =>
    simp only [step] at stepped
    split at stepped
    next free =>
      obtain ⟨⟨e,messages⟩,_,rfl⟩ := Option.map_eq_some_iff.mp stepped
      exact streams side _ rfl rfl ((orderly side).begin .sender _ free.2 (fun new begun => begins_enter _ begun)
        (fun _ => free.1)
        (by simp) (by simp))
    next => contradiction
  | receive side =>
    simp only [step] at stepped
    split at stepped
    next =>
      obtain ⟨_,_,rfl⟩ := Option.map_eq_some_iff.mp stepped
      exact orderly
    next => contradiction
  | drain side =>
    obtain ⟨_,_,rfl⟩ := Option.map_eq_some_iff.mp stepped
    exact orderly
  | timer side =>
    obtain ⟨_,_,rfl⟩ := Option.map_eq_some_iff.mp stepped
    exact orderly
  | call side loop outcome =>
    obtain ⟨⟨st,reached⟩,moved,rfl⟩ := Option.map_eq_some_iff.mp stepped
    exact streams side st rfl rfl ((orderly side).call moved)
  | recvBegins side =>
    simp only [step] at stepped
    split at stepped
    next free =>
      cases stepped
      exact streams side _ rfl rfl ((orderly side).receive _ _ _ free.1.1)
    next => contradiction
  | recv side outcome keep recentlySent =>
    simp only [step] at stepped
    split at stepped
    next => contradiction
    next st moved =>
      obtain ⟨working,here⟩ := (orderly side).recvMove moved
      obtain ⟨busy,_,same⟩ := Streams.recvMove_backed (sound.backed side) moved
      split at stepped
      next idle =>
        split at stepped
        next bytes rest ready wire =>
          cases stepped
          have free := same ▸ (sound.backed side).alone busy
          refine orderly_update orderly side _ _ rfl rfl ?_
          have begun := here.begin .receiver (begins ((s.ends side).deliver bytes recentlySent).2) free
            (fun new begun => begins_enter _ begun) (by simp) (fun _ => working) (by simp)
          split
          · exact ⟨begun.locked,begun.quits,begun.cancelled,begun.stopped,begun.working,begun.fin,begun.returned,
              begun.sendDone,
              begun.receiveDone⟩
          · exact begun
        next => contradiction
      next =>
        cases stepped
        exact streams side st rfl rfl here
  | lose side index =>
    simp only [step] at stepped
    split at stepped
    next =>
      cases stepped
      exact orderly
    next => contradiction
  | sendReturns side =>
    simp only [step] at stepped
    split at stepped
    next ends =>
      cases stepped
      obtain ⟨locked,quits,cancelled,stopped,working,fin,returned,_,receiveDone⟩ := orderly side
      refine closing side _ rfl rfl ⟨locked,quits,cancelled,stopped,working,fin,fun closed => ⟨rfl,(returned closed).2⟩,
        fun _ call called => ?_,receiveDone⟩
      simpa [sendEnds,called] using ends.2
    next => contradiction
  | receiveReturns side =>
    simp only [step] at stepped
    split at stepped
    next ends =>
      cases stepped
      obtain ⟨locked,quits,cancelled,stopped,working,fin,returned,sendDone,_⟩ := orderly side
      refine closing side _ rfl rfl ⟨locked,quits,cancelled,stopped,working,fin,
        fun closed => ⟨(returned closed).1,rfl⟩,sendDone,
        fun _ => ⟨fun call called => ?_,fun place receiving => ?_⟩⟩
      · simpa [receiveEnds,called] using ends.2
      · have alone := (sound.backed side).alone (by simp [receiving])
        simpa [receiveEnds,alone,receiving] using ends.2
    next => contradiction
  | syncQuits side =>
    simp only [step] at stepped
    split at stepped
    next =>
      obtain ⟨_,_,rfl⟩ := Option.map_eq_some_iff.mp stepped
      exact orderly
    next => contradiction
  | close side =>
    simp only [step] at stepped
    split at stepped
    next idle =>
      cases stepped
      have here := orderly side
      exact closing side _ rfl rfl ⟨here.locked,fun _ => rfl,by simp,by simp,fun _ => here.working (by simp [idle]),
        fun _ => here.fin (by simp [idle]),by simp,here.sendDone,here.receiveDone⟩
    next => contradiction
  | closeMove side =>
    obtain ⟨⟨st,c⟩,moved,rfl⟩ := Option.map_eq_some_iff.mp stepped
    exact orderly_update orderly side st c rfl rfl ((orderly side).closeMove moved)
  | finExpires side =>
    simp only [step] at stepped
    split at stepped
    next =>
      cases stepped
      obtain ⟨locked,quits,cancelled,stopped,working,fin,returned,sendDone,receiveDone⟩ := orderly side
      exact streams side _ rfl rfl ⟨locked,quits,cancelled,stopped,working,fin,returned,sendDone,receiveDone⟩
    next => contradiction
  | quit side =>
    simp only [step] at stepped
    split at stepped
    next closed =>
      cases stepped
      obtain ⟨locked,quits,cancelled,stopped,_,fin,returned,sendDone,receiveDone⟩ := orderly side
      exact streams side _ rfl rfl ⟨locked,quits,cancelled,stopped,fun open_ => absurd closed open_,fin,returned,
        sendDone,receiveDone⟩
    next => contradiction
  | cancel side =>
    cases stepped
    obtain ⟨locked,quits,_,stopped,working,fin,returned,sendDone,receiveDone⟩ := orderly side
    exact streams side _ rfl rfl ⟨locked,quits,fun _ => rfl,stopped,working,fin,returned,sendDone,receiveDone⟩

end Mail

end Order

section Leaving

/-- The mailbox takes what it is sent; to `leaving` loops, whose context is done, it sends an error. -/
def Outcome.helpful (leaving : Bool) : Outcome := ⟨false,true,true,cond leaving .retry .ok⟩

def SendPlace.rank (leaving : Bool) : SendPlace → Nat
  | .enter => 5
  | .attempt => cond leaving 4 1
  | .connect => 3
  | .check => 2
  | .failed => cond leaving 1 0

def callRank (leaving : Bool) (call : Option SendCall) : Nat := (call.map fun c => c.place.rank leaving).getD 0

def RecvPlace.rank : RecvPlace → Nat
  | .enter => 5
  | .receive => 4
  | .connect => 3
  | .check => 2
  | .failed => 1

/-- A send loop that only wants to leave gets to one of its selects or to a call. -/
def sendLoopRank : SendLoop → Nat
  | .crashed _ => 0
  | .select | .parked => 1
  | .parking => 2
  | .check => 3
  | .waitForSync _ => 4
  | .added _ | .resending _ _ _ => 6
  | .holding _ | .resendTop _ _ => 7
  | .resendBase _ => 8
  | .resend _ => 9

def receiveLoopRank : ReceiveLoop → Nat
  | .crashed _ => 0
  | .ready | .handing _ | .stopped => 1
  | .acknowledged _ | .signalResend => 2
  | .signalACK _ => 3
  | .sized _ => 4

variable {st : Streams} {loop : Loop} {payload : Bytes} {place : SendPlace}

/-- A call that does not wait for the mutex gets on. -/
theorem Streams.sendMove_descends (leaving : Bool) (backed : st.Backed) (working : st.quit = false)
    (leaves : leaving = true → st.ctxDone = true) (called : st.calls loop = some ⟨payload,place⟩)
    (pending : place ≠ .failed)
    (enters : place = .enter → st.sendMu = none)
    (attempts : place = .attempt → ¬ (st.impl = .server ∧ st.sendMu ≠ none)) :
    ∃ st' reached, st.sendMove loop (.helpful leaving) = some (st',reached) ∧
      callRank leaving (st'.calls loop) < callRank leaving (st.calls loop) ∧ (leaving = true → st'.calls loop ≠ none) := by
  have here := backed.sends loop _ called
  have finished (leave : leaving = true) : st.done loop = true := by
    cases loop <;> simp [Streams.done,leaves leave]
  cases place with
  | failed => exact absurd rfl pending
  | enter =>
    by_cases connected : st.sendConnected = true
    · refine ⟨_,_,by rw [Streams.sendMove,called]; exact (if_pos (enters rfl)).trans (if_pos connected),?_⟩
      simp [called,callRank,Streams.setCall,SendPlace.rank]
    · refine ⟨_,_,by rw [Streams.sendMove,called]; exact (if_pos (enters rfl)).trans (if_neg connected),?_⟩
      simp [called,callRank,Streams.setCall,SendPlace.rank]
  | connect =>
    by_cases stopping : st.quit = true ∨ st.done loop = true
    · refine ⟨_,_,by rw [Streams.sendMove,called]; exact if_pos stopping,?_⟩
      simp [called,callRank,Streams.setCall,SendPlace.rank]
    · refine ⟨_,_,by rw [Streams.sendMove,called]; exact (if_neg stopping).trans (if_pos rfl),?_⟩
      simp [called,callRank,Streams.setCall,SendPlace.rank]
  | check =>
    have going : ¬ (st.quit = true ∧ (¬ st.done loop = true ∨ (Outcome.helpful leaving).quits = true)) := by simp [working]
    by_cases over_ : st.done loop = true
    · refine ⟨_,_,by rw [Streams.sendMove,called]; exact (if_neg going).trans (if_pos over_),?_⟩
      cases leaving <;> simp [called,callRank,Streams.setCall,SendPlace.rank]
    · refine ⟨_,_,by rw [Streams.sendMove,called]; exact (if_neg going).trans (if_neg over_),?_⟩
      cases leaving with
      | false => simp [called,callRank,Streams.setCall,SendPlace.rank]
      | true => exact absurd (finished rfl) over_
  | attempt =>
    have connected : st.sendConnected = true := here
    cases leaving with
    | false =>
      refine ⟨_,_,by rw [Streams.sendMove,called]; exact (if_neg (attempts rfl)).trans (if_neg (not_not_intro connected)),?_⟩
      simp [called,callRank,Streams.setCall,SendPlace.rank]
    | true =>
      refine ⟨_,_,by rw [Streams.sendMove,called]; exact (if_neg (attempts rfl)).trans (if_neg (not_not_intro connected)),?_⟩
      simp [called,callRank,Streams.setCall,SendPlace.rank]

/-- Where a call is pending, it or the one that has the mutex gets on. -/
theorem Streams.call_descends (leaving : Bool) (backed : st.Backed) (locked : st.Locked) (working : st.quit = false)
    (leaves : leaving = true → st.ctxDone = true) {call : SendCall} (called : st.calls loop = some call)
    (pending : call.place ≠ .failed) :
    ∃ x old st' reached, st.calls x = some old ∧ old.place ≠ .failed ∧
      st.sendMove x (.helpful leaving) = some (st',reached) ∧
      callRank leaving (st'.calls x) < callRank leaving (st.calls x) ∧ (leaving = true → st'.calls x ≠ none) := by
  by_cases held : st.sendMu = none
  · obtain ⟨payload,place⟩ := call
    obtain ⟨st',reached,moved,smaller⟩ := Streams.sendMove_descends leaving backed working leaves called pending
      (fun _ => held) (fun _ waits => waits.2 held)
    exact ⟨loop,_,st',reached,called,pending,moved,smaller⟩
  · obtain ⟨x,owned⟩ := Option.ne_none_iff_exists'.mp held
    obtain ⟨⟨payload,place⟩,own,owns⟩ := (locked x).mp owned
    have moving : place ≠ .failed := by
      rintro rfl
      exact owns
    have attempts : place = .attempt → ¬ (st.impl = .server ∧ st.sendMu ≠ none) := by
      rintro rfl ⟨server,_⟩
      have client : st.impl = .client := owns
      rw [client] at server
      contradiction
    obtain ⟨st',reached,moved,smaller⟩ := Streams.sendMove_descends leaving backed working leaves own moving
      (by rintro rfl; exact owns.elim) attempts
    exact ⟨x,_,st',reached,own,moving,moved,smaller⟩

variable {e : Endpoint}

/-- The send loop goes on to a place nearer to its selects, or sends a packet. -/
theorem sendStep_descends (safe : ∀ fault, e.sendLoop ≠ .crashed fault) (select : e.sendLoop ≠ .select)
    (parked : e.sendLoop ≠ .parked) :
    ∃ e' messages, e.sendStep (.proceed true) = some (e',messages) ∧ e'.receiveLoop = e.receiveLoop ∧
      (messages = [] ∧ sendLoopRank e'.sendLoop < sendLoopRank e.sendLoop ∨
        messages ≠ [] ∧ 5 < sendLoopRank e.sendLoop) := by
  have defined : (e.sendStep (.proceed true)).isSome = true := by
    simp only [Endpoint.sendStep,Endpoint.sendProceed]
    repeat' split
    all_goals first
      | rfl
      | simp_all
  obtain ⟨⟨e',messages⟩,moved⟩ := Option.isSome_iff_exists.mp defined
  have moves := Endpoint.sendStep_moves (.proceed true) messages moved
  have back (caller : Caller) : sendLoopRank caller.back ≤ 3 := by cases caller <;> decide
  refine ⟨e',messages,moved,moves.kept.1.receiveLoop,?_⟩
  cases moves with
  | transmit recent packet loop => exact .inr ⟨by simp,by simp [loop,sendLoopRank]⟩
  | next recent caller base top next packet loop apart fetched => exact .inr ⟨by simp,by simp [loop,sendLoopRank]⟩
  | skip recent caller loop idle => exact .inl ⟨rfl,Nat.lt_of_le_of_lt (back caller) (by simp [loop,sendLoopRank])⟩
  | emptied recent caller loop => exact .inl ⟨rfl,Nat.lt_of_le_of_lt (back caller) (by simp [loop,sendLoopRank])⟩
  | synced recent caller loop => exact .inl ⟨rfl,Nat.lt_of_le_of_lt (back caller) (by simp [loop,sendLoopRank])⟩
  | _ =>
    refine .inl ⟨rfl,?_⟩
    simp [*,sendLoopRank]

/-- The receive loop gets to where it looks at `quit`. -/
theorem receiveStep_descends (safe : ∀ fault, e.receiveLoop ≠ .crashed fault) (ready : e.receiveLoop ≠ .ready)
    (stopped : e.receiveLoop ≠ .stopped) (handing : ∀ packet, e.receiveLoop ≠ .handing packet) :
    ∃ e', e.receiveStep = some e' ∧ receiveLoopRank e'.receiveLoop < receiveLoopRank e.receiveLoop  := by
  have defined : e.receiveStep.isSome = true := by
    simp only [Endpoint.receiveStep]
    repeat' split
    all_goals first
      | rfl
      | simp_all
  obtain ⟨e',moved⟩ := Option.isSome_iff_exists.mp defined
  refine ⟨e',moved,?_⟩
  cases Endpoint.receiveStep_moves moved with
  | bump packet recvSeq loop computed => cases packet.isPing <;> simp [loop,receiveLoopRank]
  | hand packet loop room => exact absurd loop (handing packet)
  | acknowledge seq gotValidACK queue loop processed => cases gotValidACK <;> simp [loop,receiveLoopRank]
  | wake thenResend loop parked => cases thenResend <;> simp [loop,receiveLoopRank]
  | unheard thenResend loop busy => cases thenResend <;> simp [loop,receiveLoopRank]
  | _ => simp [*,receiveLoopRank]

/-- When the context is done, `recv` gets to its end without a message. -/
theorem Streams.recvMove_descends (backed : st.Backed) (done : st.ctxDone = true) {place : RecvPlace}
    (receiving : st.recv = some place)
    (pending : place ≠ .failed) :
    ∃ next, st.recvMove (.helpful true) = some {st with recv := some next} ∧ next.rank < place.rank := by
  cases place with
  | failed => exact absurd rfl pending
  | enter =>
    refine ⟨if st.receiveConnected then .check else .connect,by rw [Streams.recvMove,receiving],?_⟩
    split <;> decide
  | connect => exact ⟨.check,by simp [Streams.recvMove,receiving,done],by decide⟩
  | check => exact ⟨.failed,by simp [Streams.recvMove,receiving,done],by decide⟩
  | receive =>
    have connected : st.receiveConnected = true := backed.receives _ receiving
    exact ⟨.connect,by simp [Streams.recvMove,receiving,connected,Outcome.helpful],by decide⟩

end Leaving

section Closed

def ClosePlace.rank : ClosePlace → Nat
  | .idle => 6
  | .check => 5
  | .fin => 4
  | .cancel => 3
  | .stop => 2
  | .wait => 1
  | .closed => 0

def sendRank (e : Endpoint) (st : Streams) (c : Closing) : Nat :=
  if c.sendReturned then 0
  else
    match st.calls .sender with
    | some call => call.place.rank true
    | none => sendLoopRank e.sendLoop

def receiveRank (e : Endpoint) (st : Streams) (c : Closing) : Nat :=
  if c.receiveReturned then 0
  else
    match st.calls .receiver, st.recv with
    | some call, _ => call.place.rank true
    | none, some place => place.rank
    | none, none => receiveLoopRank e.receiveLoop

theorem receiveRank_congr {e e' : Endpoint} {st st' : Streams} {c c' : Closing} (loop : e'.receiveLoop = e.receiveLoop)
    (call : st'.calls .receiver = st.calls .receiver) (recv : st'.recv = st.recv)
    (returned : c'.receiveReturned = c.receiveReturned) :
    receiveRank e' st' c' = receiveRank e st c := by
  rw [receiveRank,loop,call,recv,returned,receiveRank]

/-- How far a connection is from being closed; while the FIN is sent, the calls count, then the two loops. -/
def closeRank (e : Endpoint) (st : Streams) (c : Closing) : Nat :=
  100 * c.place.rank +
    match c.place with
    | .fin => callRank false (st.calls .sender) + callRank false (st.calls .receiver) + callRank false (st.calls .closer)
    | .wait => 10 * receiveRank e st c + sendRank e st c
    | .idle | .check | .cancel | .stop | .closed => 0

/-- The steps by which a side closes its connection: its own, without its application and without any cancelling from outside. -/
def MailEvent.ClosesAt (side : Side) : MailEvent → Prop
  | .close x | .closeMove x | .call x _ _ | .send x (.proceed _) | .receive x | .recv x _ _ _ | .sendReturns x
  | .receiveReturns x | .syncQuits x => x = side
  | .send _ _ | .drain _ | .timer _ | .recvBegins _ | .lose _ _ | .finExpires _ | .quit _ | .cancel _ => False

theorem SendPlace.rank_le (leaving : Bool) (place : SendPlace) : place.rank leaving ≤ 5 := by
  cases leaving <;> cases place <;> decide

theorem callRank_le (leaving : Bool) (call : Option SendCall) : callRank leaving call ≤ 5 := by
  cases call with
  | none => exact Nat.zero_le 5
  | some call => exact call.place.rank_le leaving

theorem sendRank_le (e : Endpoint) (st : Streams) (c : Closing) : sendRank e st c ≤ 9 := by
  have place (loop : SendLoop) : sendLoopRank loop ≤ 9 := by cases loop <;> simp [sendLoopRank]
  unfold sendRank
  split
  · exact Nat.zero_le 9
  · split
    · exact (SendPlace.rank_le true _).trans (by decide)
    · exact place _

theorem receiveRank_le (e : Endpoint) (st : Streams) (c : Closing) : receiveRank e st c ≤ 5 := by
  have place (place : RecvPlace) : place.rank ≤ 5 := by cases place <;> decide
  have loop (loop : ReceiveLoop) : receiveLoopRank loop ≤ 5 := by cases loop <;> simp [receiveLoopRank]
  unfold receiveRank
  split
  · exact Nat.zero_le 5
  · split
    · exact SendPlace.rank_le true _
    · exact place _
    · exact loop _

theorem closeRank_lt (e : Endpoint) (st : Streams) (c : Closing) : closeRank e st c < 100 * (c.place.rank + 1) := by
  have sender := callRank_le false (st.calls .sender)
  have receiver := callRank_le false (st.calls .receiver)
  have closer := callRank_le false (st.calls .closer)
  have send := sendRank_le e st c
  have receive := receiveRank_le e st c
  unfold closeRank
  split <;> omega

theorem closeRank_place (e e' : Endpoint) (st st' : Streams) {c c' : Closing} (further : c'.place.rank < c.place.rank) :
    closeRank e' st' c' < closeRank e st c := by
  have bound := closeRank_lt e' st' c'
  have least : 100 * c.place.rank ≤ closeRank e st c := by simp [closeRank]
  omega

namespace Mail

variable {n : UInt8} {s : Mail} {side : Side}

def rankAt (s : Mail) (side : Side) : Nat := closeRank (s.ends side) (s.streams side) (s.closing side)

/-- A step by which the side gets nearer to being closed. -/
def Nears (s : Mail) (side : Side) : Prop :=
  ∃ event s', event.ClosesAt side ∧ s.step event = some s' ∧ s'.rankAt side < s.rankAt side

theorem nears_closeMove (next : ClosePlace)
    (moves : ∃ st c, Mailbox.closeMove (s.streams side) (s.closing side) = some (st,c) ∧ c.place = next)
    (further : next.rank < (s.closing side).place.rank) : s.Nears side := by
  obtain ⟨st,c,moved,rfl⟩ := moves
  refine ⟨.closeMove side,(s.setStreams side st).setClosing side c,rfl,by simp [step,moved],?_⟩
  simpa [rankAt,setStreams,setClosing] using closeRank_place _ _ _ _ further

theorem nears_call {loop : Loop} {outcome : Outcome} {st : Streams} {reached : List Bytes}
    (moved : (s.streams side).sendMove loop outcome = some (st,reached))
    (smaller : closeRank (s.ends side) st (s.closing side) < s.rankAt side) : s.Nears side := by
  refine ⟨.call side loop outcome,_,rfl,by simp only [step,moved,Option.map_some]; rfl,?_⟩
  simpa [rankAt,setStreams] using smaller

theorem Sound.sendLoop_safe (sound : s.Sound n) (side : Side) (fault : Fault) : (s.ends side).sendLoop ≠ .crashed fault := by
  obtain ⟨_,_,_,net⟩ := sound.safe
  have place := (net.sender side).place
  intro crashed
  have loop : (s.ahead.ends side).sendLoop = .crashed fault := crashed
  rw [loop] at place
  exact place

theorem Sound.receiveLoop_safe (sound : s.Sound n) (side : Side) (fault : Fault) :
    (s.ends side).receiveLoop ≠ .crashed fault := by
  obtain ⟨_,_,_,net⟩ := sound.safe
  have place := (net.receiver side).place
  intro crashed
  have loop : (s.ahead.ends side).receiveLoop = .crashed fault := crashed
  rw [loop] at place
  exact place

/-- While the FIN is sent, every pending call can be completed. -/
theorem nears_fin (sound : s.Sound n) (orderly : Orderly (s.streams side) (s.closing side))
    (place : (s.closing side).place = .fin) : s.Nears side := by
  have working := orderly.working (by simp [place])
  have complete (call : SendCall) (called : (s.streams side).calls .closer = some call) (pending : call.place ≠ .failed) :
      s.Nears side := by
    obtain ⟨x,old,st,reached,_,_,moved,smaller,_⟩ := Streams.call_descends false (sound.backed side) orderly.locked
      working (by simp)
      called pending
    obtain ⟨_,_,_,sends⟩ := Streams.sendMove_sends moved
    obtain ⟨_,_,_,_,_,others⟩ := sends.frame
    refine nears_call moved ?_
    simp only [rankAt,closeRank,place]
    cases x with
    | sender =>
      rw [others .receiver (by decide),others .closer (by decide)]
      omega
    | receiver =>
      rw [others .sender (by decide),others .closer (by decide)]
      omega
    | closer =>
      rw [others .sender (by decide),others .receiver (by decide)]
      omega
  cases called : (s.streams side).calls .closer with
  | none => exact nears_closeMove .cancel ⟨_,_,by simp only [Mailbox.closeMove,place,called]; rfl,rfl⟩ (by rw [place]; decide)
  | some call =>
    by_cases failed : call.place = .failed
    · obtain ⟨payload,_⟩ := call
      cases failed
      exact nears_closeMove .cancel ⟨_,_,by simp only [Mailbox.closeMove,place,called]; rfl,rfl⟩ (by rw [place]; decide)
    · exact complete call called failed

section Wait

variable (sound : s.Sound n) (orderly : Orderly (s.streams side) (s.closing side)) (place : (s.closing side).place = .wait)

include place in
theorem nears_leaving {event : MailEvent} {s' : Mail} (stepped : s.step event = some s') (may : event.ClosesAt side)
    (waits : (s'.closing side).place = .wait)
    (shorter : receiveRank (s'.ends side) (s'.streams side) (s'.closing side) <
        receiveRank (s.ends side) (s.streams side) (s.closing side) ∨
      receiveRank (s'.ends side) (s'.streams side) (s'.closing side) =
        receiveRank (s.ends side) (s.streams side) (s.closing side) ∧
        sendRank (s'.ends side) (s'.streams side) (s'.closing side) <
          sendRank (s.ends side) (s.streams side) (s.closing side)) : s.Nears side := by
  have bound := sendRank_le (s'.ends side) (s'.streams side) (s'.closing side)
  refine ⟨event,s',may,stepped,?_⟩
  simp only [rankAt,closeRank,place,waits]
  omega

include sound orderly place in
/-- A call of a loop fails once the context is done. -/
theorem nears_failing {loop : Loop} {call : SendCall} (called : (s.streams side).calls loop = some call)
    (pending : call.place ≠ .failed) : s.Nears side := by
  have done := orderly.cancelled (.inr (.inl place))
  have working := orderly.working (by simp [place])
  obtain ⟨x,old,st,reached,own,busy,moved,smaller,still⟩ := Streams.call_descends true (sound.backed side)
    orderly.locked working
    (fun _ => done) called pending
  obtain ⟨_,_,_,sends⟩ := Streams.sendMove_sends moved
  obtain ⟨_,_,_,_,recv,others⟩ := sends.frame
  obtain ⟨new,moving⟩ := Option.ne_none_iff_exists'.mp (still rfl)
  rw [own,moving] at smaller
  have less : new.place.rank true < old.place.rank true := smaller
  have stepped : s.step (.call side x (.helpful true)) =
      some {s.setStreams side st with wire := Function.update s.wire side.other (s.wire side.other ++ reached)} := by
    simp only [step,moved,Option.map_some]
  refine nears_leaving place stepped rfl place ?_
  simp only [setStreams,Function.update_self]
  cases x with
  | sender =>
    have returned : (s.closing side).sendReturned = false := by
      rw [← Bool.not_eq_true]
      exact fun returned => busy (orderly.sendDone returned old own)
    refine .inr ⟨receiveRank_congr rfl (others .receiver (by decide)) recv rfl,?_⟩
    simpa [sendRank,own,moving,returned] using less
  | receiver =>
    have returned : (s.closing side).receiveReturned = false := by
      rw [← Bool.not_eq_true]
      exact fun returned => busy ((orderly.receiveDone returned).1 old own)
    refine .inl ?_
    simpa [receiveRank,own,moving,returned] using less
  | closer =>
    have none_ := orderly.fin (by simp [place])
    rw [own] at none_
    contradiction

include sound orderly place in
theorem nears_send (working : (s.closing side).sendReturned = false) : s.Nears side := by
  have quit := orderly.quits (by simp [place])
  have queueQuit := orderly.stopped (.inl place)
  have returns (ends : sendEnds (s.ends side) (s.streams side) (s.closing side) = true)
      (positive : 0 < sendRank (s.ends side) (s.streams side) (s.closing side)) : s.Nears side := by
    have receiving : (Mailbox.sendReturns (s.ends side)).receiveLoop = (s.ends side).receiveLoop := by
      unfold Mailbox.sendReturns
      split <;> rfl
    have stepped : s.step (.sendReturns side) = some ((s.setEnd side (Mailbox.sendReturns (s.ends side))).setClosing side
        {s.closing side with sendReturned := true}) := if_pos ⟨working,ends⟩
    refine nears_leaving place stepped rfl (by simpa [setClosing] using place) (.inr ?_)
    simp only [setClosing,setEnd,Function.update_self]
    exact ⟨receiveRank_congr receiving rfl rfl rfl,by simpa [sendRank] using positive⟩
  cases called : (s.streams side).calls .sender with
  | some call =>
    by_cases failed : call.place = .failed
    · exact returns (by simp [sendEnds,called,failed]) (by simp [sendRank,working,called,failed,SendPlace.rank])
    · exact nears_failing sound orderly place called failed
  | none =>
    have current : sendRank (s.ends side) (s.streams side) (s.closing side) = sendLoopRank (s.ends side).sendLoop := by
      simp [sendRank,working,called]
    by_cases select : (s.ends side).sendLoop = .select
    · exact returns (by simp [sendEnds,called,select]) (by simp [current,select,sendLoopRank])
    by_cases parked : (s.ends side).sendLoop = .parked
    · exact returns (by simp [sendEnds,called,parked,quit]) (by simp [current,parked,sendLoopRank])
    obtain ⟨e,messages,sent,receiving,nearer⟩ := sendStep_descends (sound.sendLoop_safe side) select parked
    have stepped : s.step (.send side (.proceed true)) =
        some ((s.setEnd side e).setStreams side ((s.streams side).setCall .sender (begins messages))) := by
      simp [step,working,called,sent]
    refine nears_leaving place stepped rfl place (.inr ?_)
    simp only [setStreams,setEnd,Function.update_self,current]
    refine ⟨receiveRank_congr receiving (by simp [Streams.setCall]) rfl rfl,?_⟩
    rcases nearer with ⟨rfl,less⟩ | ⟨some_,more⟩
    · simpa [sendRank,working,Streams.setCall,begins] using less
    · obtain ⟨message,rest,rfl⟩ := List.exists_cons_of_ne_nil some_
      simpa [sendRank,working,Streams.setCall,begins,SendPlace.rank] using more

include sound orderly place in
theorem nears_receive (working : (s.closing side).receiveReturned = false) : s.Nears side := by
  have quit := orderly.quits (by simp [place])
  have done := orderly.cancelled (.inr (.inl place))
  have returns (ends : receiveEnds (s.ends side) (s.streams side) (s.closing side) = true)
      (positive : 0 < receiveRank (s.ends side) (s.streams side) (s.closing side)) : s.Nears side := by
    have stepped : s.step (.receiveReturns side) = some (s.setClosing side {s.closing side with receiveReturned := true}) :=
      if_pos ⟨working,ends⟩
    refine nears_leaving place stepped rfl (by simpa [setClosing] using place) (.inl ?_)
    simpa [setClosing,receiveRank] using positive
  cases called : (s.streams side).calls .receiver with
  | some call =>
    by_cases failed : call.place = .failed
    · exact returns (by simp [receiveEnds,called,failed]) (by simp [receiveRank,working,called,failed,SendPlace.rank])
    · exact nears_failing sound orderly place called failed
  | none =>
    cases receiving : (s.streams side).recv with
    | some current =>
      by_cases failed : current = .failed
      · exact returns (by simp [receiveEnds,called,receiving,failed])
          (by simp [receiveRank,working,called,receiving,failed,RecvPlace.rank])
      obtain ⟨next,moved,less⟩ := Streams.recvMove_descends (sound.backed side) done receiving failed
      have stepped : s.step (.recv side (.helpful true) false false) =
          some (s.setStreams side {s.streams side with recv := some next}) := by
        simp [step,moved]
      refine nears_leaving place stepped rfl place (.inl ?_)
      simpa [setStreams,receiveRank,working,called,receiving] using less
    | none =>
      have current : receiveRank (s.ends side) (s.streams side) (s.closing side) = receiveLoopRank (s.ends side).receiveLoop := by
        simp [receiveRank,working,called,receiving]
      by_cases ready : (s.ends side).receiveLoop = .ready
      · exact returns (by simp [receiveEnds,called,receiving,ready,quit]) (by simp [current,ready,receiveLoopRank])
      by_cases stopped : (s.ends side).receiveLoop = .stopped
      · exact returns (by simp [receiveEnds,called,receiving,stopped]) (by simp [current,stopped,receiveLoopRank])
      by_cases handing : ∃ packet, (s.ends side).receiveLoop = .handing packet
      · obtain ⟨packet,handing⟩ := handing
        exact returns (by simp [receiveEnds,called,receiving,handing,quit]) (by simp [current,handing,receiveLoopRank])
      obtain ⟨e,moved,less⟩ := receiveStep_descends (sound.receiveLoop_safe side) ready stopped (not_exists.mp handing)
      have stepped : s.step (.receive side) = some (s.setEnd side e) := by simp [step,working,called,moved]
      refine nears_leaving place stepped rfl place (.inl ?_)
      simpa [setEnd,receiveRank,working,called,receiving] using less

include sound orderly place in
theorem nears_wait : s.Nears side := by
  cases sendReturned : (s.closing side).sendReturned with
  | false => exact nears_send sound orderly place sendReturned
  | true =>
    cases receiveReturned : (s.closing side).receiveReturned with
    | false => exact nears_receive sound orderly place receiveReturned
    | true =>
      exact nears_closeMove .closed
        ⟨_,_,by simp only [Mailbox.closeMove,place,sendReturned,receiveReturned]; rfl,rfl⟩ (by rw [place]; decide)

end Wait

theorem nears (sound : s.Sound n) (orderly : Orderly (s.streams side) (s.closing side))
    (working : (s.closing side).place ≠ .closed) : s.Nears side := by
  cases place : (s.closing side).place with
  | closed => exact absurd place working
  | idle =>
    refine ⟨.close side,_,rfl,by rw [step,if_pos place],?_⟩
    have further : ClosePlace.check.rank < (s.closing side).place.rank := by rw [place]; decide
    simpa [rankAt,setClosing] using closeRank_place _ _ _ _ further
  | check =>
    cases remote : (s.closing side).remoteClosed with
    | false => exact nears_closeMove .fin ⟨_,_,by simp only [Mailbox.closeMove,place,remote]; rfl,rfl⟩ (by rw [place]; decide)
    | true =>
      exact nears_closeMove .cancel ⟨_,_,by simp only [Mailbox.closeMove,place,remote]; rfl,rfl⟩
        (by rw [place]; decide)
  | fin => exact nears_fin sound orderly place
  | cancel => exact nears_closeMove .stop ⟨_,_,by simp only [Mailbox.closeMove,place]; rfl,rfl⟩ (by rw [place]; decide)
  | stop => exact nears_closeMove .wait ⟨_,_,by simp only [Mailbox.closeMove,place]; rfl,rfl⟩ (by rw [place]; decide)
  | wait => exact nears_wait sound orderly place

theorem initial_orderly (n : UInt8) (x : Side) : Orderly ((initial n).streams x) ((initial n).closing x) := by
  constructor <;> simp [initial,Streams.Locked]

def Running (n : UInt8) (s : Mail) : Prop := s.Sound n ∧ ∀ x, Orderly (s.streams x) (s.closing x)

theorem step_running (n : UInt8) (positive : 1 ≤ n.toNat) (s : Mail) (event : MailEvent) (next : Mail) (running : s.Running n)
    (stepped : s.step event = some next) : next.Running n :=
  ⟨step_sound n positive s event next running.1 stepped,step_orderly event running.1 running.2 stepped⟩

theorem run_running (n : UInt8) (lower : 1 ≤ n.toNat) (upper : n.toNat ≤ 254) (events : List MailEvent) (s : Mail)
    (reached : run step (initial n) events = some s) : s.Running n :=
  run_invariant step (Running n) (step_running n lower) events _ s ⟨initial_sound n lower upper,initial_orderly n⟩ reached

/-- From every state a side can close its connection by steps of its own, whatever it is doing and whatever
its peer does or has stopped doing, as long as the mailbox answers. -/
theorem close_possible (n : UInt8) (lower : 1 ≤ n.toNat) (upper : n.toNat ≤ 254) (events : List MailEvent) (s : Mail)
    (reached : run step (initial n) events = some s) (side : Side) :
    ∃ s', Leads step (MailEvent.ClosesAt side) s s' ∧ (s'.closing side).place = .closed := by
  obtain ⟨s',leads,_,closed⟩ := Leads.descend (Running n) (fun s => (s.closing side).place = .closed) (fun s => s.rankAt side)
    (fun s running working => by
      obtain ⟨event,next,may,stepped,nearer⟩ := nears running.1 (running.2 side) working
      exact ⟨next,.single event may stepped,step_running n lower s event next running stepped,nearer⟩)
    s (run_running n lower upper events s reached)
  exact ⟨s',leads,closed⟩

/-- The client's first packet finds no stream, and none can be made. -/
def packetWaits : List MailEvent :=
  let call : MailEvent := .call .client .sender ⟨false,false,false,.ok⟩
  [.send .client (.take [7] true),.send .client (.proceed false),.send .client (.proceed false),call,call]

theorem close_possible_connecting : ∃ s, run step (initial 2) packetWaits = some s ∧
    (s.streams .client).sendMu = some .sender ∧
    ∃ s', Leads step (MailEvent.ClosesAt .client) s s' ∧ (s'.closing .client).place = .closed := by
  have result : (run step (initial 2) packetWaits).map (fun s => (s.streams .client).sendMu) = some (some .sender) := by decide
  obtain ⟨s,reached,held⟩ := Option.map_eq_some_iff.mp result
  exact ⟨s,reached,held,close_possible 2 (by decide) (by decide) _ s reached .client⟩

end Mail

end Closed

section Silent

def MailEvent.side : MailEvent → Side
  | .send x _ | .receive x | .drain x | .timer x | .call x _ _ | .recvBegins x | .recv x _ _ _ | .lose x _ | .sendReturns x
  | .receiveReturns x | .syncQuits x | .close x | .closeMove x | .finExpires x | .quit x | .cancel x => x

theorem eq_other_of_ne {x side : Side} (apart : x ≠ side) : x = side.other := by
  revert apart
  cases x <;> cases side <;> decide

namespace Mail

variable {n : UInt8} {s s' : Mail} {side : Side}

/-- A step of the other side: all it can do to this one is to take messages from the mailbox, or to put some there. -/
structure Apart (side : Side) (s s' : Mail) : Prop where
  ends : s'.ends side = s.ends side
  streams : s'.streams side = s.streams side
  closing : s'.closing side = s.closing side
  wire : (s'.wire side.other).Sublist (s.wire side.other)

theorem step_apart (event : MailEvent) (other : event.side = side.other) (stepped : s.step event = some s') :
    Apart side s s' := by
  have apart := side.other_ne.symm
  have unread {s' : Mail} (ends : ∃ e, s'.ends = Function.update s.ends side.other e)
      (streams : ∃ st, s'.streams = Function.update s.streams side.other st)
      (closing : ∃ c, s'.closing = Function.update s.closing side.other c)
      (wire : (s'.wire side.other).Sublist (s.wire side.other)) : Apart side s s' := by
    obtain ⟨e,ends⟩ := ends
    obtain ⟨st,streams⟩ := streams
    obtain ⟨c,closing⟩ := closing
    refine ⟨?_,?_,?_,wire⟩
    · rw [ends,Function.update_of_ne apart]
    · rw [streams,Function.update_of_ne apart]
    · rw [closing,Function.update_of_ne apart]
  have sameEnds : ∃ e, s.ends = Function.update s.ends side.other e := ⟨_,(Function.update_eq_self _ _).symm⟩
  have sameStreams : ∃ st, s.streams = Function.update s.streams side.other st := ⟨_,(Function.update_eq_self _ _).symm⟩
  have sameClosing : ∃ c, s.closing = Function.update s.closing side.other c := ⟨_,(Function.update_eq_self _ _).symm⟩
  have same := List.Sublist.refl (s.wire side.other)
  cases event with
  | send x action =>
    obtain rfl : x = side.other := other
    simp only [step] at stepped
    split at stepped
    next =>
      obtain ⟨_,_,rfl⟩ := Option.map_eq_some_iff.mp stepped
      exact unread ⟨_,rfl⟩ ⟨_,rfl⟩ sameClosing same
    next => contradiction
  | receive x =>
    obtain rfl : x = side.other := other
    simp only [step] at stepped
    split at stepped
    next =>
      obtain ⟨_,_,rfl⟩ := Option.map_eq_some_iff.mp stepped
      exact unread ⟨_,rfl⟩ sameStreams sameClosing same
    next => contradiction
  | drain x =>
    obtain rfl : x = side.other := other
    obtain ⟨_,_,rfl⟩ := Option.map_eq_some_iff.mp stepped
    exact unread ⟨_,rfl⟩ sameStreams sameClosing same
  | timer x =>
    obtain rfl : x = side.other := other
    obtain ⟨_,_,rfl⟩ := Option.map_eq_some_iff.mp stepped
    exact unread ⟨_,rfl⟩ sameStreams sameClosing same
  | call x loop outcome =>
    obtain rfl : x = side.other := other
    obtain ⟨_,_,rfl⟩ := Option.map_eq_some_iff.mp stepped
    refine unread sameEnds ⟨_,rfl⟩ sameClosing ?_
    simp only [Side.other_other,Function.update_of_ne side.other_ne]
    exact same
  | recvBegins x =>
    obtain rfl : x = side.other := other
    simp only [step] at stepped
    split at stepped <;> cases stepped
    exact unread sameEnds ⟨_,rfl⟩ sameClosing same
  | recv x outcome keep recentlySent =>
    obtain rfl : x = side.other := other
    simp only [step] at stepped
    split at stepped
    next => contradiction
    next =>
      split at stepped
      next =>
        split at stepped <;> cases stepped
        next bytes rest ready wire =>
          refine unread ⟨_,rfl⟩ ⟨_,rfl⟩ ⟨_,rfl⟩ ?_
          simp only [Function.update_self,wire]
          cases keep
          · exact List.sublist_cons_self _ _
          · exact List.Sublist.refl _
      next =>
        cases stepped
        exact unread sameEnds ⟨_,rfl⟩ sameClosing same
  | lose x index =>
    obtain rfl : x = side.other := other
    simp only [step] at stepped
    split at stepped <;> cases stepped
    refine unread sameEnds sameStreams sameClosing ?_
    simp only [Function.update_self]
    exact List.eraseIdx_sublist _ _
  | sendReturns x =>
    obtain rfl : x = side.other := other
    simp only [step] at stepped
    split at stepped <;> cases stepped
    exact unread ⟨_,rfl⟩ sameStreams ⟨_,rfl⟩ same
  | receiveReturns x =>
    obtain rfl : x = side.other := other
    simp only [step] at stepped
    split at stepped <;> cases stepped
    exact unread sameEnds sameStreams ⟨_,rfl⟩ same
  | syncQuits x =>
    obtain rfl : x = side.other := other
    simp only [step] at stepped
    split at stepped
    next =>
      obtain ⟨_,_,rfl⟩ := Option.map_eq_some_iff.mp stepped
      exact unread ⟨_,rfl⟩ sameStreams sameClosing same
    next => contradiction
  | close x =>
    obtain rfl : x = side.other := other
    simp only [step] at stepped
    split at stepped <;> cases stepped
    exact unread sameEnds sameStreams ⟨_,rfl⟩ same
  | closeMove x =>
    obtain rfl : x = side.other := other
    obtain ⟨_,_,rfl⟩ := Option.map_eq_some_iff.mp stepped
    exact unread sameEnds ⟨_,rfl⟩ ⟨_,rfl⟩ same
  | finExpires x =>
    obtain rfl : x = side.other := other
    simp only [step] at stepped
    split at stepped <;> cases stepped
    exact unread sameEnds ⟨_,rfl⟩ sameClosing same
  | quit x =>
    obtain rfl : x = side.other := other
    simp only [step] at stepped
    split at stepped <;> cases stepped
    exact unread sameEnds ⟨_,rfl⟩ sameClosing same
  | cancel x =>
    obtain rfl : x = side.other := other
    cases stepped
    exact unread sameEnds ⟨_,rfl⟩ sameClosing same

/-- What a closed connection no longer does: it sends nothing, takes nothing from its application and hands it nothing. -/
structure Silent (side : Side) (s s' : Mail) : Prop where
  wire : (s'.wire side.other).Sublist (s.wire side.other)
  taken : (s'.ends side).taken = (s.ends side).taken
  handed : (s'.ends side).handed = (s.ends side).handed
  closed : (s'.closing side).place = .closed

theorem Apart.silent (apart : Apart side s s') (closed : (s.closing side).place = .closed) : Silent side s s' :=
  ⟨apart.wire,by rw [apart.ends],by rw [apart.ends],by rw [apart.closing]; exact closed⟩

end Mail

end Silent

section Offline

/-- No stream to the mailbox can be made, none brings a message, and nobody cancels the context of the connection. -/
def MailEvent.Offline (side : Side) : MailEvent → Prop
  | .call x _ outcome => x = side → outcome.connects = false
  | .recv x outcome _ _ => x = side → outcome.result ≠ .ok
  | .cancel x => x ≠ side
  | _ => True

/-- A loop has the mutex and looks for a stream; `Close` can come no further than to its FIN. -/
structure Stalled (loop : Loop) (st : Streams) (c : Closing) : Prop where
  connecting : ∃ payload, st.calls loop = some ⟨payload,.connect⟩
  open_ : st.ctxDone = false
  remote : c.remoteClosed = false
  place : c.place = .idle ∨ c.place = .check ∨ c.place = .fin ∧ ∃ payload, st.calls .closer = some ⟨payload,.enter⟩

namespace Stalled

variable {loop : Loop} {st st' : Streams} {c : Closing} (stalled : Stalled loop st c) (orderly : Orderly st c)
  (loops : loop ≠ .closer)

include stalled orderly in
theorem working : st.quit = false ∧ st.sendMu = some loop := by
  obtain ⟨payload,connecting⟩ := stalled.connecting
  refine ⟨orderly.working ?_,(orderly.locked loop).mpr ⟨_,connecting,trivial⟩⟩
  rcases stalled.place with place | place | ⟨place,_⟩ <;> simp [place]

include stalled in
theorem frame (same : st'.calls loop = st.calls loop) (fin : c.place = .fin → st'.calls .closer = st.calls .closer)
    (open_ : st'.ctxDone = st.ctxDone) : Stalled loop st' c := by
  refine ⟨same ▸ stalled.connecting,open_.trans stalled.open_,stalled.remote,?_⟩
  rcases stalled.place with place | place | ⟨place,waits⟩
  · exact .inl place
  · exact .inr (.inl place)
  · exact .inr (.inr ⟨place,fin place ▸ waits⟩)

include stalled orderly in
theorem closer_enters {call : SendCall} (called : st.calls .closer = some call) : call.place = .enter := by
  by_cases fin : c.place = .fin
  · rcases stalled.place with place | place | ⟨_,payload,waits⟩
    · simp [place] at fin
    · simp [place] at fin
    · rw [waits] at called
      cases called
      rfl
  · rw [orderly.fin fin] at called
    contradiction

include stalled orderly loops in
/-- The loop finds no stream, nobody else gets the mutex, and the timeout of the FIN is not looked at before. -/
theorem call {x : Loop} {outcome : Outcome} {reached : List Bytes} (offline : outcome.connects = false)
    (moved : st.sendMove x outcome = some (st',reached)) : Stalled loop st' c := by
  obtain ⟨working,owned⟩ := stalled.working orderly
  have going (y : Loop) (other : y ≠ .closer) : st.done y = false := by
    cases y with
    | closer => exact absurd rfl other
    | _ => exact stalled.open_
  by_cases here : x = loop
  · subst here
    obtain ⟨payload,connecting⟩ := stalled.connecting
    have stuck : st.sendMove x outcome = some (st,[]) := by
      simp [Streams.sendMove,connecting,working,going x loops,offline]
    rw [stuck] at moved
    cases moved
    exact stalled
  obtain ⟨payload,place,called,sends⟩ := Streams.sendMove_sends moved
  have unowned : ¬ place.Owns st.impl := by
    intro owns
    rw [(orderly.locked x).mpr ⟨_,called,owns⟩] at owned
    exact here (Option.some.inj owned)
  have attempts (free : ¬ (st.impl = .server ∧ st.sendMu ≠ none)) (attempt : place = .attempt) : False := by
    subst attempt
    cases impl : st.impl with
    | client => exact unowned impl
    | server => exact free ⟨impl,by simp [owned]⟩
  cases sends with
  | finds free connected => simp [owned] at free
  | misses free missing => simp [owned] at free
  | givesUp stopping => exact absurd trivial unowned
  | connects => exact absurd trivial unowned
  | waits => exact stalled
  | quits quit => simp [working] at quit
  | fails finished =>
    have other : x ≠ .closer := by
      rintro rfl
      simpa using stalled.closer_enters orderly called
    simp [going x other] at finished
  | tries _ =>
    have other : x ≠ .closer := by
      rintro rfl
      simpa using stalled.closer_enters orderly called
    exact stalled.frame (Function.update_of_ne (Ne.symm here) _ _) (fun _ => Function.update_of_ne other.symm _ _) rfl
  | faults missing => exact stalled.frame rfl (fun _ => rfl) rfl
  | sent free reaches => exact (attempts free rfl).elim
  | retries free reaches => exact (attempts free rfl).elim
  | rejected client reaches => exact absurd client unowned

include stalled in
theorem closing {c' : Closing} (remote : c'.remoteClosed = c.remoteClosed) (place : c'.place = c.place) : Stalled loop st c' :=
  ⟨stalled.connecting,stalled.open_,remote.trans stalled.remote,place ▸ stalled.place⟩

include stalled loops in
theorem closeMove {c' : Closing} (moved : closeMove st c = some (st',c')) : Stalled loop st' c' := by
  rcases stalled.place with place | place | ⟨place,payload,waits⟩
  · simp [Mailbox.closeMove,place] at moved
  · have begun : st' = st.setCall .closer (begins [.fin]) ∧ c' = {c with place := .fin} := by
      simpa [Mailbox.closeMove,place,stalled.remote,eq_comm] using moved
    obtain ⟨rfl,rfl⟩ := begun
    refine ⟨?_,stalled.open_,stalled.remote,.inr (.inr ⟨rfl,serialize .fin,by simp [Streams.setCall,begins]⟩)⟩
    obtain ⟨payload,connecting⟩ := stalled.connecting
    exact ⟨payload,by simpa [Streams.setCall,loops] using connecting⟩
  · simp [Mailbox.closeMove,place,waits] at moved

end Stalled

/-- Without a message, `recv` goes on or fails. -/
theorem Streams.recvMove_busy {st st' : Streams} {outcome : Outcome} (none_ : outcome.result ≠ .ok)
    (moved : st.recvMove outcome = some st') : st'.recv ≠ none ∧ st'.calls = st.calls ∧ st'.ctxDone = st.ctxDone := by
  unfold Streams.recvMove at moved
  split at moved
  next => contradiction
  next => contradiction
  next => cases moved; exact ⟨by simp,rfl,rfl⟩
  next connecting =>
    split_ifs at moved <;> cases moved
    · exact ⟨by simp,rfl,rfl⟩
    · exact ⟨by simp,rfl,rfl⟩
    · exact ⟨by simp [connecting],rfl,rfl⟩
  next => split_ifs at moved <;> cases moved <;> exact ⟨by simp,rfl,rfl⟩
  next receiving =>
    split_ifs at moved
    · split at moved
      · contradiction
      all_goals cases moved; exact ⟨by simp,rfl,rfl⟩
    · cases moved
      exact ⟨by simp [receiving],rfl,rfl⟩

namespace Mail

variable {n : UInt8} {s s' : Mail} {side : Side} {loop : Loop}

theorem step_stalled (running : s.Running n) (loops : loop ≠ .closer) (stalled : Stalled loop (s.streams side) (s.closing side))
    (event : MailEvent) (offline : event.Offline side) (stepped : s.step event = some s') :
    Stalled loop (s'.streams side) (s'.closing side) := by
  by_cases own : event.side = side
  · have orderly := running.2 side
    have streams (st : Streams) (stalled : Stalled loop st (s.closing side)) :
        Stalled loop ((s.setStreams side st).streams side) (s.closing side) := by
      simpa [setStreams] using stalled
    have closing (c : Closing) (stalled : Stalled loop (s.streams side) c) :
        Stalled loop (s.streams side) ((s.setClosing side c).closing side) := by
      simpa [setClosing] using stalled
    cases event with
    | send x action =>
      obtain rfl : x = side := own
      simp only [step] at stepped
      split at stepped
      next free =>
        obtain ⟨_,_,rfl⟩ := Option.map_eq_some_iff.mp stepped
        have other : loop ≠ .sender := by
          rintro rfl
          obtain ⟨_,connecting⟩ := stalled.connecting
          rw [free.2] at connecting
          contradiction
        exact streams _ (stalled.frame (Function.update_of_ne other _ _) (fun _ => by simp [Streams.setCall]) rfl)
      next => contradiction
    | receive x =>
      simp only [step] at stepped
      split at stepped
      next =>
        obtain ⟨_,_,rfl⟩ := Option.map_eq_some_iff.mp stepped
        exact stalled
      next => contradiction
    | drain x =>
      obtain ⟨_,_,rfl⟩ := Option.map_eq_some_iff.mp stepped
      exact stalled
    | timer x =>
      obtain ⟨_,_,rfl⟩ := Option.map_eq_some_iff.mp stepped
      exact stalled
    | call x y outcome =>
      obtain rfl : x = side := own
      obtain ⟨⟨st,reached⟩,moved,rfl⟩ := Option.map_eq_some_iff.mp stepped
      exact streams st (stalled.call orderly loops (offline rfl) moved)
    | recvBegins x =>
      obtain rfl : x = side := own
      simp only [step] at stepped
      split at stepped <;> cases stepped
      exact streams _ (stalled.frame rfl (fun _ => rfl) rfl)
    | recv x outcome keep recentlySent =>
      obtain rfl : x = side := own
      simp only [step] at stepped
      split at stepped
      next => contradiction
      next st moved =>
        obtain ⟨busy,calls,ctxDone⟩ := Streams.recvMove_busy (offline rfl) moved
        rw [if_neg busy] at stepped
        cases stepped
        exact streams st (stalled.frame (by rw [calls]) (fun _ => by rw [calls]) ctxDone)
    | lose x index =>
      simp only [step] at stepped
      split at stepped <;> cases stepped
      exact stalled
    | sendReturns x =>
      obtain rfl : x = side := own
      simp only [step] at stepped
      split at stepped <;> cases stepped
      exact closing _ (stalled.closing rfl rfl)
    | receiveReturns x =>
      obtain rfl : x = side := own
      simp only [step] at stepped
      split at stepped <;> cases stepped
      exact closing _ (stalled.closing rfl rfl)
    | syncQuits x =>
      simp only [step] at stepped
      split at stepped
      next =>
        obtain ⟨_,_,rfl⟩ := Option.map_eq_some_iff.mp stepped
        exact stalled
      next => contradiction
    | close x =>
      obtain rfl : x = side := own
      simp only [step] at stepped
      split at stepped <;> cases stepped
      exact closing _ ⟨stalled.connecting,stalled.open_,stalled.remote,.inr (.inl rfl)⟩
    | closeMove x =>
      obtain rfl : x = side := own
      obtain ⟨⟨st,c⟩,moved,rfl⟩ := Option.map_eq_some_iff.mp stepped
      simpa [setStreams,setClosing] using stalled.closeMove loops moved
    | finExpires x =>
      obtain rfl : x = side := own
      simp only [step] at stepped
      split at stepped <;> cases stepped
      exact streams _ (stalled.frame rfl (fun _ => rfl) rfl)
    | quit x =>
      obtain rfl : x = side := own
      simp only [step] at stepped
      split at stepped
      next closed => rcases stalled.place with place | place | ⟨place,_⟩ <;> simp [place] at closed
      next => contradiction
    | cancel x => exact absurd own offline
  · obtain ⟨_,streams,closing,_⟩ := step_apart event (eq_other_of_ne own) stepped
    rw [streams,closing]
    exact stalled

/-- While the mailbox is out of reach, a `Close` that finds a loop at looking for a stream does not return: its FIN
waits for the mutex of that loop, neither the timeout of the FIN nor the context ends the wait, and the context is
cancelled only after the FIN. -/
theorem close_waits_for_mailbox (n : UInt8) (lower : 1 ≤ n.toNat) (upper : n.toNat ≤ 254) (events : List MailEvent) (s : Mail)
    (reached : run step (initial n) events = some s) (side : Side) (loop : Loop) (loops : loop ≠ .closer) (payload : Bytes)
    (connecting : (s.streams side).calls loop = some ⟨payload,.connect⟩) (going : (s.streams side).ctxDone = false)
    (remote : (s.closing side).remoteClosed = false) (idle : (s.closing side).place = .idle) (later : List MailEvent)
    (offline : ∀ event ∈ later, event.Offline side) (final : Mail) (ran : run step s later = some final) :
    (final.closing side).place ≠ .closed ∧ (final.streams side).ctxDone = false := by
  have start : Stalled loop (s.streams side) (s.closing side) := ⟨⟨payload,connecting⟩,going,remote,.inl idle⟩
  have leads : Leads step (MailEvent.Offline side) s final := ⟨later,offline,ran⟩
  obtain ⟨_,stalled⟩ := leads.invariant (fun s => s.Running n ∧ Stalled loop (s.streams side) (s.closing side))
    (fun s event next holds may stepped => ⟨step_running n lower s event next holds.1 stepped,
      step_stalled holds.1 loops holds.2 event may stepped⟩)
    ⟨run_running n lower upper events s reached,start⟩
  refine ⟨?_,stalled.open_⟩
  rcases stalled.place with place | place | ⟨place,_⟩ <;> simp [place]

/-- The timeout of the FIN passes, and the loop still looks for a stream. -/
def finTimesOut : List MailEvent :=
  [.close .client,.closeMove .client,.finExpires .client,.call .client .sender ⟨false,false,false,.ok⟩]

theorem close_waits_for_mailbox_timeout : ∃ s, run step (initial 2) packetWaits = some s ∧
    ∃ final, run step s finTimesOut = some final ∧ (final.streams .client).finExpired = true ∧
      (final.closing .client).place ≠ .closed ∧ (final.streams .client).ctxDone = false := by
  have result : (run step (initial 2) packetWaits).map (fun s => ((s.streams .client).calls .sender,(s.streams .client).ctxDone,
      s.closing .client,(run step s finTimesOut).map fun final => (final.streams .client).finExpired)) =
      some (some ⟨serialize (.data {finalChunk := true, payload := [7]}),.connect⟩,false,{},some true) := by decide
  obtain ⟨s,reached,facts⟩ := Option.map_eq_some_iff.mp result
  obtain ⟨connecting,rest⟩ := Prod.mk.inj facts
  obtain ⟨going,rest⟩ := Prod.mk.inj rest
  obtain ⟨closing,expires⟩ := Prod.mk.inj rest
  obtain ⟨final,ran,expired⟩ := Option.map_eq_some_iff.mp expires
  have offline : ∀ event ∈ finTimesOut, event.Offline .client := by simp [finTimesOut,MailEvent.Offline]
  exact ⟨s,reached,final,ran,expired,close_waits_for_mailbox 2 (by decide) (by decide) _ s reached .client .sender (by decide) _
    connecting going (by rw [closing]) (by rw [closing]) finTimesOut offline final ran⟩

end Mail

end Offline

end NodeConnect.Mailbox
