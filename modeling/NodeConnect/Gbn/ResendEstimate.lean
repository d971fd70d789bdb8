import NodeConnect.Gbn.TimeoutManager
import Mathlib.Algebra.Order.Ring.Int

/-! What the resend timeout is meant to be, said of the whole history of a connection: which
responses give a sample, which samples set the timeout, and to what. A history has its
newest call first. -/
namespace NodeConnect.Gbn

/-- What a response can be the response to: the last `SYN`, or the last packet with a label. -/
inductive Slot where
  | syn
  | data (seq : UInt8)
  deriving DecidableEq, Repr

def Message.asks : Message → Option Slot
  | .syn _ => some .syn
  | .data packet => some (.data packet.seq)
  | _ => none

def Message.answers : Message → Option Slot
  | .syn _ | .synack => some .syn
  | .ack seq => some (.data seq)
  | .data _ | .nack _ | .fin => none

/-- A call with the readings of the clock that it makes. -/
inductive TimedCall where
  | sent (sentAt boostAt : Int) (msg : Message) (resent : Bool)
  | received (receivedAt resetAt : Int) (msg : Message)
  deriving DecidableEq, Repr

namespace TimedCall

def now : TimedCall → Int
  | sent sentAt _ _ _ => sentAt
  | received receivedAt _ _ => receivedAt

/-- The call sends for the slot, or brings a response to it. -/
def Concerns (slot : Slot) : TimedCall → Prop
  | sent _ _ msg _ => msg.asks = some slot
  | received _ _ msg => msg.answers = some slot

instance (slot : Slot) : (call : TimedCall) → Decidable (call.Concerns slot)
  | sent _ _ _ _ | received _ _ _ => inferInstanceAs (Decidable (_ = _))

/-- The time that a first transmission leaves behind. -/
def recorded : TimedCall → Option Int
  | sent sentAt _ _ resent => if resent then none else some sentAt
  | received _ _ _ => none

/-- When the slot was last sent for, unless that was a resend or a response has come since. -/
def outstanding (slot : Slot) : List TimedCall → Option Int
  | [] => none
  | call :: earlier =>
    if call.Concerns slot then call.recorded else outstanding slot earlier

end TimedCall

structure RttSample where
  ofSyn : Bool
  responseTime : Int
  deriving DecidableEq, Repr

namespace TimedCall

def sample (earlier : List TimedCall) : TimedCall → Option RttSample
  | sent _ _ _ _ => none
  | received receivedAt _ msg => do
    let slot ← msg.answers
    let sentAt ← outstanding slot earlier
    return ⟨slot = .syn,receivedAt - sentAt⟩

def samples : List TimedCall → List RttSample
  | [] => []
  | call :: earlier => (call.sample earlier).toList ++ samples earlier

end TimedCall

namespace RttSample

/-- The samples of ACKs among them, the very first sample of all not counted. -/
def counted (samples : List RttSample) : Nat :=
  samples.countP (fun sample => !sample.ofSyn) -
    if (samples.getLast?.map fun first => first.ofSyn) = some false then 1 else 0

/-- The samples that set the timeout: those of a `SYN`, the first one, and every `frequency`-th
of an ACK after it. -/
def Updates (frequency : Nat) (earlier : List RttSample) (sample : RttSample) : Prop :=
  sample.ofSyn = true ∨ frequency ∣ counted (sample :: earlier)

instance (frequency : Nat) (earlier : List RttSample) (sample : RttSample) :
    Decidable (Updates frequency earlier sample) := inferInstanceAs (Decidable (_ ∨ _))

def latestUpdate (frequency : Nat) : List RttSample → Option Int
  | [] => none
  | sample :: earlier =>
    if Updates frequency earlier sample then some sample.responseTime else latestUpdate frequency earlier

end RttSample

/-- The timeout that the history calls for. -/
def TimeoutOptions.baseTimeout (options : TimeoutOptions) (samples : List RttSample) : Int :=
  match RttSample.latestUpdate options.timeoutUpdateFrequency samples with
  | none => options.resendTimeout
  | some responseTime => max minimumResendTimeout (options.resendMultiplier * responseTime)

namespace TimeoutManager

def step (m : TimeoutManager) : TimedCall → TimeoutManager
  | .sent sentAt boostAt msg resent => m.sent sentAt boostAt msg resent
  | .received receivedAt resetAt msg => m.received receivedAt resetAt msg

def after (m : TimeoutManager) : List TimedCall → TimeoutManager
  | [] => m
  | call :: earlier => (after m earlier).step call

end TimeoutManager

namespace TimedCall

theorem outstanding_eq_some (slot : Slot) (history : List TimedCall) (time : Int) :
    outstanding slot history = some time ↔ ∃ since boostAt msg earlier,
      history = since ++ sent time boostAt msg false :: earlier ∧ msg.asks = some slot ∧
        ∀ call ∈ since, ¬ call.Concerns slot := by
  induction history with
  | nil => simp [outstanding]
  | cons call history ih =>
    rw [outstanding]
    split_ifs with concerns
    · constructor
      · intro recorded
        cases call with
        | received => cases recorded
        | sent sentAt boostAt msg resent =>
          cases resent with
          | true => cases recorded
          | false =>
            cases recorded
            exact ⟨[],boostAt,msg,history,rfl,concerns,nofun⟩
      · rintro ⟨since,boostAt,msg,earlier,split,asks,others⟩
        cases since with
        | nil =>
          cases split
          rfl
        | cons first since =>
          cases split
          exact absurd concerns (others call List.mem_cons_self)
    · rw [ih]
      constructor
      · rintro ⟨since,boostAt,msg,earlier,rfl,asks,others⟩
        exact ⟨call :: since,boostAt,msg,earlier,rfl,asks,List.forall_mem_cons.mpr ⟨concerns,others⟩⟩
      · rintro ⟨since,boostAt,msg,earlier,split,asks,others⟩
        cases since with
        | nil =>
          cases split
          exact absurd asks concerns
        | cons first since =>
          cases split
          exact ⟨since,boostAt,msg,earlier,rfl,asks,(List.forall_mem_cons.mp others).2⟩

theorem outstanding_le {slot : Slot} {history : List TimedCall} {time now : Int}
    (found : outstanding slot history = some time) (ordered : ∀ call ∈ history, call.now ≤ now) : time ≤ now := by
  obtain ⟨since,boostAt,msg,earlier,rfl,_⟩ := (outstanding_eq_some slot history time).mp found
  exact ordered (sent time boostAt msg false) (List.mem_append_right since List.mem_cons_self)

end TimedCall

namespace RttSample

theorem counted_syn (earlier : List RttSample) (sample : RttSample) (syn : sample.ofSyn = true) :
    counted (sample :: earlier) = counted earlier := by
  cases earlier with
  | nil => simp [counted,syn]
  | cons first rest => simp [counted,syn,List.getLast?_cons_cons]

theorem counted_first (sample : RttSample) (ack : sample.ofSyn = false) : counted [sample] = 0 := by
  simp [counted,ack]

/-- The first of all samples, if it is of an ACK, is one of those that `counted` takes off. -/
theorem counted_ack (earlier : List RttSample) (sample : RttSample) (ack : sample.ofSyn = false) (later : earlier ≠ []) :
    counted (sample :: earlier) = counted earlier + 1 := by
  have last : (sample :: earlier).getLast? = earlier.getLast? := by
    cases earlier with
    | nil => exact absurd rfl later
    | cons first rest => exact List.getLast?_cons_cons
  have positive : (earlier.getLast?.map fun first => first.ofSyn) = some false →
      0 < earlier.countP fun sample => !sample.ofSyn := by
    intro first
    obtain ⟨oldest,found,isAck⟩ := Option.map_eq_some_iff.mp first
    rw [List.countP_pos_iff]
    exact ⟨oldest,List.mem_of_getLast? found,by rw [isAck]; rfl⟩
  unfold counted
  rw [last,List.countP_cons_of_pos (by rw [ack]; rfl)]
  split_ifs with first
  · have := positive first
    omega
  · omega

end RttSample

namespace TimeoutManager

def slotTime (m : TimeoutManager) : Slot → Option Int
  | .syn => m.latestSentSYNTime
  | .data seq => m.sentTimes seq

/-- What the schedule of updates depends on. -/
structure Schedule where
  hasSetDynamicTimeout : Bool
  responseCounter : Nat
  resendTimeout : Int
  originalTimeout : Int

def schedule (m : TimeoutManager) : Schedule :=
  ⟨m.hasSetDynamicTimeout,m.responseCounter,m.resendTimeout,m.resendBooster.originalTimeout⟩

def options (m : TimeoutManager) : Bool × Int × Nat := (m.useStaticTimeout,m.resendMultiplier,m.timeoutUpdateFrequency)

theorem sentTime_eq (m : TimeoutManager) (msg : Message) : m.sentTime msg = msg.answers.bind m.slotTime := by
  cases msg <;> rfl

theorem boost_originalTimeout (b : TimeoutBooster) (now : Int) : (b.boost now).originalTimeout = b.originalTimeout := by
  simp only [TimeoutBooster.boost]
  split_ifs <;> rfl

/-- A call of `Sent` notes the time of a first transmission and drops that of a repeated one. -/
theorem sent_effect (m : TimeoutManager) (dynamic : m.useStaticTimeout = false) (sentAt boostAt : Int) (msg : Message)
    (resent : Bool) : (m.sent sentAt boostAt msg resent).options = m.options ∧
      (m.sent sentAt boostAt msg resent).schedule = m.schedule ∧
      ∀ slot, (m.sent sentAt boostAt msg resent).slotTime slot =
        if msg.asks = some slot then TimedCall.recorded (.sent sentAt boostAt msg resent) else m.slotTime slot := by
  unfold sent
  rw [if_neg (by rw [dynamic]; exact Bool.false_ne_true)]
  cases msg with
  | syn n =>
    cases resent with
    | false =>
      refine ⟨rfl,rfl,fun slot => ?_⟩
      cases slot <;> simp [slotTime,Message.asks,TimedCall.recorded]
    | true =>
      refine ⟨rfl,rfl,fun slot => ?_⟩
      cases slot <;> simp [slotTime,Message.asks,TimedCall.recorded]
  | data packet =>
    cases resent with
    | false =>
      refine ⟨rfl,rfl,fun slot => ?_⟩
      cases slot <;> simp [slotTime,Message.asks,TimedCall.recorded,Function.update_apply,eq_comm]
    | true =>
      refine ⟨rfl,?_,fun slot => ?_⟩
      · simp [schedule,boost_originalTimeout]
      · cases slot <;> simp [slotTime,Message.asks,TimedCall.recorded,Function.update_apply,eq_comm]
  | ack | nack | fin | synack => exact ⟨rfl,rfl,fun slot => rfl⟩

theorem received_unmatched (m : TimeoutManager) (receivedAt resetAt : Int) (msg : Message) (unmatched : m.sentTime msg = none) :
    m.received receivedAt resetAt msg = m := by
  simp only [received,unmatched,ite_self]

/-- What an update makes of a response time. -/
def newTimeout (m : TimeoutManager) (responseTime : Int) : Int :=
  (m.updateResendTimeoutUnsafe responseTime 0).resendTimeout

theorem newTimeout_eq (m : TimeoutManager) (responseTime : Int) (low : 0 ≤ m.resendMultiplier * responseTime)
    (high : m.resendMultiplier * responseTime < 2 ^ 63) :
    m.newTimeout responseTime = max minimumResendTimeout (m.resendMultiplier * responseTime) := by
  have exact_ : wrapDuration (m.resendMultiplier * responseTime) = m.resendMultiplier * responseTime :=
    Int.bmod_eq_of_le (by omega) (by omega)
  simp only [newTimeout,updateResendTimeoutUnsafe,exact_]
  split_ifs <;> omega

theorem updateSmoothedRTT_keeps (m : TimeoutManager) (rtt : Int) : (m.updateSmoothedRTT rtt).options = m.options ∧
    (m.updateSmoothedRTT rtt).schedule = m.schedule ∧ (m.updateSmoothedRTT rtt).slotTime = m.slotTime := by
  unfold updateSmoothedRTT
  split_ifs
  · exact ⟨rfl,rfl,rfl⟩
  · exact ⟨rfl,rfl,rfl⟩

theorem newTimeout_congr {m : TimeoutManager} (m' : TimeoutManager) (same : m.options = m'.options) (responseTime : Int) :
    m.newTimeout responseTime = m'.newTimeout responseTime := by
  have multiplier : m.resendMultiplier = m'.resendMultiplier := congrArg (·.2.1) same
  simp only [newTimeout,updateResendTimeoutUnsafe,multiplier]

/-- An update after the response time has been averaged in. -/
theorem update_effect (m : TimeoutManager) (responseTime now : Int) :
    let next := (m.updateSmoothedRTT responseTime).updateResendTimeoutUnsafe responseTime now
    next.options = m.options ∧ next.slotTime = m.slotTime ∧ next.resendBooster.boostCount = 0 ∧
      next.schedule = ⟨true,m.responseCounter,m.newTimeout responseTime,m.newTimeout responseTime⟩ := by
  intro next
  obtain ⟨options,schedule,times⟩ := m.updateSmoothedRTT_keeps responseTime
  refine ⟨options,times,rfl,?_⟩
  rw [← newTimeout_congr m options,← show (m.updateSmoothedRTT responseTime).responseCounter = m.responseCounter from
    congrArg Schedule.responseCounter schedule]
  rfl

/-- A matched `SYN` or `SYNACK` takes the noted time away and sets the timeout. -/
theorem received_syn (m : TimeoutManager) (dynamic : m.useStaticTimeout = false) (receivedAt resetAt : Int) (msg : Message)
    (answers : msg.answers = some .syn) {time : Int} (found : m.slotTime .syn = some time) :
    let next := m.received receivedAt resetAt msg
    let timeout := m.newTimeout (timeSub receivedAt time)
    next.options = m.options ∧ (∀ slot, next.slotTime slot = if slot = .syn then none else m.slotTime slot) ∧
      next.resendBooster.boostCount = 0 ∧ next.schedule = ⟨true,m.responseCounter,timeout,timeout⟩ := by
  intro next timeout
  let cleared : TimeoutManager := {m with latestSentSYNTime := none}
  have stepped : next = (cleared.updateSmoothedRTT (timeSub receivedAt time)).updateResendTimeoutUnsafe
      (timeSub receivedAt time) resetAt := by
    have matched : m.latestSentSYNTime = some time := found
    cases msg with
    | syn | synack => simp [next,received,sentTime,matched,dynamic,cleared]
    | data | ack | nack | fin => simp [Message.answers] at answers
  obtain ⟨options,times,count,schedule⟩ := cleared.update_effect (timeSub receivedAt time) resetAt
  rw [stepped]
  refine ⟨options,fun slot => ?_,count,schedule⟩
  rw [times]
  cases slot <;> rfl

/-- A matched ACK takes the noted time away. It sets the timeout if nothing has yet or when the
counter is full, and counts otherwise. -/
theorem received_ack (m : TimeoutManager) (dynamic : m.useStaticTimeout = false) (receivedAt resetAt : Int) (seq : UInt8)
    {time : Int} (found : m.slotTime (.data seq) = some time) :
    let next := m.received receivedAt resetAt (.ack seq)
    let timeout := m.newTimeout (timeSub receivedAt time)
    next.options = m.options ∧ (∀ slot, next.slotTime slot = if slot = .data seq then none else m.slotTime slot) ∧
      if m.hasSetDynamicTimeout = false ∨ (m.responseCounter + 1) % m.timeoutUpdateFrequency = 0 then
        next.resendBooster.boostCount = 0 ∧ next.schedule = ⟨true,0,timeout,timeout⟩
      else next.schedule = {m.schedule with responseCounter := m.responseCounter + 1} := by
  intro next timeout
  let cleared : TimeoutManager := {m with sentTimes := Function.update m.sentTimes seq none}
  have times (slot : Slot) : cleared.slotTime slot = if slot = .data seq then none else m.slotTime slot := by
    cases slot with
    | syn => rfl
    | data other => simp [slotTime,cleared,Function.update_apply]
  let averaged := cleared.updateSmoothedRTT (timeSub receivedAt time)
  obtain ⟨options,schedule,kept⟩ := cleared.updateSmoothedRTT_keeps (timeSub receivedAt time)
  have counter : averaged.responseCounter = m.responseCounter := congrArg Schedule.responseCounter schedule
  have hasSet : averaged.hasSetDynamicTimeout = m.hasSetDynamicTimeout := congrArg Schedule.hasSetDynamicTimeout schedule
  have frequency : averaged.timeoutUpdateFrequency = m.timeoutUpdateFrequency := congrArg (·.2.2) options
  have stepped : next =
      if m.hasSetDynamicTimeout = false ∨ (m.responseCounter + 1) % m.timeoutUpdateFrequency = 0 then
        updateResendTimeoutUnsafe {averaged with responseCounter := 0} (timeSub receivedAt time) resetAt
      else {averaged with responseCounter := m.responseCounter + 1} := by
    have matched : m.sentTimes seq = some time := found
    have static : ¬ m.useStaticTimeout = true := by
      rw [dynamic]
      exact Bool.false_ne_true
    rw [← counter,← hasSet,← frequency]
    simp only [next,received,if_neg static,sentTime,matched,Bool.not_eq_true]
    rfl
  rw [stepped]
  split_ifs with updates
  · refine ⟨options,fun slot => ?_,rfl,?_⟩
    · change averaged.slotTime slot = _
      rw [kept,times]
    · have same : newTimeout {averaged with responseCounter := 0} (timeSub receivedAt time) = timeout :=
        newTimeout_congr m options _
      rw [← same]
      rfl
  · refine ⟨options,fun slot => ?_,?_⟩
    · change averaged.slotTime slot = _
      rw [kept,times]
    · change {averaged.schedule with responseCounter := m.responseCounter + 1} = _
      rw [schedule]
      rfl

/-- The state of the manager, said of the history. -/
structure Follows (options : TimeoutOptions) (m : TimeoutManager) (history : List TimedCall) : Prop where
  configured : m.options = (false,options.resendMultiplier,options.timeoutUpdateFrequency)
  times : ∀ slot, m.slotTime slot = TimedCall.outstanding slot history
  set : m.hasSetDynamicTimeout = true ↔ TimedCall.samples history ≠ []
  counter : m.responseCounter = RttSample.counted (TimedCall.samples history) % options.timeoutUpdateFrequency
  timeout : m.resendTimeout = options.baseTimeout (TimedCall.samples history)
  booster : m.resendBooster.originalTimeout = options.baseTimeout (TimedCall.samples history)

variable {options : TimeoutOptions} {m : TimeoutManager} {history : List TimedCall}

theorem newTimeOutManager_follows (options : TimeoutOptions) (dynamic : options.useStaticTimeout = false) :
    (newTimeOutManager options).Follows options [] := by
  refine ⟨?_,?_,?_,?_,rfl,rfl⟩
  · simp [TimeoutManager.options,newTimeOutManager,dynamic]
  · intro slot
    cases slot <;> rfl
  · exact iff_of_false Bool.false_ne_true (not_not.mpr rfl)
  · exact (Nat.zero_mod _).symm

theorem Follows.dynamic (follows : m.Follows options history) : m.useStaticTimeout = false := congrArg (·.1) follows.configured

theorem Follows.sent (follows : m.Follows options history) (sentAt boostAt : Int) (msg : Message) (resent : Bool) :
    (m.sent sentAt boostAt msg resent).Follows options (.sent sentAt boostAt msg resent :: history) := by
  obtain ⟨kept,schedule,times⟩ := m.sent_effect follows.dynamic sentAt boostAt msg resent
  refine ⟨kept.trans follows.configured,fun slot => ?_,?_,?_,?_,?_⟩
  · rw [times,TimedCall.outstanding,follows.times]
    rfl
  · rw [show (m.sent sentAt boostAt msg resent).hasSetDynamicTimeout = _ from congrArg Schedule.hasSetDynamicTimeout schedule]
    exact follows.set
  · exact (congrArg Schedule.responseCounter schedule).trans follows.counter
  · exact (congrArg Schedule.resendTimeout schedule).trans follows.timeout
  · exact (congrArg Schedule.originalTimeout schedule).trans follows.booster

theorem baseTimeout_update {earlier : List RttSample} {sample : RttSample}
    (updates : RttSample.Updates options.timeoutUpdateFrequency earlier sample) : options.baseTimeout (sample :: earlier) =
      max minimumResendTimeout (options.resendMultiplier * sample.responseTime) := by
  rw [TimeoutOptions.baseTimeout,RttSample.latestUpdate,if_pos updates]

theorem baseTimeout_skip {earlier : List RttSample} {sample : RttSample}
    (skips : ¬ RttSample.Updates options.timeoutUpdateFrequency earlier sample) :
    options.baseTimeout (sample :: earlier) = options.baseTimeout earlier := by
  rw [TimeoutOptions.baseTimeout,RttSample.latestUpdate,if_neg skips]
  rfl

/-- What the times of the calls are assumed to be: they do not decrease, and the multiple of a response
time does not overflow. -/
structure TimesFit (options : TimeoutOptions) (history : List TimedCall) : Prop where
  ordered : history.Pairwise fun later earlier => earlier.now ≤ later.now
  bounded : ∀ sample ∈ TimedCall.samples history, options.resendMultiplier * sample.responseTime < 2 ^ 63

theorem sample_received (receivedAt resetAt : Int) {time : Int} {msg : Message} {answered : Slot}
    (answers : msg.answers = some answered) (found : TimedCall.outstanding answered history = some time) :
    TimedCall.sample history (.received receivedAt resetAt msg) = some ⟨answered = .syn,receivedAt - time⟩ := by
  simp [TimedCall.sample,answers,found]

/-- A matched response: its time is computed without loss. -/
theorem TimesFit.response {receivedAt resetAt time : Int} {msg : Message} {answered : Slot}
    (fit : TimesFit options (.received receivedAt resetAt msg :: history)) (positive : 0 < options.resendMultiplier)
    (answers : msg.answers = some answered) (found : TimedCall.outstanding answered history = some time) :
    timeSub receivedAt time = receivedAt - time ∧ 0 ≤ options.resendMultiplier * (receivedAt - time) ∧
      options.resendMultiplier * (receivedAt - time) < 2 ^ 63 := by
  have order : time ≤ receivedAt := TimedCall.outstanding_le found (List.pairwise_cons.mp fit.ordered).1
  have below : options.resendMultiplier * (receivedAt - time) < 2 ^ 63 := by
    refine fit.bounded ⟨answered = .syn,receivedAt - time⟩ ?_
    rw [TimedCall.samples,sample_received _ _ answers found]
    exact List.mem_cons_self
  have smaller : receivedAt - time ≤ options.resendMultiplier * (receivedAt - time) :=
    le_mul_of_one_le_left (by omega) (by omega)
  refine ⟨?_,mul_nonneg (by omega) (by omega),below⟩
  unfold timeSub
  omega

/-- An update with the sample of a matched response. -/
theorem Follows.newTimeout (follows : m.Follows options history) {receivedAt resetAt time : Int} {msg : Message}
    {answered : Slot} (fit : TimesFit options (.received receivedAt resetAt msg :: history))
    (positive : 0 < options.resendMultiplier) (answers : msg.answers = some answered)
    (found : TimedCall.outstanding answered history = some time) (earlier : List RttSample)
    (updates : RttSample.Updates options.timeoutUpdateFrequency earlier ⟨answered = .syn,receivedAt - time⟩) :
    m.newTimeout (timeSub receivedAt time) = options.baseTimeout (⟨answered = .syn,receivedAt - time⟩ :: earlier) := by
  obtain ⟨exact_,low,high⟩ := fit.response positive answers found
  have multiplier : m.resendMultiplier = options.resendMultiplier := congrArg (·.2.1) follows.configured
  rw [baseTimeout_update updates,exact_,m.newTimeout_eq _ (by rw [multiplier]; exact low) (by rw [multiplier]; exact high),
    multiplier]

/-- What is outstanding after a response: the slot it answers is cleared. -/
theorem outstanding_received {receivedAt resetAt : Int} {msg : Message} {answered : Slot} (answers : msg.answers = some answered)
    (slot : Slot) : TimedCall.outstanding slot (.received receivedAt resetAt msg :: history) =
      if slot = answered then none else TimedCall.outstanding slot history := by
  rw [TimedCall.outstanding]
  simp only [TimedCall.Concerns,answers,Option.some.injEq,eq_comm (a := answered)]
  rfl

theorem Follows.received_unmatched (follows : m.Follows options history) (receivedAt resetAt : Int) (msg : Message)
    (unmatched : msg.answers.bind m.slotTime = none) :
    (m.received receivedAt resetAt msg).Follows options (.received receivedAt resetAt msg :: history) := by
  have times : m.slotTime = fun slot => TimedCall.outstanding slot history := funext follows.times
  rw [times] at unmatched
  rw [m.received_unmatched receivedAt resetAt msg (by rw [sentTime_eq,times,unmatched])]
  have samples : TimedCall.samples (.received receivedAt resetAt msg :: history) = TimedCall.samples history := by
    have none_ : TimedCall.sample history (.received receivedAt resetAt msg) = none := by
      cases answers : msg.answers with
      | none => simp [TimedCall.sample,answers]
      | some answered =>
        rw [answers] at unmatched
        simp [TimedCall.sample,answers,show TimedCall.outstanding answered history = none from unmatched]
    rw [TimedCall.samples,none_]
    rfl
  refine ⟨follows.configured,fun slot => ?_,by rw [samples]; exact follows.set,by rw [samples]; exact follows.counter,
    by rw [samples]; exact follows.timeout,by rw [samples]; exact follows.booster⟩
  rw [follows.times]
  cases answers : msg.answers with
  | none => simp [TimedCall.outstanding,TimedCall.Concerns,answers]
  | some answered =>
    rw [answers] at unmatched
    rw [outstanding_received answers]
    split_ifs with same
    · rw [same]
      exact unmatched
    · rfl

theorem Follows.received_syn (follows : m.Follows options history) {receivedAt resetAt time : Int} {msg : Message}
    (fit : TimesFit options (.received receivedAt resetAt msg :: history)) (positive : 0 < options.resendMultiplier)
    (answers : msg.answers = some .syn) (found : TimedCall.outstanding .syn history = some time) :
    (m.received receivedAt resetAt msg).Follows options (.received receivedAt resetAt msg :: history) ∧
      (m.received receivedAt resetAt msg).resendBooster.boostCount = 0 := by
  have updates : RttSample.Updates options.timeoutUpdateFrequency (TimedCall.samples history)
      ⟨Slot.syn = .syn,receivedAt - time⟩ :=
    .inl (by simp)
  have timeout := follows.newTimeout fit positive answers found _ updates
  obtain ⟨kept,times,count,schedule⟩ := m.received_syn follows.dynamic receivedAt resetAt msg answers
    ((follows.times .syn).trans found)
  rw [timeout] at schedule
  have samples : TimedCall.samples (.received receivedAt resetAt msg :: history) =
      ⟨Slot.syn = .syn,receivedAt - time⟩ :: TimedCall.samples history := by
    rw [TimedCall.samples,sample_received _ _ answers found]
    rfl
  refine ⟨⟨kept.trans follows.configured,fun slot => ?_,?_,?_,?_,?_⟩,count⟩
  · rw [times,outstanding_received answers,follows.times]
  · rw [samples]
    exact iff_of_true (congrArg Schedule.hasSetDynamicTimeout schedule) (List.cons_ne_nil _ _)
  · rw [samples,RttSample.counted_syn _ _ (by simp),← follows.counter]
    exact congrArg Schedule.responseCounter schedule
  · rw [samples]
    exact congrArg Schedule.resendTimeout schedule
  · rw [samples]
    exact congrArg Schedule.originalTimeout schedule

/-- The counter decides as the schedule says. -/
theorem Follows.updates_iff (follows : m.Follows options history) (sample : RttSample) (ack : sample.ofSyn = false) :
    (RttSample.Updates options.timeoutUpdateFrequency (TimedCall.samples history) sample ↔
      m.hasSetDynamicTimeout = false ∨ (m.responseCounter + 1) % options.timeoutUpdateFrequency = 0) ∧
    (m.hasSetDynamicTimeout = true →
      RttSample.counted (sample :: TimedCall.samples history) % options.timeoutUpdateFrequency =
        (m.responseCounter + 1) % options.timeoutUpdateFrequency) := by
  have counted (set : m.hasSetDynamicTimeout = true) :
      RttSample.counted (sample :: TimedCall.samples history) % options.timeoutUpdateFrequency =
        (m.responseCounter + 1) % options.timeoutUpdateFrequency := by
    rw [RttSample.counted_ack _ _ ack (follows.set.mp set),follows.counter,Nat.mod_add_mod]
  refine ⟨?_,counted⟩
  unfold RttSample.Updates
  rw [ack,Nat.dvd_iff_mod_eq_zero]
  cases set : m.hasSetDynamicTimeout with
  | true => simp [counted set]
  | false =>
    have first : TimedCall.samples history = [] := by
      by_contra some_
      exact absurd (follows.set.mpr some_) (by rw [set]; exact Bool.false_ne_true)
    simp [first,RttSample.counted_first sample ack]

theorem Follows.received_ack (follows : m.Follows options history) {receivedAt resetAt time : Int} {seq : UInt8}
    (fit : TimesFit options (.received receivedAt resetAt (.ack seq) :: history)) (positive : 0 < options.resendMultiplier)
    (frequency : 0 < options.timeoutUpdateFrequency) (found : TimedCall.outstanding (.data seq) history = some time) :
    (m.received receivedAt resetAt (.ack seq)).Follows options (.received receivedAt resetAt (.ack seq) :: history) ∧
      (RttSample.Updates options.timeoutUpdateFrequency (TimedCall.samples history) ⟨false,receivedAt - time⟩ →
        (m.received receivedAt resetAt (.ack seq)).resendBooster.boostCount = 0) := by
  have answers : (Message.ack seq).answers = some (.data seq) := rfl
  obtain ⟨decides,counted⟩ := follows.updates_iff ⟨false,receivedAt - time⟩ rfl
  have timeout := follows.newTimeout fit positive answers found (TimedCall.samples history)
  obtain ⟨kept,times,schedule⟩ := m.received_ack follows.dynamic receivedAt resetAt seq ((follows.times _).trans found)
  rw [show m.timeoutUpdateFrequency = options.timeoutUpdateFrequency from congrArg (·.2.2) follows.configured] at schedule
  have samples : TimedCall.samples (.received receivedAt resetAt (.ack seq) :: history) =
      ⟨false,receivedAt - time⟩ :: TimedCall.samples history := by
    rw [TimedCall.samples,sample_received _ _ answers found]
    rfl
  have cleared (slot : Slot) : (m.received receivedAt resetAt (.ack seq)).slotTime slot =
      TimedCall.outstanding slot (.received receivedAt resetAt (.ack seq) :: history) := by
    rw [times,outstanding_received answers,follows.times]
  by_cases updates : RttSample.Updates options.timeoutUpdateFrequency (TimedCall.samples history) ⟨false,receivedAt - time⟩
  · rw [if_pos (decides.mp updates)] at schedule
    obtain ⟨count,schedule⟩ := schedule
    rw [timeout (by simpa using updates)] at schedule
    refine ⟨⟨kept.trans follows.configured,cleared,?_,?_,?_,?_⟩,fun _ => count⟩
    · rw [samples]
      exact iff_of_true (congrArg Schedule.hasSetDynamicTimeout schedule) (List.cons_ne_nil _ _)
    · rw [samples,Nat.mod_eq_zero_of_dvd (updates.resolve_left Bool.false_ne_true)]
      exact congrArg Schedule.responseCounter schedule
    · rw [samples]
      exact congrArg Schedule.resendTimeout schedule
    · rw [samples]
      exact congrArg Schedule.originalTimeout schedule
  · rw [if_neg (decides.not.mp updates)] at schedule
    have waits := decides.not.mp updates
    rw [not_or,Bool.not_eq_false] at waits
    have below : m.responseCounter + 1 < options.timeoutUpdateFrequency := by
      have bound := Nat.mod_lt (RttSample.counted (TimedCall.samples history)) frequency
      rw [← follows.counter] at bound
      refine lt_of_le_of_ne bound fun full => waits.2 ?_
      rw [full,Nat.mod_self]
    refine ⟨⟨kept.trans follows.configured,cleared,?_,?_,?_,?_⟩,fun here => absurd here updates⟩
    · rw [samples]
      exact iff_of_true ((congrArg Schedule.hasSetDynamicTimeout schedule).trans waits.1) (List.cons_ne_nil _ _)
    · rw [samples,counted waits.1,Nat.mod_eq_of_lt below]
      exact congrArg Schedule.responseCounter schedule
    · rw [samples,baseTimeout_skip updates]
      exact (congrArg Schedule.resendTimeout schedule).trans follows.timeout
    · rw [samples,baseTimeout_skip updates]
      exact (congrArg Schedule.originalTimeout schedule).trans follows.booster

theorem TimesFit.earlier {call : TimedCall} (fit : TimesFit options (call :: history)) : TimesFit options history :=
  ⟨(List.pairwise_cons.mp fit.ordered).2,fun sample member => fit.bounded sample (List.mem_append_right _ member)⟩

/-- One call keeps the state as the history says, and zeroes the boost if it sets the timeout. -/
theorem Follows.step (follows : m.Follows options history) {call : TimedCall} (fit : TimesFit options (call :: history))
    (positive : 0 < options.resendMultiplier) (frequency : 0 < options.timeoutUpdateFrequency) :
    (m.step call).Follows options (call :: history) ∧ ∀ sample, call.sample history = some sample →
      RttSample.Updates options.timeoutUpdateFrequency (TimedCall.samples history) sample →
        (m.step call).resendBooster.boostCount = 0 := by
  cases call with
  | sent sentAt boostAt msg resent => exact ⟨follows.sent sentAt boostAt msg resent,nofun⟩
  | received receivedAt resetAt msg =>
    cases matched : msg.answers.bind m.slotTime with
    | none =>
      refine ⟨follows.received_unmatched receivedAt resetAt msg matched,fun sample taken => ?_⟩
      have times : m.slotTime = fun slot => TimedCall.outstanding slot history := funext follows.times
      obtain ⟨slot,answers,rest⟩ := Option.bind_eq_some_iff.mp taken
      obtain ⟨time,found,_⟩ := Option.bind_eq_some_iff.mp rest
      rw [times,answers] at matched
      exact absurd (matched.symm.trans found) nofun
    | some time =>
      obtain ⟨answered,answers,found⟩ := Option.bind_eq_some_iff.mp matched
      rw [follows.times] at found
      have same := sample_received receivedAt resetAt answers found
      cases answered with
      | syn =>
        obtain ⟨kept,count⟩ := follows.received_syn fit positive answers found
        exact ⟨kept,fun _ _ _ => count⟩
      | data seq =>
        obtain rfl : msg = .ack seq := by
          cases msg <;> simp_all [Message.answers]
        obtain ⟨kept,count⟩ := follows.received_ack fit positive frequency found
        refine ⟨kept,fun sample taken updates => count ?_⟩
        cases Option.some.inj (taken.symm.trans same)
        exact updates

theorem after_follows (dynamic : options.useStaticTimeout = false) (positive : 0 < options.resendMultiplier)
    (frequency : 0 < options.timeoutUpdateFrequency) (history : List TimedCall) (fit : TimesFit options history) :
    ((newTimeOutManager options).after history).Follows options history := by
  induction history with
  | nil => exact newTimeOutManager_follows options dynamic
  | cons call history ih => exact ((ih fit.earlier).step fit positive frequency).1

/-- Over every history of calls the manager estimates as it should. A response counts exactly if the
last message sent for it was no resend and has not been answered since; the timeout and its booster
stand at the configured value until the first update and at the multiple of the response time of
the latest one after it; and an update zeroes the boost. -/
theorem resend_timeout_follows (options : TimeoutOptions) (dynamic : options.useStaticTimeout = false)
    (positive : 0 < options.resendMultiplier) (frequency : 0 < options.timeoutUpdateFrequency) (history : List TimedCall)
    (fit : TimesFit options history) :
    let m := (newTimeOutManager options).after history
    (∀ msg time, m.sentTime msg = some time ↔ ∃ slot since boostAt asked before, msg.answers = some slot ∧
      history = since ++ .sent time boostAt asked false :: before ∧ asked.asks = some slot ∧
        ∀ call ∈ since, ¬ call.Concerns slot) ∧
    (m.resendTimeout = options.baseTimeout (TimedCall.samples history) ∧
      m.resendBooster.originalTimeout = options.baseTimeout (TimedCall.samples history)) ∧
    ∀ receivedAt resetAt msg earlier time, history = .received receivedAt resetAt msg :: earlier →
      ((newTimeOutManager options).after earlier).sentTime msg = some time → timeSub receivedAt time = receivedAt - time ∧
        ∃ sample, TimedCall.sample earlier (.received receivedAt resetAt msg) = some sample ∧
          sample.responseTime = receivedAt - time ∧
          (RttSample.Updates options.timeoutUpdateFrequency (TimedCall.samples earlier) sample →
            m.resendBooster.boostCount = 0) := by
  intro m
  have follows := after_follows dynamic positive frequency history fit
  refine ⟨?_,⟨follows.timeout,follows.booster⟩,?_⟩
  · intro msg time
    rw [sentTime_eq,funext follows.times,Option.bind_eq_some_iff]
    constructor
    · rintro ⟨slot,answers,found⟩
      obtain ⟨since,boostAt,asked,before,split⟩ := (TimedCall.outstanding_eq_some slot history time).mp found
      exact ⟨slot,since,boostAt,asked,before,answers,split⟩
    · rintro ⟨slot,since,boostAt,asked,before,answers,split⟩
      exact ⟨slot,answers,(TimedCall.outstanding_eq_some slot history time).mpr ⟨since,boostAt,asked,before,split⟩⟩
  · rintro receivedAt resetAt msg earlier time rfl matched
    have before := after_follows dynamic positive frequency earlier fit.earlier
    rw [sentTime_eq,funext before.times] at matched
    obtain ⟨slot,answers,found⟩ := Option.bind_eq_some_iff.mp matched
    have taken := sample_received receivedAt resetAt answers found
    refine ⟨(fit.response positive answers found).1,_,taken,rfl,fun updates => ?_⟩
    exact (before.step fit positive frequency).2 _ taken updates

/-- A handshake and two packets; with a frequency of two the second ACK sets the timeout. -/
theorem resend_timeout_follows_second : ∃ options history, TimesFit options history ∧
    TimedCall.samples history = [⟨false,500000000⟩,⟨false,100000000⟩,⟨true,300000000⟩] ∧
    ((newTimeOutManager options).after history).resendTimeout = 2500000000 := by
  let options : TimeoutOptions := {timeoutUpdateFrequency := 2}
  let history : List TimedCall := [.received 1700000000 1700000000 (.ack 1),.sent 1200000000 1200000000 (.data {seq := 1}) false,
    .received 1100000000 1100000000 (.ack 0),.sent 1000000000 1000000000 (.data {}) false,
    .received 300000000 300000000 .synack,.sent 0 0 (.syn 20) false]
  have samples : TimedCall.samples history = [⟨false,500000000⟩,⟨false,100000000⟩,⟨true,300000000⟩] := by decide
  have ordered : history.Pairwise fun later earlier => earlier.now ≤ later.now := by decide
  have fit : TimesFit options history := by
    refine ⟨ordered,?_⟩
    rw [samples]
    decide
  have timeout := (resend_timeout_follows options rfl (by decide) (by decide) history fit).2.1.1
  rw [samples] at timeout
  exact ⟨options,history,fit,samples,timeout.trans (by decide)⟩

end TimeoutManager

end NodeConnect.Gbn
