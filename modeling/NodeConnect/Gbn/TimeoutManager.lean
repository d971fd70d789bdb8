import NodeConnect.Gbn.Messages
import Mathlib.Logic.Function.Basic

/-! The timeout manager: what it notes when a message is sent, and what it learns from a
response. Times and durations are in nanoseconds; each call takes the readings of the clock
that it makes. The mutexes make every call one step. -/
namespace NodeConnect.Gbn

/-- The `int64` that a result of arithmetic on durations wraps around to. -/
def wrapDuration (value : Int) : Int := value.bmod (2 ^ 64)

/-- `Time.Sub`, which stops at the ends of the range. -/
def timeSub (later earlier : Int) : Int := max (-2 ^ 63) (min (later - earlier) (2 ^ 63 - 1))

def second : Int := 1000000000

def minimumResendTimeout : Int := 1000 * 1000000

/-- `lastBoost` is `none` for the zero time, since which any timeout has passed. -/
structure TimeoutBooster where
  originalTimeout : Int
  withBoostFrequencyLimit : Bool
  boostCount : Nat := 0
  lastBoost : Option Int := none
  deriving DecidableEq, Repr

namespace TimeoutBooster

/-- The base timeout has not yet passed since the last boost. -/
def recent (b : TimeoutBooster) (now : Int) : Bool :=
  match b.lastBoost with
  | none => false
  | some last => timeSub now last < b.originalTimeout

def boost (b : TimeoutBooster) (now : Int) : TimeoutBooster :=
  if b.withBoostFrequencyLimit ∧ b.recent now = true then b
  else {b with lastBoost := some now, boostCount := b.boostCount + 1}

def reset (b : TimeoutBooster) (newTimeout now : Int) : TimeoutBooster :=
  {b with
    boostCount := 0, originalTimeout := newTimeout
    lastBoost := if b.withBoostFrequencyLimit then some now else b.lastBoost}

end TimeoutBooster

structure TimeoutManager where
  useStaticTimeout : Bool
  hasSetDynamicTimeout : Bool := false
  resendTimeout : Int
  resendMultiplier : Int
  latestSentSYNTime : Option Int := none
  resendBooster : TimeoutBooster
  handshakeBooster : TimeoutBooster
  smoothedRTT : Int := 0
  rttInitialized : Bool := false
  responseCounter : Nat := 0
  timeoutUpdateFrequency : Nat
  sentTimes : UInt8 → Option Int := fun _ => none

/-- What the options set before the boosters are made. -/
structure TimeoutOptions where
  useStaticTimeout : Bool := false
  resendTimeout : Int := second
  handshakeTimeout : Int := second
  resendMultiplier : Int := 5
  timeoutUpdateFrequency : Nat := 100

def newTimeOutManager (options : TimeoutOptions) : TimeoutManager where
  useStaticTimeout := options.useStaticTimeout
  resendTimeout := options.resendTimeout
  resendMultiplier := options.resendMultiplier
  resendBooster := ⟨options.resendTimeout,true,0,none⟩
  handshakeBooster := ⟨options.handshakeTimeout,false,0,none⟩
  timeoutUpdateFrequency := options.timeoutUpdateFrequency

namespace TimeoutManager

/-- `boostAt` is the reading of the clock that a boost makes. -/
def sent (m : TimeoutManager) (sentAt boostAt : Int) (msg : Message) (resent : Bool) : TimeoutManager :=
  if m.useStaticTimeout then m
  else
    match msg with
    | .syn _ =>
      if !resent then {m with latestSentSYNTime := some sentAt}
      else {m with latestSentSYNTime := none, handshakeBooster := m.handshakeBooster.boost boostAt}
    | .data packet =>
      if resent then
        {m with
          sentTimes := Function.update m.sentTimes packet.seq none, resendBooster := m.resendBooster.boost boostAt}
      else {m with sentTimes := Function.update m.sentTimes packet.seq (some sentAt)}
    | _ => m

/-- The source computes `0.25 * rtt + 0.75 * smoothedRTT` in float64 and cuts the fraction off; for
durations below 2^51 ns this is that number. -/
def updateSmoothedRTT (m : TimeoutManager) (rtt : Int) : TimeoutManager :=
  if !m.rttInitialized then {m with smoothedRTT := rtt, rttInitialized := true}
  else {m with smoothedRTT := (rtt + 3 * m.smoothedRTT).tdiv 4}

def updateResendTimeoutUnsafe (m : TimeoutManager) (responseTime now : Int) : TimeoutManager :=
  let multipliedTimeout := wrapDuration (m.resendMultiplier * responseTime)
  let multipliedTimeout := if multipliedTimeout < minimumResendTimeout then minimumResendTimeout else multipliedTimeout
  {m with
    hasSetDynamicTimeout := true, resendTimeout := multipliedTimeout
    resendBooster := m.resendBooster.reset multipliedTimeout now}

/-- The time at which the message was sent that `msg` is taken for the response to. -/
def sentTime (m : TimeoutManager) : Message → Option Int
  | .syn _ | .synack => m.latestSentSYNTime
  | .ack seq => m.sentTimes seq
  | .data _ | .nack _ | .fin => none

/-- `resetAt` is the reading of the clock that a reset of the booster makes. -/
def received (m : TimeoutManager) (receivedAt resetAt : Int) (msg : Message) : TimeoutManager :=
  if m.useStaticTimeout then m
  else
    match m.sentTime msg with
    | none => m
    | some sentTime =>
      let responseTime := timeSub receivedAt sentTime
      match msg with
      | .ack seq =>
        let m := {m with sentTimes := Function.update m.sentTimes seq none}
        let m := m.updateSmoothedRTT responseTime
        let responseCounter := m.responseCounter + 1
        let reachedFrequency := responseCounter % m.timeoutUpdateFrequency = 0
        if ¬ m.hasSetDynamicTimeout = true ∨ reachedFrequency then
          updateResendTimeoutUnsafe {m with responseCounter := 0} responseTime resetAt
        else {m with responseCounter}
      | _ =>
        let m := {m with latestSentSYNTime := none}
        let m := m.updateSmoothedRTT responseTime
        m.updateResendTimeoutUnsafe responseTime resetAt

/-- The RTT sample that `Received` takes, if it takes one. -/
def rttSample (m : TimeoutManager) (receivedAt : Int) (msg : Message) : Option Int :=
  if m.useStaticTimeout then none else (m.sentTime msg).map (timeSub receivedAt)

end TimeoutManager

end NodeConnect.Gbn
