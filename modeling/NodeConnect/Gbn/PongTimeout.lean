import NodeConnect.Gbn.ResendEstimate
import NodeConnect.Lib.Rounding

/-! The pong timeout that follows the round-trip times. Each sample goes into an average, which
the source computes in binary64; the compiler may fuse one of the two products with the sum.
The timeout is a multiple of the average, not below the configured one and capped twice. -/
namespace NodeConnect.Gbn
open Lib (FloatFormat)

inductive Fusion where
  | separate
  | sample
  | average
  deriving DecidableEq, Repr

def ewmaAlpha : ℚ := 1 / 4

def ewma (fusion : Fusion) (rtt smoothedRTT : Int) : Int :=
  let float := FloatFormat.binary64
  let sample := float.ofInt rtt
  let average := float.ofInt smoothedRTT
  FloatFormat.truncate <| match fusion with
    | .separate => float.add (float.mul ewmaAlpha sample) (float.mul (1 - ewmaAlpha) average)
    | .sample => float.fma ewmaAlpha sample (float.mul (1 - ewmaAlpha) average)
    | .average => float.fma (1 - ewmaAlpha) average (float.mul ewmaAlpha sample)

structure KeepaliveOptions where
  pingTime : Int := 0
  pongTime : Int := 0
  dynamicPongTime : Bool := false
  pongMultiplier : Int := 3
  maxPongTime : Int := 15 * second

namespace KeepaliveOptions

def withKeepalivePing (ping pong : Int) (options : KeepaliveOptions) : KeepaliveOptions :=
  {options with pingTime := ping, pongTime := pong}

def withDynamicPongTimeout (pongMultiplier maxPongTime : Int) (options : KeepaliveOptions) : KeepaliveOptions :=
  {options with
    dynamicPongTime := true
    pongMultiplier := if 0 < pongMultiplier then pongMultiplier else options.pongMultiplier
    maxPongTime := if 0 < maxPongTime then maxPongTime else options.maxPongTime}

/-- The dynamic pong timeout is in use. -/
structure Dynamic (options : KeepaliveOptions) : Prop where
  dynamicPongTime : options.dynamicPongTime = true
  pingTime : 0 < options.pingTime
  pongTime : 0 < options.pongTime
  pongMultiplier : 0 < options.pongMultiplier
  maxPongTime : 0 < options.maxPongTime

end KeepaliveOptions

def maxDuration : Int := 2 ^ 63 - 1

namespace TimeoutManager

/-- The update as the source computes it. -/
def updateSmoothedRTTFloat (fusion : Fusion) (m : TimeoutManager) (rtt : Int) : TimeoutManager :=
  if !m.rttInitialized then {m with smoothedRTT := rtt, rttInitialized := true}
  else {m with smoothedRTT := ewma fusion rtt m.smoothedRTT}

def getPongTime (options : KeepaliveOptions) (m : TimeoutManager) : Int :=
  if options.pongTime = 0 then maxDuration
  else if !options.dynamicPongTime || !m.rttInitialized then options.pongTime
  else
    let dynamicPong := wrapDuration (options.pongMultiplier * m.smoothedRTT)
    let dynamicPong := if dynamicPong < options.pongTime then options.pongTime else dynamicPong
    let dynamicPong := if 0 < options.maxPongTime ∧ options.maxPongTime < dynamicPong then options.maxPongTime else dynamicPong
    if 0 < options.pingTime ∧ options.pingTime < dynamicPong then options.pingTime else dynamicPong

end TimeoutManager

/-- A number of nanoseconds that the average is exact for. -/
def Exact (rtt : Int) : Prop := 0 ≤ rtt ∧ rtt < 2 ^ 51

theorem representable_quarter {n : Int} (nonneg : 0 ≤ n) (small : n < 2 ^ 53) :
    FloatFormat.binary64.Representable (n / 4) := by
  refine ⟨n,-2,?_,by decide,?_⟩
  · rw [abs_of_nonneg nonneg]
    exact small
  · norm_num
    ring

theorem representable_int {n : Int} (nonneg : 0 ≤ n) (small : n < 2 ^ 53) : FloatFormat.binary64.Representable n := by
  refine ⟨n,0,?_,by decide,?_⟩
  · rw [abs_of_nonneg nonneg]
    exact small
  · simp

theorem ofInt_exact {rtt : Int} (exact_ : Exact rtt) : FloatFormat.binary64.ofInt rtt = rtt := by
  obtain ⟨low,high⟩ := exact_
  exact FloatFormat.round_eq_self (representable_int low (by omega))

theorem round_quarter {n : Int} (nonneg : 0 ≤ n) (small : n < 2 ^ 53) :
    FloatFormat.binary64.round (n / 4) = n / 4 :=
  FloatFormat.round_eq_self (representable_quarter nonneg small)

/-- All roundings are exact, so it does not matter which operations are fused. -/
theorem ewma_exact (fusion : Fusion) {rtt smoothedRTT : Int} (sample : Exact rtt) (average : Exact smoothedRTT) :
    ewma fusion rtt smoothedRTT = FloatFormat.truncate ((rtt + 3 * smoothedRTT : Int) / 4) := by
  have sampled := ofInt_exact sample
  have averaged := ofInt_exact average
  obtain ⟨low,high⟩ := sample
  obtain ⟨low',high'⟩ := average
  have first : ewmaAlpha * rtt = (rtt : ℚ) / 4 := by
    rw [ewmaAlpha]
    ring
  have second : (1 - ewmaAlpha) * smoothedRTT = ((3 * smoothedRTT : Int) : ℚ) / 4 := by
    rw [ewmaAlpha]
    push_cast
    ring
  have sum : (rtt : ℚ) / 4 + (3 * smoothedRTT : Int) / 4 = (rtt + 3 * smoothedRTT : Int) / 4 := by
    push_cast
    ring
  have firstRound := round_quarter low (by omega : rtt < 2 ^ 53)
  have secondRound := round_quarter (by omega : 0 ≤ 3 * smoothedRTT) (by omega)
  have sumRound := round_quarter (by omega : 0 ≤ rtt + 3 * smoothedRTT) (by omega)
  cases fusion with
  | separate =>
    simp only [ewma,sampled,averaged,FloatFormat.add,FloatFormat.mul,first,second,firstRound,secondRound,sum,sumRound]
  | sample =>
    simp only [ewma,sampled,averaged,FloatFormat.fma,FloatFormat.mul,first,second,secondRound,sum,sumRound]
  | average =>
    rw [add_comm] at sum
    simp only [ewma,sampled,averaged,FloatFormat.fma,FloatFormat.mul,first,second,firstRound,sum,sumRound]

theorem ewma_eq (fusion : Fusion) {rtt smoothedRTT : Int} (sample : Exact rtt) (average : Exact smoothedRTT) :
    ewma fusion rtt smoothedRTT = (rtt + 3 * smoothedRTT).tdiv 4 := by
  have nonneg : 0 ≤ rtt + 3 * smoothedRTT := by
    have := sample.1
    have := average.1
    omega
  have quotient : (0 : ℚ) ≤ (rtt + 3 * smoothedRTT : Int) / 4 :=
    div_nonneg (Int.cast_nonneg nonneg) (by norm_num)
  have floor := Rat.floor_intCast_div_natCast (rtt + 3 * smoothedRTT) 4
  rw [ewma_exact fusion sample average,FloatFormat.truncate_of_nonneg quotient,Int.tdiv_eq_ediv_of_nonneg nonneg]
  exact floor

namespace TimeoutManager

variable {m : TimeoutManager}

/-- The average of the samples so far. -/
def estimate (m : TimeoutManager) : Option Int := if m.rttInitialized then some m.smoothedRTT else none

/-- What a sample makes of the average. -/
def average (earlier : Option Int) (rtt : Int) : Int :=
  match earlier with
  | none => rtt
  | some smoothedRTT => (rtt + 3 * smoothedRTT).tdiv 4

theorem estimate_update (m : TimeoutManager) (rtt : Int) :
    (m.updateSmoothedRTT rtt).estimate = some (average m.estimate rtt) := by
  unfold updateSmoothedRTT estimate
  cases m.rttInitialized <;> rfl

theorem updateSmoothedRTTFloat_eq (fusion : Fusion) {rtt : Int} (sample : Exact rtt)
    (exact_ : ∀ smoothedRTT ∈ m.estimate, Exact smoothedRTT) :
    m.updateSmoothedRTTFloat fusion rtt = m.updateSmoothedRTT rtt := by
  unfold updateSmoothedRTTFloat updateSmoothedRTT
  cases begun : m.rttInitialized with
  | false => rfl
  | true =>
    have held : Exact m.smoothedRTT := by
      apply exact_
      simp [estimate,begun]
    rw [ewma_eq fusion sample held]

/-- The average of a value and an earlier average lies between them. -/
theorem average_bounds {earlier : Option Int} {rtt low high : Int} (nonneg : 0 ≤ low) (sample : low ≤ rtt ∧ rtt ≤ high)
    (before : ∀ smoothedRTT ∈ earlier, low ≤ smoothedRTT ∧ smoothedRTT ≤ high) :
    low ≤ average earlier rtt ∧ average earlier rtt ≤ high := by
  cases earlier with
  | none => exact sample
  | some smoothedRTT =>
    have between := before smoothedRTT rfl
    rw [average,Int.tdiv_eq_ediv_of_nonneg (by omega)]
    omega

theorem average_exact {earlier : Option Int} {rtt : Int} (sample : Exact rtt)
    (before : ∀ smoothedRTT ∈ earlier, Exact smoothedRTT) : Exact (average earlier rtt) := by
  have bounds : 0 ≤ average earlier rtt ∧ average earlier rtt ≤ 2 ^ 51 - 1 := by
    apply average_bounds (Int.le_refl 0) ⟨sample.1,Int.le_sub_one_of_lt sample.2⟩
    intro smoothedRTT member
    exact ⟨(before smoothedRTT member).1,Int.le_sub_one_of_lt (before smoothedRTT member).2⟩
  exact ⟨bounds.1,Int.lt_of_le_sub_one bounds.2⟩

theorem average_mono {rtt rtt' smoothedRTT smoothedRTT' : Int} (nonneg : 0 ≤ rtt) (nonneg' : 0 ≤ smoothedRTT)
    (sample : rtt ≤ rtt') (before : smoothedRTT ≤ smoothedRTT') :
    average (some smoothedRTT) rtt ≤ average (some smoothedRTT') rtt' := by
  rw [average,average,Int.tdiv_eq_ediv_of_nonneg (by omega),Int.tdiv_eq_ediv_of_nonneg (by omega)]
  omega

/-- What a sequence of samples makes of the average. -/
def averages (earlier : Option Int) (samples : List Int) : Option Int :=
  samples.foldl (fun earlier rtt => some (average earlier rtt)) earlier

theorem estimate_updates (m : TimeoutManager) (samples : List Int) :
    (samples.foldl updateSmoothedRTT m).estimate = averages m.estimate samples := by
  induction samples generalizing m with
  | nil => rfl
  | cons rtt samples ih =>
    rw [List.foldl_cons,ih,estimate_update]
    rfl

theorem averages_some (smoothedRTT : Int) (samples : List Int) : ∃ final, averages (some smoothedRTT) samples = some final := by
  induction samples generalizing smoothedRTT with
  | nil => exact ⟨smoothedRTT,rfl⟩
  | cons rtt samples ih => exact ih (average (some smoothedRTT) rtt)

theorem averages_bounds {low high : Int} (nonneg : 0 ≤ low) {samples : List Int} {earlier : Option Int}
    (within : ∀ rtt ∈ samples, low ≤ rtt ∧ rtt ≤ high)
    (before : ∀ smoothedRTT ∈ earlier, low ≤ smoothedRTT ∧ smoothedRTT ≤ high) :
    ∀ smoothedRTT ∈ averages earlier samples, low ≤ smoothedRTT ∧ smoothedRTT ≤ high := by
  induction samples generalizing earlier with
  | nil => exact before
  | cons rtt samples ih =>
    rw [List.forall_mem_cons] at within
    apply ih within.2
    rintro _ ⟨⟩
    exact average_bounds nonneg within.1 before

theorem averages_mono {others samples : List Int} (below : List.Forall₂ (· ≤ ·) others samples)
    (nonneg : ∀ rtt ∈ others, 0 ≤ rtt) {smoothedRTT smoothedRTT' : Int} (low : 0 ≤ smoothedRTT)
    (before : smoothedRTT ≤ smoothedRTT') : ∃ final final', averages (some smoothedRTT) others = some final ∧
      averages (some smoothedRTT') samples = some final' ∧ 0 ≤ final ∧ final ≤ final' := by
  induction below generalizing smoothedRTT smoothedRTT' with
  | nil => exact ⟨smoothedRTT,smoothedRTT',rfl,rfl,low,before⟩
  | cons le _ ih =>
    rw [List.forall_mem_cons] at nonneg
    apply ih nonneg.2
    · rw [average]
      exact Int.tdiv_nonneg (by omega) (by omega)
    · exact average_mono nonneg.1 low le before

theorem exact_of_below {others samples : List Int} (below : List.Forall₂ (· ≤ ·) others samples)
    (nonneg : ∀ rtt ∈ others, 0 ≤ rtt) (inRange : ∀ rtt ∈ samples, Exact rtt) : ∀ rtt ∈ others, Exact rtt := by
  induction below with
  | nil => exact inRange
  | cons le _ ih =>
    rw [List.forall_mem_cons] at nonneg inRange ⊢
    exact ⟨⟨nonneg.1,Int.lt_of_le_of_lt le inRange.1.2⟩,ih nonneg.2 inRange.2⟩

/-- The source and the integer average stay the same along a history. -/
theorem updatesFloat_eq (fusion : Fusion) {samples : List Int} (inRange : ∀ rtt ∈ samples, Exact rtt)
    (exact_ : ∀ smoothedRTT ∈ m.estimate, Exact smoothedRTT) :
    samples.foldl (updateSmoothedRTTFloat fusion) m = samples.foldl updateSmoothedRTT m := by
  induction samples generalizing m with
  | nil => rfl
  | cons rtt samples ih =>
    rw [List.forall_mem_cons] at inRange
    rw [List.foldl_cons,List.foldl_cons,updateSmoothedRTTFloat_eq fusion inRange.1 exact_]
    apply ih inRange.2
    rw [estimate_update]
    rintro _ ⟨⟩
    exact average_exact inRange.1 exact_

theorem getPongTime_eq {options : KeepaliveOptions} (dynamic : options.Dynamic) {smoothedRTT : Int}
    (held : m.estimate = some smoothedRTT) (nonneg : 0 ≤ smoothedRTT)
    (fits : options.pongMultiplier * smoothedRTT < 2 ^ 63) :
    m.getPongTime options =
      min (min (max (options.pongMultiplier * smoothedRTT) options.pongTime) options.maxPongTime) options.pingTime := by
  have begun : m.rttInitialized = true ∧ m.smoothedRTT = smoothedRTT := by
    simpa [estimate] using held
  have product : 0 ≤ options.pongMultiplier * smoothedRTT := Int.mul_nonneg (Int.le_of_lt dynamic.pongMultiplier) nonneg
  have unwrapped : wrapDuration (options.pongMultiplier * smoothedRTT) = options.pongMultiplier * smoothedRTT :=
    Int.bmod_eq_of_le (by omega) (by omega)
  have := dynamic.pongTime
  have := dynamic.pingTime
  have := dynamic.maxPongTime
  simp only [getPongTime,begun,dynamic.dynamicPongTime,unwrapped,Bool.not_true,Bool.or_self,Bool.false_eq_true,if_false]
  rw [if_neg (by omega)]
  generalize options.pongMultiplier * smoothedRTT = dynamicPong at *
  split_ifs <;> omega

theorem estimate_fresh (fresh : m.rttInitialized = false) : m.estimate = none := by
  simp [estimate,fresh]

theorem smoothedRTT_eq {smoothedRTT : Int} (held : m.estimate = some smoothedRTT) : m.smoothedRTT = smoothedRTT := by
  unfold estimate at held
  split_ifs at held
  exact Option.some.inj held

/-- A history of samples has an average, which lies in the range of the samples. -/
theorem updates_bounds (fresh : m.rttInitialized = false) {samples : List Int} (nonempty : samples ≠ [])
    (nonneg : ∀ rtt ∈ samples, 0 ≤ rtt) :
    ∃ smoothedRTT, (samples.foldl updateSmoothedRTT m).estimate = some smoothedRTT ∧ 0 ≤ smoothedRTT ∧
      ∀ low ∈ samples.min?, ∀ high ∈ samples.max?, low ≤ smoothedRTT ∧ smoothedRTT ≤ high := by
  obtain ⟨low,least⟩ := Option.isSome_iff_exists.mp (List.isSome_min?_iff.mpr nonempty)
  obtain ⟨high,greatest⟩ := Option.isSome_iff_exists.mp (List.isSome_max?_iff.mpr nonempty)
  obtain ⟨member,below⟩ := List.min?_eq_some_iff.mp least
  have above := (List.max?_eq_some_iff.mp greatest).2
  obtain ⟨smoothedRTT,held⟩ : ∃ smoothedRTT, averages none samples = some smoothedRTT := by
    cases samples with
    | nil => exact absurd rfl nonempty
    | cons rtt samples => exact averages_some rtt samples
  have between : low ≤ smoothedRTT ∧ smoothedRTT ≤ high := by
    apply averages_bounds (nonneg low member) _ _ smoothedRTT held
    · intro rtt inside
      exact ⟨below rtt inside,above rtt inside⟩
    · intro _ absent
      cases absent
  refine ⟨smoothedRTT,?_,Int.le_trans (nonneg low member) between.1,?_⟩
  · rw [estimate_updates,estimate_fresh fresh,held]
  · rw [least,greatest]
    rintro _ ⟨⟩ _ ⟨⟩
    exact between

/-- Of two histories as long as each other, one with no sample above its counterpart, the average is not above. -/
theorem updates_mono {m' : TimeoutManager} (fresh : m.rttInitialized = false) (fresh' : m'.rttInitialized = false)
    {others samples : List Int} (below : List.Forall₂ (· ≤ ·) others samples) (nonneg : ∀ rtt ∈ others, 0 ≤ rtt)
    {smoothedRTT : Int} (held : (samples.foldl updateSmoothedRTT m).estimate = some smoothedRTT) :
    ∃ smaller, (others.foldl updateSmoothedRTT m').estimate = some smaller ∧ 0 ≤ smaller ∧ smaller ≤ smoothedRTT := by
  rw [estimate_updates,estimate_fresh fresh] at held
  rw [estimate_updates,estimate_fresh fresh']
  cases below with
  | nil => cases held
  | cons le below =>
    rw [List.forall_mem_cons] at nonneg
    obtain ⟨smaller,larger,held',found,low,le'⟩ := averages_mono below nonneg.2 nonneg.1 le
    cases found.symm.trans held
    exact ⟨smaller,held',low,le'⟩

/-- The samples that `Received` takes in a run, the newest first. -/
def rttSamples (m : TimeoutManager) : List TimedCall → List Int
  | [] => []
  | .sent _ _ _ _ :: earlier => rttSamples m earlier
  | .received receivedAt _ msg :: earlier => ((m.after earlier).rttSample receivedAt msg).toList ++ rttSamples m earlier

theorem sent_estimate (m : TimeoutManager) (sentAt boostAt : Int) (msg : Message) (resent : Bool) :
    (m.sent sentAt boostAt msg resent).estimate = m.estimate := by
  unfold sent
  by_cases static : m.useStaticTimeout = true
  · rw [if_pos static]
  · rw [if_neg static]
    cases msg with
    | syn | data => cases resent <;> rfl
    | _ => rfl

theorem received_estimate (m : TimeoutManager) (receivedAt resetAt : Int) (msg : Message) :
    (m.received receivedAt resetAt msg).estimate =
      averages m.estimate (m.rttSample receivedAt msg).toList := by
  unfold received rttSample
  split_ifs with static
  · rfl
  · cases m.sentTime msg with
    | none => rfl
    | some time =>
      cases msg with
      | ack seq =>
        dsimp only [Option.map_some,Option.toList_some]
        split_ifs
        · exact estimate_update _ _
        · exact estimate_update _ _
      | _ => exact estimate_update _ _

/-- After any run of calls the average is that of the samples taken in the run. -/
theorem after_estimate (m : TimeoutManager) (history : List TimedCall) :
    (m.after history).estimate = averages m.estimate (m.rttSamples history).reverse := by
  induction history with
  | nil => rfl
  | cons call earlier ih =>
    rw [after]
    cases call with
    | sent sentAt boostAt msg resent =>
      rw [step,sent_estimate,ih]
      rfl
    | received receivedAt resetAt msg =>
      rw [step,received_estimate,ih,rttSamples,List.reverse_append]
      cases (m.after earlier).rttSample receivedAt msg <;> simp [averages]

theorem getPongTime_congr {m' : TimeoutManager} (same : m.estimate = m'.estimate) (options : KeepaliveOptions) :
    m.getPongTime options = m'.getPongTime options := by
  unfold estimate at same
  unfold getPongTime
  cases begun : m.rttInitialized <;> cases begun' : m'.rttInitialized <;> simp_all

/-- So the timeout after a run is the one that the source computes from its samples, in their order. -/
theorem getPongTime_after (fusion : Fusion) (fresh : m.rttInitialized = false) (history : List TimedCall)
    (inRange : ∀ rtt ∈ m.rttSamples history, Exact rtt) (options : KeepaliveOptions) :
    (m.after history).getPongTime options =
      ((m.rttSamples history).reverse.foldl (updateSmoothedRTTFloat fusion) m).getPongTime options := by
  have float : (m.rttSamples history).reverse.foldl (updateSmoothedRTTFloat fusion) m =
      (m.rttSamples history).reverse.foldl updateSmoothedRTT m := by
    apply updatesFloat_eq fusion
    · simpa using inRange
    · simp [estimate_fresh fresh]
  apply getPongTime_congr
  rw [after_estimate,float,estimate_updates]

/-- With samples below 2^51 ns the source computes the floor of the weighted sum, the average lies
between the least and the greatest sample, and the pong timeout lies between the configured one and
its two caps. Histories with smaller samples do not yield a larger timeout. The samples may be those of
any run of calls. -/
theorem dynamic_pong_bounded (fusion : Fusion) (m : TimeoutManager) (fresh : m.rttInitialized = false)
    (samples : List Int) (nonempty : samples ≠ []) (inRange : ∀ rtt ∈ samples, 0 ≤ rtt ∧ rtt < 2 ^ 51) :
    let final := samples.foldl (updateSmoothedRTTFloat fusion) m
    (∀ rtt smoothedRTT, Exact rtt → Exact smoothedRTT → ewma fusion rtt smoothedRTT = (rtt + 3 * smoothedRTT) / 4) ∧
    (∀ low ∈ samples.min?, ∀ high ∈ samples.max?, low ≤ final.smoothedRTT ∧ final.smoothedRTT ≤ high) ∧
    (∀ history : List TimedCall, (m.rttSamples history).reverse = samples → ∀ options : KeepaliveOptions,
      (m.after history).getPongTime options = final.getPongTime options) ∧
    ∀ options : KeepaliveOptions, options.Dynamic → options.pongMultiplier * final.smoothedRTT < 2 ^ 63 →
      min options.pongTime (min options.maxPongTime options.pingTime) ≤ final.getPongTime options ∧
      final.getPongTime options ≤ min options.maxPongTime options.pingTime ∧
      (options.pongTime ≤ min options.maxPongTime options.pingTime → options.pongTime ≤ final.getPongTime options) ∧
      ∀ (m' : TimeoutManager) (others : List Int), m'.rttInitialized = false →
        List.Forall₂ (· ≤ ·) others samples → (∀ rtt ∈ others, 0 ≤ rtt) →
        (others.foldl (updateSmoothedRTTFloat fusion) m').getPongTime options ≤ final.getPongTime options := by
  intro final
  have same : final = samples.foldl updateSmoothedRTT m := by
    apply updatesFloat_eq fusion inRange
    simp [estimate_fresh fresh]
  obtain ⟨smoothedRTT,held,low,between⟩ := updates_bounds fresh nonempty fun rtt member => (inRange rtt member).1
  rw [← same] at held
  refine ⟨?_,?_,?_,?_⟩
  · intro rtt earlier sample average
    rw [ewma_eq fusion sample average,Int.tdiv_eq_ediv_of_nonneg]
    have := sample.1
    have := average.1
    omega
  · rw [smoothedRTT_eq held]
    exact between
  · rintro history rfl options
    exact getPongTime_after fusion fresh history (fun rtt member => inRange rtt (List.mem_reverse.mpr member)) options
  · intro options dynamic fits
    rw [smoothedRTT_eq held] at fits
    have pong := getPongTime_eq dynamic held low fits
    refine ⟨?_,?_,?_,?_⟩
    · omega
    · omega
    · omega
    · intro m' others fresh' below nonneg
      have same' : others.foldl (updateSmoothedRTTFloat fusion) m' = others.foldl updateSmoothedRTT m' := by
        apply updatesFloat_eq fusion (exact_of_below below nonneg inRange)
        simp [estimate_fresh fresh']
      rw [same] at held
      obtain ⟨smaller,held',low',le⟩ := updates_mono fresh fresh' below nonneg held
      have product : options.pongMultiplier * smaller ≤ options.pongMultiplier * smoothedRTT :=
        Int.mul_le_mul_of_nonneg_left le (Int.le_of_lt dynamic.pongMultiplier)
      rw [same',pong,getPongTime_eq dynamic held' low' (by omega)]
      omega

/-- A sample of two seconds and one of a second, with a base of one second and a cap of ten. -/
theorem dynamic_pong_bounded_second :
    let options : KeepaliveOptions := KeepaliveOptions.withDynamicPongTimeout 3 (15 * second)
      (KeepaliveOptions.withKeepalivePing (10 * second) second {})
    let final := [2 * second,second].foldl (updateSmoothedRTTFloat .separate) (newTimeOutManager {})
    second ≤ final.smoothedRTT ∧ final.smoothedRTT ≤ 2 * second ∧
      second ≤ final.getPongTime options ∧ final.getPongTime options ≤ 10 * second := by
  intro options final
  have bounded := dynamic_pong_bounded .separate (newTimeOutManager {}) rfl [2 * second,second] (by decide) (by decide)
  have between : second ≤ final.smoothedRTT ∧ final.smoothedRTT ≤ 2 * second := bounded.2.1 second rfl (2 * second) rfl
  have dynamic : options.Dynamic := ⟨rfl,by decide,by decide,by decide,by decide⟩
  have fits : options.pongMultiplier * final.smoothedRTT < 2 ^ 63 := by
    have multiplier : options.pongMultiplier = 3 := rfl
    rw [multiplier]
    have := between.2
    unfold second at this
    omega
  obtain ⟨_,capped,floor,_⟩ := bounded.2.2.2 options dynamic fits
  exact ⟨between.1,between.2,floor (by decide),capped⟩

end TimeoutManager

end NodeConnect.Gbn
