import NodeConnect.Gbn.Framing
import NodeConnect.Lib.Run

/-! `Send` and `Recv` with timeouts, over packets that arrive in order. Both keep their
progress in local variables: `sentBytes`, and the bytes `b` received so far. A timeout
abandons the variable, but not the chunks that were already passed on. -/
namespace NodeConnect.Gbn
open Lib

structure Calls where
  /-- The data and `sentBytes` of the `Send` in progress. -/
  sending : Option (Bytes × Nat)
  /-- Accepted by `sendDataChan` and not yet taken from the peer's `recvDataChan`. -/
  stream : List PacketData
  /-- The bytes that the `Recv` in progress has. -/
  receiving : Option Bytes
  /-- History: the data of each `Send` that returned, and whether it returned nil. -/
  sends : List (Bytes × Bool)
  /-- History: what each successful `Recv` returned. -/
  received : List Bytes
  deriving DecidableEq, Repr

inductive CallEvent where
  | send (data : Bytes)
  | accept
  | sendTimeout
  | recv
  | take
  | recvTimeout
  deriving DecidableEq, Repr

namespace Calls

def initial : Calls := ⟨none,[],none,[],[]⟩

/-- The head of the loop in `Send`: offer the next packet or return nil. -/
def sendLoopHead (c : Calls) (data : Bytes) (sentBytes : Nat) : Calls :=
  if sentBytes < data.length then {c with sending := some (data,sentBytes)}
  else {c with sending := none, sends := c.sends ++ [(data,true)]}

def step (maxChunk : Nat) (c : Calls) : CallEvent → Option Calls
  | .send data => if c.sending = none then some (c.sendLoopHead data 0) else none
  | .accept => do
    let (data,sentBytes) ← c.sending
    let (packet,sentBytes) := nextChunk maxChunk data sentBytes
    return {c with stream := c.stream ++ [packet]}.sendLoopHead data sentBytes
  | .sendTimeout => do
    let (data,_) ← c.sending
    return {c with sending := none, sends := c.sends ++ [(data,false)]}
  | .recv => if c.receiving = none then some {c with receiving := some []} else none
  | .take => do
    let b ← c.receiving
    match c.stream with
    | [] => none
    | msg :: stream =>
      let b := b ++ msg.payload
      if msg.finalChunk then return {c with stream := stream, receiving := none, received := c.received ++ [b]}
      else return {c with stream := stream, receiving := some b}
  | .recvTimeout => do
    let _ ← c.receiving
    return {c with receiving := none}

/-- The data of the calls of `Send` that returned nil. -/
def delivered (c : Calls) : List Bytes := (c.sends.filter (·.2)).map (·.1)

/-- A timeout that abandons a message in the middle. -/
def Abandons (c : Calls) : CallEvent → Prop
  | .sendTimeout => ∃ data sentBytes, c.sending = some (data,sentBytes) ∧ 0 < sentBytes
  | .recvTimeout => ∃ b, c.receiving = some b ∧ b ≠ []
  | _ => False

/-- The part of the message in progress that was passed on. -/
def begun (c : Calls) : Bytes := (c.sending.map fun (data,sentBytes) => data.take sentBytes).getD []

/-- The `Recv` in progress and the packets in the stream make up the messages that were sent
and not yet returned, and the beginning of the one in progress. -/
structure Whole (c : Calls) : Prop where
  progress : ∀ data sentBytes, c.sending = some (data,sentBytes) → sentBytes < data.length
  frames : ∃ later, c.delivered = c.received ++ later ∧
    deframe (c.receiving.getD []) (c.stream.map body) = (later,c.begun)

namespace Whole

variable {c next : Calls}

theorem begin (whole : c.Whole) (data : Bytes) (nonempty : data ≠ []) (idle : c.sending = none) :
    (c.sendLoopHead data 0).Whole := by
  obtain ⟨later,delivered,frames⟩ := whole.frames
  have inside : 0 < data.length := List.length_pos_iff.mpr nonempty
  rw [sendLoopHead,if_pos inside]
  refine ⟨?_,later,delivered,?_⟩
  · rintro _ _ same
    cases same
    exact inside
  · simpa [begun,idle] using frames

theorem accept (whole : c.Whole) (maxChunk : Nat) (data : Bytes) (sentBytes : Nat)
    (sending : c.sending = some (data,sentBytes)) :
    ({c with stream := c.stream ++ [(nextChunk maxChunk data sentBytes).1]}.sendLoopHead data
      (nextChunk maxChunk data sentBytes).2).Whole := by
  obtain ⟨later,delivered,frames⟩ := whole.frames
  have inside := whole.progress data sentBytes sending
  by_cases fits : data.length - sentBytes ≤ maxChunk
  · rw [nextChunk_last maxChunk data sentBytes inside fits,sendLoopHead,if_neg (Nat.lt_irrefl _)]
    refine ⟨nofun,later ++ [data],?_,?_⟩
    · change ((c.sends ++ [(data,true)]).filter (·.2)).map (·.1) = c.received ++ (later ++ [data])
      rw [List.filter_append,List.map_append,← List.append_assoc,← delivered]
      rfl
    · simp [deframe_append,frames,body,deframe,begun,sending]
  · have exceeds : maxChunk < data.length - sentBytes := Nat.not_le.mp fits
    have further : sentBytes + maxChunk < data.length := by omega
    rw [nextChunk_more maxChunk data sentBytes exceeds,sendLoopHead,if_pos further]
    refine ⟨?_,later,delivered,?_⟩
    · rintro _ _ same
      cases same
      exact further
    · simp [deframe_append,frames,body,deframe,begun,sending,List.take_add]

theorem take (whole : c.Whole) (b : Bytes) (msg : PacketData) (stream : List PacketData)
    (receiving : c.receiving = some b) (queued : c.stream = msg :: stream) :
    Whole (if msg.finalChunk then {c with stream := stream, receiving := none, received := c.received ++ [b ++ msg.payload]}
      else {c with stream := stream, receiving := some (b ++ msg.payload)}) := by
  obtain ⟨later,delivered,frames⟩ := whole.frames
  rw [receiving,queued] at frames
  split_ifs with final
  · simp only [Option.getD_some,List.map_cons,body,final,deframe] at frames
    obtain ⟨messages,left⟩ := Prod.mk.inj frames
    refine ⟨whole.progress,(deframe [] (stream.map body)).1,?_,?_⟩
    · change c.delivered = c.received ++ [b ++ msg.payload] ++ (deframe [] (stream.map body)).1
      rw [delivered,← messages,List.append_assoc]
      rfl
    · exact Prod.ext rfl left
  · refine ⟨whole.progress,later,delivered,?_⟩
    simpa [body,final,deframe,begun] using frames

theorem step (whole : c.Whole) (maxChunk : Nat) (event : CallEvent) (nonempty : event ≠ .send [])
    (finishes : ¬ c.Abandons event) (stepped : c.step maxChunk event = some next) :
    next.Whole := by
  cases event with
  | send data =>
    simp only [Calls.step] at stepped
    split_ifs at stepped with idle
    cases stepped
    exact whole.begin data (fun empty => nonempty (by rw [empty])) idle
  | accept =>
    obtain ⟨⟨data,sentBytes⟩,sending,done⟩ := Option.bind_eq_some_iff.mp stepped
    cases done
    exact whole.accept maxChunk data sentBytes sending
  | sendTimeout =>
    obtain ⟨⟨data,sentBytes⟩,sending,done⟩ := Option.bind_eq_some_iff.mp stepped
    cases done
    obtain ⟨later,delivered,frames⟩ := whole.frames
    have none : sentBytes = 0 := Nat.eq_zero_of_not_pos fun some => finishes ⟨data,sentBytes,sending,some⟩
    refine ⟨nofun,later,?_,?_⟩
    · rw [← delivered]
      simp [Calls.delivered]
    · simpa [begun,sending,none] using frames
  | recv =>
    simp only [Calls.step] at stepped
    split_ifs at stepped with idle
    cases stepped
    obtain ⟨later,delivered,frames⟩ := whole.frames
    rw [idle] at frames
    exact ⟨whole.progress,later,delivered,frames⟩
  | take =>
    obtain ⟨b,receiving,rest⟩ := Option.bind_eq_some_iff.mp stepped
    split at rest
    next => contradiction
    next msg stream queued =>
      have taken := whole.take b msg stream receiving queued
      dsimp only at rest
      split_ifs at rest taken with final
      · cases rest
        exact taken
      · cases rest
        exact taken
  | recvTimeout =>
    obtain ⟨b,receiving,done⟩ := Option.bind_eq_some_iff.mp stepped
    cases done
    obtain ⟨later,delivered,frames⟩ := whole.frames
    have none : b = [] := Classical.byContradiction fun some => finishes ⟨b,receiving,some⟩
    rw [receiving,none] at frames
    exact ⟨whole.progress,later,delivered,frames⟩

end Whole

/-- In every interleaving of calls in which no timeout abandons a message in the middle, the
successful calls of `Recv` return the data of the successful calls of `Send`, in order. -/
theorem received_isPrefix_delivered (maxChunk : Nat) (events : List CallEvent) (nonempty : .send [] ∉ events)
    (c : Calls) (reached : run (step maxChunk) initial events = some c)
    (finishes : Along (step maxChunk) (fun c event => ¬ c.Abandons event) initial events) :
    c.received <+: c.delivered := by
  have start : initial.Whole := ⟨nofun,[],rfl,rfl⟩
  have allowed : Along (step maxChunk) (fun c event => ¬ c.Abandons event ∧ event ≠ .send []) initial events :=
    finishes.and_forall fun event member same => nonempty (same ▸ member)
  have whole := along_invariant (step maxChunk) _ Whole
    (fun c event next whole may stepped => whole.step maxChunk event may.2 may.1 stepped) events initial c start
    allowed reached
  obtain ⟨later,delivered,_⟩ := whole.frames
  exact ⟨later,delivered.symm⟩

instance (c : Calls) : (event : CallEvent) → Decidable (c.Abandons event)
  | .sendTimeout =>
    match sending : c.sending with
    | none => isFalse (by simp [Abandons,sending])
    | some (data,sentBytes) => decidable_of_iff (0 < sentBytes) (by simp [Abandons,sending])
  | .recvTimeout =>
    match receiving : c.receiving with
    | none => isFalse (by simp [Abandons,receiving])
    | some b => decidable_of_iff (b ≠ []) (by simp [Abandons,receiving])
  | .send _ | .accept | .recv | .take => isFalse id

/-- Both calls time out before their first chunk and are made again. -/
def retriedCalls : List CallEvent :=
  [.send [1,2,3],.sendTimeout,.recv,.recvTimeout,.send [1,2,3],.accept,.recv,.take,.accept,.take]

theorem received_isPrefix_delivered_retried : ∃ c, run (step 2) initial retriedCalls = some c ∧
    c.received = [[1,2,3]] ∧ c.received <+: c.delivered := by
  have result : (run (step 2) initial retriedCalls).map Calls.received = some [[1,2,3]] := by decide
  obtain ⟨c,reached,received⟩ := Option.map_eq_some_iff.mp result
  exact ⟨c,reached,received,received_isPrefix_delivered 2 retriedCalls (by decide) c reached (by decide)⟩

/-- A `Send` that times out after its first chunk is joined with the next one, and a `Recv`
that times out after its first chunk makes the next one return the rest. -/
theorem timeout_breaks_boundaries :
    (∃ c, run (step 1) initial [.send [1,2],.accept,.sendTimeout,.send [3],.accept,.recv,.take,.take] = some c ∧
      c.sends = [([1,2],false),([3],true)] ∧ c.received = [[1,3]]) ∧
    (∃ c, run (step 1) initial [.send [1,2],.accept,.accept,.recv,.take,.recvTimeout,.recv,.take] = some c ∧
      c.sends = [([1,2],true)] ∧ c.received = [[2]]) := by
  have returns (events : List CallEvent) (sends : List (Bytes × Bool)) (received : List Bytes)
      (view : (run (step 1) initial events).map (fun c => (c.sends,c.received)) = some (sends,received)) :
      ∃ c, run (step 1) initial events = some c ∧ c.sends = sends ∧ c.received = received := by
    obtain ⟨c,reached,fields⟩ := Option.map_eq_some_iff.mp view
    exact ⟨c,reached,Prod.mk.inj fields⟩
  exact ⟨returns _ _ _ (by decide),returns _ _ _ (by decide)⟩

end Calls

end NodeConnect.Gbn
