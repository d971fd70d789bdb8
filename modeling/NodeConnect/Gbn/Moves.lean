import NodeConnect.Gbn.Connection

/-! What one step of the send loop and one step of the receive loop can do, place by
place. The invariants of an endpoint are proved over these two lists. -/
namespace NodeConnect.Gbn
open Lib (Bytes)

/-- The select in which the caller of a resend waits. -/
def Caller.waits : Caller → SendLoop
  | .outer => .select
  | .full => .parked

namespace Endpoint

inductive SendMoves (e : Endpoint) : SendAction → Endpoint → List Message → Prop
  | take (payload : Bytes) (finalChunk : Bool) (loop : e.sendLoop = .select) :
    SendMoves e (.take payload finalChunk)
      {e with
        sendLoop := .holding {payload := payload, finalChunk := finalChunk}
        taken := e.taken ++ [{payload := payload, finalChunk := finalChunk}]} []
  | ping (loop : e.sendLoop = .select) : SendMoves e .ping {e with sendLoop := .holding {isPing := true}} []
  | signalled (caller : Caller) (loop : e.sendLoop = caller.waits) (signal : e.resendSignal = true) :
    SendMoves e .resendSignal {e with sendLoop := .resend caller, resendSignal := false} []
  | ticked (caller : Caller) (loop : e.sendLoop = caller.waits) :
    SendMoves e .resendTicker {e with sendLoop := .resend caller} []
  | add (recent : Bool) (packet : PacketData) (queue : Queue) (loop : e.sendLoop = .holding packet)
    (added : e.queue.addPacket packet = .ok queue) :
    SendMoves e (.proceed recent)
      {e with
        queue := queue, sendLoop := .added {packet with seq := e.queue.sequenceTop}
        added := e.added ++ [{packet with seq := e.queue.sequenceTop}]} []
  | addFails (recent : Bool) (packet : PacketData) (fault : Fault) (loop : e.sendLoop = .holding packet)
    (failed : e.queue.addPacket packet = .error fault) :
    SendMoves e (.proceed recent) {e with sendLoop := .crashed fault} []
  | transmit (recent : Bool) (packet : PacketData) (loop : e.sendLoop = .added packet) :
    SendMoves e (.proceed recent) {e with sendLoop := .check} [.data packet]
  | room (recent : Bool) (loop : e.sendLoop = .check) (room : e.queue.size < e.n) :
    SendMoves e (.proceed recent) {e with sendLoop := .select} []
  | full (recent : Bool) (loop : e.sendLoop = .check) (full : ¬ e.queue.size < e.n) :
    SendMoves e (.proceed recent) {e with sendLoop := .parking} []
  | park (recent : Bool) (loop : e.sendLoop = .parking) : SendMoves e (.proceed recent) {e with sendLoop := .parked} []
  | skip (recent : Bool) (caller : Caller) (loop : e.sendLoop = .resend caller)
    (idle : recent = true ∨ e.queue.size = 0) : SendMoves e (.proceed recent) {e with sendLoop := caller.back} []
  | begin (recent : Bool) (caller : Caller) (loop : e.sendLoop = .resend caller)
    (due : ¬ (recent = true ∨ e.queue.size = 0)) : SendMoves e (.proceed recent) {e with sendLoop := .resendBase caller} []
  | readBase (recent : Bool) (caller : Caller) (loop : e.sendLoop = .resendBase caller) :
    SendMoves e (.proceed recent) {e with sendLoop := .resendTop caller e.queue.sequenceBase} []
  | emptied (recent : Bool) (caller : Caller) (loop : e.sendLoop = .resendTop caller e.queue.sequenceTop) :
    SendMoves e (.proceed recent) {e with sendLoop := caller.back} []
  | start (recent : Bool) (caller : Caller) (base : UInt8) (syncer : Syncer) (loop : e.sendLoop = .resendTop caller base)
    (apart : base ≠ e.queue.sequenceTop) (started : e.queue.syncer.initResendUpTo e.queue.sequenceTop = .ok syncer) :
    SendMoves e (.proceed recent)
      {e with queue := {e.queue with syncer := syncer}, sendLoop := .resending caller base e.queue.sequenceTop} []
  | startFails (recent : Bool) (caller : Caller) (base : UInt8) (fault : Fault) (loop : e.sendLoop = .resendTop caller base)
    (failed : e.queue.syncer.initResendUpTo e.queue.sequenceTop = .error fault) :
    SendMoves e (.proceed recent) {e with sendLoop := .crashed fault} []
  | next (recent : Bool) (caller : Caller) (base top next : UInt8) (packet : PacketData)
    (loop : e.sendLoop = .resending caller base top) (apart : base ≠ top)
    (fetched : e.queue.resendNext base = .ok (packet,next)) :
    SendMoves e (.proceed recent) {e with sendLoop := .resending caller next top} [.data packet]
  | nextFails (recent : Bool) (caller : Caller) (base top : UInt8) (fault : Fault)
    (loop : e.sendLoop = .resending caller base top) (apart : base ≠ top)
    (failed : e.queue.resendNext base = .error fault) :
    SendMoves e (.proceed recent) {e with sendLoop := .crashed fault} []
  | resent (recent : Bool) (caller : Caller) (top : UInt8) (loop : e.sendLoop = .resending caller top top) :
    SendMoves e (.proceed recent) {e with sendLoop := .waitForSync caller} []
  | synced (recent : Bool) (caller : Caller) (loop : e.sendLoop = .waitForSync caller) :
    SendMoves e (.proceed recent)
      {e with queue := {e.queue with syncer := e.queue.syncer.reset}, sendLoop := caller.back} []

inductive ReceiveMoves (e : Endpoint) : Endpoint → Prop
  | bump (packet : PacketData) (recvSeq : UInt8) (loop : e.receiveLoop = .acknowledged packet)
    (computed : modulo (e.recvSeq + 1) e.s = .ok recvSeq) :
    ReceiveMoves e {e with recvSeq := recvSeq, receiveLoop := if packet.isPing then .ready else .handing packet}
  | bumpFails (packet : PacketData) (fault : Fault) (loop : e.receiveLoop = .acknowledged packet)
    (failed : modulo (e.recvSeq + 1) e.s = .error fault) : ReceiveMoves e {e with receiveLoop := .crashed fault}
  | hand (packet : PacketData) (loop : e.receiveLoop = .handing packet) (room : e.recvDataChan.length < e.n.toNat) :
    ReceiveMoves e
      {e with receiveLoop := .ready, recvDataChan := e.recvDataChan ++ [packet], handed := e.handed ++ [packet]}
  | acknowledge (seq : UInt8) (gotValidACK : Bool) (queue : Queue) (loop : e.receiveLoop = .sized seq)
    (processed : e.queue.processACKLocked seq = .ok (gotValidACK,queue)) :
    ReceiveMoves e {e with queue := queue, receiveLoop := if gotValidACK then .signalACK false else .ready}
  | acknowledgeFails (seq : UInt8) (fault : Fault) (loop : e.receiveLoop = .sized seq)
    (failed : e.queue.processACKLocked seq = .error fault) : ReceiveMoves e {e with receiveLoop := .crashed fault}
  | wake (thenResend : Bool) (loop : e.receiveLoop = .signalACK thenResend) (parked : e.sendLoop = .parked) :
    ReceiveMoves e {e with sendLoop := .check, receiveLoop := if thenResend then .signalResend else .ready}
  | unheard (thenResend : Bool) (loop : e.receiveLoop = .signalACK thenResend) (busy : e.sendLoop ≠ .parked) :
    ReceiveMoves e {e with receiveLoop := if thenResend then .signalResend else .ready}
  | askResend (loop : e.receiveLoop = .signalResend) : ReceiveMoves e {e with receiveLoop := .ready, resendSignal := true}

variable {e e' : Endpoint}

theorem sendProceed_moves (recent : Bool) (messages : List Message) (stepped : e.sendProceed recent = some (e',messages)) :
    e.SendMoves (.proceed recent) e' messages := by
  cases loop : e.sendLoop with
  | select => simp [sendProceed,loop] at stepped
  | parked => simp [sendProceed,loop] at stepped
  | crashed fault => simp [sendProceed,loop] at stepped
  | holding packet =>
    simp only [sendProceed,loop] at stepped
    split at stepped <;> cases stepped
    · exact .addFails recent packet _ loop ‹_›
    · exact .add recent packet _ loop ‹_›
  | added packet =>
    simp only [sendProceed,loop] at stepped
    cases stepped
    exact .transmit recent packet loop
  | check =>
    simp only [sendProceed,loop] at stepped
    split at stepped <;> cases stepped
    · exact .room recent loop ‹_›
    · exact .full recent loop ‹_›
  | parking =>
    simp only [sendProceed,loop] at stepped
    cases stepped
    exact .park recent loop
  | resend caller =>
    simp only [sendProceed,loop] at stepped
    split at stepped <;> cases stepped
    · exact .skip recent caller loop ‹_›
    · exact .begin recent caller loop ‹_›
  | resendBase caller =>
    simp only [sendProceed,loop] at stepped
    cases stepped
    exact .readBase recent caller loop
  | resendTop caller base =>
    simp only [sendProceed,loop] at stepped
    split at stepped
    next same =>
      cases stepped
      exact .emptied recent caller (same ▸ loop)
    next apart =>
      split at stepped <;> cases stepped
      · exact .startFails recent caller base _ loop ‹_›
      · exact .start recent caller base _ loop apart ‹_›
  | resending caller base top =>
    simp only [sendProceed,loop] at stepped
    split at stepped
    next same =>
      cases stepped
      exact .resent recent caller top (same ▸ loop)
    next apart =>
      split at stepped <;> cases stepped
      · exact .nextFails recent caller base top _ loop apart ‹_›
      · exact .next recent caller base top _ _ loop apart ‹_›
  | waitForSync caller =>
    simp only [sendProceed,loop] at stepped
    cases stepped
    exact .synced recent caller loop

theorem sendProceed_enabled (recent : Bool) (select : e.sendLoop ≠ .select) (parked : e.sendLoop ≠ .parked)
    (sane : ∀ fault, e.sendLoop ≠ .crashed fault) : ∃ e' messages, e.sendProceed recent = some (e',messages) := by
  unfold sendProceed
  split
  next loop => exact absurd loop select
  next loop => exact absurd loop parked
  next fault loop => exact absurd loop (sane fault)
  all_goals
    repeat' split
    all_goals exact ⟨_,_,rfl⟩

theorem sendStep_moves (action : SendAction) (messages : List Message) (stepped : e.sendStep action = some (e',messages)) :
    e.SendMoves action e' messages := by
  unfold sendStep at stepped
  split at stepped
  next payload finalChunk loop =>
    cases stepped
    exact .take payload finalChunk loop
  next loop =>
    cases stepped
    exact .ping loop
  next loop =>
    split at stepped <;> cases stepped
    exact .signalled .outer loop ‹_›
  next loop =>
    split at stepped <;> cases stepped
    exact .signalled .full loop ‹_›
  next loop =>
    cases stepped
    exact .ticked .outer loop
  next loop =>
    cases stepped
    exact .ticked .full loop
  next => exact sendProceed_moves _ messages stepped
  next => contradiction

theorem receiveStep_moves (stepped : e.receiveStep = some e') : e.ReceiveMoves e' := by
  cases loop : e.receiveLoop with
  | ready => simp [receiveStep,loop] at stepped
  | stopped => simp [receiveStep,loop] at stepped
  | crashed fault => simp [receiveStep,loop] at stepped
  | acknowledged packet =>
    simp only [receiveStep,loop] at stepped
    split at stepped <;> cases stepped
    · exact .bumpFails packet _ loop ‹_›
    · exact .bump packet _ loop ‹_›
  | handing packet =>
    simp only [receiveStep,loop] at stepped
    split at stepped <;> cases stepped
    exact .hand packet loop ‹_›
  | sized seq =>
    simp only [receiveStep,loop] at stepped
    split at stepped <;> cases stepped
    · exact .acknowledgeFails seq _ loop ‹_›
    · exact .acknowledge seq _ _ loop ‹_›
  | signalACK thenResend =>
    by_cases parked : e.sendLoop = .parked
    · simp only [receiveStep,loop,if_pos parked] at stepped
      cases stepped
      exact .wake thenResend loop parked
    · simp only [receiveStep,loop,if_neg parked] at stepped
      cases stepped
      exact .unheard thenResend loop parked
  | signalResend =>
    simp only [receiveStep,loop] at stepped
    cases stepped
    exact .askResend loop

end Endpoint

end NodeConnect.Gbn
