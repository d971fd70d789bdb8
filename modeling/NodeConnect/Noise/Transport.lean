import NodeConnect.Lib.Fallible
import NodeConnect.Lib.Run
import NodeConnect.Noise.Machine

/-! The transport phase of a machine: `WriteMessage` seals and buffers one message,
`Flush` moves it to the wire in as many pieces as the wire takes, and `ReadMessage` opens
the next one. The bytes on the wire and the pending ones are always the frames of the
messages that were accepted, and a peer in step reads these messages back. -/
namespace NodeConnect.Noise
open Lib Fallible

variable {Point Key : Type}

inductive TransportError where
  | maxMessageLengthExceeded
  | messageNotFlushed
  | write
  | read
  | decrypt
  deriving DecidableEq, Repr

def MaxUint16 : Nat := 2 ^ 16 - 1

/-- How one call of the underlying `Write` ends: it takes at most `accepts` bytes. A
short write is always an error. -/
structure WriteOutcome where
  accepts : Nat
  fails : Bool
  deriving DecidableEq, Repr

namespace WriteOutcome

def count (outcome : WriteOutcome) (bytes : Bytes) : Nat := min outcome.accepts bytes.length

def err (outcome : WriteOutcome) (bytes : Bytes) : Option TransportError :=
  if outcome.fails ∨ outcome.count bytes < bytes.length then some .write else none

end WriteOutcome

structure Flushed (Point Key : Type) where
  count : Int
  err : Option TransportError
  written : Bytes
  machine : Machine Point Key

namespace Machine

section

variable (suite : Suite Point Key)

def writeMessage (p : Bytes) : EStateM TransportError (Machine Point Key) Unit := do
  let b ← get
  if MaxUint16 < p.length then throw .maxMessageLengthExceeded
  else if 0 < b.nextHeaderSend.length ∨ 0 < b.nextBodySend.length then throw .messageNotFlushed
  else
    let (header,sendCipher) := b.sendCipher.encrypt suite [] (bigEndian 2 p.length)
    let (body,sendCipher) := sendCipher.encrypt suite [] p
    set {b with sendCipher := sendCipher, nextHeaderSend := header, nextBodySend := body}

/-- The count of plaintext bytes among the `n` bytes of a body of which `rest` is left. -/
def payloadCount (n : Nat) (rest : Bytes) : Int :=
  let start := n + rest.length
  let last := rest.length
  if macSize < start ∧ last ≤ macSize then n - (macSize - last)
  else if macSize < start ∧ macSize < last then n
  else 0

def flush (b : Machine Point Key) (header body : WriteOutcome) : Flushed Point Key :=
  let n := header.count b.nextHeaderSend
  let sent := b.nextHeaderSend.take n
  let headerErr := if 0 < b.nextHeaderSend.length then header.err b.nextHeaderSend else none
  let b := {b with nextHeaderSend := b.nextHeaderSend.drop n}
  match headerErr with
  | some err => ⟨0,some err,sent,b⟩
  | none =>
    if 0 < b.nextBodySend.length then
      let n := body.count b.nextBodySend
      let rest := b.nextBodySend.drop n
      ⟨payloadCount n rest,body.err b.nextBodySend,sent ++ b.nextBodySend.take n,{b with nextBodySend := rest}⟩
    else ⟨0,none,sent,b⟩

abbrev Receiver (Point Key : Type) := Machine Point Key × Reader

def readFull (k : Nat) : EStateM TransportError (Receiver Point Key) Bytes := fun (b,r) =>
  match r.readFull k with
  | some (bytes,r) => .ok bytes (b,r)
  | none => .error .read (b,⟨[],[]⟩)

def decryptNext (ciphertext : Bytes) : EStateM TransportError (Receiver Point Key) Bytes := fun (b,r) =>
  match b.recvCipher.decrypt suite [] ciphertext with
  | (some plaintext,recvCipher) => .ok plaintext ({b with recvCipher := recvCipher},r)
  | (none,recvCipher) => .error .decrypt ({b with recvCipher := recvCipher},r)

def readHeader : EStateM TransportError (Receiver Point Key) Nat := do
  let nextCipherHeader ← readFull (2 + macSize)
  let pktLenBytes ← decryptNext suite nextCipherHeader
  return fromBigEndian (pktLenBytes.take 2) + macSize

def readBody (length : Nat) : EStateM TransportError (Receiver Point Key) Bytes := do
  let buf ← readFull length
  decryptNext suite buf

def readMessage : EStateM TransportError (Receiver Point Key) Bytes := do
  let pktLen ← readHeader suite
  readBody suite pktLen

end

end Machine

/-- One call on the sender; a flush comes with the outcomes of its writes. -/
inductive SendCall where
  | writeMessage (p : Bytes)
  | flush (header body : WriteOutcome)
  deriving DecidableEq, Repr

structure Sender (Point Key : Type) where
  machine : Machine Point Key
  wire : Bytes := []
  accepted : List Bytes := []

def Sender.step (suite : Suite Point Key) (s : Sender Point Key) : SendCall → Sender Point Key
  | .writeMessage p =>
    match s.machine.writeMessage suite p with
    | .ok () machine => {s with machine := machine, accepted := s.accepted ++ [p]}
    | .error _ machine => {s with machine := machine}
  | .flush header body =>
    let flushed := s.machine.flush header body
    {s with machine := flushed.machine, wire := s.wire ++ flushed.written}

def Machine.readMessages (suite : Suite Point Key) : Nat → EStateM TransportError (Machine.Receiver Point Key) (List Bytes)
  | 0 => return []
  | n + 1 => do
    let message ← Machine.readMessage suite
    let rest ← readMessages suite n
    return message :: rest

def sealFrame (suite : Suite Point Key) (c : CipherState) (p : Bytes) : Bytes × CipherState :=
  let (header,c) := c.encrypt suite [] (bigEndian 2 p.length)
  let (body,c) := c.encrypt suite [] p
  (header ++ body,c)

def sealFrames (suite : Suite Point Key) : CipherState → List Bytes → Bytes × CipherState
  | c, [] => ([],c)
  | c, p :: later =>
    let (frame,c) := sealFrame suite c p
    let (frames,c) := sealFrames suite c later
    (frame ++ frames,c)

section Sending

variable {suite : Suite Point Key}

theorem sealFrames_append (c : CipherState) (first second : List Bytes) :
    sealFrames suite c (first ++ second) =
      ((sealFrames suite c first).1 ++ (sealFrames suite (sealFrames suite c first).2 second).1,
        (sealFrames suite (sealFrames suite c first).2 second).2) := by
  induction first generalizing c with
  | nil => rfl
  | cons p later ih => simp [sealFrames,ih]

namespace Machine

def pending (b : Machine Point Key) : Bytes := b.nextHeaderSend ++ b.nextBodySend

theorem pending_length (b : Machine Point Key) :
    (0 < b.nextHeaderSend.length ∨ 0 < b.nextBodySend.length) ↔ b.pending ≠ [] := by
  simp only [pending,ne_eq,List.append_eq_nil_iff,List.length_pos_iff]
  exact Decidable.not_and_iff_not_or_not.symm

theorem writeMessage_eq (b : Machine Point Key) (p : Bytes) :
    b.writeMessage suite p =
      if MaxUint16 < p.length then .error .maxMessageLengthExceeded b
      else if b.pending ≠ [] then .error .messageNotFlushed b
      else
        let header := b.sendCipher.encrypt suite [] (bigEndian 2 p.length)
        let body := header.2.encrypt suite [] p
        .ok () {b with sendCipher := body.2, nextHeaderSend := header.1, nextBodySend := body.1} := by
  have pending := b.pending_length
  rw [writeMessage,get_bind]
  by_cases tooLong : MaxUint16 < p.length
  · rw [if_pos tooLong,if_pos tooLong]
    rfl
  · rw [if_neg tooLong,if_neg tooLong]
    by_cases busy : b.pending ≠ []
    · rw [if_pos busy,if_pos (pending.mpr busy)]
      rfl
    · rw [if_neg busy,if_neg (fun some => busy (pending.mp some))]
      rfl

theorem writeMessage_ok {b after : Machine Point Key} {p : Bytes} {value : Unit}
    (accepted : b.writeMessage suite p = .ok value after) :
    p.length ≤ MaxUint16 ∧ b.pending = [] ∧ after.pending = (sealFrame suite b.sendCipher p).1 ∧
      after.sendCipher = (sealFrame suite b.sendCipher p).2 := by
  rw [writeMessage_eq] at accepted
  split_ifs at accepted with tooLong busy
  cases accepted
  exact ⟨Nat.not_lt.mp tooLong,not_not.mp busy,rfl,rfl⟩

theorem writeMessage_error {b after : Machine Point Key} {p : Bytes} {err : TransportError}
    (rejected : b.writeMessage suite p = .error err after) : after = b := by
  rw [writeMessage_eq] at rejected
  split_ifs at rejected
  · cases rejected
    rfl
  · cases rejected
    rfl

theorem WriteOutcome.err_none {outcome : WriteOutcome} {bytes : Bytes} (succeeded : outcome.err bytes = none) :
    bytes.length ≤ outcome.count bytes := by
  unfold WriteOutcome.err at succeeded
  split_ifs at succeeded with failed
  exact Nat.not_lt.mp (not_or.mp failed).2

theorem flush_moves (b : Machine Point Key) (header body : WriteOutcome) :
    (b.flush header body).written ++ (b.flush header body).machine.pending = b.pending ∧
      (b.flush header body).machine.sendCipher = b.sendCipher := by
  unfold flush pending
  dsimp only
  split
  next err failed =>
    refine ⟨?_,rfl⟩
    dsimp only
    rw [← List.append_assoc,List.take_append_drop]
  next succeeded =>
    -- Without an error the header is out before the body starts.
    have whole : b.nextHeaderSend.length ≤ header.count b.nextHeaderSend := by
      split_ifs at succeeded with some
      · exact WriteOutcome.err_none succeeded
      · omega
    split_ifs with more
    · refine ⟨?_,rfl⟩
      dsimp only
      rw [List.drop_of_length_le whole,List.take_of_length_le whole,List.nil_append,List.append_assoc,
        List.take_append_drop]
    · refine ⟨?_,rfl⟩
      dsimp only
      rw [← List.append_assoc,List.take_append_drop]

end Machine

theorem Machine.flush_kept (b : Machine Point Key) (header body : WriteOutcome) :
    (b.flush header body).machine.toHandshakeState = b.toHandshakeState ∧
      (b.flush header body).machine.recvCipher = b.recvCipher := by
  unfold Machine.flush
  dsimp only
  split
  · exact ⟨rfl,rfl⟩
  · split_ifs <;> exact ⟨rfl,rfl⟩

theorem Sender.step_kept (suite : Suite Point Key) (s : Sender Point Key) (call : SendCall) :
    (s.step suite call).machine.toHandshakeState = s.machine.toHandshakeState ∧
      (s.step suite call).machine.recvCipher = s.machine.recvCipher := by
  cases call with
  | writeMessage p =>
    rw [Sender.step,Machine.writeMessage_eq]
    split_ifs <;> exact ⟨rfl,rfl⟩
  | flush header body => exact s.machine.flush_kept header body

theorem Sender.run_kept (suite : Suite Point Key) (s : Sender Point Key) (calls : List SendCall) :
    (calls.foldl (Sender.step suite) s).machine.toHandshakeState = s.machine.toHandshakeState ∧
      (calls.foldl (Sender.step suite) s).machine.recvCipher = s.machine.recvCipher := by
  induction calls generalizing s with
  | nil => exact ⟨rfl,rfl⟩
  | cons call calls ih =>
    have now := s.step_kept suite call
    have later := ih (s.step suite call)
    exact ⟨later.1.trans now.1,later.2.trans now.2⟩

theorem Sender.step_sendCipher (s : Sender Point Key) (call : SendCall) :
    (s.step suite call).machine.sendCipher = s.machine.sendCipher ∨
      ∃ p, (s.step suite call).machine.sendCipher = (sealFrame suite s.machine.sendCipher p).2 := by
  cases call with
  | writeMessage p =>
    rw [Sender.step,Machine.writeMessage_eq]
    split_ifs
    · exact .inl rfl
    · exact .inl rfl
    · exact .inr ⟨p,rfl⟩
  | flush header body => exact .inl (s.machine.flush_moves header body).2

theorem Sender.run_sendCipher {property : CipherState → Prop}
    (kept : ∀ c ad plaintext, property c → property (c.encrypt suite ad plaintext).2) (s : Sender Point Key)
    (initial : property s.machine.sendCipher) (calls : List SendCall) :
    property (calls.foldl (Sender.step suite) s).machine.sendCipher := by
  induction calls generalizing s with
  | nil => exact initial
  | cons call calls ih =>
    apply ih
    obtain same | ⟨p,framed⟩ := s.step_sendCipher call
    · rw [same]
      exact initial
    · rw [framed]
      exact kept _ _ _ (kept _ _ _ initial)

/-- The bytes on the wire and the pending ones are the frames of the accepted messages. -/
structure Sent (suite : Suite Point Key) (c : CipherState) (s : Sender Point Key) : Prop where
  frames : s.wire ++ s.machine.pending = (sealFrames suite c s.accepted).1
  cipher : s.machine.sendCipher = (sealFrames suite c s.accepted).2
  small : ∀ p ∈ s.accepted, p.length ≤ MaxUint16

theorem Sent.step {c : CipherState} {s : Sender Point Key} (sent : Sent suite c s) (call : SendCall) :
    Sent suite c (s.step suite call) := by
  cases call with
  | writeMessage p =>
    cases outcome : s.machine.writeMessage suite p with
    | ok value after =>
      have stepped : s.step suite (.writeMessage p) = {s with machine := after, accepted := s.accepted ++ [p]} := by
        simp only [Sender.step,outcome]
      obtain ⟨small,idle,pending,cipher⟩ := Machine.writeMessage_ok outcome
      have frames := sent.frames
      rw [idle,List.append_nil] at frames
      rw [stepped]
      refine ⟨?_,?_,?_⟩
      · rw [sealFrames_append,← sent.cipher,← frames,pending]
        simp [sealFrames]
      · rw [sealFrames_append,← sent.cipher,cipher]
        rfl
      · intro q member
        rcases List.mem_append.mp member with earlier | last
        · exact sent.small q earlier
        · rw [List.mem_singleton.mp last]
          exact small
    | error err after =>
      have stepped : s.step suite (.writeMessage p) = s := by
        simp only [Sender.step,outcome,Machine.writeMessage_error outcome]
      rw [stepped]
      exact sent
  | flush header body =>
    obtain ⟨moved,cipher⟩ := s.machine.flush_moves header body
    refine ⟨?_,cipher.trans sent.cipher,sent.small⟩
    change (s.wire ++ (s.machine.flush header body).written) ++ (s.machine.flush header body).machine.pending =
      (sealFrames suite c s.accepted).1
    rw [List.append_assoc,moved,sent.frames]

theorem Sent.run {c : CipherState} {s : Sender Point Key} (sent : Sent suite c s) (calls : List SendCall) :
    Sent suite c (calls.foldl (Sender.step suite) s) := by
  induction calls generalizing s with
  | nil => exact sent
  | cons call calls ih => exact ih (sent.step call)

end Sending

section Receiving

variable {suite : Suite Point Key} {b : Machine Point Key}

theorem readFull_append (bytes rest : Bytes) (cuts : List Nat) (k : Nat) (length : bytes.length = k) :
    ∃ later, Machine.readFull k (b,⟨bytes ++ rest,cuts⟩) = .ok bytes (b,⟨rest,later⟩) := by
  obtain ⟨later,read⟩ := Reader.readFull_append bytes rest cuts
  rw [length] at read
  exact ⟨later,by simp only [Machine.readFull,read]⟩

theorem readFull_short (data : Bytes) (cuts : List Nat) (k : Nat) (short : data.length < k) :
    Machine.readFull k (b,⟨data,cuts⟩) = .error .read (b,⟨[],[]⟩) := by
  simp only [Machine.readFull,Reader.readFull_short data cuts k short]

theorem decryptNext_inStep (lawful : suite.AeadLawful) {c : CipherState} (inStep : c.InStep b.recvCipher) (plaintext : Bytes)
    (r : Reader) :
    ∃ b', Machine.decryptNext suite (c.encrypt suite [] plaintext).1 (b,r) = .ok plaintext (b',r) ∧
      (c.encrypt suite [] plaintext).2.InStep b'.recvCipher := by
  obtain ⟨recvCipher,opened,after⟩ := inStep.encrypt lawful [] plaintext
  exact ⟨{b with recvCipher := recvCipher},by simp only [Machine.decryptNext,opened],after⟩

theorem encrypt_length (lawful : suite.AeadLawful) (c : CipherState) (plaintext : Bytes) :
    (c.encrypt suite [] plaintext).1.length = plaintext.length + macSize := lawful.seal_length _ _ _ _

theorem readHeader_append (lawful : suite.AeadLawful) {c : CipherState} (inStep : c.InStep b.recvCipher) (p rest : Bytes)
    (small : p.length ≤ MaxUint16) (cuts : List Nat) :
    ∃ b' later, Machine.readHeader suite (b,⟨(c.encrypt suite [] (bigEndian 2 p.length)).1 ++ rest,cuts⟩) =
        .ok (p.length + macSize) (b',⟨rest,later⟩) ∧
      (c.encrypt suite [] (bigEndian 2 p.length)).2.InStep b'.recvCipher := by
  have length : (c.encrypt suite [] (bigEndian 2 p.length)).1.length = 2 + macSize := by
    rw [encrypt_length lawful,bigEndian_length]
  obtain ⟨later,read⟩ := readFull_append (b := b) _ rest cuts _ length
  obtain ⟨b',opened,after⟩ := decryptNext_inStep lawful inStep (bigEndian 2 p.length) ⟨rest,later⟩
  have decoded : fromBigEndian ((bigEndian 2 p.length).take 2) = p.length := by
    rw [List.take_of_length_le (Nat.le_of_eq (bigEndian_length _ _)),fromBigEndian_bigEndian]
    unfold MaxUint16 at small
    omega
  refine ⟨b',later,?_,after⟩
  rw [Machine.readHeader,bind_ok _ _ _ _ _ read,bind_ok _ _ _ _ _ opened,decoded]
  rfl

theorem readBody_append (lawful : suite.AeadLawful) {c : CipherState} (inStep : c.InStep b.recvCipher) (p rest : Bytes)
    (cuts : List Nat) :
    ∃ b' later, Machine.readBody suite (p.length + macSize) (b,⟨(c.encrypt suite [] p).1 ++ rest,cuts⟩) =
        .ok p (b',⟨rest,later⟩) ∧
      (c.encrypt suite [] p).2.InStep b'.recvCipher := by
  obtain ⟨later,read⟩ := readFull_append (b := b) _ rest cuts _ (encrypt_length lawful c p)
  obtain ⟨b',opened,after⟩ := decryptNext_inStep lawful inStep p ⟨rest,later⟩
  refine ⟨b',later,?_,after⟩
  rw [Machine.readBody,bind_ok _ _ _ _ _ read,opened]

theorem split_of_begins {data first second : Bytes} (begins : data <+: first ++ second) (enough : first.length ≤ data.length) :
    ∃ rest, data = first ++ rest ∧ rest <+: second := by
  obtain ⟨rest,rfl⟩ := List.prefix_of_prefix_length_le (List.prefix_append first second) begins enough
  exact ⟨rest,rfl,(List.prefix_append_right_inj first).mp begins⟩

theorem readMessage_frame (lawful : suite.AeadLawful) {c : CipherState} (inStep : c.InStep b.recvCipher) (p : Bytes)
    (small : p.length ≤ MaxUint16) (data rest : Bytes) (cuts : List Nat)
    (begins : data <+: (sealFrame suite c p).1 ++ rest) :
    (∃ data' b' later, data = (sealFrame suite c p).1 ++ data' ∧ data' <+: rest ∧
        Machine.readMessage suite (b,⟨data,cuts⟩) = .ok p (b',⟨data',later⟩) ∧
        (sealFrame suite c p).2.InStep b'.recvCipher) ∨
      data.length < (sealFrame suite c p).1.length ∧
        ∃ after, Machine.readMessage suite (b,⟨data,cuts⟩) = .error .read after := by
  let header := c.encrypt suite [] (bigEndian 2 p.length)
  let body := header.2.encrypt suite [] p
  have headerLength : header.1.length = 2 + macSize := by
    rw [encrypt_length lawful,bigEndian_length]
  have bodyLength : body.1.length = p.length + macSize := encrypt_length lawful header.2 p
  change data <+: (header.1 ++ body.1) ++ rest at begins
  change (∃ data' b' later, data = (header.1 ++ body.1) ++ data' ∧ data' <+: rest ∧
      Machine.readMessage suite (b,⟨data,cuts⟩) = .ok p (b',⟨data',later⟩) ∧ body.2.InStep b'.recvCipher) ∨
    data.length < (header.1 ++ body.1).length ∧ ∃ after, Machine.readMessage suite (b,⟨data,cuts⟩) = .error .read after
  rw [List.append_assoc] at begins
  by_cases hasHeader : header.1.length ≤ data.length
  · obtain ⟨data',rfl,afterHeader⟩ := split_of_begins begins hasHeader
    obtain ⟨b1,later1,readHeader,inStep1⟩ := readHeader_append lawful inStep p data' small cuts
    by_cases hasBody : body.1.length ≤ data'.length
    · obtain ⟨data'',rfl,afterBody⟩ := split_of_begins afterHeader hasBody
      obtain ⟨b2,later2,readBody,inStep2⟩ := readBody_append lawful inStep1 p data'' later1
      refine .inl ⟨data'',b2,later2,(List.append_assoc _ _ _).symm,afterBody,?_,inStep2⟩
      rw [Machine.readMessage,bind_ok _ _ _ _ _ readHeader,readBody]
    · refine .inr ⟨?_,(b1,⟨[],[]⟩),?_⟩
      · rw [List.length_append,List.length_append]
        omega
      · rw [Machine.readMessage,bind_ok _ _ _ _ _ readHeader,Machine.readBody,
          bind_error _ _ _ _ _ (readFull_short data' later1 _ (by omega))]
  · refine .inr ⟨?_,(b,⟨[],[]⟩),?_⟩
    · rw [List.length_append]
      omega
    · rw [Machine.readMessage,bind_error]
      rw [Machine.readHeader,bind_error _ _ _ _ _ (readFull_short data cuts _ (by omega))]

/-- However many messages a receiver reads, they are the first ones, and it can read
every message whose frame is complete. -/
theorem readMessages_frames (lawful : suite.AeadLawful) (messages : List Bytes) {c : CipherState}
    (inStep : c.InStep b.recvCipher) (small : ∀ p ∈ messages, p.length ≤ MaxUint16) (data : Bytes)
    (begins : data <+: (sealFrames suite c messages).1) (cuts : List Nat) (n : Nat) :
    (∀ received after, Machine.readMessages suite n (b,⟨data,cuts⟩) = .ok received after →
      n ≤ messages.length ∧ received = messages.take n) ∧
    (n ≤ messages.length → (sealFrames suite c (messages.take n)).1.length ≤ data.length →
      ∃ after, Machine.readMessages suite n (b,⟨data,cuts⟩) = .ok (messages.take n) after) := by
  -- Both ciphers move on by one frame, so the invariant is that they are in step.
  induction n generalizing messages c b data cuts with
  | zero =>
    refine ⟨?_,fun _ _ => ⟨_,rfl⟩⟩
    intro received after read
    cases read
    exact ⟨Nat.zero_le _,rfl⟩
  | succ n ih =>
    cases messages with
    | nil =>
      obtain rfl := List.prefix_nil.mp begins
      have failed : Machine.readMessages suite (n + 1) (b,⟨[],cuts⟩) = .error .read (b,⟨[],[]⟩) := by
        have short : ([] : Bytes).length < 2 + macSize := by decide
        rw [Machine.readMessages,bind_error]
        rw [Machine.readMessage,bind_error]
        rw [Machine.readHeader,bind_error _ _ _ _ _ (readFull_short [] cuts _ short)]
      refine ⟨?_,fun more => absurd more (by simp)⟩
      intro received after read
      rw [failed] at read
      cases read
    | cons p later =>
      have smallLater : ∀ q ∈ later, q.length ≤ MaxUint16 := fun q member => small q (List.mem_cons_of_mem _ member)
      obtain ⟨data',b',cuts',rfl,begins,first,inStep⟩ | ⟨short,after,failed⟩ :=
        readMessage_frame lawful inStep p (small p List.mem_cons_self) data _ cuts begins
      · obtain ⟨sound,complete⟩ := ih later inStep smallLater data' begins cuts'
        refine ⟨?_,?_⟩
        · intro received after read
          rw [Machine.readMessages,bind_ok _ _ _ _ _ first] at read
          obtain ⟨rest,after',readRest,returned⟩ := (bind_eq_ok _ _ _ _ _).mp read
          cases returned
          obtain ⟨bound,rfl⟩ := sound rest _ readRest
          exact ⟨Nat.succ_le_succ bound,rfl⟩
        · intro bound enough
          have fits : (sealFrames suite (sealFrame suite c p).2 (later.take n)).1.length ≤ data'.length := by
            simp only [List.take_succ_cons,sealFrames,List.length_append] at enough
            omega
          obtain ⟨after,readRest⟩ := complete (Nat.le_of_succ_le_succ bound) fits
          refine ⟨after,?_⟩
          rw [Machine.readMessages,bind_ok _ _ _ _ _ first,bind_ok _ _ _ _ _ readRest]
          rfl
      · refine ⟨?_,?_⟩
        · intro received last read
          rw [Machine.readMessages,bind_error _ _ _ _ _ failed] at read
          cases read
        · intro _ enough
          simp only [List.take_succ_cons,sealFrames,List.length_append] at enough
          omega

/-- Whatever the sender calls and however its writes are cut short, the wire and the
pending bytes are the frames of the accepted messages, a rejected message changes
nothing, and a peer in step reads the accepted messages, however the stream is cut. -/
theorem transport_roundTrip (lawful : suite.AeadLawful) (m peer : Machine Point Key) (idle : m.pending = [])
    (inStep : m.sendCipher.InStep peer.recvCipher) (calls : List SendCall) :
    let s := calls.foldl (Sender.step suite) {machine := m}
    s.wire ++ s.machine.pending = (sealFrames suite m.sendCipher s.accepted).1 ∧
    (∀ p err after, s.machine.writeMessage suite p = .error err after → after = s.machine) ∧
    ∀ cuts n,
      (∀ received after, Machine.readMessages suite n (peer,⟨s.wire,cuts⟩) = .ok received after →
        n ≤ s.accepted.length ∧ received = s.accepted.take n) ∧
      (n ≤ s.accepted.length → (sealFrames suite m.sendCipher (s.accepted.take n)).1.length ≤ s.wire.length →
        ∃ after, Machine.readMessages suite n (peer,⟨s.wire,cuts⟩) = .ok (s.accepted.take n) after) := by
  have initial : Sent suite m.sendCipher ({machine := m} : Sender Point Key) := ⟨idle,rfl,nofun⟩
  have sent := initial.run calls
  refine ⟨sent.frames,fun p err after => Machine.writeMessage_error,?_⟩
  intro cuts n
  have begins := List.prefix_append (calls.foldl (Sender.step suite) {machine := m}).wire
    (calls.foldl (Sender.step suite) {machine := m}).machine.pending
  rw [sent.frames] at begins
  exact readMessages_frames lawful _ inStep sent.small _ begins cuts n

end Receiving

/-- The two ends of a connection after their handshake. -/
def plainClient : Machine UInt8 UInt8 :=
  (plainMachine (plainEnd true ⟨5,none,[1,7],[],none,none,[]⟩ 0 2 11)).split plainSuite

def plainServer : Machine UInt8 UInt8 :=
  (plainMachine (plainEnd false ⟨9,none,[1,7],[],none,none,[]⟩ 0 2 13)).split plainSuite

/-- A message that goes out in three pieces, one that is rejected meanwhile, and an empty one. -/
theorem transport_roundTrip_pieces :
    ∃ m peer : Machine UInt8 UInt8, m.pending = [] ∧ m.sendCipher.InStep peer.recvCipher ∧
      ∃ calls : List SendCall, (calls.foldl (Sender.step plainSuite) {machine := m}).accepted = [[1,2,3],[]] ∧
        calls.length = 7 ∧ ∀ cuts, ∃ after, Machine.readMessages plainSuite 2
          (peer,⟨(calls.foldl (Sender.step plainSuite) {machine := m}).wire,cuts⟩) = .ok [[1,2,3],[]] after := by
  let calls : List SendCall := [.writeMessage [1,2,3],.flush ⟨7,true⟩ ⟨0,true⟩,.writeMessage [9],
    .flush ⟨11,false⟩ ⟨2,true⟩,.flush ⟨0,true⟩ ⟨100,false⟩,.writeMessage [],
    .flush ⟨100,false⟩ ⟨100,false⟩]
  have idle : plainClient.pending = [] := rfl
  have inStep : plainClient.sendCipher.InStep plainServer.recvCipher := ⟨rfl,by decide +kernel,by decide +kernel⟩
  have accepted : (calls.foldl (Sender.step plainSuite) {machine := plainClient}).accepted = [[1,2,3],[]] := by decide +kernel
  have flushed : (sealFrames plainSuite plainClient.sendCipher ([[1,2,3],[]] : List Bytes)).1.length ≤
      (calls.foldl (Sender.step plainSuite) {machine := plainClient}).wire.length := by decide +kernel
  refine ⟨plainClient,plainServer,idle,inStep,calls,accepted,rfl,?_⟩
  intro cuts
  have complete := ((transport_roundTrip plainSuite_lawful.toAeadLawful plainClient plainServer idle inStep calls).2.2 cuts 2).2
  rw [accepted] at complete
  exact complete (by decide) flushed

end NodeConnect.Noise
