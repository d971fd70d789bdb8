import NodeConnect.EndToEnd.Pair
import NodeConnect.Gbn.Recovery
import NodeConnect.Noise.ConnWrite

/-! What is read is what was written. The invariant follows the bytes of the frames from
the machine that sealed them to the machine that opens them: pending there, taken by the
go-back-N connection, handed over, buffered, copied, opened. At every place they are in
the order of the frames, so the two ciphers stay in step and no `Read` fails. -/
namespace NodeConnect.EndToEnd
open Lib Noise
open Gbn (Net Side Endpoint PacketData body)
open Mailbox (IntSize Fits)

variable {Point Key : Type} {suite : Suite Point Key} {size : IntSize}

def packed (payload : Bytes) : Bytes × Bool := (control payload,true)

/-- What became of the data written on one side: the payloads that were sent so far, and what is pending. -/
structure Outgoing (suite : Suite Point Key) (size : IntSize) (start : CipherState) (c : Conn Point Key) (snd : Endpoint)
    (payloads : List Bytes) : Prop where
  sent : Sent suite start ⟨c.noise,payloads.flatten,c.written⟩
  taken : snd.taken.map body = payloads.map packed
  fit : ∀ payload ∈ payloads, Fits size (.write payload)
  headerSize : c.noise.nextHeaderSend.length ≤ 2 + macSize
  bodySize : c.noise.nextBodySend.length ≤ MaxUint16 + macSize

/-- Where a reader is in the frame that comes next, `part` of which it has read; `start` is the sender's cipher
before that frame and `later` what the sender seals from there on. -/
inductive At (suite : Suite Point Key) (start : CipherState) (later : List Bytes) (recvCipher : CipherState) :
    Option (Bytes × Place) → Bytes → Prop
  | idle (inStep : start.InStep recvCipher) : At suite start later recvCipher none []
  | header (b got : Bytes) (short : got.length < 2 + macSize) (inStep : start.InStep recvCipher) :
    At suite start later recvCipher (some (b,⟨false,2 + macSize,got⟩)) got
  | body (b got p : Bytes) (behind : List Bytes) (next : later = p :: behind) (short : got.length < p.length + macSize)
    (inStep : (start.encrypt suite [] (bigEndian 2 p.length)).2.InStep recvCipher) :
    At suite start later recvCipher (some (b,⟨true,p.length + macSize,got⟩))
      ((start.encrypt suite [] (bigEndian 2 p.length)).1 ++ got)

/-- A `Read` that was given `call.1` and answered with the piece. -/
def Answered (call : Bytes × Pipe.Answer ReadError) (piece : Bytes) : Prop :=
  call.2 = ⟨piece.length,none,overwrite call.1 piece⟩

/-- What was returned, and what of the last record is still to be returned. -/
structure Returned (c : Conn Point Key) (records : List Bytes) : Prop where
  pieces : ∃ done, List.Forall₂ Answered c.answers done ∧
    records.flatMap parts = done ++ if 0 < c.nextMsg.length then [c.nextMsg] else []
  settled : c.reading ≠ none → c.nextMsg = []

/-- How far the other side is. Of the payloads that were sent, `front` has been received and `back` has not; of the
bytes of `front`, `unread` is still buffered. -/
structure Incoming (suite : Suite Point Key) (size : IntSize) (start : CipherState) (c : Conn Point Key) (rcv : Endpoint)
    (front : List Bytes) (unread : Bytes) (records later : List Bytes) (part : Bytes) : Prop where
  handed : rcv.handed.map body = front.map packed ++ rcv.recvDataChan.map body
  whole : c.receiving = []
  holds : c.stream.Holds size unread
  bytes : front.flatten = (sealFrames suite start records).1 ++ part ++ unread
  place : At suite (sealFrames suite start records).2 later c.noise.recvCipher c.reading part
  returned : Returned c records

def Flows (suite : Suite Point Key) (size : IntSize) (start : CipherState) (c d : Conn Point Key) (snd rcv : Endpoint) : Prop :=
  ∃ front back unread records later part, Outgoing suite size start c snd (front ++ back) ∧
    c.written = records ++ later ∧ Incoming suite size start d rcv front unread records later part

section Outgoing

variable {start : CipherState} {c : Conn Point Key} {snd : Endpoint} {payloads : List Bytes}

theorem Outgoing.write (lawful : suite.AeadLawful) (outgoing : Outgoing suite size start c snd payloads) (p : Bytes) :
    Outgoing suite size start (c.write suite p) snd payloads ∧ c.written <+: (c.write suite p).written ∧
      (c.write suite p).noise.recvCipher = c.noise.recvCipher := by
  have sent := outgoing.sent.step (.writeMessage p)
  cases outcome : c.noise.writeMessage suite p with
  | error err noise =>
    cases Machine.writeMessage_error outcome
    have same : c.write suite p = c := by simp only [Conn.write,outcome]
    rw [same]
    exact ⟨outgoing,List.prefix_refl _,rfl⟩
  | ok value noise =>
    have stepped : c.write suite p = {c with noise, written := c.written ++ [p]} := by simp only [Conn.write,outcome]
    simp only [Sender.step,outcome] at sent
    have accepted := outcome
    rw [Machine.writeMessage_eq] at accepted
    split_ifs at accepted with tooLong busy
    cases accepted
    rw [stepped]
    refine ⟨⟨sent,outgoing.taken,outgoing.fit,?_,?_⟩,List.prefix_append _ _,rfl⟩
    · change (c.noise.sendCipher.encrypt suite [] (bigEndian 2 p.length)).1.length ≤ _
      rw [encrypt_length lawful,bigEndian_length]
    · change (CipherState.encrypt suite _ [] p).1.length ≤ _
      rw [encrypt_length lawful]
      omega

theorem nextWrite_some {b : Machine Point Key} {bytes : Bytes} {after : Machine Point Key}
    (next : Conn.nextWrite b = some (bytes,after)) :
    bytes ≠ [] ∧ b.pending = bytes ++ after.pending ∧ (bytes = b.nextHeaderSend ∨ bytes = b.nextBodySend) ∧
      after.sendCipher = b.sendCipher ∧ after.recvCipher = b.recvCipher ∧
      after.nextHeaderSend.length ≤ b.nextHeaderSend.length ∧ after.nextBodySend.length ≤ b.nextBodySend.length := by
  unfold Conn.nextWrite at next
  split_ifs at next with header body
  · cases Option.some.inj next
    exact ⟨List.length_pos_iff.mp header,rfl,.inl rfl,rfl,rfl,Nat.zero_le _,Nat.le_refl _⟩
  · cases Option.some.inj next
    have out : b.nextHeaderSend = [] := List.eq_nil_of_length_eq_zero (Nat.eq_zero_of_not_pos header)
    refine ⟨List.length_pos_iff.mp body,?_,.inr rfl,rfl,rfl,Nat.le_refl _,Nat.zero_le _⟩
    simp [Machine.pending,out]

theorem Outgoing.flush (outgoing : Outgoing suite size start c snd payloads) {bytes : Bytes} {noise : Machine Point Key}
    (next : Conn.nextWrite c.noise = some (bytes,noise)) {snd' : Endpoint} {packet : PacketData}
    (taken : snd'.taken = snd.taken ++ [packet]) (same : body packet = packed bytes) :
    Outgoing suite size start {c with noise} snd' (payloads ++ [bytes]) := by
  obtain ⟨some_,pending,which,cipher,_,headerLess,bodyLess⟩ := nextWrite_some next
  have small : bytes.length ≤ MaxUint16 + macSize := by
    have header := outgoing.headerSize
    have body := outgoing.bodySize
    unfold MaxUint16 macSize at *
    rcases which with rfl | rfl <;> omega
  have fits : Fits size (.write bytes) := by
    unfold MaxUint16 macSize at small
    refine ⟨some_,by omega,fun _ => ?_⟩
    unfold Mailbox.MsgData.baseLength
    omega
  refine ⟨⟨?_,?_,outgoing.sent.small⟩,?_,?_,headerLess.trans outgoing.headerSize,bodyLess.trans outgoing.bodySize⟩
  · have frames := outgoing.sent.frames
    dsimp only at frames ⊢
    rw [← frames,List.flatten_append,List.flatten_singleton,List.append_assoc,pending]
  · exact cipher.trans outgoing.sent.cipher
  · rw [taken,List.map_append,List.map_append,outgoing.taken,List.map_singleton,same,List.map_singleton]
  · intro payload member
    rcases List.mem_append.mp member with earlier | last
    · exact outgoing.fit payload earlier
    · rw [List.mem_singleton.mp last]
      exact fits

end Outgoing

section Incoming

variable {start : CipherState} {c : Conn Point Key} {rcv : Endpoint} {front : List Bytes} {unread part : Bytes}
variable {records later : List Bytes}

/-- A reader that has not opened the next frame yet has read a part of it only. -/
theorem At.next_header (lawful : suite.AeadLawful) {got rest : Bytes} (length : got.length = 2 + macSize)
    (begins : got ++ rest <+: (sealFrames suite start later).1) :
    ∃ p behind, later = p :: behind ∧ got = (start.encrypt suite [] (bigEndian 2 p.length)).1 := by
  cases later with
  | nil =>
    have none := List.prefix_nil.mp begins
    have empty : got = [] := (List.append_eq_nil_iff.mp none).1
    rw [empty] at length
    cases length
  | cons p behind =>
    have own : (start.encrypt suite [] (bigEndian 2 p.length)).1.length = got.length := by
      rw [encrypt_length lawful,bigEndian_length,length]
    have first : (start.encrypt suite [] (bigEndian 2 p.length)).1 <+: (sealFrames suite start (p :: behind)).1 := by
      simp only [sealFrames,sealFrame,List.append_assoc]
      exact List.prefix_append _ _
    have second := (List.prefix_append got rest).trans begins
    exact ⟨p,behind,rfl,(List.prefix_of_prefix_length_le second first (Nat.le_of_eq own.symm)).eq_of_length own.symm⟩

theorem At.next_body (lawful : suite.AeadLawful) {p got rest : Bytes} {behind : List Bytes}
    (length : got.length = p.length + macSize)
    (begins : (start.encrypt suite [] (bigEndian 2 p.length)).1 ++ got ++ rest <+: (sealFrames suite start (p :: behind)).1) :
    got = ((start.encrypt suite [] (bigEndian 2 p.length)).2.encrypt suite [] p).1 := by
  have own : ((start.encrypt suite [] (bigEndian 2 p.length)).2.encrypt suite [] p).1.length = got.length := by
    rw [encrypt_length lawful,length]
  simp only [sealFrames,sealFrame,List.append_assoc] at begins
  have begins := (List.prefix_append_right_inj _).mp begins
  have second := (List.prefix_append got rest).trans begins
  exact (List.prefix_of_prefix_length_le second (List.prefix_append _ _) (Nat.le_of_eq own.symm)).eq_of_length own.symm

theorem Returned.read (returned : Returned c records) (b : Bytes) (idle : c.reading = none) {next : Conn Point Key}
    (began : c.read b = some next) : Returned next records := by
  obtain ⟨⟨done,answered,pieces⟩,_⟩ := returned
  simp only [Conn.read,idle] at began
  split_ifs at began with saved
  · cases Option.some.inj began
    refine ⟨⟨done ++ [c.nextMsg],List.rel_append answered (.cons rfl .nil),?_⟩,fun busy => absurd rfl busy⟩
    simpa [saved,Conn.answer] using pieces
  · cases Option.some.inj began
    exact ⟨⟨done,answered,pieces⟩,fun _ => List.eq_nil_of_length_eq_zero (Nat.eq_zero_of_not_pos saved)⟩

theorem Returned.finish (returned : Returned c records) (b p : Bytes) (free : c.nextMsg = []) :
    Returned (c.finish b p) (records ++ [p]) := by
  obtain ⟨⟨done,answered,pieces⟩,_⟩ := returned
  have pieces : records.flatMap parts = done := by simpa [free] using pieces
  unfold Conn.finish
  split_ifs with large
  · refine ⟨⟨done ++ [p.take defaultGrpcWriteBufSize],List.rel_append answered (.cons ?_ .nil),?_⟩,
      fun busy => absurd rfl busy⟩
    · unfold Answered
      rw [List.length_take,Nat.min_eq_left (Nat.le_of_lt large)]
    · have rest : 0 < (p.drop defaultGrpcWriteBufSize).length := by
        rw [List.length_drop]
        omega
      rw [List.flatMap_append,pieces,List.flatMap_singleton,parts,if_pos large]
      change _ = _ ++ if 0 < (p.drop defaultGrpcWriteBufSize).length then _ else _
      rw [if_pos rest,List.append_assoc]
      rfl
  · refine ⟨⟨done ++ [p],List.rel_append answered (.cons rfl .nil),?_⟩,fun busy => absurd rfl busy⟩
    simp [parts,large,pieces,Conn.answer,free]

/-- One `Read` below copies some of the unread bytes, and no more than are asked for. -/
theorem readSome_copies {b : Bytes} {place : Place} (reading : c.reading = some (b,place))
    (short : place.got.length < place.need) (holds : c.stream.Holds size unread) {next : Conn Point Key}
    (stepped : c.readSome suite size = some next) :
    ∃ chunk stream unread', chunk ≠ [] ∧ unread = chunk ++ unread' ∧ stream.Holds size unread' ∧
      (place.got ++ chunk).length ≤ place.need ∧
      next = if (place.got ++ chunk).length < place.need then
          {c with stream, reading := some (b,{place with got := place.got ++ chunk})}
        else {c with stream}.decrypted suite b place.inBody (place.got ++ chunk) := by
  have room : Fits size (.read (List.replicate (place.need - place.got.length) 0)) := by
    rw [Fits,ne_eq,List.replicate_eq_nil_iff]
    omega
  simp only [Conn.readSome,reading] at stepped
  cases answered : c.stream.read size (List.replicate (place.need - place.got.length) 0) with
  | none =>
    rw [answered] at stepped
    cases stepped
  | some result =>
    obtain ⟨given,stream⟩ := result
    have call : c.stream.step size (.read (List.replicate (place.need - place.got.length) 0)) = some (given,stream) := answered
    obtain ⟨unread',⟨positive,bounded,noErr,filled,rfl⟩,held⟩ :=
      Mailbox.Direction.step_simulates size _ _ _ _ _ holds room call
    rw [List.length_replicate] at bounded filled
    have copied : (given.buffer.take given.n).length = given.n := by
      rw [List.length_take,filled]
      omega
    simp only [answered,noErr] at stepped
    refine ⟨given.buffer.take given.n,stream,unread',?_,rfl,held,?_,?_⟩
    · intro empty
      rw [empty] at copied
      exact Nat.lt_irrefl _ (copied ▸ positive)
    · rw [List.length_append,copied]
      omega
    · split_ifs at stepped ⊢ <;> exact (Option.some.inj stepped).symm

theorem Incoming.read (incoming : Incoming suite size start c rcv front unread records later part) {b : Bytes}
    {next : Conn Point Key} (began : c.read b = some next) :
    Incoming suite size start next rcv front unread records later part := by
  obtain ⟨handed,whole,holds,bytes,place,returned⟩ := incoming
  have idle : c.reading = none := by
    cases busy : c.reading with
    | none => rfl
    | some place =>
      simp only [Conn.read,busy] at began
      cases began
  have after := returned.read b idle began
  rw [idle] at place
  cases place with
  | idle inStep =>
    simp only [Conn.read,idle] at began
    split_ifs at began
    · cases Option.some.inj began
      exact ⟨handed,whole,holds,bytes,.idle inStep,after⟩
    · cases Option.some.inj began
      exact ⟨handed,whole,holds,bytes,.header b [] (Nat.succ_pos _) inStep,after⟩

theorem decrypted_header (lawful : suite.AeadLawful) (inStep : start.InStep c.noise.recvCipher) (b p : Bytes)
    (small : p.length ≤ MaxUint16) :
    ∃ recvCipher, c.decrypted suite b false (start.encrypt suite [] (bigEndian 2 p.length)).1 =
        {c with noise.recvCipher := recvCipher, reading := some (b,⟨true,p.length + macSize,[]⟩)} ∧
      (start.encrypt suite [] (bigEndian 2 p.length)).2.InStep recvCipher := by
  obtain ⟨recvCipher,opened,after⟩ := inStep.encrypt lawful [] (bigEndian 2 p.length)
  have decoded : fromBigEndian ((bigEndian 2 p.length).take 2) = p.length := by
    rw [List.take_of_length_le (Nat.le_of_eq (bigEndian_length _ _)),fromBigEndian_bigEndian]
    unfold MaxUint16 at small
    omega
  exact ⟨recvCipher,by simp only [Conn.decrypted,opened,decoded,Bool.false_eq_true,if_false],after⟩

theorem decrypted_body (lawful : suite.AeadLawful) (inStep : start.InStep c.noise.recvCipher) (b p : Bytes) :
    ∃ recvCipher, c.decrypted suite b true (start.encrypt suite [] p).1 =
        {c with noise.recvCipher := recvCipher}.finish b p ∧ (start.encrypt suite [] p).2.InStep recvCipher := by
  obtain ⟨recvCipher,opened,after⟩ := inStep.encrypt lawful [] p
  exact ⟨recvCipher,by simp only [Conn.decrypted,opened,if_true],after⟩

theorem finish_kept (b p : Bytes) : (c.finish b p).receiving = c.receiving ∧ (c.finish b p).stream = c.stream ∧
    (c.finish b p).noise = c.noise ∧ (c.finish b p).written = c.written ∧ (c.finish b p).reading = none := by
  unfold Conn.finish
  split_ifs <;> exact ⟨rfl,rfl,rfl,rfl,rfl⟩

/-- The bytes arrive in the order of the frames, so what is opened is the next header or body. -/
theorem Incoming.readSome (lawful : suite.AeadLawful) (incoming : Incoming suite size start c rcv front unread records later part)
    (begins : front.flatten <+: (sealFrames suite start (records ++ later)).1)
    (small : ∀ p ∈ later, p.length ≤ MaxUint16) {next : Conn Point Key} (stepped : c.readSome suite size = some next) :
    ∃ unread' records' later' part', records' ++ later' = records ++ later ∧ unread'.length < unread.length ∧
      Incoming suite size start next rcv front unread' records' later' part' := by
  obtain ⟨handed,whole,holds,bytes,place,returned⟩ := incoming
  rw [sealFrames_append,bytes,List.append_assoc] at begins
  have begins := (List.prefix_append_right_inj _).mp begins
  have fewer {chunk unread' : Bytes} (some_ : chunk ≠ []) : unread'.length < (chunk ++ unread').length := by
    have positive := List.length_pos_iff.mpr some_
    rw [List.length_append]
    omega
  generalize busy : c.reading = reading at place
  cases place with
  | idle inStep =>
    simp only [Conn.readSome,busy] at stepped
    cases stepped
  | header b got short inStep =>
    obtain ⟨chunk,stream,unread',some_,rfl,held,bounded,rfl⟩ := readSome_copies busy short holds stepped
    have free := returned.settled (by rw [busy]; simp)
    have moved : front.flatten = (sealFrames suite start records).1 ++ (part ++ chunk) ++ unread' := by simp [bytes]
    rw [← List.append_assoc] at begins
    dsimp only at bounded ⊢
    split_ifs with more
    · exact ⟨unread',records,later,_,rfl,fewer some_,handed,whole,held,moved,.header b _ more inStep,
        returned.pieces,fun _ => free⟩
    · obtain ⟨p,behind,rfl,header⟩ := At.next_header lawful (Nat.le_antisymm bounded (Nat.not_lt.mp more)) begins
      obtain ⟨recvCipher,opened,after⟩ :=
        decrypted_header (c := {c with stream}) lawful inStep b p (small p List.mem_cons_self)
      rw [header,opened]
      refine ⟨unread',records,p :: behind,_,rfl,fewer some_,handed,whole,held,?_,
        .body b [] p behind rfl (Nat.succ_pos _) after,returned.pieces,fun _ => free⟩
      rw [moved,header,List.append_nil]
  | body b got p behind following short inStep =>
    subst following
    obtain ⟨chunk,stream,unread',some_,rfl,held,bounded,rfl⟩ := readSome_copies busy short holds stepped
    have free := returned.settled (by rw [busy]; simp)
    dsimp only at bounded ⊢
    split_ifs with more
    · refine ⟨unread',records,p :: behind,_,rfl,fewer some_,handed,whole,held,?_,
        .body b _ p behind rfl more inStep,returned.pieces,fun _ => free⟩
      simp [bytes]
    · rw [List.append_assoc,← List.append_assoc got,← List.append_assoc] at begins
      have body := At.next_body lawful (Nat.le_antisymm bounded (Nat.not_lt.mp more)) begins
      obtain ⟨recvCipher,opened,after⟩ := decrypted_body (c := {c with stream}) lawful inStep b p
      obtain ⟨receiving,stream_,noise,_,reading⟩ :=
        finish_kept (c := {c with stream, noise.recvCipher := recvCipher}) b p
      rw [body,opened]
      refine ⟨unread',records ++ [p],behind,[],by simp,fewer some_,handed,receiving.trans whole,?_,?_,?_,?_⟩
      · rw [stream_]
        exact held
      · rw [sealFrames_append]
        simp [bytes,sealFrames,sealFrame,← body]
      · rw [reading,noise,sealFrames_append]
        exact .idle after
      · exact Returned.finish (c := {c with stream, noise.recvCipher := recvCipher}) ⟨returned.pieces,fun _ => free⟩ b p free

theorem At.extend {recvCipher : CipherState} {reading : Option (Bytes × Place)}
    (place : At suite start later recvCipher reading part) (more : List Bytes) :
    At suite start (later ++ more) recvCipher reading part := by
  cases place with
  | idle inStep => exact .idle inStep
  | header b got short inStep => exact .header b _ short inStep
  | body b got p behind next short inStep => exact .body b got p (behind ++ more) (by rw [next]; rfl) short inStep

theorem Incoming.extend (incoming : Incoming suite size start c rcv front unread records later part) (more : List Bytes) :
    Incoming suite size start c rcv front unread records (later ++ more) part :=
  {incoming with place := incoming.place.extend more}

/-- A connection whose buffer has run out receives the message that was sent next. -/
theorem Incoming.recv (incoming : Incoming suite size start c rcv front unread records later part) {back : List Bytes}
    (arrived : rcv.handed.map body <+: (front ++ back).map packed)
    (fit : ∀ payload ∈ front ++ back, Fits size (.write payload))
    {msg : PacketData} {rest : List PacketData} (queued : rcv.recvDataChan = msg :: rest) {next : Conn Point Key}
    (taken : c.recv msg = some next) :
    ∃ p behind, back = p :: behind ∧
      Incoming suite size start next {rcv with recvDataChan := rest} (front ++ [p]) p records later part := by
  obtain ⟨handed,whole,holds,bytes,place,returned⟩ := incoming
  rw [handed,queued,List.map_append,List.map_cons] at arrived
  obtain ⟨more,same⟩ := (List.prefix_append_right_inj _).mp arrived
  rw [List.cons_append] at same
  obtain ⟨p,behind,rfl,first,_⟩ := List.map_eq_cons_iff.mp same.symm
  obtain ⟨payload,final⟩ := Prod.mk.inj first
  unfold Conn.recv at taken
  split_ifs at taken with waits finalChunk
  · cases Option.some.inj taken
    obtain ⟨payloads,_,gbn,unread_⟩ := holds
    have nothing : unread = [] := by
      rw [waits.2.2] at gbn
      rw [unread_,waits.2.1,List.map_eq_nil_iff.mp gbn.symm]
      rfl
    subst nothing
    have fits : Fits size (.write p) := fit p (List.mem_append_right _ List.mem_cons_self)
    refine ⟨p,behind,rfl,?_,rfl,⟨[p],by simpa using fits,?_,?_⟩,?_,place,returned.pieces,returned.settled⟩
    · rw [handed,queued]
      simp [packed,body,payload,final]
    · rw [whole,← payload]
      rfl
    · rw [waits.2.1]
      simp
    · rw [List.flatten_append,bytes]
      simp
  · exact absurd final.symm finalChunk

end Incoming

section Halves

def Conn.sending (c : Conn Point Key) : List Bytes × CipherState × Bytes × Bytes :=
  (c.written,c.noise.sendCipher,c.noise.nextHeaderSend,c.noise.nextBodySend)

def Conn.receivingHalf (c : Conn Point Key) :=
  (c.noise.recvCipher,c.nextMsg,c.stream,c.receiving,c.reading,c.answers)

variable {start : CipherState} {c c' : Conn Point Key}

theorem Outgoing.frame {snd snd' : Endpoint} {payloads : List Bytes} (outgoing : Outgoing suite size start c snd payloads)
    (half : c'.sending = c.sending) (taken : snd'.taken = snd.taken) : Outgoing suite size start c' snd' payloads := by
  simp only [Conn.sending,Prod.mk.injEq] at half
  obtain ⟨written,cipher,header,body⟩ := half
  obtain ⟨⟨frames,sealed_,small⟩,packets,fit,headerSize,bodySize⟩ := outgoing
  refine ⟨⟨?_,?_,?_⟩,taken ▸ packets,fit,header ▸ headerSize,body ▸ bodySize⟩
  · simpa only [Machine.pending,header,body,written] using frames
  · simpa only [cipher,written] using sealed_
  · simpa only [written] using small

theorem Incoming.frame {rcv rcv' : Endpoint} {front records later : List Bytes} {unread part : Bytes}
    (incoming : Incoming suite size start c rcv front unread records later part)
    (half : c'.receivingHalf = c.receivingHalf) {more : List PacketData} (handed : rcv'.handed = rcv.handed ++ more)
    (queued : rcv'.recvDataChan = rcv.recvDataChan ++ more) :
    Incoming suite size start c' rcv' front unread records later part := by
  simp only [Conn.receivingHalf,Prod.mk.injEq] at half
  obtain ⟨cipher,nextMsg,stream,receiving,reading,answers⟩ := half
  obtain ⟨packets,whole,holds,bytes,place,⟨pieces,settled⟩⟩ := incoming
  refine ⟨?_,receiving ▸ whole,stream ▸ holds,bytes,?_,?_,?_⟩
  · rw [handed,queued,List.map_append,packets,List.map_append,List.append_assoc]
  · rw [cipher,reading]
    exact place
  · rw [answers,nextMsg]
    exact pieces
  · rw [reading,nextMsg]
    exact settled

theorem write_half (p : Bytes) : (c.write suite p).receivingHalf = c.receivingHalf := by
  cases outcome : c.noise.writeMessage suite p with
  | error err noise =>
    cases Machine.writeMessage_error outcome
    simp only [Conn.write,outcome,Conn.receivingHalf]
  | ok value noise =>
    have stepped : c.write suite p = {c with noise, written := c.written ++ [p]} := by simp only [Conn.write,outcome]
    rw [Machine.writeMessage_eq] at outcome
    split_ifs at outcome
    cases outcome
    rw [stepped]
    rfl

theorem read_half {b : Bytes} (began : c.read b = some c') : c'.sending = c.sending := by
  unfold Conn.read at began
  split at began
  · cases began
  · split_ifs at began <;> cases Option.some.inj began <;> rfl

theorem decrypted_half (b : Bytes) (inBody : Bool) (buf : Bytes) :
    (c.decrypted suite b inBody buf).sending = c.sending := by
  unfold Conn.decrypted Conn.finish
  split
  · rfl
  · dsimp only
    split_ifs <;> rfl

theorem readSome_half (stepped : c.readSome suite size = some c') : c'.sending = c.sending := by
  unfold Conn.readSome at stepped
  split at stepped
  · cases stepped
  · split at stepped
    · cases stepped
    · dsimp only at stepped
      split at stepped
      · cases Option.some.inj stepped
        rfl
      · split_ifs at stepped
        · cases Option.some.inj stepped
          rfl
        · cases Option.some.inj stepped
          exact decrypted_half _ _ _

theorem recv_half {msg : PacketData} (taken : c.recv msg = some c') : c'.sending = c.sending := by
  unfold Conn.recv at taken
  dsimp only at taken
  split_ifs at taken <;> cases Option.some.inj taken <;> rfl

end Halves

section Runs

theorem deliver_handed (e : Endpoint) (bytes : Bytes) (recentlySent : Bool) :
    (e.deliver bytes recentlySent).1.handed = e.handed := by
  cases parsed : Gbn.deserialize bytes with
  | error err => simp [Endpoint.deliver,parsed]
  | ok message =>
    cases message with
    | nack seq =>
      rw [Endpoint.deliver_nack bytes recentlySent seq parsed]
      dsimp only
      split_ifs <;> rfl
    | data packet =>
      simp only [Endpoint.deliver,parsed]
      split_ifs <;> rfl
    | ack seq =>
      simp only [Endpoint.deliver,parsed]
      split_ifs <;> rfl
    | syn n => simp [Endpoint.deliver,parsed]
    | synack => simp [Endpoint.deliver,parsed]
    | fin => simp [Endpoint.deliver,parsed]

/-- Without the application, what is handed over is what the channel to it gains. -/
theorem step_queued {e e' : Endpoint} (event : Gbn.LocalEvent) (stepped : e.step event = some e') (other : event ≠ .drain) :
    ∃ more, e'.handed = e.handed ++ more ∧ e'.recvDataChan = e.recvDataChan ++ more := by
  have same {f : Endpoint} (handed : f.handed = e.handed) (queued : f.recvDataChan = e.recvDataChan) :
      ∃ more, f.handed = e.handed ++ more ∧ f.recvDataChan = e.recvDataChan ++ more :=
    ⟨[],by rw [handed,List.append_nil],by rw [queued,List.append_nil]⟩
  cases event with
  | send action =>
    obtain ⟨⟨sent,messages⟩,moved,rfl⟩ := Option.map_eq_some_iff.mp stepped
    cases Endpoint.sendStep_moves action messages moved <;> exact same rfl rfl
  | deliver bytes recentlySent =>
    simp only [Endpoint.step] at stepped
    split_ifs at stepped
    cases Option.some.inj stepped
    exact same (deliver_handed e bytes recentlySent) (Endpoint.deliver_kept bytes recentlySent).2.2.2.2
  | receive =>
    cases Endpoint.receiveStep_moves stepped with
    | hand packet loop room => exact ⟨[packet],rfl,rfl⟩
    | _ => exact same rfl rfl
  | drain => exact absurd rfl other
  | timer =>
    simp only [Endpoint.step] at stepped
    split_ifs at stepped
    cases Option.some.inj stepped
    exact same rfl rfl

/-- What the layers above rely on when the loops and the channels below them move. -/
theorem below_kept {net next : Net} {event : Gbn.Event} (inside : below event = true) (stepped : net.step event = some next)
    (x : Side) : (next.ends x).taken = (net.ends x).taken ∧
      ∃ more, (next.ends x).handed = (net.ends x).handed ++ more ∧
        (next.ends x).recvDataChan = (net.ends x).recvDataChan ++ more := by
  obtain same | ⟨own,projects,moved⟩ := net.step_local next event stepped x
  · rw [same]
    exact ⟨rfl,[],(List.append_nil _).symm,(List.append_nil _).symm⟩
  · have notDrain : own ≠ .drain := by
      rintro rfl
      cases projects
      cases inside
    refine ⟨(Endpoint.step_kept own moved).2.2 fun payload finalChunk taking => ?_,step_queued own moved notDrain⟩
    subst taking
    cases projects
    cases inside

variable {n : UInt8} {start : Side → CipherState} {s next : Pair Point Key}

structure Pair.Sound (suite : Suite Point Key) (size : IntSize) (n : UInt8) (start : Side → CipherState) (s : Pair Point Key) :
    Prop where
  net : s.net.Live n
  flows : ∀ x, Flows suite size (start x) (s.conns x) (s.conns x.other) (s.net.ends x) (s.net.ends x.other)

theorem Pair.initial_sound (lower : 1 ≤ n.toNat) (upper : n.toNat ≤ 254) (machines : Side → Machine Point Key)
    (idle : ∀ x, (machines x).pending = []) (inStep : ∀ x, (machines x).sendCipher.InStep (machines x.other).recvCipher) :
    (Pair.initial n machines).Sound suite size n fun x => (machines x).sendCipher := by
  refine ⟨Net.run_live n lower upper [] _ rfl,fun x => ?_⟩
  obtain ⟨header,body⟩ := List.append_eq_nil_iff.mp (idle x)
  refine ⟨[],[],[],[],[],[],⟨⟨idle x,rfl,nofun⟩,rfl,nofun,?_,?_⟩,rfl,rfl,rfl,Mailbox.Direction.holds_empty _,rfl,
    .idle (inStep x),⟨[],.nil,rfl⟩,fun busy => absurd rfl busy⟩
  · change (machines x).nextHeaderSend.length ≤ _
    rw [header]
    exact Nat.zero_le _
  · change (machines x).nextBodySend.length ≤ _
    rw [body]
    exact Nat.zero_le _

theorem Flows.frame {start : CipherState} {c c' d d' : Conn Point Key} {snd snd' rcv rcv' : Endpoint}
    (flows : Flows suite size start c d snd rcv) (sending : c'.sending = c.sending)
    (receiving : d'.receivingHalf = d.receivingHalf) (taken : snd'.taken = snd.taken)
    (queued : ∃ more, rcv'.handed = rcv.handed ++ more ∧ rcv'.recvDataChan = rcv.recvDataChan ++ more) :
    Flows suite size start c' d' snd' rcv' := by
  obtain ⟨front,back,unread,records,later,part,outgoing,written,incoming⟩ := flows
  obtain ⟨more,handed,chan⟩ := queued
  have kept : c'.written = c.written := congrArg Prod.fst sending
  exact ⟨front,back,unread,records,later,part,outgoing.frame sending taken,kept.trans written,
    incoming.frame receiving handed chan⟩

/-- What has arrived is the beginning of what was sealed. -/
theorem Flows.begins {start : CipherState} {c : Conn Point Key} {snd : Endpoint} {front back records later : List Bytes}
    (outgoing : Outgoing suite size start c snd (front ++ back)) (written : c.written = records ++ later) :
    front.flatten <+: (sealFrames suite start (records ++ later)).1 := by
  have frames := outgoing.sent.frames
  dsimp only at frames
  rw [← written,← frames,List.flatten_append,List.append_assoc]
  exact List.prefix_append _ _

theorem Flows.readSome (lawful : suite.AeadLawful) {start : CipherState} {c d d' : Conn Point Key} {snd rcv : Endpoint}
    (flows : Flows suite size start c d snd rcv) (stepped : d.readSome suite size = some d') :
    Flows suite size start c d' snd rcv := by
  obtain ⟨front,back,unread,records,later,part,outgoing,written,incoming⟩ := flows
  have small : ∀ p ∈ later, p.length ≤ MaxUint16 := fun p member =>
    outgoing.sent.small p (by rw [written]; exact List.mem_append_right _ member)
  obtain ⟨unread',records',later',part',split,_,incoming⟩ :=
    incoming.readSome lawful (Flows.begins outgoing written) small stepped
  exact ⟨front,back,unread',records',later',part',outgoing,written.trans split.symm,incoming⟩

theorem Flows.read {start : CipherState} {c d d' : Conn Point Key} {snd rcv : Endpoint}
    (flows : Flows suite size start c d snd rcv) {b : Bytes} (began : d.read b = some d') :
    Flows suite size start c d' snd rcv := by
  obtain ⟨front,back,unread,records,later,part,outgoing,written,incoming⟩ := flows
  exact ⟨front,back,unread,records,later,part,outgoing,written,incoming.read began⟩

theorem Flows.write (lawful : suite.AeadLawful) {start : CipherState} {c d : Conn Point Key} {snd rcv : Endpoint}
    (flows : Flows suite size start c d snd rcv) (p : Bytes) : Flows suite size start (c.write suite p) d snd rcv := by
  obtain ⟨front,back,unread,records,later,part,outgoing,written,incoming⟩ := flows
  obtain ⟨outgoing,⟨more,grown⟩,_⟩ := outgoing.write lawful p
  refine ⟨front,back,unread,records,later ++ more,part,outgoing,?_,incoming.extend more⟩
  rw [← grown,written,List.append_assoc]

theorem Flows.flush {start : CipherState} {c d : Conn Point Key} {snd snd' rcv : Endpoint}
    (flows : Flows suite size start c d snd rcv) {bytes : Bytes} {noise : Machine Point Key}
    (pending : Conn.nextWrite c.noise = some (bytes,noise)) {packet : PacketData}
    (taken : snd'.taken = snd.taken ++ [packet]) (same : body packet = packed bytes) :
    Flows suite size start {c with noise} d snd' rcv := by
  obtain ⟨front,back,unread,records,later,part,outgoing,written,incoming⟩ := flows
  refine ⟨front,back ++ [bytes],unread,records,later,part,?_,written,incoming⟩
  rw [← List.append_assoc]
  exact outgoing.flush pending taken same

theorem Flows.recv {start : CipherState} {c d d' : Conn Point Key} {snd rcv : Endpoint}
    (flows : Flows suite size start c d snd rcv) (arrived : rcv.handed.map body <+: snd.taken.map body)
    {msg : PacketData} {rest : List PacketData} (queued : rcv.recvDataChan = msg :: rest) (taken : d.recv msg = some d') :
    Flows suite size start c d' snd {rcv with recvDataChan := rest} := by
  obtain ⟨front,back,unread,records,later,part,outgoing,written,incoming⟩ := flows
  rw [outgoing.taken] at arrived
  obtain ⟨p,behind,rfl,incoming⟩ := incoming.recv arrived outgoing.fit queued taken
  refine ⟨front ++ [p],behind,p,records,later,part,?_,written,incoming⟩
  rw [List.append_assoc]
  exact outgoing

theorem Pair.Sound.at_side (s : Pair Point Key) (side : Side) (c : Conn Point Key) (net : Net) (live : net.Live n)
    (own : Flows suite size (start side) c (s.conns side.other) (net.ends side) (net.ends side.other))
    (opposite : Flows suite size (start side.other) (s.conns side.other) c (net.ends side.other) (net.ends side)) :
    (Pair.put {s with net} side c).Sound suite size n start := by
  refine ⟨live,Side.forall_of_both side ?_ ?_⟩
  · simpa [Pair.put,side.other_ne] using own
  · simpa [Pair.put,side.other_ne,Side.other_other] using opposite

theorem Pair.Sound.opposite (sound : s.Sound suite size n start) (side : Side) :
    Flows suite size (start side.other) (s.conns side.other) (s.conns side) (s.net.ends side.other) (s.net.ends side) := by
  have flows := sound.flows side.other
  rwa [Side.other_other] at flows

theorem Pair.step_sound (lawful : suite.AeadLawful) (positive : 1 ≤ n.toNat) (s : Pair Point Key) (event : Event)
    (next : Pair Point Key) (sound : s.Sound suite size n start) (stepped : s.step suite size event = some next) :
    next.Sound suite size n start := by
  have unmoved (e : Endpoint) : ∃ more, e.handed = e.handed ++ more ∧ e.recvDataChan = e.recvDataChan ++ more :=
    ⟨[],(List.append_nil _).symm,(List.append_nil _).symm⟩
  cases event with
  | net event =>
    simp only [Pair.step] at stepped
    split_ifs at stepped with inside
    obtain ⟨net,moved,rfl⟩ := Option.map_eq_some_iff.mp stepped
    refine ⟨Net.step_live n positive _ event net sound.net moved,fun x => ?_⟩
    exact (sound.flows x).frame rfl rfl (below_kept inside moved x).1 (below_kept inside moved x.other).2
  | write side p =>
    cases Option.some.inj stepped
    refine Pair.Sound.at_side s side _ s.net sound.net ((sound.flows side).write lawful p) ?_
    exact (sound.opposite side).frame rfl (write_half p) rfl (unmoved _)
  | flush side =>
    obtain ⟨⟨bytes,noise⟩,pending,sent⟩ := Option.bind_eq_some_iff.mp stepped
    obtain ⟨net,moved,rfl⟩ := Option.map_eq_some_iff.mp sent
    have live := Net.step_live n positive _ _ net sound.net moved
    obtain ⟨⟨e,messages⟩,taking,rfl⟩ := Option.map_eq_some_iff.mp moved
    cases Endpoint.sendStep_moves _ _ taking with
    | take payload finalChunk loop =>
      refine Pair.Sound.at_side s side _ _ live ?_ ?_
      · rw [Net.update_ends,Net.update_ends_other]
        exact (sound.flows side).flush pending rfl rfl
      · rw [Net.update_ends,Net.update_ends_other]
        refine (sound.opposite side).frame rfl ?_ rfl (unmoved _)
        simp only [Conn.receivingHalf,(nextWrite_some pending).2.2.2.2.1]
  | read side b =>
    obtain ⟨c,began,rfl⟩ := Option.map_eq_some_iff.mp stepped
    refine Pair.Sound.at_side s side _ s.net sound.net ?_ ((sound.opposite side).read began)
    exact (sound.flows side).frame (read_half began) rfl rfl (unmoved _)
  | recv side =>
    obtain ⟨msg,first,taken⟩ := Option.bind_eq_some_iff.mp stepped
    obtain ⟨c,received,drained⟩ := Option.bind_eq_some_iff.mp taken
    obtain ⟨net,moved,rfl⟩ := Option.map_eq_some_iff.mp drained
    have live := Net.step_live n positive _ _ net sound.net moved
    obtain ⟨rest,queued⟩ := List.head?_eq_some_iff.mp first
    obtain ⟨base,held,tags,safe⟩ := sound.net.1
    have arrived := safe.handed_isPrefix side.other
    rw [Side.other_other] at arrived
    simp only [Net.step,queued,Option.some.injEq] at moved
    subst moved
    refine Pair.Sound.at_side s side _ _ live ?_ ?_
    · rw [Net.update_ends,Net.update_ends_other]
      exact (sound.flows side).frame (recv_half received) rfl rfl (unmoved _)
    · rw [Net.update_ends,Net.update_ends_other]
      exact (sound.opposite side).recv arrived queued received
  | readSome side =>
    obtain ⟨c,copied,rfl⟩ := Option.map_eq_some_iff.mp stepped
    refine Pair.Sound.at_side s side _ s.net sound.net ?_ ((sound.opposite side).readSome lawful copied)
    exact (sound.flows side).frame (readSome_half copied) rfl rfl (unmoved _)

theorem Pair.run_sound (lawful : suite.AeadLawful) (lower : 1 ≤ n.toNat) (upper : n.toNat ≤ 254)
    (machines : Side → Machine Point Key) (idle : ∀ x, (machines x).pending = [])
    (inStep : ∀ x, (machines x).sendCipher.InStep (machines x.other).recvCipher) (events : List Event) (s : Pair Point Key)
    (reached : run (Pair.step suite size) (Pair.initial n machines) events = some s) :
    s.Sound suite size n fun x => (machines x).sendCipher :=
  run_invariant (Pair.step suite size) (Pair.Sound suite size n fun x => (machines x).sendCipher)
    (Pair.step_sound lawful lower) events _ s (Pair.initial_sound lower upper machines idle inStep) reached

/-- The buffer holds 32 KiB, or at least all of whatever record was written. -/
def Roomy (written : List Bytes) (b : Bytes) : Prop :=
  ∀ record ∈ written, min record.length defaultGrpcWriteBufSize ≤ b.length

instance roomy_decidable (written : List Bytes) (b : Bytes) : Decidable (Roomy written b) :=
  inferInstanceAs (Decidable (∀ record ∈ written, min record.length defaultGrpcWriteBufSize ≤ b.length))

end Runs

end NodeConnect.EndToEnd
