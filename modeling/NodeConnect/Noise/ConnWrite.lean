import NodeConnect.Noise.Flushing

/-! `NoiseConn.Write` over a connection whose writes time out. The data goes out in chunks
of at most 65535 bytes; a write that was interrupted is finished by `Flush`, and the next
`Write` goes on where the last chunk ended. -/
namespace NodeConnect.Noise
open Lib

variable {Point Key : Type}

/-- The sending half of a `NoiseConn`. The list `conn` says how the writes of the coming calls of
`Flush` end; once it is used up they succeed. -/
structure Outgoing (Point Key : Type) extends Sender Point Key where
  conn : List (WriteOutcome × WriteOutcome)

structure Written (Point Key : Type) where
  n : Int
  err : Option TransportError
  conn : Outgoing Point Key

namespace Outgoing

def flush (c : Outgoing Point Key) : Written Point Key :=
  let (header,body) := c.conn.headD (⟨c.machine.nextHeaderSend.length,false⟩,⟨c.machine.nextBodySend.length,false⟩)
  let flushed := c.machine.flush header body
  ⟨flushed.count,flushed.err,{c with
    machine := flushed.machine, wire := c.wire ++ flushed.written, conn := c.conn.tail}⟩

section

variable (suite : Suite Point Key)

/-- `WriteMessage` followed by `Flush`. -/
def writeChunk (c : Outgoing Point Key) (chunk : Bytes) : Written Point Key :=
  match c.machine.writeMessage suite chunk with
  | .error err machine => ⟨0,some err,{c with machine := machine}⟩
  | .ok () machine => flush {c with machine := machine, accepted := c.accepted ++ [chunk]}

/-- The loop of `Write`; it has not ended when the fuel runs out. -/
def writeLoop (b : Bytes) : Nat → Int → Int → Outgoing Point Key → Option (Written Point Key)
  | 0, _, _, _ => none
  | fuel + 1, chunkSize, bytesWritten, c =>
    if bytesWritten < b.length then
      let chunkSize := if b.length < bytesWritten + chunkSize then b.length - bytesWritten else chunkSize
      let chunk := (b.drop bytesWritten.toNat).take chunkSize.toNat
      let written := c.writeChunk suite chunk
      let bytesWritten := bytesWritten + written.n
      match written.err with
      | some err => some ⟨bytesWritten,some err,written.conn⟩
      | none => writeLoop b fuel chunkSize bytesWritten written.conn
    else some ⟨bytesWritten,none,c⟩

def write (c : Outgoing Point Key) (b : Bytes) : Option (Written Point Key) :=
  if b.length ≤ MaxUint16 then some (c.writeChunk suite b)
  else writeLoop suite b (b.length + 1) MaxUint16 0 c

end

/-- Calls `Flush` until it succeeds and adds up what it returns. -/
def flushUntil (s : Sender Point Key) : List (WriteOutcome × WriteOutcome) → Int × Outgoing Point Key
  | [] =>
    let written := flush ⟨s,[]⟩
    (written.n,written.conn)
  | outcome :: later =>
    let written := flush ⟨s,outcome :: later⟩
    match written.err with
    | none => (written.n,written.conn)
    | some _ =>
      let rest := flushUntil written.conn.toSender later
      (written.n + rest.1,rest.2)

def flushAll (c : Outgoing Point Key) : Int × Outgoing Point Key := flushUntil c.toSender c.conn

/-- Writes all of `b`: after an error it flushes what is pending and goes on behind it. -/
def writeAll (suite : Suite Point Key) : Nat → Outgoing Point Key → Bytes → Option (Outgoing Point Key)
  | 0, _, _ => none
  | rounds + 1, c, b => do
    let written ← c.write suite b
    match written.err with
    | none => some written.conn
    | some _ =>
      let (n,c) := written.conn.flushAll
      let total := written.n + n
      if total < b.length then writeAll suite rounds c (b.drop total.toNat) else some c

end Outgoing

/-- Where on the wire the plaintext bytes of the messages are, each message behind its header. -/
def plaintextPositions : Nat → List Bytes → List Nat
  | _, [] => []
  | start, p :: later =>
    (List.range p.length).map (start + 18 + ·) ++ plaintextPositions (start + p.length + 34) later

/-- The plaintext bytes among the first `written` bytes of the frames of the messages. -/
def payloadsWithin : List Bytes → Nat → Nat
  | [], _ => 0
  | p :: later, written => payloadWithin p.length written + payloadsWithin later (written - (p.length + 34))

theorem range_countP_lt (size bound : Nat) : (List.range size).countP (· < bound) = min size bound := by
  induction size with
  | zero => simp
  | succ size ih =>
    rw [List.range_succ,List.countP_append,ih,List.countP_singleton]
    split_ifs with below
    · have below := of_decide_eq_true below
      omega
    · have above : ¬ size < bound := fun less => below (decide_eq_true less)
      omega

theorem payloadsWithin_eq (messages : List Bytes) (start bound : Nat) :
    (plaintextPositions start messages).countP (· < bound) = payloadsWithin messages (bound - start) := by
  induction messages generalizing start with
  | nil => rfl
  | cons p later ih =>
    have own : ((List.range p.length).map (start + 18 + ·)).countP (· < bound) = payloadWithin p.length (bound - start) := by
      rw [List.countP_map,payloadWithin,← range_countP_lt]
      congr 1
      funext i
      simp only [Function.comp_apply,decide_eq_decide]
      omega
    have shift : bound - (start + p.length + 34) = bound - start - (p.length + 34) := by omega
    rw [plaintextPositions,List.countP_append,own,ih,shift,payloadsWithin]

section Framing

variable {suite : Suite Point Key}

theorem sealFrame_length (lawful : suite.AeadLawful) (c : CipherState) (p : Bytes) :
    (sealFrame suite c p).1.length = p.length + 34 := by
  simp only [sealFrame,List.length_append,encrypt_length lawful,bigEndian_length,macSize]
  omega

theorem payloadsWithin_whole (p : Bytes) (later : List Bytes) (written : Nat) :
    payloadsWithin (p :: later) (p.length + 34 + written) = p.length + payloadsWithin later written := by
  have whole : min p.length (p.length + 34 + written - 18) = p.length := by omega
  rw [payloadsWithin,payloadWithin,Nat.add_sub_cancel_left,whole]

/-- The chunks were sealed one after the other, and these bytes of their frames went out. -/
structure Outgoing.Sends (suite : Suite Point Key) (c c' : Outgoing Point Key) (chunks : List Bytes) (bytes : Bytes) :
    Prop where
  accepted : c'.accepted = c.accepted ++ chunks
  wire : c'.wire = c.wire ++ bytes
  frames : bytes ++ c'.machine.pending = (sealFrames suite c.machine.sendCipher chunks).1
  cipher : c'.machine.sendCipher = (sealFrames suite c.machine.sendCipher chunks).2
  small : ∀ chunk ∈ chunks, chunk.length ≤ MaxUint16

namespace Outgoing

theorem Sends.refl (c : Outgoing Point Key) (idle : c.machine.pending = []) : Sends suite c c [] [] :=
  ⟨(List.append_nil _).symm,(List.append_nil _).symm,idle,rfl,nofun⟩

theorem Sends.trans {c d e : Outgoing Point Key} {chunks later : List Bytes} {bytes rest : Bytes}
    (first : Sends suite c d chunks bytes) (idle : d.machine.pending = []) (second : Sends suite d e later rest) :
    Sends suite c e (chunks ++ later) (bytes ++ rest) := by
  have out : bytes = (sealFrames suite c.machine.sendCipher chunks).1 := by
    rw [← first.frames,idle,List.append_nil]
  refine ⟨?_,?_,?_,?_,?_⟩
  · rw [second.accepted,first.accepted,List.append_assoc]
  · rw [second.wire,first.wire,List.append_assoc]
  · rw [List.append_assoc,second.frames,sealFrames_append,first.cipher,out]
  · rw [second.cipher,sealFrames_append,first.cipher]
  · intro chunk member
    rcases List.mem_append.mp member with early | late
    · exact first.small chunk early
    · exact second.small chunk late

theorem Sends.whole (lawful : suite.AeadLawful) {c d : Outgoing Point Key} {chunk bytes : Bytes}
    (sends : Sends suite c d [chunk] bytes) (idle : d.machine.pending = []) : bytes.length = chunk.length + 34 := by
  have frames := sends.frames
  rw [idle,List.append_nil] at frames
  rw [frames]
  simpa [sealFrames] using sealFrame_length lawful c.machine.sendCipher chunk

/-- What a call of `Flush` does with the frame of a message that is partly out. -/
structure Flushes (size written : Nat) (c : Outgoing Point Key) (bytes : Bytes) : Prop where
  accepted : c.flush.conn.accepted = c.accepted
  wire : c.flush.conn.wire = c.wire ++ bytes
  moved : bytes ++ c.flush.conn.machine.pending = c.machine.pending
  cipher : c.flush.conn.machine.sendCipher = c.machine.sendCipher
  filling : c.flush.conn.machine.Filling size (written + bytes.length)
  count : c.flush.n = payloadWithin size (written + bytes.length) - payloadWithin size written

theorem flush_flushes {c : Outgoing Point Key} {size written : Nat} (filling : c.machine.Filling size written) :
    ∃ bytes, Flushes size written c bytes := by
  let outcome := c.conn.headD (⟨c.machine.nextHeaderSend.length,false⟩,⟨c.machine.nextBodySend.length,false⟩)
  obtain ⟨moved,cipher⟩ := c.machine.flush_moves outcome.1 outcome.2
  obtain ⟨next,count⟩ := filling.flush outcome.1 outcome.2
  exact ⟨(c.machine.flush outcome.1 outcome.2).written,rfl,rfl,moved,cipher,next,count⟩

theorem flush_done {c : Outgoing Point Key} (succeeded : c.flush.err = none) : c.flush.conn.machine.pending = [] :=
  Machine.flush_succeeds succeeded

/-- A connection that takes everything. -/
theorem flush_unhindered (s : Sender Point Key) : (flush ⟨s,[]⟩).err = none := by
  simp [flush,Machine.flush,WriteOutcome.err,WriteOutcome.count]
  split_ifs <;> rfl

/-- What is left to do after an interrupted write. -/
structure Resumed (size written : Nat) (c : Outgoing Point Key) (result : Int × Outgoing Point Key) : Prop where
  accepted : result.2.accepted = c.accepted
  wire : result.2.wire = c.wire ++ c.machine.pending
  idle : result.2.machine.pending = []
  cipher : result.2.machine.sendCipher = c.machine.sendCipher
  count : result.1 = size - payloadWithin size written

theorem Flushes.resumed {c : Outgoing Point Key} {size written : Nat} {bytes : Bytes} (flushes : Flushes size written c bytes)
    (succeeded : c.flush.err = none) : Resumed size written c (c.flush.n,c.flush.conn) := by
  have idle := flush_done succeeded
  have moved := flushes.moved
  rw [idle,List.append_nil] at moved
  refine ⟨flushes.accepted,moved ▸ flushes.wire,idle,flushes.cipher,?_⟩
  rw [flushes.count,(flushes.filling.done idle).1]

theorem flushUntil_resumed (s : Sender Point Key) (conn : List (WriteOutcome × WriteOutcome)) {size written : Nat}
    (filling : s.machine.Filling size written) : Resumed size written ⟨s,conn⟩ (flushUntil s conn) := by
  induction conn generalizing s written with
  | nil =>
    obtain ⟨bytes,flushes⟩ := flush_flushes (c := ⟨s,[]⟩) filling
    exact flushes.resumed (flush_unhindered s)
  | cons outcome later ih =>
    obtain ⟨bytes,flushes⟩ := flush_flushes (c := ⟨s,outcome :: later⟩) filling
    rw [flushUntil]
    cases ended : (flush ⟨s,outcome :: later⟩).err with
    | none => exact flushes.resumed ended
    | some err =>
      obtain ⟨accepted,wire,idle,cipher,count⟩ := ih _ flushes.filling
      refine ⟨accepted.trans flushes.accepted,?_,idle,cipher.trans flushes.cipher,?_⟩
      · change (flushUntil _ later).2.wire = _
        rw [wire,flushes.wire,List.append_assoc,flushes.moved]
      · change (flush ⟨s,outcome :: later⟩).n + (flushUntil _ later).1 = _
        rw [count,flushes.count]
        omega

/-- What a call of `Write` that has already counted `offset` bytes does with the rest of its data. -/
structure Wrote (suite : Suite Point Key) (c : Outgoing Point Key) (data : Bytes) (offset : Int)
    (written : Written Point Key) (chunks : List Bytes) (bytes : Bytes) : Prop where
  sends : Sends suite c written.conn chunks bytes
  front : chunks.flatten <+: data
  count : written.n = offset + payloadsWithin chunks bytes.length
  done : written.err = none → written.conn.machine.pending = [] ∧ chunks.flatten = data
  interrupted : written.err ≠ none → 0 < chunks.flatten.length ∧ ∃ size sent,
    Resumed size sent written.conn written.conn.flushAll ∧
      written.n + written.conn.flushAll.1 = offset + chunks.flatten.length

theorem writeChunk_wrote (lawful : suite.AeadLawful) {c : Outgoing Point Key} (idle : c.machine.pending = []) (chunk : Bytes)
    (small : chunk.length ≤ MaxUint16) (some : chunk ≠ []) :
    ∃ bytes, Wrote suite c chunk 0 (c.writeChunk suite chunk) [chunk] bytes := by
  obtain ⟨sealed,accepted⟩ := Machine.writeMessage_accepts suite idle small
  obtain ⟨_,_,pending,cipher⟩ := Machine.writeMessage_ok accepted
  let buffered : Outgoing Point Key := {c with machine := sealed, accepted := c.accepted ++ [chunk]}
  have called : c.writeChunk suite chunk = buffered.flush := by simp only [writeChunk,accepted,buffered]
  obtain ⟨bytes,flushes⟩ := flush_flushes (c := buffered) (sealed_filling lawful accepted)
  have filling := flushes.filling
  rw [Nat.zero_add] at filling
  have counted : buffered.flush.n = payloadWithin chunk.length bytes.length := by
    rw [flushes.count,Nat.zero_add]
    simp [payloadWithin]
  have resumed := flushUntil_resumed buffered.flush.conn.toSender buffered.flush.conn.conn filling
  refine ⟨bytes,?_⟩
  rw [called]
  refine ⟨⟨flushes.accepted,flushes.wire,?_,?_,?_⟩,?_,?_,?_,?_⟩
  · rw [flushes.moved]
    simpa [sealFrames] using pending
  · rw [flushes.cipher]
    simpa [sealFrames] using cipher
  · intro other member
    rw [List.mem_singleton.mp member]
    exact small
  · simp
  · rw [counted]
    simp [payloadsWithin]
  · intro succeeded
    exact ⟨flush_done succeeded,by simp⟩
  · intro _
    refine ⟨?_,_,_,resumed,?_⟩
    · simpa using List.length_pos_iff.mpr some
    · change buffered.flush.n + (flushUntil _ _).1 = _
      rw [resumed.count,counted]
      simp

/-- A chunk that is out completely, and what the loop does after it. -/
theorem Wrote.cons {c d : Outgoing Point Key} {chunk data bytes rest : Bytes} {offset : Int} {written : Written Point Key}
    {chunks : List Bytes} (lawful : suite.AeadLawful) (first : Sends suite c d [chunk] bytes) (idle : d.machine.pending = [])
    (second : Wrote suite d data (offset + chunk.length) written chunks rest) :
    Wrote suite c (chunk ++ data) offset written (chunk :: chunks) (bytes ++ rest) := by
  have whole := first.whole lawful idle
  refine ⟨first.trans idle second.sends,?_,?_,?_,?_⟩
  · rw [List.flatten_cons]
    exact (List.prefix_append_right_inj chunk).mpr second.front
  · rw [second.count,List.length_append,whole,payloadsWithin_whole]
    omega
  · intro succeeded
    obtain ⟨idle,rfl⟩ := second.done succeeded
    exact ⟨idle,List.flatten_cons⟩
  · intro failed
    obtain ⟨progress,size,sent,resumed,total⟩ := second.interrupted failed
    refine ⟨?_,size,sent,resumed,?_⟩
    · rw [List.flatten_cons,List.length_append]
      omega
    · rw [total,List.flatten_cons,List.length_append]
      omega

theorem writeLoop_wrote (lawful : suite.AeadLawful) (b : Bytes) (fuel : Nat) (chunkSize : Int) (k : Nat)
    {c : Outgoing Point Key} (idle : c.machine.pending = []) (within : k ≤ b.length) (enough : b.length < fuel + k)
    (size : chunkSize = MaxUint16 ∨ k = b.length) :
    ∃ written chunks bytes, writeLoop suite b fuel chunkSize k c = some written ∧
      Wrote suite c (b.drop k) k written chunks bytes := by
  induction fuel generalizing chunkSize k c with
  | zero => omega
  | succ fuel ih =>
    rw [writeLoop]
    by_cases more : k < b.length
    · rw [if_pos (by omega)]
      dsimp only
      generalize shrunk : (if (b.length : Int) < k + chunkSize then (b.length : Int) - k else chunkSize) = size'
      have chosen : size' = min MaxUint16 (b.length - k : Nat) := by
        rw [← shrunk,size.resolve_right (by omega)]
        split_ifs <;> omega
      have taken : size'.toNat = min MaxUint16 (b.length - k) := by omega
      rw [Int.toNat_natCast,taken]
      generalize piece : (b.drop k).take (min MaxUint16 (b.length - k)) = chunk
      have length : chunk.length = min MaxUint16 (b.length - k) := by
        rw [← piece,List.length_take,List.length_drop]
        omega
      have positive : 0 < MaxUint16 := by decide
      have data : b.drop k = chunk ++ b.drop (k + chunk.length) := by
        rw [← List.drop_drop,length,← piece,List.take_append_drop]
      obtain ⟨bytes,first⟩ := writeChunk_wrote lawful idle chunk (by omega) (List.ne_nil_of_length_pos (by omega))
      cases ended : (c.writeChunk suite chunk).err with
      | some err =>
        obtain ⟨progress,size,sent,resumed,total⟩ := first.interrupted (by simp [ended])
        refine ⟨_,[chunk],bytes,rfl,first.sends,?_,?_,nofun,fun _ => ⟨progress,size,sent,resumed,?_⟩⟩
        · rw [data]
          simp
        · change (k : Int) + _ = _
          rw [first.count,zero_add]
        · change (k : Int) + _ + _ = _
          rw [add_assoc,total,zero_add]
      | none =>
        obtain ⟨idle,_⟩ := first.done ended
        have next : (k : Int) + (c.writeChunk suite chunk).n = (k + chunk.length : Nat) := by
          have counted := payloadsWithin_whole chunk [] 0
          rw [first.count,first.sends.whole lawful idle,zero_add]
          rw [Nat.add_zero] at counted
          rw [counted]
          rfl
        dsimp only
        rw [next,data]
        obtain ⟨written,chunks,rest,ran,second⟩ := ih size' (k + chunk.length) idle (by omega) (by omega) (by omega)
        exact ⟨written,_,_,ran,.cons lawful first.sends idle (by simpa using second)⟩
    · have done : k = b.length := by omega
      rw [if_neg (by omega)]
      refine ⟨_,[],[],rfl,.refl c idle,List.nil_prefix,by simp [payloadsWithin],?_,nofun⟩
      intro _
      exact ⟨idle,by rw [done,List.drop_length]; rfl⟩

theorem write_wrote (lawful : suite.AeadLawful) {c : Outgoing Point Key} (idle : c.machine.pending = []) (b : Bytes)
    (nonempty : b ≠ []) :
    ∃ written chunks bytes, c.write suite b = some written ∧ Wrote suite c b 0 written chunks bytes := by
  unfold write
  split_ifs with short
  · obtain ⟨bytes,wrote⟩ := writeChunk_wrote lawful idle b short nonempty
    exact ⟨_,[b],bytes,rfl,wrote⟩
  · exact writeLoop_wrote lawful b (b.length + 1) MaxUint16 0 idle (Nat.zero_le _) (by omega) (.inl rfl)

theorem write_busy (c : Outgoing Point Key) (busy : c.machine.pending ≠ []) (b : Bytes) :
    c.write suite b = some ⟨0,some .messageNotFlushed,c⟩ := by
  have refused (chunk : Bytes) (small : chunk.length ≤ MaxUint16) :
      c.writeChunk suite chunk = ⟨0,some .messageNotFlushed,c⟩ := by
    rw [writeChunk,Machine.writeMessage_eq,if_neg (Nat.not_lt.mpr small),if_pos busy]
  unfold write
  split_ifs with short
  · rw [refused b short]
  · rw [writeLoop,if_pos (by omega)]
    dsimp only
    rw [if_neg (by omega),refused _ (by rw [List.length_take]; omega)]
    rfl

/-- An interrupted write once its last chunk is flushed. -/
theorem Wrote.flushed {c : Outgoing Point Key} {b bytes : Bytes} {written : Written Point Key} {chunks : List Bytes}
    (wrote : Wrote suite c b 0 written chunks bytes) (failed : written.err ≠ none) :
    (∃ bytes', Sends suite c written.conn.flushAll.2 chunks bytes') ∧ written.conn.flushAll.2.machine.pending = [] ∧
      written.n + written.conn.flushAll.1 = chunks.flatten.length ∧ 0 < chunks.flatten.length := by
  obtain ⟨progress,size,sent,resumed,total⟩ := wrote.interrupted failed
  obtain ⟨accepted,wire,frames,cipher,small⟩ := wrote.sends
  rw [zero_add] at total
  refine ⟨⟨bytes ++ written.conn.machine.pending,?_,?_,?_,?_,small⟩,resumed.idle,total,progress⟩
  · rw [resumed.accepted,accepted]
  · rw [resumed.wire,wire,List.append_assoc]
  · rw [resumed.idle,List.append_nil,frames]
  · rw [resumed.cipher,cipher]

theorem writeAll_sends (lawful : suite.AeadLawful) (rounds : Nat) {c : Outgoing Point Key} (idle : c.machine.pending = [])
    (b : Bytes) (nonempty : b ≠ []) (enough : b.length ≤ rounds) :
    ∃ final records bytes, writeAll suite rounds c b = some final ∧ Sends suite c final records bytes ∧
      final.machine.pending = [] ∧ records.flatten = b := by
  -- Every round that fails has flushed at least one chunk before the next one begins.
  induction rounds generalizing c b with
  | zero => exact absurd (List.eq_nil_of_length_eq_zero (Nat.le_zero.mp enough)) nonempty
  | succ rounds ih =>
    obtain ⟨written,chunks,bytes,ran,wrote⟩ := write_wrote lawful idle b nonempty
    simp only [writeAll,ran,bind,Option.bind]
    cases ended : written.err with
    | none =>
      obtain ⟨idle,whole⟩ := wrote.done ended
      exact ⟨written.conn,chunks,bytes,rfl,wrote.sends,idle,whole⟩
    | some err =>
      obtain ⟨⟨out,sends⟩,idle,total,progress⟩ := wrote.flushed (by simp [ended])
      obtain ⟨rest,rfl⟩ := wrote.front
      dsimp only
      rw [total,Int.toNat_natCast,List.drop_left]
      by_cases more : rest = []
      · rw [if_neg (by simp [more])]
        exact ⟨_,chunks,out,rfl,sends,idle,by rw [more,List.append_nil]⟩
      · have length := List.length_pos_iff.mpr more
        rw [List.length_append] at enough ⊢
        rw [if_pos (by omega)]
        obtain ⟨final,records,later,ran,second,end_,whole⟩ := ih idle rest more (by omega)
        exact ⟨final,chunks ++ records,out ++ later,ran,sends.trans idle second,end_,by rw [List.flatten_append,whole]⟩

/-- `Write` counts the plaintext whose ciphertext is out. After an error, flushing completes a chunk;
writing on behind it, again and again, hands the peer all the data in records of legal size. -/
theorem noiseConn_write_exact (lawful : suite.AeadLawful) (c : Outgoing Point Key) (idle : c.machine.pending = [])
    (peer : Machine Point Key) (inStep : c.machine.sendCipher.InStep peer.recvCipher) (b : Bytes) (nonempty : b ≠ []) :
    (∃ written chunks bytes, c.write suite b = some written ∧
      written.conn.accepted = c.accepted ++ chunks ∧ chunks.flatten <+: b ∧
      written.conn.wire = c.wire ++ bytes ∧
      bytes ++ written.conn.machine.pending = (sealFrames suite c.machine.sendCipher chunks).1 ∧
      written.n = ((plaintextPositions 0 chunks).countP (· < bytes.length) : Nat) ∧
      (written.err = none → written.conn.machine.pending = [] ∧ chunks.flatten = b) ∧
      (written.err ≠ none → written.conn.flushAll.2.machine.pending = [] ∧
        written.n + written.conn.flushAll.1 = chunks.flatten.length)) ∧
    (∃ final records bytes, writeAll suite b.length c b = some final ∧
      final.accepted = c.accepted ++ records ∧ records.flatten = b ∧ (∀ record ∈ records, record.length ≤ MaxUint16) ∧
      final.wire = c.wire ++ bytes ∧ final.machine.pending = [] ∧
      ∀ cuts, ∃ after, Machine.readMessages suite records.length (peer,⟨bytes,cuts⟩) = .ok records after) ∧
    ∀ busy : Outgoing Point Key, busy.machine.pending ≠ [] →
      ∀ b, busy.write suite b = some ⟨0,some .messageNotFlushed,busy⟩ := by
  refine ⟨?_,?_,write_busy⟩
  · obtain ⟨written,chunks,bytes,ran,wrote⟩ := write_wrote lawful idle b nonempty
    refine ⟨written,chunks,bytes,ran,wrote.sends.accepted,wrote.front,wrote.sends.wire,wrote.sends.frames,?_,wrote.done,?_⟩
    · rw [wrote.count,payloadsWithin_eq,Nat.sub_zero,zero_add]
    · intro failed
      obtain ⟨_,flushed,total,_⟩ := wrote.flushed failed
      exact ⟨flushed,total⟩
  · obtain ⟨final,records,bytes,ran,sends,flushed,whole⟩ := writeAll_sends lawful b.length idle b nonempty le_rfl
    have frames := sends.frames
    rw [flushed,List.append_nil] at frames
    refine ⟨final,records,bytes,ran,sends.accepted,whole,sends.small,sends.wire,flushed,?_⟩
    intro cuts
    have read := (readMessages_frames lawful records inStep sends.small bytes (frames ▸ List.prefix_rfl) cuts records.length).2
    rw [List.take_length] at read
    exact read le_rfl (frames ▸ le_rfl)

/-- A connection on which the first write stops in the header and the next one in the body. -/
theorem noiseConn_write_exact_interrupted :
    ∃ c : Outgoing UInt8 UInt8, (∃ written, c.write plainSuite [1,2,3] = some written ∧ written.n = 0 ∧
      written.err = some .write ∧ written.conn.flushAll.1 = 3) ∧
      ∃ final, writeAll plainSuite 3 c [1,2,3] = some final ∧ final.machine.pending = [] := by
  let c : Outgoing UInt8 UInt8 := ⟨{machine := plainClient},[(⟨7,true⟩,⟨0,true⟩),(⟨11,false⟩,⟨2,true⟩)]⟩
  have inStep : plainClient.sendCipher.InStep plainServer.recvCipher := ⟨rfl,by decide +kernel,by decide +kernel⟩
  have exact_ := noiseConn_write_exact plainSuite_lawful.toAeadLawful c rfl plainServer inStep [1,2,3] (by decide)
  obtain ⟨final,_,_,ran,_,_,_,_,flushed,_⟩ := exact_.2.1
  exact ⟨c,⟨_,rfl,by decide +kernel,by decide +kernel,by decide +kernel⟩,final,ran,flushed⟩

end Outgoing

end Framing

end NodeConnect.Noise
