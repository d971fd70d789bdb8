import NodeConnect.Lib.StreamReader
import NodeConnect.Noise.Transport

/-! `Read` of the two connections over the records of a machine. `NoiseConn` keeps what is
left of a record in a buffer. `NoiseGrpcConn` hands out a record in one or two parts, and
returns the length of the part even when the caller has no room for it. -/
namespace NodeConnect.Noise
open Lib Fallible

variable {Point Key : Type}

def defaultGrpcWriteBufSize : Nat := 32 * 1024

inductive ReadError where
  | decryptingPayload (err : TransportError)
  | readMessage (err : TransportError)
  | EOF
  deriving DecidableEq, Repr

structure NoiseGrpcConn (Point Key : Type) where
  noise : Machine Point Key
  proxyConn : Reader
  nextMsg : Bytes := []

structure NoiseConn (Point Key : Type) where
  noise : Machine Point Key
  conn : Reader
  readBuf : Bytes := []

def NoiseGrpcConn.read (suite : Suite Point Key) (c : NoiseGrpcConn Point Key) (b : Bytes) :
    ReadAnswer ReadError (NoiseGrpcConn Point Key) :=
  if 0 < c.nextMsg.length then ⟨c.nextMsg.length,none,overwrite b c.nextMsg,{c with nextMsg := []}⟩
  else
    match Machine.readMessage suite (c.noise,c.proxyConn) with
    | .error err (noise,proxyConn) => ⟨0,some (.decryptingPayload err),b,{c with noise, proxyConn}⟩
    | .ok requestBytes (noise,proxyConn) =>
      if defaultGrpcWriteBufSize < requestBytes.length then
        ⟨defaultGrpcWriteBufSize,none,overwrite b (requestBytes.take defaultGrpcWriteBufSize),
          ⟨noise,proxyConn,requestBytes.drop defaultGrpcWriteBufSize⟩⟩
      else ⟨requestBytes.length,none,overwrite b requestBytes,{c with noise, proxyConn}⟩

/-- `Read` of a `bytes.Buffer`. -/
def NoiseConn.readBuffered (c : NoiseConn Point Key) (b : Bytes) : ReadAnswer ReadError (NoiseConn Point Key) :=
  if c.readBuf.length = 0 then ⟨0,if b.length = 0 then none else some .EOF,b,c⟩
  else
    let n := min b.length c.readBuf.length
    ⟨n,none,overwrite b c.readBuf,{c with readBuf := c.readBuf.drop n}⟩

def NoiseConn.read (suite : Suite Point Key) (c : NoiseConn Point Key) (b : Bytes) :
    ReadAnswer ReadError (NoiseConn Point Key) :=
  if c.readBuf.length = 0 then
    match Machine.readMessage suite (c.noise,c.conn) with
    | .error err (noise,conn) => ⟨0,some (.readMessage err),b,{c with noise, conn}⟩
    | .ok plaintext (noise,conn) => NoiseConn.readBuffered ⟨noise,conn,c.readBuf ++ plaintext⟩ b
  else c.readBuffered b

/-- The parts in which `NoiseGrpcConn` hands out a record. -/
def parts (record : Bytes) : List Bytes :=
  if defaultGrpcWriteBufSize < record.length then
    [record.take defaultGrpcWriteBufSize,record.drop defaultGrpcWriteBufSize]
  else [record]

theorem parts_flatten (record : Bytes) : (parts record).flatten = record := by
  unfold parts
  split_ifs <;> simp

theorem flatMap_parts_flatten (records : List Bytes) : (records.flatMap parts).flatten = records.flatten := by
  induction records with
  | nil => rfl
  | cons record later ih => rw [List.flatMap_cons,List.flatten_append,parts_flatten,ih,List.flatten_cons]

variable {suite : Suite Point Key}

/-- What has arrived are the frames of these records, for a machine in step with their sender. -/
structure Feeding (suite : Suite Point Key) (noise : Machine Point Key) (incoming : Reader) (records : List Bytes) :
    Prop where
  frames : ∃ c : CipherState, c.InStep noise.recvCipher ∧ incoming.data = (sealFrames suite c records).1
  small : ∀ p ∈ records, p.length ≤ MaxUint16

theorem Feeding.done {noise : Machine Point Key} {incoming : Reader} (feeding : Feeding suite noise incoming []) :
    ∃ err noise' incoming', Machine.readMessage suite (noise,incoming) = .error err (noise',incoming') ∧
      Feeding suite noise' incoming' [] := by
  obtain ⟨c,inStep,data⟩ := feeding.frames
  obtain ⟨bytes,cuts⟩ := incoming
  cases data
  have short : ([] : Bytes).length < 2 + macSize := by decide
  refine ⟨.read,noise,⟨[],[]⟩,?_,⟨c,inStep,rfl⟩,nofun⟩
  rw [Machine.readMessage,bind_error]
  rw [Machine.readHeader,bind_error _ _ _ _ _ (readFull_short [] cuts _ short)]

theorem Feeding.next (lawful : suite.AeadLawful) {noise : Machine Point Key} {incoming : Reader} {record : Bytes}
    {later : List Bytes} (feeding : Feeding suite noise incoming (record :: later)) :
    ∃ noise' incoming', Machine.readMessage suite (noise,incoming) = .ok record (noise',incoming') ∧
      Feeding suite noise' incoming' later := by
  obtain ⟨⟨c,inStep,data⟩,small⟩ := feeding
  obtain ⟨bytes,cuts⟩ := incoming
  cases data
  obtain ⟨rest,noise',cuts',whole,_,read,inStep'⟩ | ⟨short,_⟩ := readMessage_frame lawful inStep record
    (small record List.mem_cons_self) _ _ cuts (List.prefix_refl _)
  · refine ⟨noise',⟨rest,cuts'⟩,read,⟨_,inStep',(List.append_cancel_left whole).symm⟩,?_⟩
    exact fun p member => small p (List.mem_cons_of_mem _ member)
  · rw [List.length_append] at short
    omega

/-- The parts that `NoiseGrpcConn` has still to hand out. -/
def NoiseGrpcConn.Left (suite : Suite Point Key) (c : NoiseGrpcConn Point Key) (pieces : List Bytes) : Prop :=
  ∃ records, Feeding suite c.noise c.proxyConn records ∧
    pieces = (if 0 < c.nextMsg.length then [c.nextMsg] else []) ++ records.flatMap parts

theorem NoiseGrpcConn.read_piece (lawful : suite.AeadLawful) (c : NoiseGrpcConn Point Key) (piece : Bytes)
    (later : List Bytes) (b : Bytes) (left : c.Left suite (piece :: later)) :
    (c.read suite b).n = piece.length ∧ (c.read suite b).buffer = overwrite b piece ∧
      (c.read suite b).next.Left suite later := by
  obtain ⟨records,feeding,pieces⟩ := left
  unfold NoiseGrpcConn.read
  by_cases saved : 0 < c.nextMsg.length
  · simp only [if_pos saved,List.singleton_append,List.cons.injEq] at pieces ⊢
    obtain ⟨rfl,rfl⟩ := pieces
    exact ⟨rfl,rfl,records,feeding,rfl⟩
  · simp only [if_neg saved,List.nil_append] at pieces ⊢
    cases records with
    | nil => cases pieces
    | cons record records =>
      obtain ⟨noise,proxyConn,read,fed⟩ := feeding.next lawful
      rw [List.flatMap_cons,parts] at pieces
      simp only [read]
      by_cases large : defaultGrpcWriteBufSize < record.length
      · simp only [if_pos large,List.cons_append,List.nil_append,List.cons.injEq] at pieces ⊢
        obtain ⟨rfl,rfl⟩ := pieces
        have rest : 0 < (record.drop defaultGrpcWriteBufSize).length := by
          rw [List.length_drop]
          omega
        refine ⟨?_,rfl,records,fed,?_⟩
        · rw [List.length_take,Nat.min_eq_left (Nat.le_of_lt large)]
        · simp only [if_pos rest,List.singleton_append]
      · simp only [if_neg large,List.singleton_append,List.cons.injEq] at pieces ⊢
        obtain ⟨rfl,rfl⟩ := pieces
        refine ⟨rfl,rfl,records,fed,?_⟩
        simp only [if_neg saved,List.nil_append]

theorem NoiseGrpcConn.read_done (c : NoiseGrpcConn Point Key) (b : Bytes) (left : c.Left suite []) :
    (c.read suite b).n = 0 ∧ (c.read suite b).next.Left suite [] := by
  obtain ⟨records,feeding,pieces⟩ := left
  obtain ⟨saved,used⟩ := List.append_eq_nil_iff.mp pieces.symm
  have none : ¬ 0 < c.nextMsg.length := by
    intro some
    rw [if_pos some] at saved
    cases saved
  have empty : records = [] := by
    cases records with
    | nil => rfl
    | cons record records =>
      rw [List.flatMap_cons,parts] at used
      split_ifs at used <;> cases used
  subst empty
  obtain ⟨err,noise,proxyConn,read,feeding⟩ := feeding.done
  unfold NoiseGrpcConn.read
  simp only [if_neg none,read]
  exact ⟨trivial,[],feeding,by simp only [if_neg none]; rfl⟩

theorem NoiseGrpcConn.piecewise (lawful : suite.AeadLawful) :
    Piecewise (NoiseGrpcConn.read suite) (NoiseGrpcConn.Left suite : NoiseGrpcConn Point Key → List Bytes → Prop) :=
  ⟨NoiseGrpcConn.read_piece lawful,NoiseGrpcConn.read_done⟩

/-- The bytes that `NoiseConn` has still to hand out. -/
def NoiseConn.Left (suite : Suite Point Key) (c : NoiseConn Point Key) (stream : Bytes) : Prop :=
  ∃ records, Feeding suite c.noise c.conn records ∧ stream = c.readBuf ++ records.flatten

theorem NoiseConn.readBuffered_left (c : NoiseConn Point Key) (b stream : Bytes) (left : c.Left suite stream) :
    (c.readBuffered b).n ≤ (c.readBuffered b).buffer.length ∧
      ∃ rest, stream = (c.readBuffered b).buffer.take (c.readBuffered b).n ++ rest ∧
        (c.readBuffered b).next.Left suite rest := by
  obtain ⟨records,feeding,rfl⟩ := left
  unfold NoiseConn.readBuffered
  split_ifs with empty
  · exact ⟨Nat.zero_le _,_,rfl,records,feeding,rfl⟩
  · exact ⟨Nat.zero_le _,_,rfl,records,feeding,rfl⟩
  · refine ⟨?_,c.readBuf.drop (min b.length c.readBuf.length) ++ records.flatten,?_,records,feeding,rfl⟩
    · rw [overwrite_length]
      exact Nat.min_le_left _ _
    · rw [take_overwrite b c.readBuf _ (Nat.min_le_left _ _) (Nat.min_le_right _ _),← List.append_assoc,
        List.take_append_drop]

theorem NoiseConn.read_left (lawful : suite.AeadLawful) (c : NoiseConn Point Key) (stream b : Bytes)
    (left : c.Left suite stream) :
    (c.read suite b).n ≤ (c.read suite b).buffer.length ∧
      ∃ rest, stream = (c.read suite b).buffer.take (c.read suite b).n ++ rest ∧
        (c.read suite b).next.Left suite rest := by
  unfold NoiseConn.read
  by_cases empty : c.readBuf.length = 0
  · rw [if_pos empty]
    obtain ⟨records,feeding,rfl⟩ := left
    cases records with
    | nil =>
      obtain ⟨err,noise,conn,read,feeding⟩ := feeding.done
      simp only [read]
      exact ⟨Nat.zero_le _,_,rfl,[],feeding,rfl⟩
    | cons record records =>
      obtain ⟨noise,conn,read,feeding⟩ := feeding.next lawful
      simp only [read]
      refine NoiseConn.readBuffered_left _ b _ ⟨records,feeding,?_⟩
      rw [List.flatten_cons,List.append_assoc]
  · rw [if_neg empty]
    exact c.readBuffered_left b stream left

/-- Both connections get the records of a peer. `NoiseConn` honours the contract of a
reader for every sequence of buffers, `NoiseGrpcConn` exactly if every buffer has room for
the part that is next. -/
theorem grpcConn_read_contract_iff (lawful : suite.AeadLawful) (noise peer : Machine Point Key)
    (inStep : peer.sendCipher.InStep noise.recvCipher) (records : List Bytes)
    (small : ∀ record ∈ records, record.length ≤ MaxUint16) (cuts : List Nat) (buffers : List Bytes) :
    let incoming : Reader := ⟨(sealFrames suite peer.sendCipher records).1,cuts⟩
    ReaderContract records.flatten (answers (NoiseConn.read suite) ⟨noise,incoming,[]⟩ buffers) ∧
    (ReaderContract records.flatten (answers (NoiseGrpcConn.read suite) ⟨noise,incoming,[]⟩ buffers) ↔
      ∀ call ∈ (records.flatMap parts).zip buffers, call.1.length ≤ call.2.length) := by
  intro incoming
  have feeding : Feeding suite noise incoming records := ⟨⟨_,inStep,rfl⟩,small⟩
  constructor
  · exact ReaderContract.of_step (NoiseConn.read_left lawful) buffers _ _ ⟨records,feeding,rfl⟩
  · rw [← flatMap_parts_flatten]
    exact (NoiseGrpcConn.piecewise lawful).contract_iff buffers _ _ ⟨records,feeding,rfl⟩

theorem plain_inStep : plainServer.sendCipher.InStep plainClient.recvCipher :=
  ⟨rfl,by decide +kernel,by decide +kernel⟩

/-- A record of three bytes, read with a buffer of two: the count exceeds the buffer, and
the third byte is lost. -/
theorem grpcConn_read_exceeds_buffer :
    let incoming : Reader := ⟨(sealFrames plainSuite plainServer.sendCipher [[1,2,3]]).1,[]⟩
    let given := answers (NoiseGrpcConn.read plainSuite) ⟨plainClient,incoming,[]⟩ [[0,0],[0,0]]
    plainServer.sendCipher.InStep plainClient.recvCipher ∧
      given.map (fun answer => (answer.n,answer.buffer)) = [(3,[1,2]),(0,[0,0])] ∧ ¬ ReaderContract [1,2,3] given := by
  intro incoming given
  have returned : given.map (fun answer => (answer.n,answer.buffer)) = [(3,[1,2]),(0,[0,0])] := by decide +kernel
  refine ⟨plain_inStep,returned,?_⟩
  intro contract
  have first : (3,[1,2]) ∈ given.map fun answer => (answer.n,answer.buffer) := by
    rw [returned]
    exact List.mem_cons_self
  obtain ⟨answer,member,same⟩ := List.mem_map.mp first
  obtain ⟨count,buffer⟩ := Prod.mk.inj same
  have bounded := contract.bounded answer member
  rw [count,buffer] at bounded
  exact absurd bounded (by decide)

theorem grpcConn_read_contract_roomy :
    plainServer.sendCipher.InStep plainClient.recvCipher ∧ ∀ cuts,
      let incoming : Reader := ⟨(sealFrames plainSuite plainServer.sendCipher [[1,2,3],[],[4]]).1,cuts⟩
      ReaderContract [1,2,3,4] (answers (NoiseConn.read plainSuite) ⟨plainClient,incoming,[]⟩ [[0,0,0],[],[0,0],[0]]) ∧
      ReaderContract [1,2,3,4]
        (answers (NoiseGrpcConn.read plainSuite) ⟨plainClient,incoming,[]⟩ [[0,0,0],[],[0,0],[0]]) := by
  refine ⟨plain_inStep,fun cuts => ?_⟩
  obtain ⟨plain,grpc⟩ := grpcConn_read_contract_iff plainSuite_lawful.toAeadLawful plainClient plainServer plain_inStep
    [[1,2,3],[],[4]] (by decide) cuts [[0,0,0],[],[0,0],[0]]
  exact ⟨plain,grpc.mpr (by decide)⟩

end NodeConnect.Noise
