import NodeConnect.EndToEnd.Delivery

/-! Nothing that was written gets stuck. From every state that the two sides can be in,
whatever was lost before and wherever the calls and the loops are, they can go on without
writing or losing anything more until each side has read all that the other one wrote. -/
namespace NodeConnect.EndToEnd
open Lib Noise
open Gbn (Net Side Endpoint PacketData body Recovers)
open Mailbox (IntSize Fits)

variable {Point Key : Type} {suite : Suite Point Key} {size : IntSize}

/-- The calls of `Read` use the buffer `b`. -/
def Event.Completes (b : Bytes) : Event → Prop
  | .net event => event.Recovery
  | .write _ _ => False
  | .read _ buffer => buffer = b
  | .flush _ | .recv _ | .readSome _ => True

abbrev Completing (suite : Suite Point Key) (size : IntSize) (b : Bytes) (s final : Pair Point Key) : Prop :=
  Leads (Pair.step suite size) (Event.Completes b) s final

section Reading

/-- What a reader does without the layers below: it begins a `Read`, or copies from what is buffered. -/
def Conn.readStep (suite : Suite Point Key) (size : IntSize) (b : Bytes) (c : Conn Point Key) : Bool → Option (Conn Point Key)
  | true => c.read b
  | false => c.readSome suite size

variable {start : CipherState} {c : Conn Point Key} {rcv : Endpoint} {front records later : List Bytes} {unread part : Bytes}

theorem readSome_enabled (suite : Suite Point Key) {b : Bytes} {place : Place} (reading : c.reading = some (b,place))
    (short : place.got.length < place.need) (holds : c.stream.Holds size unread) (some_ : unread ≠ []) :
    ∃ next, c.readSome suite size = some next := by
  have room : List.replicate (place.need - place.got.length) (0 : UInt8) ≠ [] := by
    rw [ne_eq,List.replicate_eq_nil_iff]
    omega
  cases answered : c.stream.read size (List.replicate (place.need - place.got.length) 0) with
  | none => exact absurd ((Mailbox.Direction.read_eq_none_iff holds room).mp answered) some_
  | some result =>
    obtain ⟨given,stream⟩ := result
    simp only [Conn.readSome,reading,answered]
    split
    · exact ⟨_,rfl⟩
    · split_ifs <;> exact ⟨_,rfl⟩

/-- At most two calls get a `Read` under way: the first one may return what was left of a record. -/
theorem Incoming.begun (incoming : Incoming suite size start c rcv front unread records later part) (b : Bytes) :
    ∃ c', Leads (Conn.readStep suite size b) (fun _ => True) c c' ∧ c'.reading ≠ none ∧
      Incoming suite size start c' rcv front unread records later part := by
  have fresh {d : Conn Point Key} (incoming : Incoming suite size start d rcv front unread records later part)
      (idle : d.reading = none) (free : ¬ 0 < d.nextMsg.length) :
      ∃ c', Leads (Conn.readStep suite size b) (fun _ => True) d c' ∧ c'.reading ≠ none ∧
        Incoming suite size start c' rcv front unread records later part := by
    have began : d.read b = some {d with reading := some (b,{})} := by simp only [Conn.read,idle,if_neg free]
    exact ⟨_,.single true trivial began,by simp,incoming.read began⟩
  cases busy : c.reading with
  | some reading => exact ⟨c,.refl c,by simp [busy],incoming⟩
  | none =>
    by_cases saved : 0 < c.nextMsg.length
    · let answered := {c with nextMsg := []}.answer b ⟨c.nextMsg.length,none,overwrite b c.nextMsg⟩
      have began : c.read b = some answered := by simp only [Conn.read,busy,if_pos saved,answered]
      obtain ⟨c',leads,reading,incoming⟩ := fresh (incoming.read began) rfl (Nat.lt_irrefl 0)
      exact ⟨c',.cons true trivial began leads,reading,incoming⟩
    · exact fresh incoming busy saved

theorem At.short {recvCipher : CipherState} {b : Bytes} {place : Place}
    (at_ : At suite start later recvCipher (some (b,place)) part) : place.got.length < place.need := by
  cases at_ with
  | header _ _ short _ => exact short
  | body _ _ _ _ _ short _ => exact short

/-- A reader can copy and open all that is buffered, and then waits for more. -/
theorem Incoming.dries (lawful : suite.AeadLawful) (incoming : Incoming suite size start c rcv front unread records later part)
    (begins : front.flatten <+: (sealFrames suite start (records ++ later)).1)
    (small : ∀ p ∈ records ++ later, p.length ≤ MaxUint16) (b : Bytes) :
    ∃ c' records' later' part', Leads (Conn.readStep suite size b) (fun _ => True) c c' ∧ c'.reading ≠ none ∧
      records' ++ later' = records ++ later ∧ Incoming suite size start c' rcv front [] records' later' part' := by
  induction length : unread.length using Nat.strongRecOn generalizing c unread records later part with
  | ind bound ih =>
    obtain ⟨c1,first,reading,incoming⟩ := incoming.begun b
    by_cases dry : unread = []
    · subst dry
      exact ⟨c1,records,later,part,first,reading,rfl,incoming⟩
    · obtain ⟨⟨b',place⟩,busy⟩ := Option.ne_none_iff_exists'.mp reading
      have at_ := incoming.place
      rw [busy] at at_
      obtain ⟨c2,copied⟩ := readSome_enabled suite busy at_.short incoming.holds dry
      obtain ⟨unread',records',later',part',split,fewer,incoming⟩ := incoming.readSome lawful begins
        (fun p member => small p (List.mem_append_right _ member)) copied
      rw [← split] at begins small
      obtain ⟨c3,records3,later3,part3,rest,reading,same,incoming⟩ := ih _ (length ▸ fewer) incoming begins small rfl
      exact ⟨c3,records3,later3,part3,first.trans (.cons false trivial copied rest),reading,same.trans split,incoming⟩

end Reading

section Following

variable {n : UInt8} {start : Side → CipherState} {s : Pair Point Key}

theorem holds_dry {d : Mailbox.Direction} (holds : d.Holds size []) : d.peer.recvBuffer = [] ∧ d.gbn = [] := by
  obtain ⟨payloads,fit,gbn,nothing⟩ := holds
  obtain ⟨buffer,rest⟩ := List.append_eq_nil_iff.mp nothing.symm
  refine ⟨buffer,?_⟩
  cases payloads with
  | nil => exact gbn
  | cons payload payloads =>
    rw [List.flatten_cons] at rest
    exact absurd (List.append_eq_nil_iff.mp rest).1 (fit payload List.mem_cons_self).1

theorem Pair.reads (s : Pair Point Key) (side : Side) {b : Bytes} {c : Conn Point Key}
    (leads : Leads (Conn.readStep suite size b) (fun _ => True) (s.conns side) c) :
    Completing suite size b s (s.put side c) := by
  have lifted : Completing suite size b (s.put side (s.conns side)) (s.put side c) := by
    refine leads.lift (s.put side) (fun begins => cond begins (.read side b) (.readSome side)) ?_ ?_
    · intro begins
      cases begins <;> simp [Event.Completes]
    · intro c begins c' moved
      cases begins with
      | true => simp [Pair.step,Pair.put,show c.read b = some c' from moved]
      | false => simp [Pair.step,Pair.put,show c.readSome suite size = some c' from moved]
  simpa [Pair.put] using lifted

/-- What the sides have written and what of it is pending. -/
def Pair.SameWrites (s s' : Pair Point Key) : Prop := ∀ x, (s'.conns x).sending = (s.conns x).sending

/-- One side can read all that has arrived. -/
theorem Pair.Sound.dry (lawful : suite.AeadLawful) (positive : 1 ≤ n.toNat) (sound : s.Sound suite size n start) (side : Side)
    (b : Bytes) : ∃ s', Completing suite size b s s' ∧ s'.net = s.net ∧ s'.Sound suite size n start ∧ s.SameWrites s' ∧
      (s'.conns side).reading ≠ none ∧ (s'.conns side).stream.Holds size [] ∧ s'.conns side.other = s.conns side.other := by
  obtain ⟨front,back,unread,records,later,part,outgoing,written,incoming⟩ := sound.opposite side
  obtain ⟨c,_,_,_,leads,reading,_,incoming⟩ := incoming.dries lawful (Flows.begins outgoing written)
    (fun p member => outgoing.sent.small p (written ▸ member)) b
  have kept : c.sending = (s.conns side).sending := by
    refine Leads.relates (fun c c' : Conn Point Key => c'.sending = c.sending) (fun _ => rfl)
      (fun _ _ _ first second => second.trans first) ?_ leads
    intro c kind c' _ moved
    cases kind with
    | true => exact read_half moved
    | false => exact readSome_half moved
  have leads := s.reads side leads
  refine ⟨s.put side c,leads,rfl,?_,Side.forall_of_both side ?_ ?_,?_,?_,?_⟩
  · exact leads.invariant (Pair.Sound suite size n start)
      (fun s event next sound _ stepped => Pair.step_sound lawful positive s event next sound stepped) sound
  · simpa [Pair.put] using kept
  · simp [Pair.put,side.other_ne]
  · simpa [Pair.put] using reading
  · simpa [Pair.put] using incoming.holds
  · simp [Pair.put,side.other_ne]

/-- A packet that waits for the application can be received. -/
theorem Pair.Sound.drains (lawful : suite.AeadLawful) (positive : 1 ≤ n.toNat) (sound : s.Sound suite size n start)
    (side : Side)
    (b : Bytes) {net : Net} (drained : s.net.step (.drain side) = some net) :
    ∃ s', Completing suite size b s s' ∧ s'.net = net ∧ s'.Sound suite size n start ∧ s.SameWrites s' := by
  obtain ⟨s1,leads,same,sound,writes,reading,holds,_⟩ := sound.dry lawful positive side b
  obtain ⟨buffer,gbn⟩ := holds_dry holds
  rw [← same] at drained
  cases queued : (s1.net.ends side).recvDataChan with
  | nil => simp [Net.step,queued] at drained
  | cons msg rest =>
    obtain ⟨c,received⟩ : ∃ c, (s1.conns side).recv msg = some c := by
      unfold Conn.recv
      rw [if_pos ⟨Option.isSome_iff_ne_none.mpr reading,buffer,gbn⟩]
      dsimp only
      split_ifs <;> exact ⟨_,rfl⟩
    have stepped : s1.step suite size (.recv side) = some (Pair.put {s1 with net} side c) := by
      simp [Pair.step,queued,received,drained]
    refine ⟨_,leads.trans (.single (.recv side) trivial stepped),rfl,Pair.step_sound lawful positive _ _ _ sound stepped,?_⟩
    refine Side.forall_of_both side ?_ ?_
    · simpa [Pair.put,recv_half received] using writes side
    · simpa [Pair.put,side.other_ne] using writes side.other

/-- The layers above let the go-back-N connections recover in any way they can. -/
theorem Pair.follows (lawful : suite.AeadLawful) (positive : 1 ≤ n.toNat) (sound : s.Sound suite size n start) (b : Bytes)
    {net : Net} (recovers : Recovers s.net net) :
    ∃ s', Completing suite size b s s' ∧ s'.net = net ∧ s'.Sound suite size n start ∧ s.SameWrites s' := by
  refine Leads.relates (fun net net' : Net => ∀ s : Pair Point Key, s.net = net → s.Sound suite size n start →
    ∃ s', Completing suite size b s s' ∧ s'.net = net' ∧ s'.Sound suite size n start ∧ s.SameWrites s')
    ?_ ?_ ?_ recovers s rfl sound
  · intro net s same sound
    exact ⟨s,.refl s,same,sound,fun _ => rfl⟩
  · intro net1 net2 net3 first second s same sound
    obtain ⟨s2,leads,same,sound,writes⟩ := first s same sound
    obtain ⟨s3,rest,same,sound,writes'⟩ := second s2 same sound
    exact ⟨s3,leads.trans rest,same,sound,fun x => (writes' x).trans (writes x)⟩
  · intro net event net' allowed stepped s same sound
    subst same
    have internal (inside : below event = true) :
        ∃ s', Completing suite size b s s' ∧ s'.net = net' ∧ s'.Sound suite size n start ∧ s.SameWrites s' := by
      have moved : s.step suite size (.net event) = some {s with net := net'} := by simp [Pair.step,inside,stepped]
      exact ⟨_,.single (.net event) allowed moved,rfl,Pair.step_sound lawful positive _ _ _ sound moved,fun _ => rfl⟩
    cases event with
    | drain side => exact sound.drains lawful positive side b stepped
    | send side action =>
      cases action with
      | take payload finalChunk => exact allowed.elim
      | _ => exact internal rfl
    | _ => exact internal rfl

end Following

section Completing

variable {n : UInt8} {start : Side → CipherState} {s : Pair Point Key}

/-- A connection can be brought to where `Send` is accepted. -/
theorem Net.Live.selects {net : Net} (live : net.Live n) (positive : 1 ≤ n.toNat) (x : Side) :
    ∃ net', Recovers net net' ∧ (net'.ends x).sendLoop = .select := by
  obtain ⟨settled,first,⟨base,held,tags,settling⟩,quiet⟩ := live.settled positive
  have empty := (settling.done quiet x trivial).2
  have window : 1 ≤ (settled.ends x).n.toNat := (settling.sound.sender x).window ▸ positive
  exact ⟨_,first.trans (settled.unpark x (quiet x).2.2 empty window),by rw [Net.update_ends]⟩

/-- The halves of frames that `Flush` has still to write. -/
def Conn.halves (c : Conn Point Key) : Nat :=
  (if 0 < c.noise.nextHeaderSend.length then 1 else 0) + if 0 < c.noise.nextBodySend.length then 1 else 0

theorem nextWrite_halves {c : Conn Point Key} {bytes : Bytes} {noise : Machine Point Key}
    (next : Conn.nextWrite c.noise = some (bytes,noise)) : ({c with noise} : Conn Point Key).halves < c.halves := by
  unfold Conn.nextWrite at next
  unfold Conn.halves
  split_ifs at next with header body
  · cases Option.some.inj next
    simp [header]
  · cases Option.some.inj next
    simp [header,body]

theorem halves_eq {c c' : Conn Point Key} (same : c'.sending = c.sending) : c'.halves = c.halves := by
  simp only [Conn.sending,Prod.mk.injEq] at same
  simp only [Conn.halves,same]

theorem nextWrite_none {b : Machine Point Key} (none_ : Conn.nextWrite b = none) : b.pending = [] := by
  unfold Conn.nextWrite at none_
  split_ifs at none_ with header body
  rw [Machine.pending,List.eq_nil_of_length_eq_zero (Nat.eq_zero_of_not_pos header),
    List.eq_nil_of_length_eq_zero (Nat.eq_zero_of_not_pos body)]
  rfl

/-- Every `Write` can return. -/
theorem Pair.Sound.flushes (lawful : suite.AeadLawful) (positive : 1 ≤ n.toNat) (sound : s.Sound suite size n start)
    (b : Bytes) :
    ∃ s', Completing suite size b s s' ∧ s'.Sound suite size n start ∧ ∀ x, (s'.conns x).noise.pending = [] := by
  refine Leads.descend (Pair.Sound suite size n start) (fun s => ∀ x, (s.conns x).noise.pending = [])
    (fun s => (s.conns .client).halves + (s.conns .server).halves) ?_ s sound
  intro s sound busy
  obtain ⟨side,pending⟩ := not_forall.mp busy
  obtain ⟨net,recovers,ready⟩ := Net.Live.selects sound.net positive side
  obtain ⟨s1,leads,rfl,sound,writes⟩ := Pair.follows lawful positive sound b recovers
  have pending : (s1.conns side).noise.pending ≠ [] := by
    have same := writes side
    simp only [Conn.sending,Prod.mk.injEq] at same
    rw [Machine.pending,same.2.2.1,same.2.2.2]
    exact pending
  cases next : Conn.nextWrite (s1.conns side).noise with
  | none => exact absurd (nextWrite_none next) pending
  | some result =>
    obtain ⟨bytes,noise⟩ := result
    obtain ⟨net',taken⟩ : ∃ net', s1.net.step (.send side (.take (control bytes) true)) = some net' := by
      simp [Net.step,Endpoint.sendStep,ready]
    have stepped : s1.step suite size (.flush side) = some (Pair.put {s1 with net := net'} side {s1.conns side with noise}) := by
      simp [Pair.step,next,taken]
    refine ⟨_,leads.trans (.single (.flush side) trivial stepped),Pair.step_sound lawful positive _ _ _ sound stepped,?_⟩
    have fewer := nextWrite_halves next
    have own := halves_eq (writes side)
    have opposite := halves_eq (writes side.other)
    rw [Gbn.Side.sum_eq (fun x => (s.conns x).halves) side,
      Gbn.Side.sum_eq (fun x => ((Pair.put {s1 with net := net'} side {s1.conns side with noise}).conns x).halves) side]
    simp only [Pair.put,Function.update_self,Function.update_of_ne side.other_ne]
    omega

/-- A reader that has read all that was sent, and waits, is between two records. -/
theorem Flows.complete (lawful : suite.AeadLawful) {start : CipherState} {c d : Conn Point Key} {snd rcv : Endpoint}
    (flows : Flows suite size start c d snd rcv) (all : rcv.handed.map body = snd.taken.map body)
    (drained : rcv.recvDataChan = []) (out : c.noise.pending = []) (reading : d.reading ≠ none)
    (dry : d.stream.peer.recvBuffer = [] ∧ d.stream.gbn = []) :
    List.Forall₂ Answered d.answers (c.written.flatMap parts) := by
  obtain ⟨front,back,unread,records,later,part,outgoing,written,handed,whole,holds,bytes,place,returned⟩ := flows
  have frames := outgoing.sent.frames
  rw [handed,drained,outgoing.taken,List.map_append] at all
  have none_ : back = [] := List.map_eq_nil_iff.mp (List.append_cancel_left all).symm
  have read : unread = [] := by
    obtain ⟨payloads,_,gbn,unread_⟩ := holds
    rw [dry.2] at gbn
    rw [unread_,dry.1,List.map_eq_nil_iff.mp gbn.symm]
    rfl
  subst none_ read
  dsimp only at frames
  rw [List.append_nil,out,bytes,written,sealFrames_append,List.append_nil,List.append_nil] at frames
  have left : part = (sealFrames suite (sealFrames suite start records).2 later).1 := List.append_cancel_left frames
  have length (p : Bytes) (behind : List Bytes) : p.length + 34 ≤
      (sealFrames suite (sealFrames suite start records).2 (p :: behind)).1.length := by
    simp only [sealFrames,List.length_append,sealFrame_length lawful]
    omega
  have none_ : later = [] := by
    cases later with
    | nil => rfl
    | cons p behind =>
      have enough := length p behind
      rw [← left] at enough
      generalize d.reading = place_ at place reading
      cases place with
      | idle => exact absurd rfl reading
      | header _ _ short _ =>
        unfold macSize at short
        omega
      | body _ got _ _ next short _ =>
        cases next
        rw [List.length_append,encrypt_length lawful,bigEndian_length] at enough
        unfold macSize at enough short
        omega
  obtain ⟨done,answered,pieces⟩ := returned.pieces
  rw [returned.settled reading] at pieces
  rw [written,none_,List.append_nil,pieces]
  simpa using answered

/-- What a step of a continuation does to one end. -/
inductive Moves (suite : Suite Point Key) (size : IntSize) (b : Bytes) (c : Conn Point Key) : Conn Point Key → Prop
  | stays : Moves suite size b c c
  | flushes {bytes : Bytes} {noise : Machine Point Key} (next : Conn.nextWrite c.noise = some (bytes,noise)) :
    Moves suite size b c {c with noise}
  | reads {c' : Conn Point Key} (began : c.read b = some c') : Moves suite size b c c'
  | receives {c' : Conn Point Key} {msg : PacketData} (taken : c.recv msg = some c') : Moves suite size b c c'
  | copies {c' : Conn Point Key} (copied : c.readSome suite size = some c') : Moves suite size b c c'

theorem Moves.written {b : Bytes} {c c' : Conn Point Key} (moves : Moves suite size b c c') : c'.written = c.written := by
  cases moves with
  | stays | flushes => rfl
  | reads began => exact congrArg Prod.fst (read_half began)
  | receives taken => exact congrArg Prod.fst (recv_half taken)
  | copies copied => exact congrArg Prod.fst (readSome_half copied)

/-- The buffers that were given to `Read`, the one of the call in progress included. -/
def Conn.buffers (c : Conn Point Key) : List Bytes := c.answers.map Prod.fst ++ (c.reading.map Prod.fst).toList

section Buffers

variable {c c' : Conn Point Key} {b : Bytes}

theorem answer_buffers {place : Place} (reading : c.reading = some (b,place)) (given : Pipe.Answer ReadError) :
    (c.answer b given).buffers = c.buffers := by
  simp [Conn.buffers,Conn.answer,reading]

theorem read_buffers (began : c.read b = some c') : c'.buffers = c.buffers ++ [b] := by
  unfold Conn.read at began
  split at began
  · cases began
  · rename_i idle
    split_ifs at began <;> cases Option.some.inj began <;> simp [Conn.buffers,Conn.answer,idle]

theorem decrypted_buffers {place : Place} (reading : c.reading = some (b,place)) (inBody : Bool) (buf : Bytes) :
    (c.decrypted suite b inBody buf).buffers = c.buffers := by
  unfold Conn.decrypted
  split
  · exact answer_buffers reading _
  · dsimp only
    split_ifs
    · unfold Conn.finish
      split_ifs <;> exact answer_buffers reading _
    · simp [Conn.buffers,reading]

theorem readSome_buffers (stepped : c.readSome suite size = some c') : c'.buffers = c.buffers := by
  unfold Conn.readSome at stepped
  split at stepped
  · cases stepped
  · rename_i b place reading
    split at stepped
    · cases stepped
    · rename_i given stream _
      dsimp only at stepped
      split at stepped
      · cases Option.some.inj stepped
        exact answer_buffers reading _
      · split_ifs at stepped
        · cases Option.some.inj stepped
          simp [Conn.buffers,reading]
        · cases Option.some.inj stepped
          exact decrypted_buffers (c := {c with stream}) reading _ _

theorem recv_buffers {msg : PacketData} (taken : c.recv msg = some c') : c'.buffers = c.buffers := by
  unfold Conn.recv at taken
  dsimp only at taken
  split_ifs at taken <;> cases Option.some.inj taken <;> rfl

theorem Moves.buffers (moves : Moves suite size b c c') : c'.buffers ⊆ b :: c.buffers := by
  have kept (same : c'.buffers = c.buffers) : c'.buffers ⊆ b :: c.buffers := same ▸ List.subset_cons_self _ _
  cases moves with
  | stays | flushes => exact kept rfl
  | reads began =>
    rw [read_buffers began]
    simp
  | receives taken => exact kept (recv_buffers taken)
  | copies copied => exact kept (readSome_buffers copied)

end Buffers

end Completing

end NodeConnect.EndToEnd
