import NodeConnect.Noise.Transport

/-! What `Flush` counts. A message is buffered as a header of 18 bytes and a body that ends
in a MAC; over any sequence of interrupted writes the counts add up to the plaintext bytes
among those that are on the wire. -/
namespace NodeConnect.Noise
open Lib

variable {Point Key : Type}

/-- The plaintext bytes among the first `written` bytes of the frame of a message. -/
def payloadWithin (size written : Nat) : Nat := min size (written - 18)

namespace Machine

/-- The results of successive calls of `Flush`, and the machine that they leave. -/
def flushes (b : Machine Point Key) : List (WriteOutcome × WriteOutcome) → List (Flushed Point Key) × Machine Point Key
  | [] => ([],b)
  | (header,body) :: later =>
    let flushed := b.flush header body
    let rest := flushed.machine.flushes later
    (flushed :: rest.1,rest.2)

/-- All but the first `written` bytes of the frame of a message are still pending. -/
structure Filling (size written : Nat) (b : Machine Point Key) : Prop where
  header : b.nextHeaderSend.length = 18 - written
  body : b.nextBodySend.length = size + macSize - (written - 18)
  within : written ≤ size + 34

variable {b : Machine Point Key} {size written : Nat}

theorem pending_nil (idle : b.pending = []) : b.nextHeaderSend = [] ∧ b.nextBodySend = [] :=
  List.append_eq_nil_iff.mp idle

theorem flush_idle (idle : b.pending = []) (header body : WriteOutcome) : b.flush header body = ⟨0,none,[],b⟩ := by
  obtain ⟨noHeader,noBody⟩ := pending_nil idle
  cases b
  simp_all [flush]

/-- The three cases of the count: across the border of the MAC, before it and behind it. -/
theorem payloadCount_eq (size n : Nat) (rest : Bytes) (k : Nat) (left : n + rest.length = size + macSize - k)
    (within : k ≤ size + macSize) :
    payloadCount n rest = (min size (k + n) : Nat) - (min size k : Nat) := by
  unfold payloadCount
  unfold macSize at left within ⊢
  dsimp only
  split_ifs <;> omega

theorem Filling.flush (filling : b.Filling size written) (header body : WriteOutcome) :
    (b.flush header body).machine.Filling size (written + (b.flush header body).written.length) ∧
      (b.flush header body).count =
        payloadWithin size (written + (b.flush header body).written.length) - payloadWithin size written := by
  obtain ⟨headerLeft,bodyLeft,within⟩ := filling
  unfold macSize at bodyLeft
  have taken : header.count b.nextHeaderSend ≤ b.nextHeaderSend.length := Nat.min_le_right _ _
  unfold Machine.flush
  dsimp only
  split
  next err failed =>
    -- The header is not out yet, so no byte of the body is.
    have more : 0 < b.nextHeaderSend.length := by
      by_contra none
      simp [none] at failed
    simp only [List.length_take,Nat.min_eq_left taken,payloadWithin]
    refine ⟨⟨?_,?_,?_⟩,?_⟩
    · simp only [List.length_drop]
      omega
    · unfold macSize
      simp only
      omega
    · omega
    · omega
  next succeeded =>
    have whole : b.nextHeaderSend.length ≤ header.count b.nextHeaderSend := by
      split_ifs at succeeded with some
      · exact WriteOutcome.err_none succeeded
      · omega
    have all : header.count b.nextHeaderSend = b.nextHeaderSend.length := Nat.le_antisymm taken whole
    rw [all,List.take_length,List.drop_length]
    split_ifs with more
    · have part : body.count b.nextBodySend ≤ b.nextBodySend.length := Nat.min_le_right _ _
      simp only [List.length_append,List.length_take,Nat.min_eq_left part]
      refine ⟨⟨?_,?_,?_⟩,?_⟩
      · simp only [List.length_nil]
        omega
      · unfold macSize
        simp only [List.length_drop]
        omega
      · omega
      · rw [payloadCount_eq size _ _ (written - 18) (by unfold macSize; rw [List.length_drop]; omega)
          (by unfold macSize; omega)]
        unfold payloadWithin
        congr 2
        congr 1
        omega
    · simp only [payloadWithin]
      refine ⟨⟨?_,?_,?_⟩,?_⟩
      · simp only [List.length_nil]
        omega
      · unfold macSize
        simp only
        omega
      · omega
      · omega

theorem flush_succeeds {header body : WriteOutcome} (succeeded : (b.flush header body).err = none) :
    (b.flush header body).machine.pending = [] := by
  revert succeeded
  unfold Machine.flush
  dsimp only
  split
  next err failed => nofun
  next out =>
    have whole : b.nextHeaderSend.length ≤ header.count b.nextHeaderSend := by
      split_ifs at out with some
      · exact WriteOutcome.err_none out
      · omega
    split_ifs with more
    · intro succeeded
      rw [pending,List.drop_of_length_le whole,List.drop_of_length_le (WriteOutcome.err_none succeeded)]
      rfl
    · intro _
      have noBody : b.nextBodySend = [] := List.eq_nil_of_length_eq_zero (by omega)
      rw [pending,List.drop_of_length_le whole,List.nil_append]
      exact noBody

theorem Filling.done (filling : b.Filling size written) (flushed : b.pending = []) :
    payloadWithin size written = size ∧ written = size + 34 := by
  have left := filling.body
  rw [(pending_nil flushed).2,List.length_nil] at left
  have within := filling.within
  unfold macSize at left
  unfold payloadWithin
  omega

theorem Filling.flushes (filling : b.Filling size written) (outcomes : List (WriteOutcome × WriteOutcome)) :
    let results := (b.flushes outcomes).1
    let sent := (results.map (·.written)).flatten.length
    (b.flushes outcomes).2.Filling size (written + sent) ∧ (∀ flushed ∈ results, 0 ≤ flushed.count) ∧
      (results.map (·.count)).sum = payloadWithin size (written + sent) - payloadWithin size written := by
  induction outcomes generalizing b written with
  | nil =>
    simp only [Machine.flushes,List.map_nil,List.flatten_nil,List.length_nil,Nat.add_zero,List.sum_nil,Int.sub_self]
    exact ⟨filling,by simp,trivial⟩
  | cons outcome later ih =>
    obtain ⟨header,body⟩ := outcome
    obtain ⟨next,count⟩ := filling.flush header body
    obtain ⟨last,positive,sum⟩ := ih next
    simp only [Machine.flushes,List.map_cons,List.flatten_cons,List.length_append,List.sum_cons,← Nat.add_assoc]
    refine ⟨last,?_,?_⟩
    · intro flushed member
      rcases List.mem_cons.mp member with rfl | member
      · rw [count]
        unfold payloadWithin
        omega
      · exact positive flushed member
    · rw [sum,count]
      omega

theorem flushes_moves (b : Machine Point Key) (outcomes : List (WriteOutcome × WriteOutcome)) :
    ((b.flushes outcomes).1.map (·.written)).flatten ++ (b.flushes outcomes).2.pending = b.pending := by
  induction outcomes generalizing b with
  | nil => rfl
  | cons outcome later ih =>
    obtain ⟨header,body⟩ := outcome
    have moved := (b.flush_moves header body).1
    have rest := ih (b.flush header body).machine
    simp only [Machine.flushes,List.map_cons,List.flatten_cons,List.append_assoc]
    rw [rest,moved]

end Machine

theorem Machine.writeMessage_accepts (suite : Suite Point Key) {b : Machine Point Key} (idle : b.pending = []) {p : Bytes}
    (small : p.length ≤ MaxUint16) : ∃ after, b.writeMessage suite p = .ok () after := by
  rw [writeMessage_eq,if_neg (Nat.not_lt.mpr small),if_neg (not_not.mpr idle)]
  exact ⟨_,rfl⟩

theorem sealed_filling {suite : Suite Point Key} (lawful : suite.AeadLawful) {m after : Machine Point Key} {p : Bytes}
    (accepted : m.writeMessage suite p = .ok () after) : after.Filling p.length 0 := by
  rw [Machine.writeMessage_eq] at accepted
  split_ifs at accepted
  cases accepted
  refine ⟨?_,?_,Nat.zero_le _⟩
  · change (m.sendCipher.encrypt suite [] (bigEndian 2 p.length)).1.length = 18
    rw [encrypt_length lawful,bigEndian_length]
    rfl
  · exact encrypt_length lawful _ p

/-- However the writes of an accepted message are cut, the counts of the `Flush` calls so far
add up to the plaintext bytes on the wire; none is negative, and once the message is out
they add up to its length. -/
theorem flush_accounting {suite : Suite Point Key} (lawful : suite.AeadLawful) (m after : Machine Point Key) (p : Bytes)
    (accepted : m.writeMessage suite p = .ok () after) (outcomes : List (WriteOutcome × WriteOutcome)) :
    let results := (after.flushes outcomes).1
    let last := (after.flushes outcomes).2
    let wire := (results.map (·.written)).flatten
    wire ++ last.pending = (sealFrame suite m.sendCipher p).1 ∧
    (results.map (·.count)).sum = max 0 (min (p.length : Int) (wire.length - 18)) ∧
    (∀ flushed ∈ results, 0 ≤ flushed.count) ∧
    (last.pending = [] → (results.map (·.count)).sum = p.length) ∧
    ∀ (idle : Machine Point Key) (header body : WriteOutcome), idle.pending = [] →
      idle.flush header body = ⟨0,none,[],idle⟩ := by
  intro results last wire
  obtain ⟨filling,positive,sum⟩ := (sealed_filling lawful accepted).flushes outcomes
  have moved : wire ++ last.pending = after.pending := after.flushes_moves outcomes
  have total : (results.map (·.count)).sum = payloadWithin p.length wire.length := by
    rw [sum]
    simp [payloadWithin,wire,results]
  refine ⟨?_,?_,positive,?_,fun idle header body done => Machine.flush_idle done header body⟩
  · rw [moved]
    exact (Machine.writeMessage_ok accepted).2.2.1
  · rw [total]
    unfold payloadWithin
    omega
  · intro flushed
    have whole := (filling.done flushed).1
    rw [Nat.zero_add] at whole
    rw [total]
    exact congrArg Nat.cast whole

/-- Three bytes that go out in four calls: inside the header, inside the payload, across the
border of the MAC and inside the MAC. -/
theorem flush_accounting_cut : ∃ after outcomes,
    plainClient.writeMessage plainSuite [1,2,3] = .ok () after ∧ outcomes.length = 4 ∧
      ((after.flushes outcomes).1.map (·.count)) = [0,2,1,0] ∧ ((after.flushes outcomes).1.map (·.count)).sum = 3 := by
  let outcomes : List (WriteOutcome × WriteOutcome) :=
    [(⟨7,true⟩,⟨0,true⟩),(⟨11,false⟩,⟨2,true⟩),(⟨0,true⟩,⟨5,true⟩),(⟨0,true⟩,⟨100,false⟩)]
  have idle : plainClient.pending = [] := rfl
  have accepted := @Machine.writeMessage_eq _ _ plainSuite plainClient [1,2,3]
  rw [if_neg (by decide),if_neg (not_not.mpr idle)] at accepted
  refine ⟨_,outcomes,accepted,rfl,by decide +kernel,?_⟩
  exact (flush_accounting plainSuite_lawful.toAeadLawful plainClient _ [1,2,3] accepted outcomes).2.2.2.1 (by decide +kernel)

end NodeConnect.Noise
