import NodeConnect.Lib.ByteStream

/-! The contract of a stream reader. A call of `read` gets a buffer, writes into it and
returns a count; over any sequence of calls the counted bytes have to be the stream, in
order. Two kinds of readers are treated: those that hand out what is left of a stream, and
those that hand out one message at a time whatever the size of the buffer. -/
namespace NodeConnect.Lib

variable {ε σ : Type}

structure ReadAnswer (ε σ : Type) where
  n : Nat
  err : Option ε
  buffer : Bytes
  next : σ

/-- As many bytes of `source` as the buffer has room for are copied to its front. -/
def overwrite (buffer source : Bytes) : Bytes := source.take buffer.length ++ buffer.drop source.length

theorem overwrite_length (buffer source : Bytes) : (overwrite buffer source).length = buffer.length := by
  simp only [overwrite,List.length_append,List.length_take,List.length_drop]
  omega

theorem overwrite_full (buffer source : Bytes) (same : source.length = buffer.length) : overwrite buffer source = source := by
  rw [overwrite,← same,List.take_length,same,List.drop_length,List.append_nil]

theorem take_overwrite (buffer source : Bytes) (n : Nat) (room : n ≤ buffer.length) (filled : n ≤ source.length) :
    (overwrite buffer source).take n = source.take n := by
  rw [overwrite,List.take_append_of_le_length,List.take_take,Nat.min_eq_left room]
  rw [List.length_take]
  omega

def answers (read : σ → Bytes → ReadAnswer ε σ) : σ → List Bytes → List (ReadAnswer ε σ)
  | _, [] => []
  | c, buffer :: later => read c buffer :: answers read (read c buffer).next later

/-- Every count is within its buffer, and the counted bytes are the next ones of the stream. -/
structure ReaderContract (stream : Bytes) (given : List (ReadAnswer ε σ)) : Prop where
  bounded : ∀ answer ∈ given, answer.n ≤ answer.buffer.length
  filled : (given.map fun answer => answer.buffer.take answer.n).flatten <+: stream

theorem ReaderContract.cons_iff {answer : ReadAnswer ε σ} {later : List (ReadAnswer ε σ)} {bytes rest : Bytes}
    (bounded : answer.n ≤ answer.buffer.length) (taken : answer.buffer.take answer.n = bytes) :
    ReaderContract (bytes ++ rest) (answer :: later) ↔ ReaderContract rest later := by
  subst taken
  constructor
  · rintro ⟨within,filled⟩
    refine ⟨fun other member => within other (List.mem_cons_of_mem _ member),?_⟩
    exact (List.prefix_append_right_inj _).mp filled
  · rintro ⟨within,filled⟩
    refine ⟨?_,(List.prefix_append_right_inj _).mpr filled⟩
    intro other member
    obtain rfl | member := List.mem_cons.mp member
    · exact bounded
    · exact within other member

/-- A reader honours the contract if each of its calls returns a front part of what is left. -/
theorem ReaderContract.of_step {read : σ → Bytes → ReadAnswer ε σ} {left : σ → Bytes → Prop}
    (step : ∀ c stream buffer, left c stream → (read c buffer).n ≤ (read c buffer).buffer.length ∧
      ∃ rest, stream = (read c buffer).buffer.take (read c buffer).n ++ rest ∧ left (read c buffer).next rest)
    (buffers : List Bytes) (c : σ) (stream : Bytes) (holds : left c stream) :
    ReaderContract stream (answers read c buffers) := by
  induction buffers generalizing c stream with
  | nil => exact ⟨nofun,List.nil_prefix⟩
  | cons buffer later ih =>
    obtain ⟨bounded,rest,rfl,remains⟩ := step c stream buffer holds
    exact (ReaderContract.cons_iff bounded rfl).mpr (ih _ rest remains)

/-- Every call returns the next message in full, and nothing once they are used up. -/
structure Piecewise (read : σ → Bytes → ReadAnswer ε σ) (left : σ → List Bytes → Prop) : Prop where
  piece : ∀ c piece later buffer, left c (piece :: later) → (read c buffer).n = piece.length ∧
    (read c buffer).buffer = overwrite buffer piece ∧ left (read c buffer).next later
  done : ∀ c buffer, left c [] → (read c buffer).n = 0 ∧ left (read c buffer).next []

/-- Such a reader honours the contract exactly if every buffer has room for its message. -/
theorem Piecewise.contract_iff {read : σ → Bytes → ReadAnswer ε σ} {left : σ → List Bytes → Prop}
    (piecewise : Piecewise read left) (buffers : List Bytes) (c : σ) (pieces : List Bytes) (holds : left c pieces) :
    ReaderContract pieces.flatten (answers read c buffers) ↔
      ∀ part ∈ pieces.zip buffers, part.1.length ≤ part.2.length := by
  induction buffers generalizing c pieces with
  | nil =>
    rw [List.zip_nil_right]
    exact ⟨fun _ => nofun,fun _ => ⟨nofun,List.nil_prefix⟩⟩
  | cons buffer later ih =>
    cases pieces with
    | nil =>
      obtain ⟨count,holds⟩ := piecewise.done c buffer holds
      have contract := (ih _ [] holds).mpr nofun
      have bounded : (read c buffer).n ≤ (read c buffer).buffer.length := by
        rw [count]
        exact Nat.zero_le _
      have taken : (read c buffer).buffer.take (read c buffer).n = [] := by
        rw [count]
        rfl
      exact ⟨fun _ => nofun,fun _ => (ReaderContract.cons_iff bounded taken).mpr contract⟩
    | cons piece pieces =>
      obtain ⟨count,copied,holds⟩ := piecewise.piece c piece pieces buffer holds
      have length : (read c buffer).buffer.length = buffer.length := by rw [copied,overwrite_length]
      rw [List.zip_cons_cons,List.forall_mem_cons,← ih _ pieces holds,List.flatten_cons]
      have step (room : piece.length ≤ buffer.length) : ReaderContract (piece ++ pieces.flatten)
          (answers read c (buffer :: later)) ↔ ReaderContract pieces.flatten (answers read (read c buffer).next later) := by
        refine ReaderContract.cons_iff ?_ ?_
        · rw [count,length]
          exact room
        · rw [count,copied,take_overwrite buffer piece _ room (Nat.le_refl _),List.take_length]
      constructor
      · intro contract
        have room : piece.length ≤ buffer.length := by
          rw [← count,← length]
          exact contract.bounded _ List.mem_cons_self
        exact ⟨room,(step room).mp contract⟩
      · rintro ⟨room,contract⟩
        exact (step room).mpr contract

end NodeConnect.Lib
