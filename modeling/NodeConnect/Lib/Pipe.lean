import NodeConnect.Lib.ByteStream
import NodeConnect.Lib.Simulation

/-! A byte pipe as its users see it: what is written comes out in order, in pieces of any
size. The state is the bytes that have not been read. -/
namespace NodeConnect.Lib.Pipe

variable {ε : Type}

inductive Call where
  | write (b : Bytes)
  | read (b : Bytes)
  deriving DecidableEq, Repr

/-- For a read `buffer` is the caller's buffer afterwards. -/
structure Answer (ε : Type) where
  n : Nat
  err : Option ε
  buffer : Bytes := []
  deriving DecidableEq, Repr

def spec : Bytes → Call → Answer ε → Bytes → Prop
  | unread, .write b, answer, after => answer.n = b.length ∧ answer.err = none ∧ after = unread ++ b
  | unread, .read b, answer, after => 0 < answer.n ∧ answer.n ≤ b.length ∧ answer.err = none ∧
      answer.buffer.length = b.length ∧ unread = answer.buffer.take answer.n ++ after

def written (made : List Call) : Bytes :=
  made.flatMap fun
    | .write b => b
    | .read _ => []

def received (made : List Call) (given : List (Answer ε)) : Bytes :=
  (made.zip given).flatMap fun
    | (.write _,_) => []
    | (.read _,answer) => answer.buffer.take answer.n

/-- Nothing is lost, repeated or put in another order. -/
theorem conserved {unread after : Bytes} {made : List Call} {given : List (Answer ε)}
    (allows : Allows spec unread made given after) : unread ++ written made = received made given ++ after := by
  induction allows with
  | nil state => simp [written,received]
  | cons state call answer next later answers final now _ ih =>
    unfold written received at ih ⊢
    rw [List.zip_cons_cons,List.flatMap_cons,List.flatMap_cons]
    cases call with
    | write b =>
      obtain ⟨_,_,rfl⟩ := now
      simpa using ih
    | read b =>
      obtain ⟨_,_,_,_,rfl⟩ := now
      simpa using ih

end NodeConnect.Lib.Pipe
