import Mathlib.Data.List.Pairwise
import NodeConnect.Lib.Stutter
import NodeConnect.Lib.Window

/-! The sliding window protocol on unbounded positions. One party sends positions
`0, 1, 2, ..` over a channel that loses and repeats messages but never reorders
them; the other takes them in order and answers with the position it waits for.
Everything is stated for the set of positions that can be in flight at once, which
is what makes labels modulo `n + 1` unambiguous. -/
namespace NodeConnect.Lib.GoBackN

/-- `base` is the oldest position the sender still holds, `next` the position the
receiver waits for, `top` the first unused one. `data` and `acks` are in flight,
oldest first; an element of `acks` is the position its sender was waiting for. -/
structure Inv (n base next top : Nat) (data acks : List Nat) : Prop where
  base_le : base ≤ next
  next_le : next ≤ top
  top_le : top ≤ base + n
  data_lt : ∀ i ∈ data, i < top
  data_near : ∀ i ∈ data, next ≤ i + n
  data_order : data.Pairwise fun i j => i < j + n
  acks_bound : ∀ a ∈ acks, base ≤ a ∧ a ≤ next
  acks_order : acks.Pairwise (· ≤ ·)

variable {n base next top : Nat} {data acks : List Nat}

theorem inv_init (n : Nat) : Inv n 0 0 0 [] [] := by
  constructor <;> simp

theorem Inv.lose (inv : Inv n base next top data acks) {data' acks' : List Nat}
    (fewerData : data'.Sublist data) (fewerAcks : acks'.Sublist acks) :
    Inv n base next top data' acks' where
  base_le := inv.base_le
  next_le := inv.next_le
  top_le := inv.top_le
  data_lt := fun i member => inv.data_lt i (fewerData.subset member)
  data_near := fun i member => inv.data_near i (fewerData.subset member)
  data_order := inv.data_order.sublist fewerData
  acks_bound := fun a member => inv.acks_bound a (fewerAcks.subset member)
  acks_order := inv.acks_order.sublist fewerAcks

theorem Inv.stutter (positive : 1 ≤ n) (inv : Inv n base next top data acks) {data' acks' : List Nat}
    (stutteredData : Stutters data data') (stutteredAcks : Stutters acks acks') : Inv n base next top data' acks' where
  base_le := inv.base_le
  next_le := inv.next_le
  top_le := inv.top_le
  data_lt := fun i member => inv.data_lt i (stutteredData.subset member)
  data_near := fun i member => inv.data_near i (stutteredData.subset member)
  data_order := stutteredData.pairwise (fun i _ => by omega) inv.data_order
  acks_bound := fun a member => inv.acks_bound a (stutteredAcks.subset member)
  acks_order := stutteredAcks.pairwise (fun a _ => Nat.le_refl a) inv.acks_order

theorem Inv.extend (inv : Inv n base next top data acks) (room : top < base + n) :
    Inv n base next (top + 1) data acks where
  base_le := inv.base_le
  next_le := by have := inv.next_le; omega
  top_le := by omega
  data_lt := fun i member => by have := inv.data_lt i member; omega
  data_near := inv.data_near
  data_order := inv.data_order
  acks_bound := inv.acks_bound
  acks_order := inv.acks_order

/-- A position may be sent as long as the sender cannot be a whole window past it,
whether or not it is still in the window. -/
theorem Inv.transmit (inv : Inv n base next top data acks) (i : Nat) (used : i < top)
    (near : top ≤ i + n) : Inv n base next top (data ++ [i]) acks where
  base_le := inv.base_le
  next_le := inv.next_le
  top_le := inv.top_le
  data_lt := by
    intro j member
    rcases List.mem_append.mp member with old | new
    · exact inv.data_lt j old
    · rw [List.mem_singleton.mp new]
      exact used
  data_near := by
    intro j member
    have order := inv.next_le
    rcases List.mem_append.mp member with old | new
    · exact inv.data_near j old
    · rw [List.mem_singleton.mp new]
      omega
  data_order := by
    refine List.pairwise_append.mpr ⟨inv.data_order,List.pairwise_singleton _ _,?_⟩
    intro j older k new
    rw [List.mem_singleton.mp new]
    have := inv.data_lt j older
    omega
  acks_bound := inv.acks_bound
  acks_order := inv.acks_order

theorem Inv.answer (inv : Inv n base next top data acks) :
    Inv n base next top data (acks ++ [next]) where
  base_le := inv.base_le
  next_le := inv.next_le
  top_le := inv.top_le
  data_lt := inv.data_lt
  data_near := inv.data_near
  data_order := inv.data_order
  acks_bound := by
    intro a member
    rcases List.mem_append.mp member with old | new
    · exact inv.acks_bound a old
    · rw [List.mem_singleton.mp new]
      exact ⟨inv.base_le,Nat.le_refl _⟩
  acks_order := by
    refine List.pairwise_append.mpr ⟨inv.acks_order,List.pairwise_singleton _ _,?_⟩
    intro a older b new
    rw [List.mem_singleton.mp new]
    exact (inv.acks_bound a older).2

/-- The oldest message in flight is the one the receiver waits for. It may stay in
flight, to be delivered again. -/
theorem Inv.accept (inv : Inv n base next top (next :: data) acks) (positive : 1 ≤ n) :
    Inv n base (next + 1) top (next :: data) (acks ++ [next + 1]) := by
  have ordered := List.pairwise_cons.mp inv.data_order
  have moved : Inv n base (next + 1) top (next :: data) acks := by
    refine ⟨?_,inv.data_lt next (by simp),inv.top_le,inv.data_lt,?_,inv.data_order,?_,inv.acks_order⟩
    · have := inv.base_le
      omega
    · intro i member
      rcases List.mem_cons.mp member with same | behind
      · omega
      · have := ordered.1 i behind
        omega
    · intro a member
      have := inv.acks_bound a member
      omega
  exact moved.answer

theorem Inv.acknowledge {a : Nat} (inv : Inv n base next top data (a :: acks)) :
    Inv n a next top data (a :: acks) := by
  have bound := inv.acks_bound a (by simp)
  have ordered := List.pairwise_cons.mp inv.acks_order
  have upper := inv.top_le
  refine ⟨bound.2,inv.next_le,by omega,inv.data_lt,inv.data_near,inv.data_order,?_,inv.acks_order⟩
  intro b member
  refine ⟨?_,(inv.acks_bound b member).2⟩
  rcases List.mem_cons.mp member with same | behind
  · omega
  · exact ordered.1 b behind

theorem Inv.repeated {a : Nat} (inv : Inv n base next top data (a :: acks)) :
    Inv n base next top data (a :: a :: acks) := by
  refine ⟨inv.base_le,inv.next_le,inv.top_le,inv.data_lt,inv.data_near,inv.data_order,?_,?_⟩
  · intro b member
    exact inv.acks_bound b (by simpa using member)
  · refine List.pairwise_cons.mpr ⟨?_,inv.acks_order⟩
    intro b member
    rcases List.mem_cons.mp member with same | behind
    · omega
    · exact (List.pairwise_cons.mp inv.acks_order).1 b behind

/-- A message in flight that carries the expected label carries the expected position. -/
theorem Inv.position_eq (inv : Inv n base next top data acks) (i : Nat) (member : i ∈ data)
    (label : i % (n + 1) = next % (n + 1)) : i = next := by
  have used := inv.data_lt i member
  have near := inv.data_near i member
  have lower := inv.base_le
  have upper := inv.top_le
  exact mod_inj_of_close (n + 1) i next (by omega) (by omega) label

/-- One direction: the sender's window, the position the receiver waits for, and what is in flight. -/
structure View where
  base : Nat
  next : Nat
  top : Nat
  data : List Nat
  acks : List Nat

/-- What the parties do when nothing is lost and nothing new is sent: the receiver answers
the oldest message, and the sender moves its base to the oldest answer. -/
inductive Move : View → View → Prop
  | stay (v : View) : Move v v
  | answer (base next next' top i : Nat) (data acks : List Nat) (after : next' = if i = next then next + 1 else next) :
      Move ⟨base,next,top,i :: data,acks⟩ ⟨base,next',top,data,acks ++ [next']⟩
  | acknowledge (base next top a : Nat) (data acks : List Nat) :
      Move ⟨base,next,top,data,a :: acks⟩ ⟨a,next,top,data,acks⟩

/-- Everything from some position the receiver has reached up to the top is in flight,
or the receiver has all of it and the sender knows so or has yet to read it. -/
def Recovering (v : View) : Prop :=
  (∃ k, k ≤ v.next ∧ k < v.top ∧ (List.range' k (v.top - k)).Sublist v.data) ∨
    v.next = v.top ∧ (v.top ∈ v.acks ∨ v.base = v.top)

theorem recovering_iff : Recovering ⟨base,next,top,data,acks⟩ ↔
    (∃ k, k ≤ next ∧ k < top ∧ (List.range' k (top - k)).Sublist data) ∨ next = top ∧ (top ∈ acks ∨ base = top) :=
  Iff.rfl

theorem recovering_window (base next top : Nat) (older : List Nat) (acks : List Nat) (lower : base ≤ next)
    (used : base < top) : Recovering ⟨base,next,top,older ++ List.range' base (top - base),acks⟩ :=
  .inl ⟨base,lower,used,List.sublist_append_right _ _⟩

theorem Recovering.answer {next' i : Nat} (inv : Inv n base next top (i :: data) acks)
    (after : next' = if i = next then next + 1 else next) (recovering : Recovering ⟨base,next,top,i :: data,acks⟩) :
    Recovering ⟨base,next',top,data,acks ++ [next']⟩ := by
  have used := inv.data_lt i List.mem_cons_self
  have reached := inv.next_le
  have grown : next ≤ next' := by split_ifs at after <;> omega
  rw [recovering_iff] at recovering ⊢
  rcases recovering with ⟨k,below,short,inFlight⟩ | ⟨all,known⟩
  · have split : List.range' k (top - k) = k :: List.range' (k + 1) (top - (k + 1)) := by
      rw [show top - k = top - (k + 1) + 1 by omega,List.range'_succ]
    rw [split] at inFlight
    rcases List.cons_sublist_cons'.mp inFlight with later | ⟨rfl,later⟩
    · exact .inl ⟨k,by omega,short,split ▸ later⟩
    · have passed : k + 1 ≤ next' := by split_ifs at after <;> omega
      by_cases last : k + 1 < top
      · exact .inl ⟨k + 1,passed,last,later⟩
      · have whole : next' = top := by split_ifs at after <;> omega
        refine .inr ⟨whole,.inl ?_⟩
        simp [whole]
  · have same : next' = next := by
      rw [after,if_neg]
      omega
    subst same
    exact .inr ⟨all,known.imp_left fun member => List.mem_append_left _ member⟩

theorem Recovering.acknowledge {a : Nat} (inv : Inv n base next top data (a :: acks))
    (recovering : Recovering ⟨base,next,top,data,a :: acks⟩) : Recovering ⟨a,next,top,data,acks⟩ := by
  have bound := inv.acks_bound a List.mem_cons_self
  rw [recovering_iff] at recovering ⊢
  rcases recovering with inFlight | ⟨all,known⟩
  · exact .inl inFlight
  · refine .inr ⟨all,?_⟩
    rcases known with answered | moved
    · rcases List.mem_cons.mp answered with now | later
      · exact .inr now.symm
      · exact .inl later
    · -- An answer is never behind the base.
      have := inv.next_le
      right
      omega

theorem Recovering.move {v v' : View} (inv : Inv n v.base v.next v.top v.data v.acks) (move : Move v v')
    (recovering : Recovering v) : Recovering v' := by
  cases move with
  | stay => exact recovering
  | answer base next next' top i data acks after => exact recovering.answer inv after
  | acknowledge base next top a data acks => exact recovering.acknowledge inv

theorem Recovering.done (recovering : Recovering ⟨base,next,top,[],[]⟩) : next = top ∧ base = top := by
  rw [recovering_iff] at recovering
  rcases recovering with ⟨k,_,short,inFlight⟩ | ⟨all,known⟩
  · have length := inFlight.length_le
    rw [List.length_range',List.length_nil] at length
    omega
  · exact ⟨all,known.resolve_left List.not_mem_nil⟩

end NodeConnect.Lib.GoBackN
