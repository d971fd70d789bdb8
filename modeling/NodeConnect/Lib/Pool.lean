import Mathlib.Algebra.BigOperators.Group.List.Basic
import Mathlib.Algebra.Order.BigOperators.Group.List
import Mathlib.Algebra.Order.Group.Nat
import Mathlib.Algebra.Ring.Nat

/-! A pool of workers, listed in the order in which they were started. A step of the pool starts
one more worker, or moves one of them; what each of them weighs adds up to what the pool weighs. -/
namespace NodeConnect.Lib.Pool

variable {Worker : Type}

def weigh (weight : Worker → Nat) (pool : List Worker) : Nat := (pool.map weight).sum

section

variable (weight : Worker → Nat) {pool : List Worker} {i : Nat} {worker : Worker}

theorem weigh_start (pool : List Worker) (worker : Worker) :
    weigh weight (pool ++ [worker]) = weigh weight pool + weight worker := by
  simp [weigh]

theorem weigh_move (found : pool[i]? = some worker) (moved : Worker) :
    weigh weight (pool.set i moved) + weight worker = weigh weight pool + weight moved := by
  induction pool generalizing i with
  | nil => simp at found
  | cons first pool ih =>
    unfold weigh at ih ⊢
    cases i with
    | zero =>
      rw [List.getElem?_cons_zero] at found
      cases Option.some.inj found
      simp only [List.set_cons_zero,List.map_cons,List.sum_cons]
      omega
    | succ i =>
      have rest := ih (List.getElem?_cons_succ ▸ found)
      simp only [List.set_cons_succ,List.map_cons,List.sum_cons]
      omega

theorem weight_le_weigh (found : pool[i]? = some worker) : weight worker ≤ weigh weight pool :=
  List.single_le_sum (fun _ _ => Nat.zero_le _) _ (List.mem_map_of_mem (List.mem_of_getElem? found))

end

section Positions

variable {pool : List Worker} {i j : Nat} {worker other : Worker}

theorem getElem?_start (found : pool[i]? = some worker) (new : Worker) : (pool ++ [new])[i]? = some worker := by
  rw [List.getElem?_append_left (List.getElem?_eq_some_iff.mp found).1]
  exact found

/-- Whatever stands in the pool after the start of one more stood there before, or is the new one. -/
theorem getElem?_started {new : Worker} (found : (pool ++ [new])[i]? = some worker) :
    pool[i]? = some worker ∨ i = pool.length ∧ worker = new := by
  rcases Nat.lt_trichotomy i pool.length with before | last | beyond
  · rw [List.getElem?_append_left before] at found
    exact .inl found
  · subst last
    rw [List.getElem?_concat_length] at found
    exact .inr ⟨rfl,(Option.some.inj found).symm⟩
  · rw [List.getElem?_eq_none (by simp; omega)] at found
    contradiction

theorem getElem?_moved (found : pool[i]? = some worker) (moved : Worker) : (pool.set i moved)[i]? = some moved := by
  rw [List.getElem?_set_self (List.getElem?_eq_some_iff.mp found).1]

theorem getElem?_move {moved : Worker} (found : (pool.set i moved)[j]? = some other) :
    (j = i ∧ other = moved) ∨ (j ≠ i ∧ pool[j]? = some other) := by
  rw [List.getElem?_set] at found
  split at found
  · rename_i same
    split at found
    · exact .inl ⟨same.symm,(Option.some.inj found).symm⟩
    · contradiction
  · rename_i apart
    exact .inr ⟨Ne.symm apart,found⟩

theorem set_same (found : pool[i]? = some worker) : pool.set i worker = pool := by
  apply List.ext_getElem?
  intro j
  by_cases same : j = i
  · rw [same,getElem?_moved found,found]
  · rw [List.getElem?_set_ne (Ne.symm same)]

/-- What stands at a place still stands there after another one has moved. -/
theorem getElem?_unmoved (found : pool[j]? = some other) (apart : j ≠ i) (moved : Worker) :
    (pool.set i moved)[j]? = some other := by
  rw [List.getElem?_set_ne (Ne.symm apart)]
  exact found

theorem mem_unmoved (found : pool[i]? = some worker) (member : other ∈ pool) (apart : other ≠ worker) (moved : Worker) :
    other ∈ pool.set i moved := by
  obtain ⟨j,at_⟩ := List.getElem?_of_mem member
  have elsewhere : j ≠ i := by
    rintro rfl
    exact apart (Option.some.inj (at_.symm.trans found))
  exact List.mem_of_getElem? (getElem?_unmoved at_ elsewhere moved)

end Positions

/-- What all workers have is had by all after one of them has moved to where it is had. -/
theorem forall_move {property : Worker → Prop} {pool : List Worker} (all : ∀ worker ∈ pool, property worker) (i : Nat)
    {moved : Worker} (kept : property moved) : ∀ worker ∈ pool.set i moved, property worker := by
  intro worker member
  rcases List.mem_or_eq_of_mem_set member with before | same
  · exact all worker before
  · exact same ▸ kept

theorem forall_start {property : Worker → Prop} {pool : List Worker} (all : ∀ worker ∈ pool, property worker)
    {new : Worker} (kept : property new) : ∀ worker ∈ pool ++ [new], property worker :=
  List.forall_mem_append.mpr ⟨all,List.forall_mem_singleton.mpr kept⟩

section Distinct

variable {Token : Type}

/-- No two workers have the same token. -/
def Distinct (token : Worker → Option Token) (pool : List Worker) : Prop :=
  ∀ (i j : Nat) (first second : Worker) (t : Token), pool[i]? = some first → pool[j]? = some second →
    token first = some t → token second = some t → i = j

variable {token : Worker → Option Token} {pool : List Worker}

namespace Distinct

theorem eq (distinct : Distinct token pool) {first second : Worker} {t : Token} (memberFirst : first ∈ pool)
    (memberSecond : second ∈ pool) (hasFirst : token first = some t) (hasSecond : token second = some t) :
    first = second := by
  obtain ⟨i,atFirst⟩ := List.getElem?_of_mem memberFirst
  obtain ⟨j,atSecond⟩ := List.getElem?_of_mem memberSecond
  cases distinct i j first second t atFirst atSecond hasFirst hasSecond
  exact Option.some.inj (atFirst.symm.trans atSecond)

theorem start (distinct : Distinct token pool) {worker : Worker} (none_ : token worker = none) :
    Distinct token (pool ++ [worker]) := by
  intro i j first second t atFirst atSecond hasFirst hasSecond
  rcases getElem?_started atFirst with atFirst | ⟨_,rfl⟩
  · rcases getElem?_started atSecond with atSecond | ⟨_,rfl⟩
    · exact distinct i j first second t atFirst atSecond hasFirst hasSecond
    · cases none_.symm.trans hasSecond
  · cases none_.symm.trans hasFirst

/-- A worker keeps its token, gives it up, or takes one that nobody has. -/
theorem move (distinct : Distinct token pool) {k : Nat} {worker moved : Worker} (found : pool[k]? = some worker)
    (kept : ∀ t, token moved = some t → token worker = some t ∨ ∀ other ∈ pool, token other ≠ some t) :
    Distinct token (pool.set k moved) := by
  have elsewhere {i : Nat} {other : Worker} {t : Token} (at_ : pool[i]? = some other) (apart : i ≠ k)
      (has : token other = some t) (took : token moved = some t) : False := by
    rcases kept t took with had | fresh
    · exact apart (distinct i k other worker t at_ found has had)
    · exact fresh other (List.mem_of_getElem? at_) has
  intro i j first second t atFirst atSecond hasFirst hasSecond
  rcases getElem?_move atFirst with ⟨rfl,rfl⟩ | ⟨apartFirst,beforeFirst⟩ <;>
    rcases getElem?_move atSecond with ⟨rfl,rfl⟩ | ⟨apartSecond,beforeSecond⟩
  · rfl
  · exact (elsewhere beforeSecond apartSecond hasSecond hasFirst).elim
  · exact (elsewhere beforeFirst apartFirst hasFirst hasSecond).elim
  · exact distinct i j first second t beforeFirst beforeSecond hasFirst hasSecond

end Distinct

end Distinct

section Only

/-- No worker but the current one is live. -/
def Only (live : Worker → Bool) (pool : List Worker) (current : Option Nat) : Prop :=
  ∀ (i : Nat) (worker : Worker), pool[i]? = some worker → live worker = true → current = some i

variable {live : Worker → Bool} {pool : List Worker} {current : Option Nat}

namespace Only

theorem unique (only : Only live pool current) {i j : Nat} {first second : Worker} (foundFirst : pool[i]? = some first)
    (foundSecond : pool[j]? = some second) (liveFirst : live first = true) (liveSecond : live second = true) : i = j :=
  Option.some.inj ((only i first foundFirst liveFirst).symm.trans (only j second foundSecond liveSecond))

theorem start (only : Only live pool current)
    (ended : ∀ (i : Nat) (worker : Worker), current = some i → pool[i]? = some worker → live worker = false)
    (worker : Worker) :
    Only live (pool ++ [worker]) (some pool.length) := by
  intro i other found lives
  rcases getElem?_started found with before | ⟨last,_⟩
  · have dead := ended i other (only i other before lives) before
    rw [dead] at lives
    contradiction
  · rw [last]

theorem move (only : Only live pool current) {i : Nat} {moved : Worker} (kept : live moved = true → current = some i) :
    Only live (pool.set i moved) current := by
  intro j other found lives
  rcases getElem?_move found with ⟨rfl,rfl⟩ | ⟨_,before⟩
  · exact kept lives
  · exact only j other before lives

end Only

end Only

end NodeConnect.Lib.Pool
