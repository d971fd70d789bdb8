import Mathlib.Data.List.Basic
import Mathlib.Algebra.Order.Group.Nat

/-! Arithmetic of labels that are reused modulo `s`. Positions are unbounded;
a position is known to the peer only through its label `i % s`. As long as two
positions lie less than `s` apart, their labels determine their distance. -/
namespace NodeConnect.Lib

def ahead (s a b : Nat) : Nat := if a ≤ b then b - a else b + s - a

theorem ahead_self (s a : Nat) : ahead s a a = 0 := by simp [ahead]

theorem ahead_lt (s a b : Nat) (first : a < s) (second : b < s) : ahead s a b < s := by
  unfold ahead
  split <;> omega

theorem mod_add_of_lt (s i d : Nat) (small : d < s) :
    (i + d) % s = if i % s + d < s then i % s + d else i % s + d - s := by
  have bound : i % s < s := Nat.mod_lt _ (by omega)
  rw [Nat.add_mod,Nat.mod_eq_of_lt small]
  split
  next inside => exact Nat.mod_eq_of_lt inside
  next outside =>
    rw [Nat.mod_eq_sub_mod (by omega)]
    exact Nat.mod_eq_of_lt (by omega)

/-- The labels of two positions less than a cycle apart show how far apart they are. -/
theorem ahead_mod (s i j : Nat) (order : i ≤ j) (close : j < i + s) :
    ahead s (i % s) (j % s) = j - i := by
  obtain ⟨d,rfl⟩ := Nat.exists_eq_add_of_le order
  have small : d < s := by omega
  have bound : i % s < s := Nat.mod_lt _ (by omega)
  rw [mod_add_of_lt s i d small]
  unfold ahead
  split <;> split <;> omega

theorem mod_inj_of_close (s i j : Nat) (left : i < j + s) (right : j < i + s)
    (same : i % s = j % s) : i = j := by
  rcases Nat.le_total i j with order | order
  · have distance := ahead_mod s i j order right
    rw [same,ahead_self] at distance
    omega
  · have distance := ahead_mod s j i order left
    rw [same,ahead_self] at distance
    omega

def labels (s a k : Nat) : List Nat := (List.range k).map fun i => (a + i) % s

theorem labels_length (s a k : Nat) : (labels s a k).length = k := by simp [labels]

theorem mem_labels (s a k label : Nat) (base : a < s) (short : k ≤ s) :
    label ∈ labels s a k ↔ label < s ∧ ahead s a label < k := by
  simp only [labels,List.mem_map,List.mem_range]
  constructor
  · rintro ⟨i,inside,rfl⟩
    refine ⟨Nat.mod_lt _ (by omega),?_⟩
    rw [mod_add_of_lt s a i (by omega),Nat.mod_eq_of_lt base]
    unfold ahead
    split <;> split <;> omega
  · rintro ⟨bound,inside⟩
    refine ⟨ahead s a label,inside,?_⟩
    rw [mod_add_of_lt s a _ (by omega),Nat.mod_eq_of_lt base]
    unfold ahead
    split <;> split <;> omega

theorem labels_mod (s a k : Nat) : labels s (a % s) k = labels s a k := by
  simp [labels]

theorem labels_add (s a j k : Nat) : labels s a (j + k) = labels s a j ++ labels s (a + j) k := by
  simp [labels,List.range_add,Function.comp_def,Nat.add_assoc]

theorem labels_suffix (s a j k : Nat) (inside : j ≤ k) :
    labels s ((a + j) % s) (k - j) <:+ labels s a k := by
  obtain ⟨d,rfl⟩ := Nat.exists_eq_add_of_le inside
  rw [labels_mod,labels_add,Nat.add_sub_cancel_left]
  exact List.suffix_append _ _

/-- A label stands in the window as far behind its front as it is ahead of the first label. -/
theorem labels_findIdx? (s a k label : Nat) (base : a < s) (short : k ≤ s) (bound : label < s) :
    (labels s a k).findIdx? (· == label) = if ahead s a label < k then some (ahead s a label) else none := by
  split_ifs with inside
  · have at_ (i : Nat) (small : i < k) : (a + i) % s = label ↔ i = ahead s a label := by
      rw [mod_add_of_lt s a i (by omega),Nat.mod_eq_of_lt base]
      unfold ahead
      split_ifs <;> omega
    refine List.findIdx?_eq_some_iff_getElem.mpr ⟨by rw [labels_length]; exact inside,?_,?_⟩
    · simp [labels,at_ _ inside]
    · intro j earlier
      simp only [labels,List.getElem_map,List.getElem_range,beq_iff_eq,at_ j (by omega)]
      omega
  · rw [List.findIdx?_eq_none_iff]
    intro other member
    simp only [beq_eq_false_iff_ne]
    rintro rfl
    exact inside ((mem_labels s a k other base short).mp member).2

end NodeConnect.Lib
