import Mathlib.Data.List.Basic

/-! What a channel makes of a list when it may drop elements and repeat them on the spot,
but never reorders them. -/
namespace NodeConnect.Lib

variable {α β : Type}

inductive Stutters : List α → List α → Prop
  | nil : Stutters [] []
  | drop {l out : List α} (a : α) (later : Stutters l out) : Stutters (a :: l) out
  | emit {l out : List α} (a : α) (later : Stutters (a :: l) out) : Stutters (a :: l) (a :: out)

namespace Stutters

variable {l out : List α}

theorem none : (l : List α) → Stutters l []
  | [] => nil
  | a :: l => drop a (none l)

theorem cons (a : α) (later : Stutters l out) : Stutters (a :: l) (a :: out) := emit a (drop a later)

theorem of_sublist (fewer : out.Sublist l) : Stutters l out := by
  induction fewer with
  | slnil => exact nil
  | cons a _ ih => exact drop a ih
  | cons_cons a _ ih => exact cons a ih

theorem refl (l : List α) : Stutters l l := of_sublist (List.Sublist.refl l)

theorem append {l' out' : List α} (first : Stutters l out) (second : Stutters l' out') :
    Stutters (l ++ l') (out ++ out') := by
  induction first with
  | nil => exact second
  | drop a _ ih => exact drop a ih
  | emit a _ ih => exact emit a ih

/-- The last element once more. -/
theorem twice (l : List α) (a : α) : Stutters (l ++ [a]) (l ++ [a] ++ [a]) := by
  rw [List.append_assoc]
  exact (refl l).append (emit a (refl [a]))

theorem subset (stutters : Stutters l out) : out ⊆ l := by
  induction stutters with
  | nil => exact List.Subset.refl _
  | drop a _ ih => exact List.subset_cons_of_subset a ih
  | emit a _ ih => exact List.cons_subset.mpr ⟨List.mem_cons_self,ih⟩

/-- An order that lets an element stand next to itself is kept. -/
theorem pairwise {R : α → α → Prop} (stutters : Stutters l out) (self : ∀ a ∈ l, R a a) (ordered : l.Pairwise R) :
    out.Pairwise R := by
  induction stutters with
  | nil => exact ordered
  | drop a _ ih => exact ih (fun b member => self b (List.mem_cons_of_mem a member)) (List.pairwise_cons.mp ordered).2
  | @emit l out a later ih =>
    refine List.pairwise_cons.mpr ⟨fun b member => ?_,ih self ordered⟩
    rcases List.mem_cons.mp (later.subset member) with rfl | behind
    · exact self b List.mem_cons_self
    · exact (List.pairwise_cons.mp ordered).1 b behind

theorem filterMap (f : α → Option β) (stutters : Stutters l out) : Stutters (l.filterMap f) (out.filterMap f) := by
  induction stutters with
  | nil => exact nil
  | drop a _ ih =>
    cases found : f a with
    | none => simpa [found] using ih
    | some b => simpa [found] using drop b ih
  | emit a _ ih =>
    cases found : f a with
    | none => simpa [found] using ih
    | some b =>
      rw [List.filterMap_cons_some found] at ih ⊢
      rw [List.filterMap_cons_some found]
      exact emit b ih

theorem filter (P : α → Bool) (stutters : Stutters l out) : Stutters (l.filter P) (out.filter P) := by
  rw [← List.filterMap_eq_filter]
  exact stutters.filterMap _

/-- What comes out of a channel of images are the images of what would come out of the channel itself. -/
theorem lift {f : α → β} {images : List β} (stutters : Stutters (l.map f) images) :
    ∃ out, images = out.map f ∧ Stutters l out := by
  generalize mapped : l.map f = start at stutters
  induction stutters generalizing l with
  | nil =>
    cases List.map_eq_nil_iff.mp mapped
    exact ⟨[],rfl,nil⟩
  | drop b _ ih =>
    obtain ⟨a,rest,rfl,_,same⟩ := List.map_eq_cons_iff.mp mapped
    obtain ⟨out,images,found⟩ := ih same
    exact ⟨out,images,drop a found⟩
  | emit b _ ih =>
    obtain ⟨out,rfl,found⟩ := ih mapped
    obtain ⟨a,rest,rfl,rfl,_⟩ := List.map_eq_cons_iff.mp mapped
    exact ⟨a :: out,rfl,emit a found⟩

end Stutters

/-- Two lists whose images are the two parts of a list of images are the two parts of one list. -/
theorem weave {f : α → β} {P : β → Bool} (images : List β) (first second : List α)
    (firstImages : first.map f = images.filter P) (secondImages : second.map f = images.filter fun b => !P b) :
    ∃ l : List α, l.map f = images ∧ l.filter (fun a => P (f a)) = first ∧ l.filter (fun a => !P (f a)) = second := by
  induction images generalizing first second with
  | nil =>
    cases List.map_eq_nil_iff.mp firstImages
    cases List.map_eq_nil_iff.mp secondImages
    exact ⟨[],rfl,rfl,rfl⟩
  | cons b images ih =>
    cases inside : P b with
    | true =>
      rw [List.filter_cons_of_pos inside] at firstImages
      rw [List.filter_cons_of_neg (by simp [inside])] at secondImages
      obtain ⟨a,rest,rfl,rfl,later⟩ := List.map_eq_cons_iff.mp firstImages
      obtain ⟨l,mapped,firsts,seconds⟩ := ih rest second later secondImages
      exact ⟨a :: l,by simp [mapped],by simp [inside,firsts],by simp [inside,seconds]⟩
    | false =>
      rw [List.filter_cons_of_neg (by simp [inside])] at firstImages
      rw [List.filter_cons_of_pos (by simp [inside])] at secondImages
      obtain ⟨a,rest,rfl,rfl,later⟩ := List.map_eq_cons_iff.mp secondImages
      obtain ⟨l,mapped,firsts,seconds⟩ := ih first rest firstImages later
      exact ⟨a :: l,by simp [mapped],by simp [inside,firsts],by simp [inside,seconds]⟩

end NodeConnect.Lib
