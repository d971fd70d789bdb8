import Mathlib.Logic.Function.Basic
import Mathlib.Data.List.Basic

/-! Maps that a loop over a list of entries builds. An entry replaces what an earlier one stored
under its key, so a lookup finds the last entry of the key. A loop that can be left early either
stops at some entry or runs as the loop that cannot. -/
namespace NodeConnect.Lib

variable {α β κ ε σ : Type}

section LastWith

variable [DecidableEq κ] {key : α → κ}

/-- The last of the entries whose key is `k`. -/
def lastWith (key : α → κ) (k : κ) (entries : List α) : Option α := entries.reverse.find? (key · = k)

theorem lastWith_cons (k : κ) (entry : α) (entries : List α) :
    lastWith key k (entry :: entries) = (lastWith key k entries).or (if key entry = k then some entry else none) := by
  unfold lastWith
  rw [List.reverse_cons,List.find?_append]
  by_cases same : key entry = k <;> simp [same]

theorem mem_of_lastWith {k : κ} {entry : α} {entries : List α} (last : lastWith key k entries = some entry) :
    entry ∈ entries ∧ key entry = k := by
  refine ⟨List.mem_reverse.mp (List.mem_of_find?_eq_some last),?_⟩
  simpa using List.find?_some last

theorem exists_lastWith (key : α → κ) {entry : α} {entries : List α} (member : entry ∈ entries) :
    ∃ last, lastWith key (key entry) entries = some last := by
  apply Option.isSome_iff_exists.mp
  apply List.find?_isSome.mpr
  exact ⟨entry,List.mem_reverse.mpr member,by simp⟩

/-- What is found under a key after the loop: the value of its last entry, and what was there before if it has none. -/
theorem foldl_update (key : α → κ) (value : α → β) (entries : List α) (m : κ → Option β) (k : κ) :
    entries.foldl (fun m entry => Function.update m (key entry) (some (value entry))) m k =
      ((lastWith key k entries).map value).or (m k) := by
  induction entries generalizing m with
  | nil => rfl
  | cons entry entries ih =>
    rw [List.foldl_cons,ih,lastWith_cons]
    cases last : lastWith key k entries with
    | some found => rfl
    | none =>
      by_cases same : key entry = k
      · subst same
        simp
      · simp [same,Function.update_of_ne (Ne.symm same)]

end LastWith

section Exit

variable {f : σ → α → Except ε σ} (g : σ → α → σ) (exits : α → Prop) {result : ε}
  (stops : ∀ s a, exits a → f s a = .error result) (continues : ∀ s a, ¬ exits a → f s a = .ok (g s a))

include continues in
theorem foldlM_eq_ok (items : List α) (never : ∀ a ∈ items, ¬ exits a) (s : σ) :
    items.foldlM f s = .ok (items.foldl g s) := by
  induction items generalizing s with
  | nil => rfl
  | cons a items ih =>
    rw [List.foldlM_cons,continues s a (never a List.mem_cons_self)]
    exact ih (fun b member => never b (List.mem_cons_of_mem a member)) _

include stops continues in
theorem foldlM_eq_error (items : List α) (once : ∃ a ∈ items, exits a) (s : σ) : items.foldlM f s = .error result := by
  induction items generalizing s with
  | nil =>
    obtain ⟨a,member,_⟩ := once
    cases member
  | cons a items ih =>
    rw [List.foldlM_cons]
    by_cases first : exits a
    · rw [stops s a first]
      rfl
    · rw [continues s a first]
      obtain ⟨b,member,exit⟩ := once
      obtain rfl | later := List.mem_cons.mp member
      · exact absurd exit first
      · exact ih ⟨b,later,exit⟩ _

end Exit

end NodeConnect.Lib
