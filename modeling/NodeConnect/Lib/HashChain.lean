import Mathlib.Data.List.Basic
import Mathlib.Data.List.Infix

/-! A running digest: each item is hashed together with the digest of everything before
it. Over inputs without a collision the digest determines the start and all the items,
when no item is so short that a start could be mistaken for a digest with an item. -/
namespace NodeConnect.Lib.HashChain

variable {α δ : Type} (hash : List α → δ) (text : δ → List α)

def chain (start : List α) (items : List (List α)) : δ :=
  items.foldl (fun digest item => hash (text digest ++ item)) (hash start)

theorem chain_snoc (start : List α) (items : List (List α)) (item : List α) :
    chain hash text start (items ++ [item]) = hash (text (chain hash text start items) ++ item) := by
  simp [chain]

def Hashed (known : List α → Prop) (start : List α) (items : List (List α)) : Prop :=
  known start ∧ ∀ before item, before ++ [item] <+: items → known (text (chain hash text start before) ++ item)

variable {hash text}

theorem Hashed.mono {known more : List α → Prop} {start : List α} {items : List (List α)}
    (hashed : Hashed hash text known start items) (weaker : ∀ input, known input → more input) :
    Hashed hash text more start items :=
  ⟨weaker _ hashed.1,fun before item within => weaker _ (hashed.2 before item within)⟩

theorem Hashed.shorten {known : List α → Prop} {start : List α} {items shorter : List (List α)}
    (hashed : Hashed hash text known start items) (begins : shorter <+: items) : Hashed hash text known start shorter :=
  ⟨hashed.1,fun before item within => hashed.2 before item (within.trans begins)⟩

theorem Hashed.snoc {known : List α → Prop} {start item : List α} {items : List (List α)}
    (hashed : Hashed hash text known start items) (last : known (text (chain hash text start items) ++ item)) :
    Hashed hash text known start (items ++ [item]) := by
  refine ⟨hashed.1,?_⟩
  intro before next within
  rcases List.prefix_concat_iff.mp within with whole | earlier
  · obtain ⟨rfl,same⟩ := List.append_inj' whole rfl
    cases same
    exact last
  · exact hashed.2 before next earlier

section

variable (known : List α → Prop) (width least : Nat) (textLength : ∀ digest, (text digest).length = width)
  (textInjective : ∀ first second, text first = text second → first = second)
  (collisionFree : ∀ first second, known first → known second → hash first = hash second → first = second)

include textLength textInjective collisionFree

theorem chain_injective {start start' : List α} {items items' : List (List α)}
    (hashed : Hashed hash text known start items) (hashed' : Hashed hash text known start' items')
    (short : start.length < width + least) (short' : start'.length < width + least)
    (long : ∀ item ∈ items, least ≤ item.length) (long' : ∀ item ∈ items', least ≤ item.length)
    (same : chain hash text start items = chain hash text start' items') : start = start' ∧ items = items' := by
  induction items using List.reverseRecOn generalizing items' with
  | nil =>
    induction items' using List.reverseRecOn with
    | nil => exact ⟨collisionFree _ _ hashed.1 hashed'.1 same,rfl⟩
    | append_singleton before' item' _ =>
      rw [chain_snoc] at same
      have inputs := collisionFree _ _ hashed.1 (hashed'.2 before' item' (List.prefix_refl _)) same
      have lengths := congrArg List.length inputs
      have enough := long' item' (by simp)
      rw [List.length_append,textLength] at lengths
      omega
  | append_singleton before item ih =>
    induction items' using List.reverseRecOn with
    | nil =>
      rw [chain_snoc] at same
      have inputs := collisionFree _ _ (hashed.2 before item (List.prefix_refl _)) hashed'.1 same
      have lengths := congrArg List.length inputs
      have enough := long item (by simp)
      rw [List.length_append,textLength] at lengths
      omega
    | append_singleton before' item' _ =>
      rw [chain_snoc,chain_snoc] at same
      have inputs := collisionFree _ _ (hashed.2 before item (List.prefix_refl _))
        (hashed'.2 before' item' (List.prefix_refl _)) same
      obtain ⟨digests,rfl⟩ := List.append_inj inputs ((textLength _).trans (textLength _).symm)
      obtain ⟨starts,rfl⟩ := ih (hashed.shorten (List.prefix_append _ _)) (hashed'.shorten (List.prefix_append _ _))
        (fun other within => long other (List.mem_append_left _ within))
        (fun other within => long' other (List.mem_append_left _ within)) (textInjective _ _ digests)
      exact ⟨starts,rfl⟩

end

end NodeConnect.Lib.HashChain
