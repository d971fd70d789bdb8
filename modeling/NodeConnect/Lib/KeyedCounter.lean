import Mathlib.Data.List.Nodup

/-! A counter that starts again with every key. As long as no key is installed twice, no
pair of a key and a counter is used twice. -/
namespace NodeConnect.Lib.KeyedCounter

variable {κ : Type}

inductive Event (κ : Type) where
  | install (key : κ)
  | use (key : κ) (counter : Nat)

def Event.installed? : Event κ → Option κ
  | install key => some key
  | use _ _ => none

def Event.used? : Event κ → Option (κ × Nat)
  | install _ => none
  | use key counter => some (key,counter)

def installed (log : List (Event κ)) : List κ := log.filterMap Event.installed?

def used (log : List (Event κ)) : List (κ × Nat) := log.filterMap Event.used?

/-- The log of a user who now holds `key` and will use `counter` next. -/
structure Fresh (log : List (Event κ)) (key : κ) (counter : Nat) : Prop where
  current : key ∈ installed log
  known : ∀ pair ∈ used log, pair.1 ∈ installed log
  once : (installed log).Nodup → (used log).Nodup
  below : (installed log).Nodup → ∀ earlier, (key,earlier) ∈ used log → earlier < counter

namespace Fresh

variable {log : List (Event κ)} {key : κ} {counter : Nat}

theorem first (key : κ) : Fresh [.install key] key 0 :=
  ⟨List.mem_singleton.mpr rfl,nofun,fun _ => List.nodup_nil,nofun⟩

theorem install (fresh : Fresh log key counter) (next : κ) : Fresh (log ++ [.install next]) next 0 := by
  have keys : installed (log ++ [.install next]) = installed log ++ [next] := List.filterMap_append
  have pairs : used (log ++ [.install next]) = used log := by
    simp [used,Event.used?]
  refine ⟨?_,?_,?_,?_⟩
  · rw [keys]
    exact List.mem_append_right _ (List.mem_singleton.mpr rfl)
  · rw [keys,pairs]
    exact fun pair member => List.mem_append_left _ (fresh.known pair member)
  · rw [keys,pairs]
    exact fun distinct => fresh.once distinct.of_append_left
  · rw [keys,pairs]
    intro distinct earlier member
    -- A key that is new has not been used.
    have absent := List.disjoint_of_nodup_append distinct (fresh.known _ member)
    exact absurd (List.mem_singleton.mpr rfl) absent

theorem use (fresh : Fresh log key counter) : Fresh (log ++ [.use key counter]) key (counter + 1) := by
  have keys : installed (log ++ [.use key counter]) = installed log := by
    simp [installed,Event.installed?]
  have pairs : used (log ++ [.use key counter]) = used log ++ [(key,counter)] := List.filterMap_append
  refine ⟨?_,?_,?_,?_⟩
  · rw [keys]
    exact fresh.current
  · rw [keys,pairs]
    intro pair member
    rcases List.mem_append.mp member with earlier | last
    · exact fresh.known pair earlier
    · rw [List.mem_singleton.mp last]
      exact fresh.current
  · rw [keys,pairs]
    intro distinct
    refine List.Nodup.append (fresh.once distinct) (List.nodup_singleton _) ?_
    intro pair earlier last
    rw [List.mem_singleton.mp last] at earlier
    exact Nat.lt_irrefl _ (fresh.below distinct counter earlier)
  · rw [keys,pairs]
    intro distinct earlier member
    rcases List.mem_append.mp member with before | last
    · exact Nat.lt_succ_of_lt (fresh.below distinct earlier before)
    · cases List.mem_singleton.mp last
      exact Nat.lt_succ_self _

theorem skip (fresh : Fresh log key counter) : Fresh log key (counter + 1) :=
  ⟨fresh.current,fresh.known,fresh.once,fun distinct earlier member =>
    Nat.lt_succ_of_lt (fresh.below distinct earlier member)⟩

end Fresh

/-- In a list of calls of which some are uses, no two are the same use. -/
theorem eq_of_same_use {α : Type} {event : α → Option (Event κ)} {calls : List α}
    (once : (used (calls.filterMap event)).Nodup) {a b : α} (memberA : a ∈ calls) (memberB : b ∈ calls)
    {key : κ} {counter : Nat} (usesA : event a = some (.use key counter)) (usesB : event b = some (.use key counter)) :
    a = b := by
  have found {x : α} {rest : List α} (member : x ∈ rest) (uses : event x = some (.use key counter)) :
      (key,counter) ∈ used (rest.filterMap event) :=
    List.mem_filterMap.mpr ⟨_,List.mem_filterMap.mpr ⟨x,member,uses⟩,rfl⟩
  induction calls with
  | nil => cases memberA
  | cons call calls ih =>
    have later : (used (calls.filterMap event)).Nodup :=
      once.sublist (((List.sublist_cons_self call calls).filterMap event).filterMap _)
    have alone (uses : event call = some (.use key counter)) : (key,counter) ∉ used (calls.filterMap event) := by
      rw [List.filterMap_cons_some uses] at once
      exact (List.nodup_cons.mp once).1
    rcases List.mem_cons.mp memberA with rfl | behindA
    · rcases List.mem_cons.mp memberB with rfl | behindB
      · rfl
      · exact absurd (found behindB usesB) (alone usesA)
    · rcases List.mem_cons.mp memberB with rfl | behindB
      · exact absurd (found behindA usesA) (alone usesB)
      · exact ih later behindA behindB

theorem used_disjoint {first second : List (Event κ)} {key key' : κ} {counter counter' : Nat}
    (fresh : Fresh first key counter) (fresh' : Fresh second key' counter')
    (apart : List.Disjoint (installed first) (installed second)) : List.Disjoint (used first) (used second) :=
  fun pair member member' => apart (fresh.known pair member) (fresh'.known pair member')

end NodeConnect.Lib.KeyedCounter
