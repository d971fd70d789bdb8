import Mathlib.Data.List.Basic
import Mathlib.Algebra.Ring.Nat

/-! Finite runs of a machine given by an executable step function. A step that
is not enabled has no successor, so a run exists exactly when each of its events
is enabled in the state its predecessors lead to. -/
namespace NodeConnect.Lib

variable {State Event : Type}

/-- Executes the events in order, and fails at the first one that is not enabled. -/
def run (step : State → Event → Option State) : State → List Event → Option State
  | state, [] => some state
  | state, event :: events => (step state event).bind fun next => run step next events

/-- Every step of the run from `state` meets `good` in the state it starts from. -/
def Along (step : State → Event → Option State) (good : State → Event → Prop) :
    State → List Event → Prop
  | _, [] => True
  | state, event :: events =>
    good state event ∧ ∀ next, step state event = some next → Along step good next events

instance along_decidable (step : State → Event → Option State) (good : State → Event → Prop)
    [∀ state event, Decidable (good state event)] :
    (state : State) → (events : List Event) → Decidable (Along step good state events)
  | _, [] => isTrue trivial
  | state, event :: events =>
    match stepped : step state event with
    | none => decidable_of_iff (good state event) (by simp [Along,stepped])
    | some next =>
      have := along_decidable step good next events
      decidable_of_iff (good state event ∧ Along step good next events) (by simp [Along,stepped])

theorem run_cons (step : State → Event → Option State) (state final : State)
    (event : Event) (events : List Event) :
    run step state (event :: events) = some final ↔
      ∃ next, step state event = some next ∧ run step next events = some final := by
  simp [run,Option.bind_eq_some_iff]

theorem run_concat {step : State → Event → Option State} {state middle final : State} {events : List Event} {event : Event}
    (reached : run step state events = some middle) (stepped : step middle event = some final) :
    run step state (events ++ [event]) = some final := by
  induction events generalizing state with
  | nil =>
    cases Option.some.inj reached
    exact (run_cons step middle final event []).mpr ⟨final,stepped,rfl⟩
  | cons first events ih =>
    obtain ⟨next,moved,rest⟩ := (run_cons step state middle first events).mp reached
    exact (run_cons step state final first (events ++ [event])).mpr ⟨next,moved,ih rest⟩

/-- What holds initially and is kept by every enabled step holds after every run. -/
theorem run_invariant (step : State → Event → Option State) (inv : State → Prop)
    (kept : ∀ state event next, inv state → step state event = some next → inv next)
    (events : List Event) (state final : State) (initial : inv state)
    (reached : run step state events = some final) : inv final := by
  induction events generalizing state with
  | nil =>
    cases Option.some.inj reached
    exact initial
  | cons event events ih =>
    obtain ⟨next,stepped,rest⟩ := (run_cons step state final event events).mp reached
    exact ih next (kept state event next initial stepped) rest

theorem along_invariant (step : State → Event → Option State) (good : State → Event → Prop) (inv : State → Prop)
    (kept : ∀ state event next, inv state → good state event → step state event = some next → inv next)
    (events : List Event) (state final : State) (initial : inv state) (along : Along step good state events)
    (reached : run step state events = some final) : inv final := by
  induction events generalizing state with
  | nil =>
    cases Option.some.inj reached
    exact initial
  | cons event events ih =>
    obtain ⟨next,stepped,rest⟩ := (run_cons step state final event events).mp reached
    exact ih next (kept state event next initial along.1 stepped) (along.2 next stepped) rest

theorem Along.and_forall {step : State → Event → Option State} {good : State → Event → Prop} {allowed : Event → Prop}
    {state : State} {events : List Event} (along : Along step good state events) (all : ∀ event ∈ events, allowed event) :
    Along step (fun state event => good state event ∧ allowed event) state events := by
  induction events generalizing state with
  | nil => exact trivial
  | cons event events ih =>
    refine ⟨⟨along.1,all event List.mem_cons_self⟩,fun next stepped => ih (along.2 next stepped) ?_⟩
    exact fun other member => all other (List.mem_cons_of_mem _ member)

/-- Two conditions that amount to the same from every state which the first one leads to. -/
theorem along_iff (step : State → Event → Option State) (good good' : State → Event → Prop) (inv : State → Prop)
    (kept : ∀ state event next, inv state → good state event → step state event = some next → inv next)
    (same : ∀ state event next, inv state → step state event = some next → (good state event ↔ good' state event))
    (events : List Event) (state final : State) (initial : inv state) (reached : run step state events = some final) :
    Along step good state events ↔ Along step good' state events := by
  induction events generalizing state with
  | nil => exact Iff.rfl
  | cons event events ih =>
    obtain ⟨next,stepped,rest⟩ := (run_cons step state final event events).mp reached
    have later (now : good state event) := ih next (kept state event next initial now stepped) rest
    simp only [Along,stepped,Option.some.injEq,forall_eq']
    constructor
    · rintro ⟨now,along⟩
      exact ⟨(same state event next initial stepped).mp now,(later now).mp along⟩
    · rintro ⟨now,along⟩
      have now := (same state event next initial stepped).mpr now
      exact ⟨now,(later now).mpr along⟩

/-- Where each step keeps `good` exactly when it is not `bad`, the states of a run are all good
exactly when none of its steps is bad. -/
theorem visits_iff_along (step : State → Event → Option State) (good inv : State → Prop) (bad : State → Event → Prop)
    (kept : ∀ state event next, inv state → step state event = some next → inv next)
    (same : ∀ state event next, inv state → good state → step state event = some next →
      (good next ↔ ¬ bad state event))
    (events : List Event) (state final : State) (holds : inv state) (start : good state)
    (reached : run step state events = some final) :
    (∀ shorter middle, shorter <+: events → run step state shorter = some middle → good middle) ↔
      Along step (fun state event => ¬ bad state event) state events := by
  induction events generalizing state with
  | nil =>
    refine iff_of_true ?_ trivial
    intro shorter middle before ran
    rw [List.prefix_nil.mp before] at ran
    cases Option.some.inj ran
    exact start
  | cons event events ih =>
    obtain ⟨next,stepped,rest⟩ := (run_cons step state final event events).mp reached
    have now := same state event next holds start stepped
    have later (next' : good next) := ih next (kept state event next holds stepped) next' rest
    simp only [Along,stepped,Option.some.injEq,forall_eq']
    constructor
    · intro all
      have here : good next := all [event] next ⟨events,rfl⟩ (by simp [run,stepped])
      refine ⟨now.mp here,(later here).mp fun shorter middle before ran => ?_⟩
      exact all (event :: shorter) middle (List.cons_prefix_cons.mpr ⟨rfl,before⟩)
        ((run_cons step state middle event shorter).mpr ⟨next,stepped,ran⟩)
    · rintro ⟨harmless,along⟩ shorter middle before ran
      cases shorter with
      | nil =>
        cases Option.some.inj ran
        exact start
      | cons first shorter =>
        obtain ⟨rfl,within⟩ := List.cons_prefix_cons.mp before
        obtain ⟨second,moved,ran⟩ := (run_cons step state middle first shorter).mp ran
        cases Option.some.inj (stepped.symm.trans moved)
        exact (later (now.mpr harmless)).mpr along shorter middle within ran

/-- Where every step lowers the rank, but for what its event adds to it, the rank bounds the length of a run. -/
theorem run_length_le (step : State → Event → Option State) (inv : State → Prop) (rank : State → Nat)
    (cost : Event → Nat)
    (kept : ∀ state event next, inv state → step state event = some next →
      inv next ∧ rank next + 1 ≤ rank state + cost event)
    (events : List Event) (state final : State) (initial : inv state) (reached : run step state events = some final) :
    events.length + rank final ≤ rank state + (events.map cost).sum := by
  induction events generalizing state with
  | nil =>
    cases Option.some.inj reached
    simp
  | cons event events ih =>
    obtain ⟨next,stepped,rest⟩ := (run_cons step state final event events).mp reached
    obtain ⟨holds,falls⟩ := kept state event next initial stepped
    have later := ih next holds rest
    simp only [List.length_cons,List.map_cons,List.sum_cons]
    omega

/-- Some run of `allowed` events leads from one state to the other. -/
def Leads (step : State → Event → Option State) (allowed : Event → Prop) (state final : State) : Prop :=
  ∃ events, (∀ event ∈ events, allowed event) ∧ run step state events = some final

namespace Leads

variable {step : State → Event → Option State} {allowed : Event → Prop} {state next final : State}

theorem refl (state : State) : Leads step allowed state state := ⟨[],by simp,rfl⟩

theorem cons (event : Event) (may : allowed event) (stepped : step state event = some next)
    (later : Leads step allowed next final) : Leads step allowed state final := by
  obtain ⟨events,all,reached⟩ := later
  refine ⟨event :: events,?_,(run_cons step state final event events).mpr ⟨next,stepped,reached⟩⟩
  intro other member
  rcases List.mem_cons.mp member with same | behind
  · rw [same]
    exact may
  · exact all other behind

theorem single (event : Event) (may : allowed event) (stepped : step state event = some next) :
    Leads step allowed state next := cons event may stepped (refl next)

theorem trans (first : Leads step allowed state next) (second : Leads step allowed next final) :
    Leads step allowed state final := by
  obtain ⟨events,all,reached⟩ := first
  induction events generalizing state with
  | nil =>
    cases Option.some.inj reached
    exact second
  | cons event events ih =>
    obtain ⟨between,stepped,rest⟩ := (run_cons step state next event events).mp reached
    exact cons event (all event List.mem_cons_self) stepped
      (ih (fun other member => all other (List.mem_cons_of_mem event member)) rest)

/-- What every allowed step relates, every run of allowed steps relates. -/
theorem relates (relation : State → State → Prop) (still : ∀ state, relation state state)
    (compose : ∀ a b c, relation a b → relation b c → relation a c)
    (kept : ∀ state event next, allowed event → step state event = some next → relation state next)
    (leads : Leads step allowed state final) : relation state final := by
  obtain ⟨events,all,reached⟩ := leads
  induction events generalizing state with
  | nil =>
    cases Option.some.inj reached
    exact still _
  | cons event events ih =>
    obtain ⟨between,stepped,rest⟩ := (run_cons step state final event events).mp reached
    exact compose _ _ _ (kept state event between (all event List.mem_cons_self) stepped)
      (ih (fun other member => all other (List.mem_cons_of_mem event member)) rest)

theorem invariant (inv : State → Prop)
    (kept : ∀ state event next, inv state → allowed event → step state event = some next → inv next)
    (leads : Leads step allowed state final) (initial : inv state) : inv final :=
  relates (fun before after => inv before → inv after) (fun _ => id) (fun _ _ _ first second => second ∘ first)
    (fun state event next may stepped holds => kept state event next holds may stepped) leads initial

/-- The runs of a part are runs of the whole. -/
theorem lift {Part PartEvent : Type} {move : Part → PartEvent → Option Part} {part part' : Part} (put : Part → State)
    (event : PartEvent → Event) (may : ∀ kind, allowed (event kind))
    (moves : ∀ part kind part', move part kind = some part' → step (put part) (event kind) = some (put part'))
    (leads : Leads move (fun _ => True) part part') : Leads step allowed (put part) (put part') :=
  relates (fun before after => Leads step allowed (put before) (put after)) (fun _ => refl _) (fun _ _ _ => trans)
    (fun part kind part' _ moved => single (event kind) (may kind) (moves part kind part' moved)) leads

/-- Where every state that is not yet there leads on to one of smaller measure, some run gets there. -/
theorem descend (inv goal : State → Prop) (measure : State → Nat)
    (progress : ∀ state, inv state → ¬ goal state →
      ∃ next, Leads step allowed state next ∧ inv next ∧ measure next < measure state)
    (state : State) (start : inv state) : ∃ final, Leads step allowed state final ∧ inv final ∧ goal final := by
  induction bound : measure state using Nat.strongRecOn generalizing state with
  | ind size ih =>
    by_cases there : goal state
    · exact ⟨state,refl state,start,there⟩
    · obtain ⟨next,first,kept,smaller⟩ := progress state start there
      obtain ⟨final,rest,end_⟩ := ih (measure next) (bound ▸ smaller) next kept rfl
      exact ⟨final,first.trans rest,end_⟩

end Leads

end NodeConnect.Lib
