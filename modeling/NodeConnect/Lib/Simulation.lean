import Mathlib.Data.List.Basic

/-! Machines that answer calls, and what it means that one does as a specification says.
A call that blocks has no answer. A simulation shows two things of a state that is related
to one of the specification: whatever the machine answers is an answer that the
specification has, and it blocks only where the specification has none. -/
namespace NodeConnect.Lib

variable {State Abstract Call Answer : Type}

/-- Executes the calls in order and collects the answers. -/
def calls (step : State → Call → Option (Answer × State)) : State → List Call → Option (List Answer × State)
  | state, [] => some ([],state)
  | state, call :: later =>
    (step state call).bind fun (answer,next) =>
      (calls step next later).map fun (answers,final) => (answer :: answers,final)

theorem calls_cons (step : State → Call → Option (Answer × State)) (state final : State) (call : Call)
    (later : List Call) (given : List Answer) : calls step state (call :: later) = some (given,final) ↔
      ∃ answer next answers, step state call = some (answer,next) ∧ calls step next later = some (answers,final) ∧
        given = answer :: answers := by
  simp only [calls,Option.bind_eq_some_iff,Option.map_eq_some_iff,Prod.exists,Prod.mk.injEq]
  constructor
  · rintro ⟨answer,next,stepped,answers,last,ran,rfl,rfl⟩
    exact ⟨answer,next,answers,stepped,ran,rfl⟩
  · rintro ⟨answer,next,answers,stepped,ran,rfl⟩
    exact ⟨answer,next,stepped,answers,final,ran,rfl,rfl⟩

/-- A history of calls and answers that the specification has. -/
inductive Allows (spec : Abstract → Call → Answer → Abstract → Prop) :
    Abstract → List Call → List Answer → Abstract → Prop
  | nil (state) : Allows spec state [] [] state
  | cons (state call answer next later answers final)
      (now : spec state call answer next)
      (rest : Allows spec next later answers final) :
      Allows spec state (call :: later) (answer :: answers) final

/-- What every answer of the specification has, every answer of a history has. -/
theorem Allows.all {spec : Abstract → Call → Answer → Abstract → Prop} (property : Call → Answer → Prop)
    (each : ∀ state call answer next, spec state call answer next → property call answer)
    {state final : Abstract} {made : List Call} {given : List Answer} (allows : Allows spec state made given final) :
    ∀ pair ∈ made.zip given, property pair.1 pair.2 := by
  induction allows with
  | nil => nofun
  | cons state call answer next later answers final now _ ih =>
    intro pair member
    rw [List.zip_cons_cons] at member
    obtain rfl | behind := List.mem_cons.mp member
    · exact each state call answer next now
    · exact ih pair behind

def Simulates (allowed : Call → Prop) (step : State → Call → Option (Answer × State))
    (spec : Abstract → Call → Answer → Abstract → Prop) (related : State → Abstract → Prop) : Prop :=
  ∀ state abstract call answer next, related state abstract → allowed call →
    step state call = some (answer,next) → ∃ after, spec abstract call answer after ∧ related next after

/-- Every run of the machine is one that the specification has. -/
theorem Simulates.calls {allowed : Call → Prop} {step : State → Call → Option (Answer × State)}
    {spec : Abstract → Call → Answer → Abstract → Prop} {related : State → Abstract → Prop}
    (simulates : Simulates allowed step spec related) {made : List Call} (all : ∀ call ∈ made, allowed call)
    {state final : State} {abstract : Abstract} (start : related state abstract) {given : List Answer}
    (ran : calls step state made = some (given,final)) :
    ∃ after, Allows spec abstract made given after ∧ related final after := by
  induction made generalizing state abstract given with
  | nil =>
    cases Option.some.inj ran
    exact ⟨abstract,.nil abstract,start⟩
  | cons call later ih =>
    obtain ⟨answer,next,answers,stepped,rest,rfl⟩ := (calls_cons step state final call later given).mp ran
    obtain ⟨middle,now,kept⟩ := simulates state abstract call answer next start (all call List.mem_cons_self) stepped
    obtain ⟨after,allows,end_⟩ := ih (fun other member => all other (List.mem_cons_of_mem call member)) kept rest
    exact ⟨after,.cons abstract call answer middle later answers after now allows,end_⟩

end NodeConnect.Lib
