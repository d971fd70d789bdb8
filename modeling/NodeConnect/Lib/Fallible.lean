import Mathlib.Data.List.Basic

/-! Computations with a state that survives a failure. Two rules carry the proofs
about them: a computation that succeeds did so at each of its steps, and a relation
between the states before and after is kept by a sequence when its steps keep it,
whether or not the sequence fails half-way. The first rule holds without a state as well. -/
namespace NodeConnect.Lib.Fallible

variable {ε σ α β : Type}

def final : EStateM.Result ε σ α → σ
  | .ok _ state => state
  | .error _ state => state

def value? : EStateM.Result ε σ α → Option α
  | .ok value _ => some value
  | .error _ _ => none

theorem eq_ok_of_value? {result : EStateM.Result ε σ α} {value : α} (returned : value? result = some value) :
    result = .ok value (final result) := by
  cases result with
  | ok found state =>
    cases Option.some.inj returned
    rfl
  | error err state => cases returned

theorem get_bind (next : σ → EStateM ε σ β) (state : σ) :
    ((get : EStateM ε σ σ) >>= next) state = next state state := rfl

theorem modify_bind (f : σ → σ) (next : PUnit → EStateM ε σ β) (state : σ) :
    ((modify f : EStateM ε σ PUnit) >>= next) state = next ⟨⟩ (f state) := rfl

theorem bind_ok (first : EStateM ε σ α) (next : α → EStateM ε σ β) (state middle : σ) (value : α)
    (succeeded : first state = .ok value middle) : (first >>= next) state = next value middle := by
  simp [bind,EStateM.bind,succeeded]

theorem bind_error (first : EStateM ε σ α) (next : α → EStateM ε σ β) (state middle : σ) (err : ε)
    (failed : first state = .error err middle) : (first >>= next) state = .error err middle := by
  simp [bind,EStateM.bind,failed]

theorem bind_eq_ok (first : EStateM ε σ α) (next : α → EStateM ε σ β) (state last : σ) (result : β) :
    (first >>= next) state = .ok result last ↔
      ∃ value middle, first state = .ok value middle ∧ next value middle = .ok result last := by
  cases outcome : first state with
  | ok value middle => simp [bind,EStateM.bind,outcome]
  | error err middle => simp [bind,EStateM.bind,outcome]

theorem bind_eq_error (first : EStateM ε σ α) (next : α → EStateM ε σ β) (state last : σ) (err : ε) :
    (first >>= next) state = .error err last ↔ first state = .error err last ∨
      ∃ value middle, first state = .ok value middle ∧ next value middle = .error err last := by
  cases outcome : first state with
  | ok value middle => simp [bind,EStateM.bind,outcome]
  | error err middle => simp [bind,EStateM.bind,outcome]

theorem except_bind_ok {first : Except ε α} {next : α → Except ε β} {result : β}
    (succeeded : (first >>= next) = .ok result) : ∃ value, first = .ok value ∧ next value = .ok result := by
  cases first with
  | error err => cases succeeded
  | ok value => exact ⟨value,rfl,succeeded⟩

theorem except_map_ok {first : Except ε α} {f : α → β} {result : β} (succeeded : first.map f = .ok result) :
    ∃ value, first = .ok value ∧ f value = result := by
  cases first with
  | error err => cases succeeded
  | ok value => exact ⟨value,rfl,Except.ok.inj succeeded⟩

def Keeps (relation : σ → σ → Prop) (m : EStateM ε σ α) : Prop := ∀ state, relation state (final (m state))

theorem Keeps.of_ok {relation : σ → σ → Prop} {m : EStateM ε σ α} (kept : Keeps relation m) {state last : σ}
    {value : α}
    (succeeded : m state = .ok value last) : relation state last := by
  have related := kept state
  rw [succeeded] at related
  exact related

theorem Keeps.pure {relation : σ → σ → Prop} (refl : ∀ state, relation state state) (value : α) :
    Keeps relation (Pure.pure value : EStateM ε σ α) := refl

theorem Keeps.throw {relation : σ → σ → Prop} (refl : ∀ state, relation state state) (err : ε) :
    Keeps relation (MonadExcept.throw err : EStateM ε σ α) := refl

theorem Keeps.ite {relation : σ → σ → Prop} {condition : Prop} [Decidable condition] {first second : EStateM ε σ α}
    (yes : Keeps relation first) (no : Keeps relation second) : Keeps relation (if condition then first else second) := by
  split_ifs
  · exact yes
  · exact no

theorem Keeps.bind {relation : σ → σ → Prop}
    (trans : ∀ first second third, relation first second → relation second third → relation first third)
    {first : EStateM ε σ α} {next : α → EStateM ε σ β} (kept : Keeps relation first)
    (continued : ∀ value, Keeps relation (next value)) : Keeps relation (first >>= next) := by
  intro state
  have before := kept state
  cases outcome : first state with
  | ok value middle =>
    rw [outcome] at before
    rw [bind_ok first next state middle value outcome]
    exact trans _ _ _ before (continued value middle)
  | error err middle =>
    rw [outcome] at before
    rw [bind_error first next state middle err outcome]
    exact before

end NodeConnect.Lib.Fallible
