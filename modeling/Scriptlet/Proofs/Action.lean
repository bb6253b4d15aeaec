/-! Actions that read and change a state and may fail: what a sequence of two of them does. The
readers of tokens, the parser and the machine are all written as such actions. -/
namespace Scriptlet.Action

theorem bind_run (first : EStateM ε σ α) (rest : α → EStateM ε σ β) (state : σ) :
    (first >>= rest) state = match first state with
      | .ok value after => rest value after
      | .error error after => .error error after := rfl

theorem pure_run (value : α) (state : σ) :
    (pure value : EStateM ε σ α) state = .ok value state := rfl

theorem throw_run (error : ε) (state : σ) :
    (throw error : EStateM ε σ α) state = .error error state := rfl

theorem get_run (state : σ) : (get : EStateM ε σ σ) state = .ok state state := rfl

theorem bind_eq_ok {first : EStateM ε σ α} {rest : α → EStateM ε σ β} :
    (first >>= rest) state = .ok result final ↔
      ∃ value after, first state = .ok value after ∧ rest value after = .ok result final := by
  rw [bind_run]
  constructor
  · intro success
    cases outcome : first state with
    | ok value after => exact ⟨value, after, rfl, by simpa only [outcome] using success⟩
    | error error after => simp [outcome] at success
  · rintro ⟨value, after, began, ended⟩
    simpa only [began] using ended

theorem bind_of_ok {first : EStateM ε σ α} (rest : α → EStateM ε σ β)
    (began : first state = .ok value after) : (first >>= rest) state = rest value after := by
  rw [bind_run, began]

theorem pure_eq_ok : (pure value : EStateM ε σ α) state = .ok result final ↔
    value = result ∧ state = final := by
  simp [pure_run]

theorem throw_ne_ok (error : ε) : (throw error : EStateM ε σ α) state ≠ .ok result final := by
  simp [throw_run]

/-- Any result will do. -/
def anything (_ : α) : Prop :=
  True

/-- What is asked of actions: the states in which they may be started, the errors that may cut them
off, and the errors they may end with. -/
structure Contract (ε σ : Type) where
  holds : σ → Prop
  cut : ε → Prop
  allowed : ε → Prop

namespace Contract

variable {contract : Contract ε σ} {result : α → Prop} {further : β → Prop}

/-- The outcome is a proper result or an allowed error, and a further action may be started. -/
def Ends (contract : Contract ε σ) (result : α → Prop) : EStateM.Result ε σ α → Prop
  | .ok value after => result value ∧ contract.holds after
  | .error error after => contract.allowed error ∧ contract.holds after

/-- The first action ends as it must, and it does what the second one does unless it is cut off. -/
def Meets (contract : Contract ε σ) (result : α → Prop) (short long : EStateM ε σ α) : Prop :=
  ∀ state, contract.holds state → contract.Ends result (short state) ∧
    ((∃ error after, contract.cut error ∧ short state = .error error after) ∨
      short state = long state)

theorem Meets.of_ends {action : EStateM ε σ α}
    (ends : ∀ state, contract.holds state → contract.Ends result (action state)) :
    contract.Meets result action action :=
  fun state started => ⟨ends state started, .inr rfl⟩

theorem Meets.pure (proper : result value) :
    contract.Meets result (pure value) (pure value) :=
  .of_ends fun _ started => ⟨proper, started⟩

theorem Meets.throw (allowed : contract.allowed error) :
    contract.Meets result (throw error) (throw error) :=
  .of_ends fun _ started => ⟨allowed, started⟩

theorem Meets.get : contract.Meets contract.holds get get :=
  .of_ends fun _ started => ⟨started, started⟩

theorem Meets.bind {short long : EStateM ε σ α} {shortRest longRest : α → EStateM ε σ β}
    (first : contract.Meets result short long)
    (rest : ∀ value, result value → contract.Meets further (shortRest value) (longRest value)) :
    contract.Meets further (short >>= shortRest) (long >>= longRest) := by
  intro state started
  obtain ⟨ends, agrees⟩ := first state started
  rw [bind_run, bind_run]
  rcases agrees with ⟨error, after, isCut, failed⟩ | same
  · rw [failed] at ends ⊢
    exact ⟨ends, .inl ⟨error, after, isCut, rfl⟩⟩
  · rw [same] at ends ⊢
    cases outcome : long state with
    | ok value after =>
      rw [outcome] at ends
      exact rest value ends.1 after ends.2
    | error error after =>
      rw [outcome] at ends
      exact ⟨ends, .inr rfl⟩

end Contract

/-- The state in which an action ended, be it with a value or with an error. -/
def final : EStateM.Result ε σ α → σ
  | .ok _ after => after
  | .error _ after => after

/-- However the action ends, the state before it and the one after it are related. -/
def Keeps (relation : σ → σ → Prop) (action : EStateM ε σ α) : Prop :=
  ∀ state, relation state (final (action state))

theorem Keeps.bind {relation : σ → σ → Prop} {first : EStateM ε σ α} {rest : α → EStateM ε σ β}
    (trans : ∀ {a b c}, relation a b → relation b c → relation a c) (before : Keeps relation first)
    (after : ∀ value, Keeps relation (rest value)) : Keeps relation (first >>= rest) := by
  intro state
  have began := before state
  rw [bind_run]
  cases outcome : first state with
  | ok value middle =>
    rw [outcome] at began
    exact trans began (after value middle)
  | error error middle =>
    rw [outcome] at began
    exact began

end Scriptlet.Action
