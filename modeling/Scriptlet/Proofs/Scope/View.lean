import Scriptlet.Scope

/-! What a name stands for depends on the scopes around, and in each of them only on what it says of
the name. So it is the same in two forests in which these scopes say the same. -/
namespace Scriptlet.Forest

/-- What a scope says of a name: the scope to look at next, and the value that it binds the name to. -/
def view (forest : Forest) (name : String) (id : ScopeId) : Option (Option ScopeId × Option Value) :=
  forest[id]?.map fun scope => (scope.enclosing, scope.find? name)

/-- The scopes of the set lie in scopes of the set. -/
def Encloses (forest : Forest) (own : ScopeId → Prop) : Prop :=
  ∀ id scope outer, own id → forest[id]? = some scope → scope.enclosing = some outer → own outer

variable {forest other : Forest} {own : ScopeId → Prop} {id home : ScopeId} {name : String}

theorem resolveWithin_succ (forest : Forest) (name : String) (fuel : Nat) (id : ScopeId) :
    forest.resolveWithin name (fuel + 1) id = (forest.view name id).bind fun said =>
      if said.2.isSome then some id else said.1.bind (forest.resolveWithin name fuel) := by
  rw [resolveWithin, view]
  cases forest[id]? <;> rfl

theorem view_eq_some (encloses : forest.Encloses own) (here : own id)
    (said : forest.view name id = some (some outer, found)) : own outer := by
  obtain ⟨scope, there, same⟩ := Option.map_eq_some_iff.mp said
  exact encloses id scope outer here there (congrArg Prod.fst same)

theorem resolveWithin_congr (encloses : forest.Encloses own)
    (same : ∀ id, own id → other.view name id = forest.view name id) (fuel : Nat) (here : own id) :
    other.resolveWithin name fuel id = forest.resolveWithin name fuel id := by
  induction fuel generalizing id with
  | zero => rfl
  | succ fuel ih =>
    rw [resolveWithin_succ, resolveWithin_succ, same id here]
    cases said : forest.view name id with
    | none => rfl
    | some said' =>
      obtain ⟨enclosing, found⟩ := said'
      cases enclosing with
      | none => rfl
      | some outer =>
        have around : own outer := view_eq_some encloses here said
        simp only [Option.bind_some, ih around]

theorem resolve_congr (encloses : forest.Encloses own)
    (same : ∀ id, own id → other.view name id = forest.view name id) (here : own id) :
    other.resolve id name = forest.resolve id name :=
  resolveWithin_congr encloses same (id + 1) here

/-- The scope that a name is found in is one of the set, too. -/
theorem resolveWithin_own (encloses : forest.Encloses own) (fuel : Nat) (here : own id)
    (resolved : forest.resolveWithin name fuel id = some home) : own home := by
  induction fuel generalizing id with
  | zero => cases resolved
  | succ fuel ih =>
    rw [resolveWithin_succ] at resolved
    obtain ⟨⟨enclosing, found⟩, said, resolved⟩ := Option.bind_eq_some_iff.mp resolved
    dsimp only at resolved
    split at resolved
    · cases resolved
      exact here
    · obtain ⟨outer, rfl, further⟩ := Option.bind_eq_some_iff.mp resolved
      exact ih (view_eq_some encloses here said) further

theorem resolve_own (encloses : forest.Encloses own) (here : own id)
    (resolved : forest.resolve id name = some home) : own home :=
  resolveWithin_own encloses (id + 1) here resolved

theorem isDefined_congr (same : other.view name id = forest.view name id) :
    other.isDefined id name = forest.isDefined id name := by
  have seen (forest : Forest) : forest.isDefined id name = (forest.view name id).any (·.2.isSome) := by
    rw [isDefined, view, Option.any_map]
    rfl
  rw [seen, seen, same]

theorem get_congr (encloses : forest.Encloses own)
    (same : ∀ id, own id → other.view name id = forest.view name id) (here : own id) :
    other.get id name = forest.get id name := by
  have seen (forest : Forest) (home : ScopeId) :
      forest[home]?.bind (·.find? name) = (forest.view name home).bind Prod.snd := by
    rw [view, Option.bind_map]
    rfl
  rw [get, get, resolve_congr encloses same here]
  cases resolved : forest.resolve id name with
  | none => rfl
  | some home =>
    have there : own home := resolve_own encloses here resolved
    simp only [Option.bind_some, seen, same home there]

/-- A value that is found is bound in the scope that the name is found in. -/
theorem get_eq_ok (got : forest.get id name = .ok value) :
    ∃ home scope, forest.resolve id name = some home ∧ forest[home]? = some scope ∧
      (name, value) ∈ scope.bindings := by
  unfold get at got
  split at got
  · rename_i present found
    cases got
    obtain ⟨home, resolved, found⟩ := Option.bind_eq_some_iff.mp found
    obtain ⟨scope, there, found⟩ := Option.bind_eq_some_iff.mp found
    obtain ⟨before, after, split, -⟩ := List.lookup_eq_some_iff.mp found
    exact ⟨home, scope, resolved, there, by simp [split]⟩
  · cases got

theorem get_eq_error (got : forest.get id name = .error fault) : fault = .undefined name := by
  unfold get at got
  split at got
  · cases got
  · cases got
    rfl

end Scriptlet.Forest
