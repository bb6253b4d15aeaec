import Scriptlet.Proofs.Machine.Safety
import Scriptlet.Proofs.Scope.View

/-! Which scopes code can get at: those around the scope that it runs in, those of the functions that
are bound in any of these, and so on. Beside them there are the scopes that it makes itself. -/
namespace Scriptlet

/-- The scopes that can be reached from some scopes, by going from a scope to the one around it and to
those of the functions that it binds. -/
inductive Forest.Reaches (forest : Forest) (roots : ScopeId → Prop) : ScopeId → Prop where
  | root {id : ScopeId} (starts : roots id) : Reaches forest roots id
  | around {id outer : ScopeId} {scope : Scope} (reached : Reaches forest roots id)
      (there : forest[id]? = some scope) (inside : scope.enclosing = some outer) :
      Reaches forest roots outer
  | closure {id : ScopeId} {scope : Scope} {name : String} {function : Function}
      (reached : Reaches forest roots id) (there : forest[id]? = some scope)
      (bound : (name, .function function) ∈ scope.bindings) :
      Reaches forest roots function.closure

/-- The scopes that a run may deal with: those that can be reached when it starts, and those that it
makes itself, which have numbers from `old` on. -/
structure Territory where
  reach : ScopeId → Prop
  old : Nat

namespace Territory

/-- The territory when there are so many scopes. -/
def Owns (territory : Territory) (size : Nat) (id : ScopeId) : Prop :=
  territory.reach id ∨ territory.old ≤ id ∧ id < size

/-- Where code starts that begins with some scopes. -/
def ofRoots (forest : Forest) (roots : ScopeId → Prop) : Territory :=
  ⟨forest.Reaches roots, forest.size⟩

variable {territory : Territory} {size later : Nat} {id : ScopeId}

theorem Owns.grow (owns : territory.Owns size id) (grown : size ≤ later) : territory.Owns later id := by
  rcases owns with reached | ⟨new, made⟩
  · exact .inl reached
  · exact .inr ⟨new, Nat.lt_of_lt_of_le made grown⟩

/-- The latest scope has just been made, and the others were there before. -/
theorem Owns.earlier (owns : territory.Owns (size + 1) id) (apart : id ≠ size) :
    territory.Owns size id := by
  rcases owns with reached | ⟨new, made⟩
  · exact .inl reached
  · exact .inr ⟨new, Nat.lt_of_le_of_ne (Nat.le_of_lt_succ made) apart⟩

theorem Owns.reach (owns : territory.Owns size id) (wasThere : id < territory.old) :
    territory.reach id := by
  rcases owns with reached | ⟨new, -⟩
  · exact reached
  · exact absurd wasThere (Nat.not_lt_of_le new)

/-- When the run starts, it has made no scope yet. -/
theorem Owns.reach_first (owns : territory.Owns territory.old id) : territory.reach id := by
  rcases owns with reached | ⟨new, made⟩
  · exact reached
  · exact absurd made (Nat.not_lt_of_le new)

end Territory

/-- If the value is a function, its scope is one of the set. -/
def Value.LiesIn (own : ScopeId → Prop) (value : Value) : Prop :=
  ∀ function, value = .function function → own function.closure

/-- The functions that the scope binds have their scopes in the set. -/
def Scope.LeadsTo (own : ScopeId → Prop) (scope : Scope) : Prop :=
  ∀ binding ∈ scope.bindings, binding.2.LiesIn own

theorem Value.LiesIn.grow {territory : Territory} {size later : Nat} {value : Value}
    (lies : value.LiesIn (territory.Owns size)) (grown : size ≤ later) :
    value.LiesIn (territory.Owns later) :=
  fun function same => (lies function same).grow grown

theorem Scope.LeadsTo.grow {territory : Territory} {size later : Nat} {scope : Scope}
    (leads : scope.LeadsTo (territory.Owns size)) (grown : size ≤ later) :
    scope.LeadsTo (territory.Owns later) :=
  fun binding listed => (leads binding listed).grow grown

end Scriptlet
