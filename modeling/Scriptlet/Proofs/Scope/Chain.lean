import Scriptlet.Scope

/-! The scopes around a scope form a chain, and a name stands for its nearest binding on that chain. -/
namespace Scriptlet.Forest

/-- A scope and those around it, from the inside out. -/
inductive Chain (forest : Forest) : ScopeId → List ScopeId → Prop where
  | outermost {id : ScopeId} {scope : Scope} (there : forest[id]? = some scope)
      (free : scope.enclosing = none) : Chain forest id [id]
  | inner {id outer : ScopeId} {scope : Scope} (there : forest[id]? = some scope)
      (inside : scope.enclosing = some outer) (around : Chain forest outer ids) :
      Chain forest id (id :: ids)

/-- Scopes lie in earlier ones. -/
def Ordered (forest : Forest) : Prop :=
  ∀ (id : ScopeId) (scope : Scope) (outer : ScopeId), forest[id]? = some scope →
    scope.enclosing = some outer → outer < id

variable {forest : Forest} {id : ScopeId} {ids : List ScopeId} {outer : ScopeId}
variable {before : List ScopeId}

theorem Ordered.exists_chain (ordered : forest.Ordered) (bounded : id < forest.size) :
    ∃ ids, forest.Chain id ids := by
  induction id using Nat.strongRecOn with
  | ind id ih =>
    have there : forest[id]? = some forest[id] := Array.getElem?_eq_getElem bounded
    cases enclosing : forest[id].enclosing with
    | none => exact ⟨_, .outermost there enclosing⟩
    | some outer =>
      have earlier : outer < id := ordered _ _ _ there enclosing
      obtain ⟨ids, around⟩ := ih outer earlier (Nat.lt_trans earlier bounded)
      exact ⟨_, .inner there enclosing around⟩

namespace Chain

theorem length_le (ordered : forest.Ordered) (chain : forest.Chain id ids) : ids.length ≤ id + 1 := by
  induction chain with
  | outermost there free => simp
  | inner there inside around ih =>
    exact Nat.succ_le_succ (Nat.le_trans ih (ordered _ _ _ there inside))

/-- A chain ends with a scope that lies in no other. -/
theorem last (chain : forest.Chain id ids) :
    ∃ outermost scope, ids.getLast? = some outermost ∧ forest[outermost]? = some scope ∧
      scope.enclosing = none := by
  induction chain with
  | outermost there free => exact ⟨_, _, rfl, there, free⟩
  | inner there inside around ih =>
    obtain ⟨outermost, scope, ends, found, free⟩ := ih
    exact ⟨outermost, scope, by rw [List.getLast?_cons, ends, Option.getD_some], found, free⟩

/-- The part of a chain from any of its scopes on is the chain of that scope. -/
theorem tail (chain : forest.Chain id (before ++ outer :: ids)) : forest.Chain outer (outer :: ids) := by
  induction before generalizing id with
  | nil =>
    cases chain with
    | outermost there free => exact .outermost there free
    | inner there inside around => exact .inner there inside around
  | cons first before ih =>
    generalize listed : first :: before ++ outer :: ids = all at chain
    cases chain with
    | outermost there free => simp at listed
    | inner there inside around =>
      obtain ⟨-, rfl⟩ := List.cons.inj listed
      exact ih around

/-- A search along the chain ends with the nearest scope that binds the name, if it may take as many
steps as the chain is long. -/
theorem resolveWithin (chain : forest.Chain id ids) (name : String) (enough : ids.length ≤ fuel) :
    forest.resolveWithin name fuel id = ids.find? (forest.isDefined · name) := by
  induction chain generalizing fuel with
  | outermost there free =>
    obtain ⟨fuel, rfl⟩ := Nat.exists_eq_add_of_lt (Nat.lt_of_succ_le enough)
    simp [Forest.resolveWithin, there, free, isDefined]
  | inner there inside around ih =>
    cases fuel with
    | zero => cases enough
    | succ fuel =>
      rw [List.length_cons] at enough
      simp only [Forest.resolveWithin, there, inside, List.find?_cons, isDefined, Option.any_some,
        Option.bind_some, ih (Nat.le_of_succ_le_succ enough)]
      split <;> simp_all

theorem resolve (ordered : forest.Ordered) (chain : forest.Chain id ids) (name : String) :
    forest.resolve id name = ids.find? (forest.isDefined · name) :=
  chain.resolveWithin name (chain.length_le ordered)

/-- Names that no scope before a certain one binds stand for what they stand for from there. -/
theorem resolve_skip (ordered : forest.Ordered) (chain : forest.Chain id (before ++ outer :: ids))
    (unbound : ∀ scope ∈ before, forest.isDefined scope name = false) :
    forest.resolve id name = forest.resolve outer name := by
  rw [chain.resolve ordered, chain.tail.resolve ordered, List.find?_append]
  have none : before.find? (forest.isDefined · name) = none := by simpa using unbound
  rw [none, Option.none_or]

end Chain

end Scriptlet.Forest
