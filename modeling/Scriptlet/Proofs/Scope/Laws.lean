import Scriptlet.Proofs.Scope.Chain
import Scriptlet.Proofs.Scope.View

/-! Scopes as a store. Giving a bound name another value and binding a new name are both one write: one
scope binds one name to a value. From which scopes the write is seen is told by where names are found,
however many chains the scope is on. -/
namespace Scriptlet

namespace Scope

theorem find?_bind (scope : Scope) (name other : String) (value : Value) :
    (scope.bind name value).find? other = if other = name then some value else scope.find? other := by
  unfold find? bind
  rw [List.lookup_cons]
  by_cases same : other = name
  · simp [same]
  · have apart : (other == name) = false := by simpa using same
    simp [same, apart]

theorem find?_rebind (scope : Scope) (name other : String) (value : Value) :
    (scope.rebind name value).find? other =
      if other = name then (scope.find? name).map fun _ => value else scope.find? other := by
  obtain ⟨enclosing, bindings⟩ := scope
  unfold find? rebind
  induction bindings with
  | nil => simp
  | cons binding rest ih =>
    dsimp only at ih
    rw [List.map_cons, List.lookup_cons, ih, List.lookup_cons, List.lookup_cons]
    by_cases same : other = name
    · by_cases bound : binding.1 = name
      · simp [bound, same]
      · have apart : (name == binding.1) = false := by simpa using Ne.symm bound
        simp [bound, same, apart]
    · by_cases bound : binding.1 = name
      · have apart : (other == name) = false := by simpa using same
        simp [bound, same, apart]
      · simp [bound, same]

end Scope

namespace Forest

/-- The value that a scope itself binds a name to. -/
def held? (forest : Forest) (id : ScopeId) (name : String) : Option Value :=
  forest[id]?.bind (·.find? name)

/-- The scope that a scope lies in. -/
def enclosing? (forest : Forest) (id : ScopeId) : Option ScopeId :=
  forest[id]?.bind Scope.enclosing

/-- `Nearest forest name id home`: of the scopes from `id` on outwards, `home` is the first one that
binds the name. -/
inductive Nearest (forest : Forest) (name : String) : (id home : ScopeId) → Prop where
  | here {id : ScopeId} (bound : (forest.held? id name).isSome) : Nearest forest name id id
  | outward {id outer home : ScopeId} (unbound : forest.held? id name = none)
      (inside : forest.enclosing? id = some outer) (nearest : Nearest forest name outer home) : Nearest forest name id home

variable {forest after : Forest} {id home found place : ScopeId} {name seen : String} {value : Value}

theorem Nearest.bound (nearest : forest.Nearest name id home) :
    ∃ value, forest.held? home name = some value := by
  induction nearest with
  | here bound => exact Option.isSome_iff_exists.mp bound
  | outward unbound inside nearest ih => exact ih

theorem Nearest.unique (first : forest.Nearest name id home) (second : forest.Nearest name id found) :
    home = found := by
  induction first with
  | here bound =>
    cases second with
    | here => rfl
    | outward unbound => simp [unbound] at bound
  | outward unbound inside nearest ih =>
    cases second with
    | here bound => simp [unbound] at bound
    | outward _ again further =>
      cases inside.symm.trans again
      exact ih further

/-- Where a name is found depends only on which scopes bind it and where they lie. -/
theorem Nearest.congr (bound : ∀ id, (after.held? id name).isSome = (forest.held? id name).isSome)
    (enclosing : ∀ id, after.enclosing? id = forest.enclosing? id)
    (nearest : forest.Nearest name id home) : after.Nearest name id home := by
  induction nearest with
  | here there => exact .here ((bound _).trans there)
  | outward unbound inside nearest ih =>
    refine .outward ?_ ((enclosing _).trans inside) ih
    rw [← Option.not_isSome_iff_eq_none, bound, unbound]
    simp

section Resolving

theorem Ordered.enclosing?_lt (ordered : forest.Ordered) (inside : forest.enclosing? id = some home) :
    home < id := by
  obtain ⟨scope, there, inside⟩ := Option.bind_eq_some_iff.mp inside
  exact ordered id scope home there inside

theorem Ordered.of_enclosing (ordered : forest.Ordered)
    (enclosing : ∀ id, after.enclosing? id = forest.enclosing? id) : after.Ordered := by
  intro id scope outer there inside
  apply ordered.enclosing?_lt
  rw [← enclosing, enclosing?, there]
  exact inside

theorem resolveWithin_step (forest : Forest) (name : String) (fuel : Nat) (id : ScopeId) :
    forest.resolveWithin name (fuel + 1) id =
      if (forest.held? id name).isSome then some id
      else (forest.enclosing? id).bind (forest.resolveWithin name fuel) := by
  rw [resolveWithin, held?, enclosing?]
  cases forest[id]? with
  | none => rfl
  | some scope => rfl

theorem nearest_of_resolveWithin (resolved : forest.resolveWithin name fuel id = some home) :
    forest.Nearest name id home := by
  induction fuel generalizing id with
  | zero => cases resolved
  | succ fuel ih =>
    rw [resolveWithin_step] at resolved
    split at resolved
    · rename_i bound
      cases resolved
      exact .here bound
    · rename_i unbound
      obtain ⟨outer, inside, further⟩ := Option.bind_eq_some_iff.mp resolved
      exact .outward (Option.not_isSome_iff_eq_none.mp unbound) inside (ih further)

/-- Each step outwards leads to an earlier scope, so there are enough of them. -/
theorem Nearest.resolveWithin (nearest : forest.Nearest name id home) (ordered : forest.Ordered)
    (enough : id < fuel) : forest.resolveWithin name fuel id = some home := by
  induction nearest generalizing fuel with
  | here bound =>
    obtain ⟨fuel, rfl⟩ := Nat.exists_eq_add_of_lt enough
    rw [resolveWithin_step, if_pos bound]
  | outward unbound inside nearest ih =>
    obtain ⟨fuel, rfl⟩ := Nat.exists_eq_add_of_lt enough
    have earlier := ordered.enclosing?_lt inside
    rw [resolveWithin_step, unbound, inside]
    exact ih (Nat.lt_of_lt_of_le earlier (Nat.le_add_right _ fuel))

theorem resolve_eq_some_iff (ordered : forest.Ordered) :
    forest.resolve id name = some home ↔ forest.Nearest name id home := by
  constructor
  · intro resolved
    exact nearest_of_resolveWithin resolved
  · intro nearest
    exact nearest.resolveWithin ordered (Nat.lt_succ_self id)

theorem resolve_eq_none_iff (ordered : forest.Ordered) :
    forest.resolve id name = none ↔ ∀ home, ¬ forest.Nearest name id home := by
  simp only [Option.eq_none_iff_forall_ne_some, ne_eq, resolve_eq_some_iff ordered]

theorem get_eq_ok_iff (ordered : forest.Ordered) :
    forest.get id name = .ok value ↔
      ∃ home, forest.Nearest name id home ∧ forest.held? home name = some value := by
  have shape : forest.get id name =
      ((forest.resolve id name).bind (forest.held? · name)).elim (.error (.undefined name)) .ok := by
    unfold get held?
    cases (forest.resolve id name).bind fun home => forest[home]?.bind (·.find? name) <;> rfl
  simp only [← resolve_eq_some_iff ordered, ← Option.bind_eq_some_iff, shape]
  cases (forest.resolve id name).bind (forest.held? · name) with
  | none => simp
  | some held => simp

theorem get_eq_error_iff (ordered : forest.Ordered) :
    forest.get id name = .error fault ↔
      fault = .undefined name ∧ ∀ home, ¬ forest.Nearest name id home := by
  constructor
  · intro failed
    refine ⟨get_eq_error failed, fun home nearest => ?_⟩
    obtain ⟨value, held⟩ := nearest.bound
    have got := (get_eq_ok_iff ordered).mpr ⟨home, nearest, held⟩
    rw [failed] at got
    cases got
  · rintro ⟨rfl, nowhere⟩
    unfold get
    rw [(resolve_eq_none_iff ordered).mpr nowhere]
    rfl

end Resolving

/-- One scope binds one name to a value, and nothing else is different. -/
structure Writes (forest : Forest) (home : ScopeId) (name : String) (value : Value) (after : Forest) :
    Prop where
  size : after.size = forest.size
  enclosing : ∀ id, after.enclosing? id = forest.enclosing? id
  held : ∀ id other, after.held? id other =
    if id = home ∧ other = name then some value else forest.held? id other

/-- From the scopes of a set the name stands for the value, and whatever else any scope sees is as it was
before. -/
def Shows (forest after : Forest) (name : String) (value : Value) (sees : ScopeId → Prop) : Prop :=
  ∀ place seen,
    (seen = name ∧ sees place → after.get place seen = .ok value) ∧
    (¬ (seen = name ∧ sees place) → after.get place seen = forest.get place seen)

namespace Writes

theorem held_of_ne (writes : forest.Writes home name value after)
    (apart : ¬ (id = home ∧ seen = name)) : after.held? id seen = forest.held? id seen := by
  rw [writes.held, if_neg apart]

theorem ordered (writes : forest.Writes home name value after) (ordered : forest.Ordered) :
    after.Ordered :=
  ordered.of_enclosing writes.enclosing

/-- A name that is found in another scope after the write was found there before. -/
theorem nearest_before (writes : forest.Writes home name value after)
    (nearest : after.Nearest seen place found) (apart : ¬ (seen = name ∧ found = home)) :
    forest.Nearest seen place found := by
  induction nearest with
  | here bound =>
    apply Nearest.here
    rwa [← writes.held_of_ne fun same => apart same.symm]
  | @outward id outer found unbound inside nearest ih =>
    have other : ¬ (id = home ∧ seen = name) := by
      intro same
      rw [writes.held, if_pos same] at unbound
      cases unbound
    exact .outward ((writes.held_of_ne other).symm.trans unbound)
      ((writes.enclosing _).symm.trans inside) (ih apart)

theorem exists_nearest (writes : forest.Writes home name value after)
    (nearest : forest.Nearest seen place found) : ∃ found, after.Nearest seen place found := by
  induction nearest with
  | @here id bound =>
    refine ⟨id, .here ?_⟩
    by_cases written : id = home ∧ seen = name
    · rw [writes.held, if_pos written]
      rfl
    · rwa [writes.held_of_ne written]
  | @outward id outer found unbound inside nearest ih =>
    by_cases written : id = home ∧ seen = name
    · refine ⟨id, .here ?_⟩
      rw [writes.held, if_pos written]
      rfl
    · obtain ⟨found, nearest⟩ := ih
      exact ⟨found, .outward ((writes.held_of_ne written).trans unbound)
        ((writes.enclosing id).trans inside) nearest⟩

/-- The new value is seen from where the name is found in the scope that was written to. -/
theorem shows (writes : forest.Writes home name value after) (ordered : forest.Ordered) :
    forest.Shows after name value fun place => after.Nearest name place home := by
  have orderedAfter := writes.ordered ordered
  intro place seen
  constructor
  · rintro ⟨rfl, nearest⟩
    apply (get_eq_ok_iff orderedAfter).mpr
    refine ⟨home, nearest, ?_⟩
    rw [writes.held, if_pos ⟨rfl, rfl⟩]
  · intro hidden
    by_cases somewhere : ∃ found, after.Nearest seen place found
    · obtain ⟨found, nearest⟩ := somewhere
      have apart : ¬ (seen = name ∧ found = home) := by
        rintro ⟨rfl, rfl⟩
        exact hidden ⟨rfl, nearest⟩
      obtain ⟨held, binds⟩ := nearest.bound
      have before := (writes.held_of_ne fun same => apart same.symm).symm.trans binds
      rw [(get_eq_ok_iff orderedAfter).mpr ⟨found, nearest, binds⟩,
        (get_eq_ok_iff ordered).mpr ⟨found, writes.nearest_before nearest apart, before⟩]
    · have nowhere : ∀ found, ¬ forest.Nearest seen place found :=
        fun found nearest => somewhere (writes.exists_nearest nearest)
      rw [(get_eq_error_iff orderedAfter).mpr ⟨rfl, not_exists.mp somewhere⟩,
        (get_eq_error_iff ordered).mpr ⟨rfl, nowhere⟩]

/-- Where the name was bound before, every scope binds the names that it did, and they are found where
they were. -/
theorem isSome_held (writes : forest.Writes home name value after)
    (bound : (forest.held? home name).isSome) (id : ScopeId) (other : String) :
    (after.held? id other).isSome = (forest.held? id other).isSome := by
  by_cases written : id = home ∧ other = name
  · rw [writes.held, if_pos written, written.1, written.2, bound]
    rfl
  · rw [writes.held_of_ne written]

theorem nearest_iff (writes : forest.Writes home name value after)
    (bound : (forest.held? home name).isSome) :
    after.Nearest seen place found ↔ forest.Nearest seen place found := by
  have same := writes.isSome_held bound
  constructor
  · apply Nearest.congr
    · exact fun id => (same id seen).symm
    · exact fun id => (writes.enclosing id).symm
  · apply Nearest.congr
    · exact fun id => same id seen
    · exact writes.enclosing

end Writes

section Operations

theorem held?_modify (forest : Forest) (home id : ScopeId) (change : Scope → Scope) (name : String) :
    held? (forest.modify home change) id name =
      if id = home then forest[id]?.bind fun scope => (change scope).find? name
      else forest.held? id name := by
  unfold held?
  rw [Array.getElem?_modify]
  by_cases same : id = home
  · rw [if_pos same.symm, if_pos same, Option.bind_map]
    rfl
  · rw [if_neg (Ne.symm same), if_neg same]

theorem enclosing?_modify (forest : Forest) (home id : ScopeId) {change : Scope → Scope}
    (stays : ∀ scope, (change scope).enclosing = scope.enclosing) :
    enclosing? (forest.modify home change) id = forest.enclosing? id := by
  unfold enclosing?
  rw [Array.getElem?_modify]
  split
  · cases forest[id]? with
    | none => rfl
    | some scope => exact stays scope
  · rfl

theorem rebind_writes (bound : (forest.held? home name).isSome) (value : Value) :
    forest.Writes home name value (forest.modify home (·.rebind name value)) := by
  refine ⟨Array.size_modify, fun id => enclosing?_modify forest home id fun _ => rfl, ?_⟩
  intro id other
  rw [held?_modify]
  by_cases same : id = home
  · subst same
    obtain ⟨held, binds⟩ := Option.isSome_iff_exists.mp bound
    obtain ⟨scope, there, binds⟩ := Option.bind_eq_some_iff.mp binds
    simp [held?, there, Scope.find?_rebind, binds]
  · simp [same]

theorem bind_writes (bounded : home < forest.size) (name : String) (value : Value) :
    forest.Writes home name value (forest.modify home (·.bind name value)) := by
  refine ⟨Array.size_modify, fun id => enclosing?_modify forest home id fun _ => rfl, ?_⟩
  intro id other
  rw [held?_modify]
  by_cases same : id = home
  · subst same
    have there : forest[id]? = some forest[id] := Array.getElem?_eq_getElem bounded
    simp [held?, there, Scope.find?_bind]
  · simp [same]

theorem isDefined_eq (forest : Forest) (id : ScopeId) (name : String) :
    forest.isDefined id name = (forest.held? id name).isSome := by
  unfold isDefined held?
  cases forest[id]? with
  | none => rfl
  | some scope => rfl

theorem assign_found (ordered : forest.Ordered) (nearest : forest.Nearest name id home) (value : Value) :
    Store.assign id name value forest = .ok value (forest.modify home (·.rebind name value)) := by
  unfold Store.assign
  rw [(resolve_eq_some_iff ordered).mpr nearest]

theorem assign_missing (ordered : forest.Ordered) (nowhere : ∀ home, ¬ forest.Nearest name id home)
    (value : Value) : Store.assign id name value forest = .error (.undefined name) forest := by
  unfold Store.assign
  rw [(resolve_eq_none_iff ordered).mpr nowhere]

end Operations

/-- The forests that the operations on scopes make. -/
inductive Made : Forest → Prop where
  | empty : Made #[]
  | newScope {forest : Forest} (made : Made forest) (enclosing : Option ScopeId)
      (inside : ∀ outer ∈ enclosing, outer < forest.size) : Made (forest.push ⟨enclosing, []⟩)
  | assign {forest after : Forest} {result : Value} (made : Made forest) (id : ScopeId) (name : String)
      (value : Value) (run : Store.assign id name value forest = .ok result after) : Made after
  | define {forest after : Forest} (made : Made forest) (id : ScopeId) (name : String) (value : Value)
      (run : Store.define id name value forest = .ok () after) : Made after

theorem Made.ordered (made : forest.Made) : forest.Ordered := by
  induction made with
  | empty =>
    intro id scope outer there
    simp at there
  | newScope made enclosing inside ih =>
    intro id scope outer there lies
    rw [Array.getElem?_push] at there
    split at there
    · rename_i latest
      cases there
      rw [latest]
      exact inside outer lies
    · exact ih id scope outer there lies
  | assign made home name value run ih =>
    unfold Store.assign at run
    split at run
    · cases run
      exact ih.of_enclosing fun id => enclosing?_modify _ _ id fun _ => rfl
    · cases run
  | define made home name value run ih =>
    unfold Store.define at run
    split at run
    · cases run
    · cases run
      exact ih.of_enclosing fun id => enclosing?_modify _ _ id fun _ => rfl

/-- A look-up gives the value of the nearest binding, and fails exactly where there is none. To rebind a
name writes to its nearest binding, so that the value is seen from exactly the scopes that have the same
nearest binding; it fails where a look-up fails. To bind a new name writes to the scope itself, so that the
value is seen from where this is the nearest binding then; it fails exactly where the scope binds the name
already. What fails leaves everything as it was. -/
theorem scopes_obey_store_laws (ordered : forest.Ordered) (bounded : id < forest.size) (name : String)
    (value : Value) :
    (∀ found, forest.get id name = .ok found ↔
      ∃ home, forest.Nearest name id home ∧ forest.held? home name = some found) ∧
    (∀ fault, forest.get id name = .error fault ↔
      fault = .undefined name ∧ ∀ home, ¬ forest.Nearest name id home) ∧
    (∀ fault after, Store.assign id name value forest = .error fault after ↔
      fault = .undefined name ∧ after = forest ∧ ∀ home, ¬ forest.Nearest name id home) ∧
    (∀ result after, Store.assign id name value forest = .ok result after →
      result = value ∧ after.Ordered ∧ ∃ home, forest.Nearest name id home ∧
        forest.Writes home name value after ∧
        (∀ scope other, (after.held? scope other).isSome = (forest.held? scope other).isSome) ∧
        forest.Shows after name value fun place => forest.Nearest name place home) ∧
    (∀ fault after, Store.define id name value forest = .error fault after ↔
      fault = .duplicate name ∧ after = forest ∧ (forest.held? id name).isSome) ∧
    (∀ after, Store.define id name value forest = .ok () after →
      after.Ordered ∧ forest.held? id name = none ∧ forest.Writes id name value after ∧
        forest.Shows after name value fun place => after.Nearest name place id) := by
  refine ⟨fun _ => get_eq_ok_iff ordered, fun _ => get_eq_error_iff ordered, ?_, ?_, ?_, ?_⟩
  · intro fault after
    constructor
    · intro failed
      by_cases somewhere : ∃ home, forest.Nearest name id home
      · obtain ⟨home, nearest⟩ := somewhere
        rw [assign_found ordered nearest] at failed
        cases failed
      · rw [assign_missing ordered (not_exists.mp somewhere)] at failed
        cases failed
        exact ⟨rfl, rfl, not_exists.mp somewhere⟩
    · rintro ⟨rfl, rfl, nowhere⟩
      exact assign_missing ordered nowhere value
  · intro result after assigned
    by_cases somewhere : ∃ home, forest.Nearest name id home
    · obtain ⟨home, nearest⟩ := somewhere
      rw [assign_found ordered nearest] at assigned
      cases assigned
      have bound := Option.isSome_iff_exists.mpr nearest.bound
      have writes := rebind_writes bound value
      refine ⟨rfl, writes.ordered ordered, home, nearest, writes, writes.isSome_held bound, ?_⟩
      simp only [← writes.nearest_iff bound]
      exact writes.shows ordered
    · rw [assign_missing ordered (not_exists.mp somewhere)] at assigned
      cases assigned
  · intro fault after
    unfold Store.define
    rw [isDefined_eq]
    split
    · rename_i bound
      simp [bound, eq_comm]
    · rename_i unbound
      simp [unbound]
  · intro after defined
    unfold Store.define at defined
    rw [isDefined_eq] at defined
    split at defined
    · cases defined
    · rename_i unbound
      cases defined
      have writes := bind_writes bounded name value
      exact ⟨writes.ordered ordered, Option.not_isSome_iff_eq_none.mp unbound, writes,
        writes.shows ordered⟩

/-- Four scopes: an outer and a middle one bind the name, the innermost one lies in the middle one and
another one in the outer one. What is assigned in the innermost scope is seen in the middle one, and the
other scope still sees the outer binding. -/
theorem scopes_obey_store_laws_shadowed :
    let forest : Forest :=
      #[⟨none, [("a", .null)]⟩, ⟨some 0, [("a", .bool true)]⟩, ⟨some 1, []⟩, ⟨some 0, []⟩]
    forest.Ordered ∧ 2 < forest.size ∧
      ∃ after, Store.assign 2 "a" (.bool false) forest = .ok (.bool false) after ∧
        forest.Nearest "a" 2 1 ∧ after.get 1 "a" = .ok (.bool false) ∧
        ¬ forest.Nearest "a" 3 1 ∧ after.get 3 "a" = .ok .null := by
  intro forest
  have ordered : forest.Ordered := by
    have scopes := (((Made.empty.newScope none (by simp)).newScope (some 0) (by simp)).newScope (some 1)
      (by simp)).newScope (some 0) (by simp)
    have made : forest.Made := (scopes.define 0 "a" .null rfl).define 1 "a" (.bool true) rfl
    exact made.ordered
  have bounded : 2 < forest.size := by decide
  have middle : forest.Nearest "a" 2 1 := .outward rfl rfl (.here rfl)
  have outer : forest.Nearest "a" 3 0 := .outward rfl rfl (.here rfl)
  have elsewhere : ¬ forest.Nearest "a" 3 1 := fun nearest => by cases outer.unique nearest
  obtain ⟨-, -, -, assigned, -⟩ := scopes_obey_store_laws ordered bounded "a" (.bool false)
  obtain ⟨-, -, home, nearest, -, -, shows⟩ := assigned _ _ rfl
  cases middle.unique nearest
  refine ⟨ordered, bounded, _, rfl, middle, ?_, elsewhere, ?_⟩
  · exact (shows 1 "a").1 ⟨rfl, .here rfl⟩
  · rw [(shows 3 "a").2 fun same => elsewhere same.2]
    rfl

end Forest

end Scriptlet
