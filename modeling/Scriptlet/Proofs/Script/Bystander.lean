import Scriptlet.Proofs.Machine.History
import Scriptlet.Proofs.Machine.Parallel
import Scriptlet.Proofs.Scope.View

/-! A global that programs do not mention is a bystander: they run as if it were not there, and they
leave it as it is. Functions keep to the names of the program that declares them, so this holds for what
they do long afterwards as well. -/
namespace Scriptlet

section

variable (name : String) (value : Value)

/-- The scope with one more binding, older than all others. -/
def Scope.withOldest (scope : Scope) : Scope :=
  { scope with bindings := scope.bindings ++ [(name, value)] }

def Forest.withGlobal (forest : Forest) : Forest :=
  forest.modify Machine.globalScope (·.withOldest name value)

/-- The machine with one more global binding. -/
def Machine.withGlobal (machine : Machine) : Machine :=
  { machine with forest := machine.forest.withGlobal name value }

/-- The value is no function that mentions the name. -/
def Value.Omits (value : Value) : Prop :=
  ∀ function, value = .function function → name ∉ function.params ++ function.body.identifiers

/-- The name is not bound, nor does a function that is bound mention it. -/
def Scope.Omits (scope : Scope) : Prop :=
  ∀ binding ∈ scope.bindings, binding.1 ≠ name ∧ binding.2.Omits name

end

variable {name used : String} {value : Value} {history : History}

namespace Scope

theorem find?_withOldest (scope : Scope) (other : used ≠ name) :
    (scope.withOldest name value).find? used = scope.find? used := by
  have apart : (used == name) = false := by simpa using other
  rw [find?, withOldest, List.lookup_append, List.lookup_cons, apart, List.lookup_nil, Option.or_none,
    find?]

/-- A name that nothing else binds stands for its oldest binding. -/
theorem Omits.find?_withOldest {scope : Scope} (omits : scope.Omits name) :
    (scope.withOldest name value).find? name = some value := by
  have unbound : scope.bindings.lookup name = none := by
    rw [List.lookup_eq_none_iff]
    intro binding listed
    simpa using (omits binding listed).1.symm
  rw [find?, withOldest, List.lookup_append, unbound, List.lookup_cons_self, Option.none_or]

theorem bind_withOldest (scope : Scope) (used : String) (new : Value) :
    (scope.withOldest name value).bind used new = (scope.bind used new).withOldest name value := rfl

theorem rebind_withOldest (scope : Scope) (other : used ≠ name) (new : Value) :
    (scope.withOldest name value).rebind used new = (scope.rebind used new).withOldest name value := by
  simp [rebind, withOldest, Ne.symm other]

theorem Omits.bind {scope : Scope} (omits : scope.Omits name) (other : used ≠ name)
    (new : Value.Omits name value) : (scope.bind used value).Omits name :=
  scope.forall_bind omits ⟨other, new⟩

theorem Omits.rebind {scope : Scope} (omits : scope.Omits name) (other : used ≠ name)
    (new : Value.Omits name value) : (scope.rebind used value).Omits name :=
  scope.forall_rebind omits ⟨other, new⟩

/-- In the order of names, the bindings are as before but for the one that is added. -/
theorem Omits.sorted_withOldest {scope : Scope} (omits : scope.Omits name) (once : scope.names.Nodup) :
    (scope.withOldest name value).sorted.filter (·.1 ≠ name) = scope.sorted := by
  have trans (a b c : String × Value) (first : !(b.1 < a.1)) (second : !(c.1 < b.1)) : !(c.1 < a.1) := by
    simp only [Bool.not_eq_true', decide_eq_false_iff_not, not_lt] at first second ⊢
    exact le_trans first second
  have total (a b : String × Value) : (!(b.1 < a.1) || !(a.1 < b.1)) = true := by
    simp only [Bool.or_eq_true, Bool.not_eq_true', decide_eq_false_iff_not, not_lt]
    exact le_total a.1 b.1
  have rest : (scope.withOldest name value).bindings.filter (·.1 ≠ name) = scope.bindings := by
    rw [withOldest, List.filter_append, List.filter_eq_self.mpr]
    · simp
    · exact fun binding listed => by simpa using (omits binding listed).1
  have sorted := List.pairwise_mergeSort trans total scope.bindings
  have filtered := (List.pairwise_mergeSort trans total (scope.withOldest name value).bindings).filter
    (·.1 ≠ name)
  have same := (List.mergeSort_perm scope.bindings fun left right => !(right.1 < left.1))
  have sameRest := (List.mergeSort_perm (scope.withOldest name value).bindings
    fun left right => !(right.1 < left.1)).filter (·.1 ≠ name)
  rw [rest] at sameRest
  -- names occur once, so there is only one way to sort the bindings
  refine List.Perm.eq_of_pairwise (fun left right inFirst inSecond notAfter notBefore => ?_)
    filtered sorted (sameRest.trans same.symm)
  simp only [Bool.not_eq_true', decide_eq_false_iff_not, not_lt] at notAfter notBefore
  exact List.inj_on_of_nodup_map once (sameRest.mem_iff.mp inFirst) (same.mem_iff.mp inSecond)
    (le_antisymm notAfter notBefore)

end Scope

namespace Forest

theorem view_withGlobal (forest : Forest) (other : used ≠ name) (id : ScopeId) :
    (forest.withGlobal name value).view used id = forest.view used id := by
  rw [view, withGlobal, Array.getElem?_modify, view]
  split
  · rw [Option.map_map]
    refine Option.map_congr fun scope _ => ?_
    exact congrArg (Prod.mk scope.enclosing) (scope.find?_withOldest other)
  · rfl

theorem modify_withGlobal (forest : Forest) (home : ScopeId) {change : Scope → Scope}
    (same : ∀ scope : Scope, change (scope.withOldest name value) =
      (change scope).withOldest name value) :
    (forest.withGlobal name value).modify home change =
      withGlobal name value (forest.modify home change) := by
  apply Array.ext_getElem?
  intro index
  simp only [withGlobal, Array.getElem?_modify]
  cases forest[index]? with
  | none => simp
  | some scope =>
    by_cases here : home = index
    · by_cases global : Machine.globalScope = index
      · simp [here, global, same]
      · simp [here, global]
    · by_cases global : Machine.globalScope = index
      · simp [here, global]
      · simp [here, global]

theorem push_withGlobal (forest : Forest) (inhabited : 0 < forest.size) (scope : Scope) :
    (forest.withGlobal name value).push scope = withGlobal name value (forest.push scope) := by
  apply Array.ext_getElem?
  intro index
  simp only [withGlobal, Array.getElem?_push, Array.getElem?_modify, Array.size_modify]
  by_cases last : index = forest.size
  · have apart : Machine.globalScope ≠ index := by
      rw [last]
      exact Nat.ne_of_lt inhabited
    simp [last, last ▸ apart]
  · simp [last]

end Forest

namespace Eval

/-- The machine has an inhabitant more in its global scope, and does not know of it. -/
structure Overlooks (name : String) (value : Value) (machine twin : Machine) : Prop where
  twin : twin = machine.withGlobal name value
  inhabited : 0 < machine.forest.size
  omits : ∀ scope ∈ machine.forest, scope.Omits name

namespace Overlooks

variable {machine twin : Machine}

theorem view (overlooks : Overlooks name value machine twin) (other : used ≠ name) (id : ScopeId) :
    twin.forest.view used id = machine.forest.view used id := by
  rw [overlooks.twin]
  exact machine.forest.view_withGlobal other id

theorem modify (overlooks : Overlooks name value machine twin) (home : ScopeId) {change : Scope → Scope}
    (same : ∀ scope : Scope, change (scope.withOldest name value) =
      (change scope).withOldest name value)
    (kept : ∀ scope : Scope, scope.Omits name → (change scope).Omits name) :
    Overlooks name value { machine with forest := machine.forest.modify home change }
      { twin with forest := twin.forest.modify home change } where
  twin := by
    rw [overlooks.twin]
    unfold Machine.withGlobal
    rw [machine.forest.modify_withGlobal home same]
  inhabited := by
    rw [Array.size_modify]
    exact overlooks.inhabited
  omits := forall_modify overlooks.omits kept

theorem push (overlooks : Overlooks name value machine twin) (enclosing : ScopeId) :
    Overlooks name value { machine with forest := machine.forest.push ⟨some enclosing, []⟩ }
      { twin with forest := twin.forest.push ⟨some enclosing, []⟩ } where
  twin := by
    rw [overlooks.twin]
    unfold Machine.withGlobal
    rw [machine.forest.push_withGlobal overlooks.inhabited]
  inhabited := by
    rw [Array.size_push]
    exact Nat.zero_lt_succ _
  omits scope member := by
    rcases Array.mem_push.mp member with old | rfl
    · exact overlooks.omits scope old
    · intro binding listed
      cases listed

theorem moved (overlooks : Overlooks name value machine twin) (id : ScopeId) :
    Overlooks name value { machine with current := id } { twin with current := id } where
  twin := by
    rw [overlooks.twin]
    rfl
  inhabited := overlooks.inhabited
  omits := overlooks.omits

theorem size (overlooks : Overlooks name value machine twin) :
    twin.forest.size = machine.forest.size := by
  rw [overlooks.twin]
  exact Array.size_modify

theorem current (overlooks : Overlooks name value machine twin) : twin.current = machine.current := by
  rw [overlooks.twin]
  rfl

theorem resolve (overlooks : Overlooks name value machine twin) (other : used ≠ name) :
    twin.forest.resolve twin.current used = machine.forest.resolve machine.current used := by
  have everywhere : machine.forest.Encloses fun _ => True := fun _ _ _ _ _ _ => trivial
  rw [overlooks.current]
  exact Forest.resolve_congr everywhere (fun id _ => overlooks.view other id) trivial

theorem get (overlooks : Overlooks name value machine twin) (other : used ≠ name) :
    twin.forest.get twin.current used = machine.forest.get machine.current used := by
  have everywhere : machine.forest.Encloses fun _ => True := fun _ _ _ _ _ _ => trivial
  rw [overlooks.current]
  exact Forest.get_congr everywhere (fun id _ => overlooks.view other id) trivial

theorem global (overlooks : Overlooks name value machine twin) :
    ∃ scope, machine.forest[Machine.globalScope]? = some scope ∧ scope.Omits name ∧
      twin.forest[Machine.globalScope]? = some (scope.withOldest name value) := by
  obtain ⟨scope, there⟩ : ∃ scope, machine.forest[Machine.globalScope]? = some scope :=
    ⟨_, Array.getElem?_eq_getElem overlooks.inhabited⟩
  refine ⟨scope, there, overlooks.omits scope (Array.mem_of_getElem? there), ?_⟩
  rw [overlooks.twin, Machine.withGlobal, Forest.withGlobal, Array.getElem?_modify, if_pos rfl]
  exact congrArg (Option.map _) there

/-- What is overlooked can be found. -/
theorem get_unmentioned (overlooks : Overlooks name value machine twin) :
    twin.forest.get Machine.globalScope name = .ok value := by
  obtain ⟨scope, -, omits, there⟩ := overlooks.global
  have found : (scope.withOldest name value).find? name = some value := omits.find?_withOldest
  rw [Forest.get, Forest.resolve, Forest.resolveWithin, there]
  simp [Scope.binds, found, there]

theorem globals (overlooks : Overlooks name value machine twin) (recorded : machine.Recorded history) :
    twin.globals.filter (·.1 ≠ name) = machine.globals := by
  obtain ⟨scope, found, omits, there⟩ := overlooks.global
  obtain ⟨birth, -, keeps⟩ := recorded.exists_birth found
  rw [Machine.globals, Machine.globals, found, there]
  exact omits.sorted_withOldest keeps.once

end Overlooks

/-- Machines of which the second has one more global, which is not mentioned. -/
def bystander (name : String) (value : Value) : Parallel Unit where
  fits _ := Overlooks name value
  knows _ known := known.Omits name
  allows used := used ≠ name
  change _ _ := True
  refl _ := trivial
  trans _ _ := trivial
  keeps _ omits := omits
  scalar _ _ _ same := by cases same
  callee {_ function} omits used listed same := omits function rfl (same ▸ listed)
  size := Overlooks.size
  current := Overlooks.current
  get := Overlooks.get
  resolve := Overlooks.resolve
  isDefined overlooks other := by
    rw [overlooks.current]
    exact Forest.isDefined_congr (overlooks.view other _)
  found overlooks got := by
    obtain ⟨home, scope, -, there, bound⟩ := Forest.get_eq_ok got
    exact (overlooks.omits scope (Array.mem_of_getElem? there) _ bound).2
  printed line overlooks := { overlooks with twin := by rw [overlooks.twin]; rfl }
  noted event overlooks := { overlooks with twin := by rw [overlooks.twin]; rfl }
  assigned overlooks other new _ :=
    ⟨(), trivial, overlooks.modify _ (fun scope => scope.rebind_withOldest other _)
      fun _ omits => omits.rebind other new⟩
  defined overlooks other new _ := by
    refine ⟨(), trivial, ?_⟩
    cases overlooks.twin
    exact overlooks.modify _ (fun scope => scope.bind_withOldest _ _)
      fun _ omits => omits.bind other new
  closed {_ machine _} overlooks := by
    refine ⟨(), trivial, ?_, fun _ params body unmentioned function same listed => ?_⟩
    · cases overlooks.twin
      exact overlooks.push machine.current
    · cases same
      exact unmentioned name listed rfl
  entered {_ machine twin enclosing} overlooks _ := by
    refine ⟨(), trivial, ?_, fun _ after => ?_⟩
    · rw [overlooks.size]
      exact (overlooks.push enclosing).moved machine.forest.size
    · rw [overlooks.current]
      exact after.moved machine.current

end Eval

namespace Script

/-- Runs programs one after the other, whatever becomes of each, and says how each of them ended. -/
def interpretEach (limits : Limits) : List (List Node) → Machine → List (Except Error Unit) × Machine
  | [], machine => ([], machine)
  | program :: rest, machine =>
    let (ended, after) := interpret limits program machine
    let (others, last) := interpretEach limits rest after
    (ended :: others, last)

variable {limits : Limits} {programs : List (List Node)} {machine twin : Machine}

theorem interpret_overlooks (limits : Limits) {program : List Node}
    (unmentioned : name ∉ Node.identifiersAll program)
    (overlooks : Eval.Overlooks name value machine twin) :
    (interpret limits program twin).1 = (interpret limits program machine).1 ∧
      Eval.Overlooks name value (interpret limits program machine).2
        (interpret limits program twin).2 := by
  have permitted : (Eval.bystander name value).Permits (Node.identifiersAll program) :=
    fun used listed same => unmentioned (same ▸ listed)
  have ended := (Eval.bystander name value).interpret_runs limits permitted () machine twin overlooks
  unfold interpret
  generalize Eval.interpret limits program machine = one at ended
  generalize Eval.interpret limits program twin = two at ended
  cases ended with
  | ok _ fits _ => exact ⟨rfl, fits⟩
  | error _ fits => exact ⟨rfl, fits⟩

theorem interpretEach_overlooks (limits : Limits)
    (unmentioned : ∀ program ∈ programs, name ∉ Node.identifiersAll program)
    (overlooks : Eval.Overlooks name value machine twin) :
    (interpretEach limits programs twin).1 = (interpretEach limits programs machine).1 ∧
      Eval.Overlooks name value (interpretEach limits programs machine).2
        (interpretEach limits programs twin).2 := by
  induction programs generalizing machine twin with
  | nil => exact ⟨rfl, overlooks⟩
  | cons program rest ih =>
    obtain ⟨here, below⟩ := List.forall_mem_cons.mp unmentioned
    obtain ⟨sameEnd, after⟩ := interpret_overlooks limits here overlooks
    obtain ⟨sameEnds, last⟩ := ih below after
    exact ⟨List.cons_eq_cons.mpr ⟨sameEnd, sameEnds⟩, last⟩

theorem interpretEach_recorded (limits : Limits) (programs : List (List Node))
    (recorded : machine.Recorded history) :
    ∃ later, (interpretEach limits programs machine).2.Recorded later := by
  induction programs generalizing machine history with
  | nil => exact ⟨history, recorded⟩
  | cons program rest ih =>
    have fits : (Eval.historyAccount history).fits history machine := ⟨List.prefix_refl _, recorded⟩
    obtain ⟨middle, -, -, after⟩ := (Eval.historyAccount history).interpret_ends limits program fits
    exact ih after

/-- A global that programs do not mention, whatever its value, changes nothing: they end in the same way,
print the same and leave the same globals beside it, and it is still bound to its value. -/
theorem unmentioned_global_is_bystander (limits : Limits) (name : String) (value : Value)
    {programs : List (List Node)}
    (unmentioned : ∀ program ∈ programs, name ∉ Node.identifiersAll program) :
    let plain := interpretEach limits programs .fresh
    let extended := interpretEach limits programs (Machine.fresh.withGlobal name value)
    extended.1 = plain.1 ∧ extended.2.output = plain.2.output ∧
      extended.2 = plain.2.withGlobal name value ∧
      extended.2.globals.filter (·.1 ≠ name) = plain.2.globals ∧
      extended.2.forest.get Machine.globalScope name = .ok value := by
  intro plain extended
  have overlooks : Eval.Overlooks name value .fresh (Machine.fresh.withGlobal name value) := by
    refine ⟨rfl, Nat.zero_lt_one, fun scope member => ?_⟩
    cases Array.mem_singleton.mp member
    exact fun _ listed => by cases listed
  obtain ⟨ends, after⟩ := interpretEach_overlooks limits unmentioned overlooks
  obtain ⟨history, recorded⟩ := interpretEach_recorded limits programs .fresh
  have same : extended.2 = plain.2.withGlobal name value := after.twin
  refine ⟨ends, ?_, same, after.globals recorded, after.get_unmentioned⟩
  exact (congrArg Machine.output same :)

/-- A function that fails when it is called in a later program. -/
theorem unmentioned_global_is_bystander_failure :
    let declaring : List Node := [.fnDecl 1 "f" [] (.block 1 [.printStmt 1 (.reference 1 "y")])]
    let calling : List Node := [.exprStmt 1 (.call 1 (.reference 1 "f") [])]
    let plain := interpretEach .standard [declaring, calling] .fresh
    let extended := interpretEach .standard [declaring, calling] (Machine.fresh.withGlobal "x" .null)
    plain.1 = [.ok (), .error (.run (.undefined "y"))] ∧ extended.1 = plain.1 ∧
      extended.2.forest.get Machine.globalScope "x" = .ok .null := by
  intro declaring calling plain extended
  have unmentioned : ∀ program ∈ [declaring, calling], "x" ∉ Node.identifiersAll program := by decide
  obtain ⟨ends, -, -, -, kept⟩ := unmentioned_global_is_bystander .standard "x" .null unmentioned
  exact ⟨rfl, ends, kept⟩

end Script

end Scriptlet
