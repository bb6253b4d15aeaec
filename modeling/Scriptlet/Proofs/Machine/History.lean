import Mathlib
import Scriptlet.Proofs.Machine.Names
import Scriptlet.Proofs.Scope.Chain
import Scriptlet.Proofs.Scope.View

/-! The history of a machine says of each of its scopes how it came to be. A run only adds to the
history, and at all times the scopes are as the history says. -/
namespace Scriptlet

open Scriptlet.Action

/-- How a scope came to be. -/
inductive Birth where
  | global
  /-- For a block or a call, inside another scope. -/
  | opened (outer : ScopeId)
  /-- For the function of a declaration, inside the scope in which the declaration was executed. -/
  | closure (outer : ScopeId)

def Birth.enclosing : Birth → Option ScopeId
  | .global => none
  | .opened outer | .closure outer => some outer

/-- Of each scope there has ever been, how it came to be. -/
abbrev History := List Birth

namespace History

/-- The global scope comes first, and the others lie in earlier ones. -/
structure Formed (history : History) : Prop where
  global : history[0]? = some .global
  inner : ∀ (id : ScopeId) birth, history[id]? = some birth → id ≠ 0 →
    ∃ outer, birth.enclosing = some outer ∧ outer < id

/-- A function that can be met has a scope of its own, made by its declaration. -/
def Knows (history : History) : Value → Prop
  | .scalar _ => True
  | .function callee => ∃ outer, history[callee.closure]? = some (.closure outer)

variable {history later : History} {id : ScopeId}

theorem at_later (grown : history <+: later) (found : history[id]? = some birth) :
    later[id]? = some birth := by
  obtain ⟨more, rfl⟩ := grown
  rw [List.getElem?_append_left (List.getElem?_eq_some_iff.mp found).1]
  exact found

theorem Knows.grow (known : history.Knows value) (grown : history <+: later) : later.Knows value := by
  cases value with
  | scalar _ => trivial
  | function callee =>
    obtain ⟨outer, found⟩ := known
    exact ⟨outer, at_later grown found⟩

theorem Formed.append (formed : history.Formed) (lies : birth.enclosing = some outer)
    (earlier : outer < history.length) : Formed (history ++ [birth]) := by
  refine ⟨at_later (List.prefix_append _ _) formed.global, fun id other found inner => ?_⟩
  by_cases old : id < history.length
  · rw [List.getElem?_append_left old] at found
    exact formed.inner id other found inner
  · have last : id = history.length := by
      have bounded := (List.getElem?_eq_some_iff.mp found).1
      rw [List.length_append, List.length_singleton] at bounded
      exact Nat.le_antisymm (Nat.le_of_lt_succ bounded) (Nat.le_of_not_lt old)
    subst last
    rw [List.getElem?_concat_length] at found
    cases found
    exact ⟨outer, lies, earlier⟩

end History

/-- The scope is as its birth lets expect. -/
structure Scope.Keeps (scope : Scope) (history : History) (birth : Birth) : Prop where
  link : scope.enclosing = birth.enclosing
  once : scope.names.Nodup
  empty : ∀ outer, birth = .closure outer → scope.bindings = []
  stored : ∀ binding ∈ scope.bindings, history.Knows binding.2

namespace Scope.Keeps

variable {scope : Scope} {history later : History} {birth : Birth}

theorem grow (keeps : scope.Keeps history birth) (grown : history <+: later) :
    scope.Keeps later birth :=
  { keeps with stored := fun binding listed => (keeps.stored binding listed).grow grown }

theorem rebind (keeps : scope.Keeps history birth) (name : String) (known : history.Knows value) :
    (scope.rebind name value).Keeps history birth where
  link := keeps.link
  once := by
    rw [names_rebind]
    exact keeps.once
  empty outer closes := by
    rw [Scope.rebind, keeps.empty outer closes, List.map_nil]
  stored binding listed := by
    obtain ⟨old, inScope, rfl⟩ := List.mem_map.mp listed
    split
    · exact known
    · exact keeps.stored old inScope

theorem bind (keeps : scope.Keeps history birth) (apart : ∀ outer, birth ≠ .closure outer)
    (unbound : scope.binds name = false) (known : history.Knows value) :
    (scope.bind name value).Keeps history birth where
  link := keeps.link
  once := by
    rw [names_bind, List.nodup_cons, ← scope.binds_iff, unbound]
    exact ⟨Bool.false_ne_true, keeps.once⟩
  empty outer closes := absurd closes (apart outer)
  stored binding listed := by
    rcases List.mem_cons.mp listed with rfl | old
    · exact known
    · exact keeps.stored binding old

theorem blank (history : History) (lies : birth.enclosing = some outer) :
    (Scope.mk (some outer) []).Keeps history birth where
  link := lies.symm
  once := List.nodup_nil
  empty _ _ := rfl
  stored _ listed := by cases listed

end Scope.Keeps

/-- The machine is as its history says, and it executes nothing in the scope of a function. -/
structure Machine.Recorded (machine : Machine) (history : History) : Prop where
  formed : history.Formed
  size : machine.forest.size = history.length
  scopes : ∀ (id : ScopeId) birth scope, history[id]? = some birth →
    machine.forest[id]? = some scope → scope.Keeps history birth
  bounded : machine.current < history.length
  apart : ∀ outer, history[machine.current]? ≠ some (.closure outer)

/-- Each scope lies in an earlier one and binds no name twice. The way out from it ends at the global scope,
and a search for a name along it comes to an end. -/
structure Machine.WellScoped (machine : Machine) : Prop where
  current : machine.current < machine.forest.size
  ordered : machine.forest.Ordered
  once : ∀ scope ∈ machine.forest, scope.names.Nodup
  rooted : ∀ id < machine.forest.size, ∃ ids, machine.forest.Chain id ids ∧
    ids.getLast? = some Machine.globalScope ∧ ids.length ≤ id + 1 ∧
    ∀ name fuel, ids.length ≤ fuel →
      machine.forest.resolveWithin name fuel id = ids.find? (machine.forest.isDefined · name)

/-- Every scope is still there, and lies where it lay. -/
def Machine.KeepsLinks (before after : Machine) : Prop :=
  ∀ ⦃id : ScopeId⦄ ⦃scope : Scope⦄, before.forest[id]? = some scope →
    ∃ kept : Scope, after.forest[id]? = some kept ∧ kept.enclosing = scope.enclosing

/-- The scope of a function binds nothing and lies in another one, so that a name which is not bound on the
way out to it stands for what it stands for there. -/
structure Machine.Closes (machine : Machine) (function : Function) (outer : ScopeId) : Prop where
  own : machine.forest[function.closure]? = some ⟨some outer, []⟩
  resolves : ∀ (id : ScopeId) (within around : List ScopeId) (name : String),
    machine.forest.Chain id (within ++ function.closure :: around) →
      (∀ scope ∈ within, machine.forest.isDefined scope name = false) →
        machine.forest.resolve id name = machine.forest.resolve outer name

namespace Machine.Recorded

variable {machine : Machine} {history : History}

theorem fresh : Machine.fresh.Recorded [.global] where
  formed := by
    refine ⟨rfl, fun id birth found inner => ?_⟩
    cases id with
    | zero => exact absurd rfl inner
    | succ id => cases found
  size := rfl
  scopes id birth scope known found := by
    cases id with
    | zero =>
      cases known
      cases found
      exact ⟨rfl, List.nodup_nil, fun _ _ => rfl, fun _ listed => by cases listed⟩
    | succ id => cases known
  bounded := Nat.zero_lt_one
  apart outer := by rintro ⟨⟩

theorem exists_birth (recorded : machine.Recorded history) {id : ScopeId} {scope : Scope}
    (found : machine.forest[id]? = some scope) :
    ∃ birth, history[id]? = some birth ∧ scope.Keeps history birth := by
  have bounded : id < history.length := by
    rw [← recorded.size]
    exact (Array.getElem?_eq_some_iff.mp found).1
  have known : history[id]? = some history[id] := List.getElem?_eq_getElem bounded
  exact ⟨_, known, recorded.scopes _ _ _ known found⟩

theorem modify (recorded : machine.Recorded history) (home : ScopeId) {change : Scope → Scope}
    (changed : ∀ birth scope, history[home]? = some birth → machine.forest[home]? = some scope →
      scope.Keeps history birth → (change scope).Keeps history birth) :
    Recorded { machine with forest := machine.forest.modify home change } history where
  formed := recorded.formed
  size := by
    rw [← recorded.size]
    exact Array.size_modify
  scopes id birth scope known found := by
    dsimp only at found
    rw [Array.getElem?_modify] at found
    split at found
    · rename_i here
      subst here
      obtain ⟨old, there, rfl⟩ := Option.map_eq_some_iff.mp found
      exact changed birth old known there (recorded.scopes _ _ _ known there)
    · exact recorded.scopes _ _ _ known found
  bounded := recorded.bounded
  apart := recorded.apart

theorem bind (recorded : machine.Recorded history) {home : ScopeId}
    (apart : ∀ outer, history[home]? ≠ some (.closure outer)) (known : history.Knows value)
    (unbound : machine.forest.isDefined home name = false) :
    Recorded { machine with forest := machine.forest.modify home (·.bind name value) } history := by
  refine recorded.modify home fun birth scope born there keeps => ?_
  refine keeps.bind (fun outer closes => apart outer (closes ▸ born)) ?_ known
  rwa [Forest.isDefined, there, Option.any_some] at unbound

theorem current_later {later : History} (recorded : machine.Recorded history) (grown : history <+: later) :
    later[machine.current]? = history[machine.current]? := by
  have known := List.getElem?_eq_getElem recorded.bounded
  rw [known]
  exact History.at_later grown known

theorem push {birth : Birth} (recorded : machine.Recorded history) (lies : birth.enclosing = some outer)
    (earlier : outer < history.length) :
    Recorded { machine with forest := machine.forest.push ⟨some outer, []⟩ } (history ++ [birth]) where
  formed := recorded.formed.append lies earlier
  size := by
    rw [List.length_append, List.length_singleton, ← recorded.size]
    exact Array.size_push _
  scopes id other scope known found := by
    dsimp only at found
    rw [Array.getElem?_push] at found
    split at found
    · rename_i last
      cases found
      rw [last, recorded.size, List.getElem?_concat_length] at known
      cases known
      exact .blank _ lies
    · obtain ⟨old, before, keeps⟩ := recorded.exists_birth found
      cases (History.at_later (List.prefix_append _ _) before).symm.trans known
      exact keeps.grow (List.prefix_append _ _)
  bounded := by
    rw [List.length_append]
    exact Nat.lt_add_right _ recorded.bounded
  apart := by
    rw [recorded.current_later (List.prefix_append _ _)]
    exact recorded.apart

/-- The scope that is made next may be that of a function. -/
theorem knows_next (recorded : machine.Recorded history) (name : String) (params : List String)
    (body : Node) : History.Knows (history ++ [.closure machine.current])
      (.function ⟨name, params, body, machine.forest.size⟩) :=
  ⟨machine.current, by rw [recorded.size, List.getElem?_concat_length]⟩

theorem knows_found (recorded : machine.Recorded history) {id : ScopeId} {scope : Scope}
    (there : machine.forest[id]? = some scope) (bound : (name, value) ∈ scope.bindings) :
    history.Knows value := by
  obtain ⟨birth, -, keeps⟩ := recorded.exists_birth there
  exact keeps.stored (name, value) bound

theorem ordered (recorded : machine.Recorded history) : machine.forest.Ordered := by
  intro id scope outer there inside
  obtain ⟨birth, born, keeps⟩ := recorded.exists_birth there
  have lies : birth.enclosing = some outer := keeps.link.symm.trans inside
  cases id with
  | zero =>
    cases recorded.formed.global.symm.trans born
    cases lies
  | succ id =>
    obtain ⟨other, lies', earlier⟩ := recorded.formed.inner _ _ born (Nat.succ_ne_zero id)
    cases lies.symm.trans lies'
    exact earlier

/-- However deep a scope lies, around all others is the global one. -/
theorem exists_chain (recorded : machine.Recorded history) {id : ScopeId}
    (bounded : id < machine.forest.size) :
    ∃ ids, machine.forest.Chain id ids ∧ ids.getLast? = some globalScope := by
  obtain ⟨ids, chain⟩ := recorded.ordered.exists_chain bounded
  obtain ⟨outermost, scope, ends, there, free⟩ := chain.last
  obtain ⟨birth, born, keeps⟩ := recorded.exists_birth there
  have global : outermost = globalScope := by
    refine Decidable.byContradiction fun other => ?_
    obtain ⟨outer, lies, -⟩ := recorded.formed.inner _ _ born other
    cases (keeps.link.symm.trans free).symm.trans lies
  exact ⟨ids, chain, global ▸ ends⟩

theorem function_scope (recorded : machine.Recorded history) {function : Function} {outer : ScopeId}
    (born : history[function.closure]? = some (.closure outer)) :
    machine.forest[function.closure]? = some ⟨some outer, []⟩ := by
  have bounded : function.closure < machine.forest.size := by
    rw [recorded.size]
    exact (List.getElem?_eq_some_iff.mp born).1
  have there : machine.forest[function.closure]? = some machine.forest[function.closure] :=
    Array.getElem?_eq_getElem bounded
  have keeps := recorded.scopes _ _ _ born there
  rw [there]
  generalize machine.forest[function.closure] = scope at keeps
  obtain ⟨enclosing, bindings⟩ := scope
  cases keeps.link
  cases keeps.empty outer rfl
  rfl

/-- A name that is not bound on the way out to the scope of a function stands for what it stands for
where the function was declared. -/
theorem resolve_outside (recorded : machine.Recorded history) {function : Function} {outer id : ScopeId}
    {inner around : List ScopeId}
    (born : history[function.closure]? = some (.closure outer))
    (chain : machine.forest.Chain id (inner ++ function.closure :: around))
    (unbound : ∀ scope ∈ inner, machine.forest.isDefined scope name = false) :
    machine.forest.resolve id name = machine.forest.resolve outer name := by
  have there := recorded.function_scope born
  have empty : machine.forest.isDefined function.closure name = false := by
    rw [Forest.isDefined, there]
    rfl
  rw [chain.resolve_skip recorded.ordered unbound]
  cases chain.tail with
  | outermost again free =>
    cases there.symm.trans again
    cases free
  | inner again inside around =>
    cases there.symm.trans again
    cases inside
    have own := Forest.Chain.inner there rfl around
    rw [own.resolve recorded.ordered, around.resolve recorded.ordered, List.find?_cons, empty]

theorem wellScoped (recorded : machine.Recorded history) : machine.WellScoped where
  current := by
    rw [recorded.size]
    exact recorded.bounded
  ordered := recorded.ordered
  once scope member := by
    obtain ⟨id, bounded, rfl⟩ := Array.getElem_of_mem member
    obtain ⟨birth, -, keeps⟩ := recorded.exists_birth (Array.getElem?_eq_getElem bounded)
    exact keeps.once
  rooted id bounded := by
    obtain ⟨ids, chain, global⟩ := recorded.exists_chain bounded
    exact ⟨ids, chain, global, chain.length_le recorded.ordered, fun name fuel => chain.resolveWithin name⟩

/-- A machine whose history goes on keeps the scopes where they are. -/
theorem keepsLinks {after : Machine} {later : History} (recorded : machine.Recorded history)
    (grown : history <+: later) (finished : after.Recorded later) : machine.KeepsLinks after := by
  intro id scope there
  obtain ⟨birth, born, keeps⟩ := recorded.exists_birth there
  have still := History.at_later grown born
  have bounded : id < after.forest.size := by
    rw [finished.size]
    exact (List.getElem?_eq_some_iff.mp still).1
  have found : after.forest[id]? = some after.forest[id] := Array.getElem?_eq_getElem bounded
  exact ⟨_, found, (finished.scopes _ _ _ still found).link.trans keeps.link.symm⟩

theorem closes (recorded : machine.Recorded history) {function : Function} {outer : ScopeId}
    (born : history[function.closure]? = some (.closure outer)) : machine.Closes function outer where
  own := recorded.function_scope born
  resolves _ _ _ _ := recorded.resolve_outside born

end Machine.Recorded

namespace Eval

/-- The account of histories: a run from a machine with one history leads to machines with longer
ones. -/
def historyAccount (start : History) : Account History where
  fits history machine := start <+: history ∧ machine.Recorded history
  knows := History.Knows
  change _ history later := history <+: later
  refl := List.prefix_refl
  trans := List.IsPrefix.trans
  any grown := grown
  keeps grown known := known.grow grown
  scalar _ _ := trivial
  found fits got := by
    obtain ⟨home, scope, -, there, bound⟩ := Forest.get_eq_ok got
    exact fits.2.knows_found there bound
  reported {history machine} output events fits :=
    ⟨history, List.prefix_refl _, fits.1, { fits.2 with }⟩
  assigned {history machine name home value} fits known _ := by
    refine ⟨history, List.prefix_refl _, fits.1, fits.2.modify home ?_⟩
    exact fun _ _ _ _ keeps => keeps.rebind name known
  defined {history machine name value} fits known unbound := by
    exact ⟨history, List.prefix_refl _, fits.1, fits.2.bind fits.2.apart known unbound⟩
  closed {history machine} name params body fits := by
    obtain ⟨started, recorded⟩ := fits
    have grown : history <+: history ++ [.closure machine.current] := List.prefix_append _ _
    exact ⟨_, grown, ⟨started.trans grown, recorded.push rfl recorded.bounded⟩,
      recorded.knows_next name params body⟩
  entered {history machine enclosing} fits lies := by
    obtain ⟨started, recorded⟩ := fits
    have earlier : enclosing < history.length := by
      rcases lies with rfl | ⟨function, ⟨outer, found⟩, rfl⟩
      · exact recorded.bounded
      · exact (List.getElem?_eq_some_iff.mp found).1
    have grown : history <+: history ++ [.opened enclosing] := List.prefix_append _ _
    have inside : (Birth.opened enclosing).enclosing = some enclosing := rfl
    have opened := recorded.push inside earlier
    refine ⟨_, fun _ known => known.grow grown, ⟨started.trans grown, { opened with
      bounded := ?_, apart := ?_ }⟩, ?_⟩
    · rw [← opened.size, Array.size_push]
      exact Nat.lt_succ_self _
    · intro outer closes
      rw [recorded.size, List.getElem?_concat_length] at closes
      cases closes
    · rintro last after further ⟨_, finished⟩
      have all := grown.trans further
      refine ⟨last, all, ⟨started.trans all, { finished with bounded := ?_, apart := ?_ }⟩,
        fun _ known => known⟩
      · exact Nat.lt_of_lt_of_le recorded.bounded all.length_le
      · rw [recorded.current_later all]
        exact recorded.apart

end Eval

open Classical in
/-- Whether the machine has a history that goes on from a given one. -/
noncomputable def Machine.continues (history : History) (machine : Machine) : Bool :=
  decide (∃ more, machine.Recorded (history ++ more))

open Classical in
theorem Machine.continues_iff (history : History) (machine : Machine) :
    Machine.continues history machine ↔ ∃ more, machine.Recorded (history ++ more) := by
  rw [Machine.continues, decide_eq_true_iff]

namespace Script

variable {machine : Machine} {history : History}

/-- A text goes on from the history that it finds, at each expression and each statement. -/
theorem run_recorded (limits : Limits) (source : String) (recorded : machine.Recorded history) :
    runChecked (Machine.continues history) limits source machine = run limits source machine ∧
      ∃ more, (run limits source machine).2.Recorded (history ++ more) := by
  have fits : (Eval.historyAccount history).fits history machine := ⟨List.prefix_refl _, recorded⟩
  have passes : ∀ known machine, (Eval.historyAccount history).fits known machine →
      Machine.continues history machine := by
    rintro _ machine ⟨⟨more, rfl⟩, recorded⟩
    exact (Machine.continues_iff history machine).mpr ⟨more, recorded⟩
  constructor
  · exact runChecked_eq fun program _ =>
      (Eval.Account.interpret_covers passes limits program history machine fits).1
  · obtain ⟨_, ⟨more, rfl⟩, -, recorded⟩ := Eval.Account.run_ends _ limits source fits
    exact ⟨more, recorded⟩

theorem Reached.recorded (reached : Reached machine) : ∃ history, machine.Recorded history := by
  induction reached with
  | fresh => exact ⟨_, .fresh⟩
  | run limits source _ ih =>
    obtain ⟨history, recorded⟩ := ih
    obtain ⟨-, more, recorded⟩ := run_recorded limits source recorded
    exact ⟨_, recorded⟩

end Script

end Scriptlet
