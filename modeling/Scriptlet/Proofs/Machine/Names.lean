import Scriptlet.Proofs.Machine.Account
import Scriptlet.Proofs.Script.Safety

/-! Which names a run adds, and where: only declarations add names, each its own name, and only to the
scope they are executed in. -/
namespace Scriptlet

open Scriptlet.Action Node

/-- The names that a scope binds, the latest first. -/
def Scope.names (scope : Scope) : List String :=
  scope.bindings.map Prod.fst

/-- The names that a scope binds, if there is such a scope. -/
def Forest.names? (forest : Forest) (id : ScopeId) : Option (List String) :=
  forest[id]?.map Scope.names

namespace Scope

theorem names_bind (scope : Scope) (name : String) (value : Value) :
    (scope.bind name value).names = name :: scope.names := rfl

theorem names_rebind (scope : Scope) (name : String) (value : Value) :
    (scope.rebind name value).names = scope.names := by
  rw [names, names, rebind, List.map_map]
  refine List.map_congr_left fun binding _ => ?_
  by_cases same : binding.1 = name
  · simp [same]
  · simp [same]

theorem binds_iff (scope : Scope) (name : String) : scope.binds name ↔ name ∈ scope.names := by
  obtain ⟨enclosing, bindings⟩ := scope
  rw [binds, find?, names]
  induction bindings with
  | nil => simp
  | cons binding rest ih =>
    by_cases same : name = binding.1
    · simp [same]
    · have other : (name == binding.1) = false := by simpa using same
      rw [List.lookup_cons, other, List.map_cons, List.mem_cons, ih]
      simp [same]

end Scope

namespace Forest

theorem lt_of_names? {forest : Forest} {id : ScopeId} (found : forest.names? id = some names) :
    id < forest.size := by
  obtain ⟨scope, there, -⟩ := Option.map_eq_some_iff.mp found
  exact (Array.getElem?_eq_some_iff.mp there).1

theorem names?_push_old {forest : Forest} {id : ScopeId} (scope : Scope)
    (found : forest.names? id = some names) : names? (forest.push scope) id = some names := by
  rw [names?, Array.getElem?_push_lt (lt_of_names? found), ← Array.getElem?_eq_getElem]
  exact found

theorem names?_modify (forest : Forest) (home id : ScopeId) (change : Scope → Scope) :
    names? (forest.modify home change) id =
      if home = id then forest[id]?.map fun scope => (change scope).names else forest.names? id := by
  rw [names?, Array.getElem?_modify]
  split
  · rw [Option.map_map]
    rfl
  · rfl

theorem isDefined_iff (forest : Forest) (id : ScopeId) (name : String) :
    forest.isDefined id name ↔ ∃ names, forest.names? id = some names ∧ name ∈ names := by
  rw [isDefined, names?]
  cases forest[id]? with
  | none => simp
  | some scope => simp [Scope.binds_iff]

end Forest

namespace Machine

/-- The current scope has got some more names, and no other scope that was there has any more or
less than before. -/
structure Adds (added : List String) (before after : Machine) : Prop where
  current : after.current = before.current
  names : ∀ ⦃id names⦄, before.forest.names? id = some names →
    after.forest.names? id = some (if id = before.current then added ++ names else names)

theorem Adds.none_names {id : ScopeId} {names : List String} (adds : Adds [] before after)
    (found : before.forest.names? id = some names) : after.forest.names? id = some names := by
  have kept := adds.names found
  rwa [List.nil_append, ite_self] at kept

theorem Adds.of_names (current : after.current = before.current)
    (names : ∀ ⦃id names⦄, before.forest.names? id = some names → after.forest.names? id = some names) :
    Adds [] before after :=
  ⟨current, fun id known found => by rw [List.nil_append, ite_self]; exact names found⟩

theorem Adds.trans (first : Adds added before middle) (second : Adds more middle after) :
    Adds (more ++ added) before after := by
  refine ⟨second.current.trans first.current, fun id names found => ?_⟩
  rw [second.names (first.names found), first.current]
  by_cases here : id = before.current
  · simp [here]
  · simp [here]

theorem adds_bind (machine : Machine) (name : String) (value : Value) : Adds [name] machine
    { machine with forest := machine.forest.modify machine.current (·.bind name value) } := by
  refine ⟨rfl, fun id names found => ?_⟩
  rw [Forest.names?_modify]
  by_cases here : machine.current = id
  · obtain ⟨scope, there, rfl⟩ := Option.map_eq_some_iff.mp found
    simp [here, there, Scope.names_bind]
  · simp [here, Ne.symm here, found]

end Machine

namespace Eval

open Machine

/-- The account of names: expressions add none, and statements add some to the current scope. -/
def namesAccount : Account Machine where
  fits known machine := known = machine
  knows _ _ := True
  change
    | .evaluating, before, after => Adds [] before after
    | .executing, before, after => ∃ added, Adds added before after
  refl machine := .of_names rfl fun _ _ found => found
  trans {mode} _ _ _ first second := by
    cases mode with
    | evaluating => exact first.trans second
    | executing =>
      obtain ⟨added, first⟩ := first
      obtain ⟨more, second⟩ := second
      exact ⟨more ++ added, first.trans second⟩
  any {mode} _ _ adds := by
    cases mode with
    | evaluating => exact adds
    | executing => exact ⟨[], adds⟩
  keeps _ _ := trivial
  scalar _ _ := trivial
  found _ _ := trivial
  reported _ _ same := by
    subst same
    refine ⟨_, .of_names ?_ ?_, rfl⟩
    · rfl
    · exact fun _ _ found => found
  assigned {known machine name home value} same _ _ := by
    subst same
    refine ⟨_, .of_names ?_ fun id names found => ?_, rfl⟩
    · rfl
    · rw [Forest.names?_modify]
      split
      · rw [Forest.names?] at found
        simpa only [Scope.names_rebind] using found
      · exact found
  defined {known machine name value} same _ _ := by
    subst same
    exact ⟨_, ⟨[name], known.adds_bind name value⟩, rfl⟩
  closed {known machine} _ _ _ same := by
    subst same
    refine ⟨_, .of_names ?_ fun id names found => ?_, rfl, trivial⟩
    · rfl
    · exact Forest.names?_push_old _ found
  entered {known machine enclosing} same _ := by
    subst same
    refine ⟨_, fun _ _ => trivial, rfl, ?_⟩
    rintro last after ⟨added, adds⟩ rfl
    refine ⟨_, .of_names ?_ fun id names found => ?_, rfl, fun _ _ => trivial⟩
    · rfl
    · have kept := adds.names (Forest.names?_push_old _ found)
      rwa [if_neg (Nat.ne_of_lt (Forest.lt_of_names? found))] at kept

/-- What a declaration with these names does: it adds them if it ends well, and nothing otherwise. -/
def Declares (names : List String) (before : Machine) : EStateM.Result Fault Machine Flow → Prop
  | .ok _ after => Adds names before after
  | .error _ after => Adds [] before after

variable {machine : Machine}

theorem Declares.of_ends {outcome : EStateM.Result Fault Machine Flow}
    (ends : namesAccount.Ends .evaluating machine result outcome) : Declares [] machine outcome := by
  cases outcome with
  | ok flow after =>
    obtain ⟨_, adds, rfl, -⟩ := ends
    exact adds
  | error fault after =>
    obtain ⟨_, adds, rfl⟩ := ends
    exact adds

theorem Declares.bind {first : Eval α} {rest : α → Eval Flow}
    (ends : namesAccount.Ends .evaluating machine result (first machine))
    (declares : ∀ value middle, Declares names middle (rest value middle)) :
    Declares names machine ((first >>= rest) machine) := by
  rw [bind_run]
  cases outcome : first machine with
  | ok value middle =>
    rw [outcome] at ends
    obtain ⟨later, adds, rfl, -⟩ := ends
    have declared := declares value later
    dsimp only
    generalize rest value later = last at declared
    cases last with
    | ok flow after =>
      have both : Adds (names ++ []) machine after := adds.trans declared
      rwa [List.append_nil] at both
    | error fault after => exact adds.trans declared
  | error fault after =>
    rw [outcome] at ends
    obtain ⟨_, adds, rfl⟩ := ends
    exact adds

theorem define_declares (name : String) (value : Value) (machine : Machine) :
    Declares [name] machine ((do define name value; return .normal : Eval Flow) machine) := by
  rw [bind_run, define_run]
  cases machine.forest.isDefined machine.current name with
  | true => exact .of_names rfl fun _ _ found => found
  | false => exact machine.adds_bind name value

end Eval

/-- The name that a statement declares, if it is a declaration. -/
def Node.declared : Node → List String
  | .varDecl _ name _ => [name]
  | .fnDecl _ name _ _ => [name]
  | _ => []

open Machine

namespace Eval

theorem statement_declares (limits : Limits) (wellFormed : WellFormed .statement node)
    (machine : Machine) : Declares node.declared machine (execute limits node machine) := by
  have none : node.declared = [] := by
    cases wellFormed <;> rfl
  have quiet := wellFormed.not_mayDeclare (by decide)
  rw [none]
  exact .of_ends (Account.quiet_covers limits.turns limits.depth quiet machine machine rfl).2

theorem execute_declares (limits : Limits) (wellFormed : WellFormed .declaration node)
    (machine : Machine) : Declares node.declared machine (execute limits node machine) := by
  obtain ⟨depth, turns⟩ := limits
  cases depth with
  | zero => exact .of_names rfl fun _ _ found => found
  | succ depth =>
    cases wellFormed with
    | statement inner => exact statement_declares _ inner machine
    | bareVar named => exact define_declares _ _ machine
    | varDecl named initializer =>
      rw [execute, executeWithin, executeNode, initializer.present]
      exact .bind (namesAccount.evaluate_ends ⟨depth, turns⟩ _ rfl) fun value middle =>
        define_declares _ value middle
    | @fnDecl name names statements line start =>
      let body : Node := .block start statements
      exact .bind (Account.innerScope_covers name names body machine machine rfl).2
        fun closure middle => define_declares _ _ middle

/-- A name that is there already stays as evaluating the initializer left it. -/
theorem varDecl_duplicate (limits : Limits) (line : Int)
    (defined : machine.forest.isDefined machine.current name)
    (evaluated : (if initializer.isAbsent then pure .null else evaluate limits initializer : Eval Value)
      machine = .ok value middle) :
    execute ⟨limits.depth + 1, limits.turns⟩ (.varDecl line name initializer) machine =
      .error (.duplicate name) middle := by
  have adds : Adds [] machine middle := by
    split at evaluated
    · cases evaluated
      exact .of_names rfl fun _ _ found => found
    · have fits : namesAccount.fits machine machine := rfl
      obtain ⟨_, adds, rfl⟩ := (namesAccount.evaluate_ends limits initializer fits).final
      rwa [evaluated] at adds
  obtain ⟨names, found, member⟩ := (Forest.isDefined_iff _ _ _).mp defined
  have still : middle.forest.isDefined middle.current name := by
    rw [adds.current]
    exact (Forest.isDefined_iff _ _ _).mpr ⟨names, adds.none_names found, member⟩
  have run : execute ⟨limits.depth + 1, limits.turns⟩ (.varDecl line name initializer) machine =
      (define name value >>= fun _ => return .normal : Eval Flow) middle := by
    rw [execute, executeWithin, executeNode]
    split
    · rename_i absent
      rw [if_pos absent] at evaluated
      exact bind_of_ok _ evaluated
    · rename_i present
      rw [if_neg present] at evaluated
      exact bind_of_ok _ evaluated
  rw [run, bind_run, define_run, if_pos still]

theorem fnDecl_duplicate (limits : Limits) (line : Int) (params : List String) (body : Node)
    (defined : machine.forest.isDefined machine.current name) :
    execute ⟨limits.depth + 1, limits.turns⟩ (.fnDecl line name params body) machine =
      .error (.duplicate name)
        { machine with forest := machine.forest.push ⟨some machine.current, []⟩ } := by
  obtain ⟨names, found, member⟩ := (Forest.isDefined_iff _ _ _).mp defined
  have still : Forest.isDefined (machine.forest.push ⟨some machine.current, []⟩) machine.current name :=
    (Forest.isDefined_iff _ _ _).mpr ⟨names, Forest.names?_push_old _ found, member⟩
  have run : execute ⟨limits.depth + 1, limits.turns⟩ (.fnDecl line name params body) machine =
      (define name (.function ⟨name, params, body, machine.forest.size⟩) >>= fun _ => return .normal :
        Eval Flow) { machine with forest := machine.forest.push ⟨some machine.current, []⟩ } := rfl
  rw [run, bind_run, define_run, if_pos still]

end Eval

theorem Script.Reached.current_names (reached : Script.Reached machine) :
    ∃ names, machine.forest.names? machine.current = some names := by
  induction reached with
  | fresh => exact ⟨[], rfl⟩
  | run limits source before ih =>
    obtain ⟨names, found⟩ := ih
    obtain ⟨_, ⟨added, adds⟩, rfl⟩ := Eval.namesAccount.run_ends limits source rfl
    rw [adds.current]
    exact ⟨_, adds.names found⟩

open Eval in
/-- Expressions and calls add no name to any scope that is there, and a statement adds names to no
other than the current one. A statement of a program adds exactly the name that it declares, provided
that it ends well, and nothing otherwise. A name is not declared twice in one scope; the attempt
leaves all bindings as they were once the initializer was evaluated. -/
theorem only_declarations_add_names (limits : Limits) (machine : Machine) :
    (∀ node, Adds [] machine (final (evaluate limits node machine))) ∧
    (∀ callee arguments, Adds [] machine (final (apply limits callee arguments machine))) ∧
    (∀ node, ∃ added, Adds added machine (final (execute limits node machine))) ∧
    (∀ node, WellFormed .declaration node →
      Declares node.declared machine (execute limits node machine)) ∧
    (∀ source program, Script.parse limits source = .ok program →
      ∀ node ∈ program, WellFormed .declaration node) ∧
    (Script.Reached machine → ∃ names, machine.forest.names? machine.current = some names) ∧
    (∀ line name initializer value middle, machine.forest.isDefined machine.current name →
      (if initializer.isAbsent then pure .null else evaluate limits initializer : Eval Value) machine =
        .ok value middle →
      execute ⟨limits.depth + 1, limits.turns⟩ (.varDecl line name initializer) machine =
        .error (.duplicate name) middle) ∧
    (∀ line name params body, machine.forest.isDefined machine.current name →
      execute ⟨limits.depth + 1, limits.turns⟩ (.fnDecl line name params body) machine =
        .error (.duplicate name)
          { machine with forest := machine.forest.push ⟨some machine.current, []⟩ }) := by
  have evaluates (node : Node) : Adds [] machine (final (evaluate limits node machine)) := by
    obtain ⟨_, adds, rfl⟩ := (namesAccount.evaluate_ends limits node rfl).final
    exact adds
  have applies (callee : Value) (arguments : List Value) :
      Adds [] machine (final (apply limits callee arguments machine)) := by
    have known : namesAccount.knows machine callee := trivial
    obtain ⟨_, adds, rfl⟩ := (namesAccount.apply_ends limits known (fun _ _ => trivial) rfl).final
    exact adds
  have executes (node : Node) : ∃ added, Adds added machine (final (execute limits node machine)) := by
    obtain ⟨_, adds, rfl⟩ := (namesAccount.execute_ends limits node rfl).final
    exact adds
  refine ⟨evaluates, applies, executes, ?_, ?_, Script.Reached.current_names, ?_, ?_⟩
  · exact fun node wellFormed => execute_declares limits wellFormed machine
  · exact fun source program parsed => Grammar.parse_wellFormed parsed
  · exact fun line name initializer value middle => varDecl_duplicate limits line
  · exact fun line name params body => fnDecl_duplicate limits line params body

open Eval in
/-- The second declaration of a name fails, and yet its initializer has given the name a value. -/
theorem only_declarations_add_names_twice :
    let limits : Limits := ⟨50, 9⟩
    let machine : Machine := { Machine.fresh with forest := #[⟨none, [("a", .null)]⟩] }
    let again : Node := .varDecl 1 "a" (.assignment 1 "a" (.literal 1 (.bool true)))
    Script.run limits "var a=null;" .fresh = (.ok (), machine) ∧
    (∃ names, machine.forest.names? machine.current = some names) ∧
    Declares ["a"] machine (execute limits again machine) ∧
    ∃ middle, execute ⟨51, 9⟩ again machine = .error (.duplicate "a") middle ∧
      middle.forest.get middle.current "a" = .ok (.bool true) := by
  intro limits machine again
  have ran : Script.run limits "var a=null;" .fresh = (.ok (), machine) := rfl
  have reached : Script.Reached machine := by
    have reached : Script.Reached (Script.run limits "var a=null;" .fresh).2 := .run _ _ .fresh
    rwa [ran] at reached
  obtain ⟨-, -, -, declares, parsed, here, duplicate, -⟩ := only_declarations_add_names limits machine
  have wellFormed : WellFormed .declaration again :=
    parsed "var a=a=true;" [again] rfl again List.mem_cons_self
  exact ⟨ran, here reached, declares again wellFormed, _, duplicate 1 "a" _ _ _ rfl rfl, rfl⟩

end Scriptlet
