import Scriptlet.Proofs.Machine.Preservation
import Scriptlet.Proofs.Machine.History
import Scriptlet.Proofs.Machine.Isolation

/-! A scope that binds nothing does not show: an expression that is evaluated in it does what it does
in the scope around it. Expressions add no names, so the scope binds nothing afterwards, either. -/
namespace Scriptlet

open Scriptlet.Action

namespace Machine

/-- No scope that was there has got another name or another place. -/
structure KeepsShape (before after : Machine) : Prop where
  names : Adds [] before after
  links : KeepsLinks before after

/-- The scope is on a chain that a search can go along to its end. -/
def Placed (machine : Machine) (scope : ScopeId) : Prop :=
  ∃ ids, machine.forest.Chain scope ids ∧ ids.length ≤ scope + 1

/-- The current scope binds nothing, and lies inside an earlier one. -/
structure Hollow (outer : ScopeId) (machine : Machine) : Prop where
  empty : machine.forest[machine.current]? = some ⟨some outer, []⟩
  earlier : outer < machine.current
  placed : machine.Placed outer

end Machine

open Machine

theorem Forest.Chain.later {forest later : Forest} {id : ScopeId} {ids : List ScopeId}
    (chain : forest.Chain id ids)
    (links : ∀ ⦃id : ScopeId⦄ ⦃scope : Scope⦄, forest[id]? = some scope →
      ∃ kept : Scope, later[id]? = some kept ∧ kept.enclosing = scope.enclosing) :
    later.Chain id ids := by
  induction chain with
  | outermost there free =>
    obtain ⟨kept, found, same⟩ := links there
    exact .outermost found (same.trans free)
  | inner there inside _ ih =>
    obtain ⟨kept, found, same⟩ := links there
    exact .inner found (same.trans inside) ih

namespace Machine

variable {machine before middle after : Machine} {outer : ScopeId}

theorem KeepsLinks.refl (machine : Machine) : machine.KeepsLinks machine :=
  fun _ scope there => ⟨scope, there, rfl⟩

theorem KeepsLinks.trans (first : before.KeepsLinks middle) (second : middle.KeepsLinks after) :
    before.KeepsLinks after := by
  intro id scope there
  obtain ⟨kept, found, same⟩ := first there
  obtain ⟨last, still, again⟩ := second found
  exact ⟨last, still, again.trans same⟩

theorem KeepsLinks.push (machine : Machine) (scope : Scope) (current : ScopeId) :
    machine.KeepsLinks { machine with forest := machine.forest.push scope, current } := by
  intro id old there
  have bounded := (Array.getElem?_eq_some_iff.mp there).1
  exact ⟨old, by rw [Array.getElem?_push_lt bounded, ← Array.getElem?_eq_getElem, there], rfl⟩

theorem KeepsLinks.modify (machine : Machine) (home : ScopeId) {change : Scope → Scope}
    (same : ∀ scope, (change scope).enclosing = scope.enclosing) :
    machine.KeepsLinks { machine with forest := machine.forest.modify home change } := by
  intro id scope there
  dsimp only
  rw [Array.getElem?_modify, there]
  split
  · exact ⟨_, rfl, same scope⟩
  · exact ⟨_, rfl, rfl⟩

theorem KeepsShape.refl (machine : Machine) : machine.KeepsShape machine :=
  ⟨.of_names rfl fun _ _ found => found, .refl machine⟩

theorem KeepsShape.trans (first : before.KeepsShape middle) (second : middle.KeepsShape after) :
    before.KeepsShape after :=
  ⟨first.names.trans second.names, first.links.trans second.links⟩

theorem Placed.later (placed : before.Placed outer) (links : before.KeepsLinks after) :
    after.Placed outer := by
  obtain ⟨ids, chain, short⟩ := placed
  exact ⟨ids, chain.later links, short⟩

theorem Placed.stay (placed : before.Placed before.current) (links : before.KeepsLinks after)
    (current : after.current = before.current) : after.Placed after.current :=
  current ▸ placed.later links

theorem Placed.bounded (placed : machine.Placed outer) : outer < machine.forest.size := by
  obtain ⟨ids, chain, -⟩ := placed
  cases chain with
  | outermost there _ => exact (Array.getElem?_eq_some_iff.mp there).1
  | inner there _ _ => exact (Array.getElem?_eq_some_iff.mp there).1

/-- The current scope of a machine with a history is placed. -/
theorem Recorded.placed (recorded : machine.Recorded history) : machine.Placed machine.current := by
  have bounded : machine.current < machine.forest.size := recorded.size ▸ recorded.bounded
  obtain ⟨ids, chain⟩ := recorded.ordered.exists_chain bounded
  exact ⟨ids, chain, chain.length_le recorded.ordered⟩

/-- A fresh scope is empty, and it is placed when the one around it is. -/
theorem Placed.hollow (placed : machine.Placed outer) (earlier : outer < machine.forest.size) :
    Hollow outer { machine with
      forest := machine.forest.push ⟨some outer, []⟩
      current := machine.forest.size } where
  empty := Array.getElem?_push_size
  earlier := earlier
  placed := placed.later (.push machine _ _)

theorem Hollow.placed_current (hollow : machine.Hollow outer) : machine.Placed machine.current := by
  obtain ⟨ids, around, short⟩ := hollow.placed
  refine ⟨_, .inner hollow.empty rfl around, ?_⟩
  rw [List.length_cons]
  exact Nat.succ_le_succ (Nat.le_trans short hollow.earlier)

theorem Hollow.later (hollow : before.Hollow outer) (shape : before.KeepsShape after) :
    after.Hollow outer := by
  obtain ⟨kept, there, inside⟩ := shape.links hollow.empty
  have before_names : before.forest.names? before.current = some [] := by
    rw [Forest.names?, hollow.empty]
    rfl
  have names := shape.names.none_names before_names
  rw [Forest.names?, there, Option.map_some, Option.some.injEq, Scope.names, List.map_eq_nil_iff] at names
  obtain ⟨enclosing, bindings⟩ := kept
  subst inside names
  exact ⟨shape.names.current ▸ there, shape.names.current ▸ hollow.earlier,
    hollow.placed.later shape.links⟩

/-- From an empty scope, the search for a name finds what it finds from the scope around it. -/
theorem Hollow.resolve (hollow : machine.Hollow outer) (name : String) :
    machine.forest.resolve machine.current name = machine.forest.resolve outer name := by
  obtain ⟨ids, around, short⟩ := hollow.placed
  have chain : machine.forest.Chain machine.current (machine.current :: ids) :=
    .inner hollow.empty rfl around
  have enough : (machine.current :: ids).length ≤ machine.current + 1 :=
    Nat.succ_le_succ (Nat.le_trans short hollow.earlier)
  have unbound : machine.forest.isDefined machine.current name = false := by
    rw [Forest.isDefined, hollow.empty]
    rfl
  rw [Forest.resolve, Forest.resolve, chain.resolveWithin name enough, around.resolveWithin name short,
    List.find?_cons, unbound]

theorem Hollow.get (hollow : machine.Hollow outer) (name : String) :
    machine.forest.get machine.current name = machine.forest.get outer name := by
  rw [Forest.get, Forest.get, hollow.resolve]

end Machine

namespace Eval

theorem links_kept : Kept KeepsLinks where
  refl := KeepsLinks.refl
  trans := KeepsLinks.trans
  newScope _ machine := .push machine _ _
  assign id name value machine := by
    rw [onScopes_final, Store.assign]
    cases machine.forest.resolve id name with
    | none => exact .refl machine
    | some home => exact .modify machine home fun _ => rfl
  define id name value machine := by
    rw [onScopes_final, Store.define]
    cases machine.forest.isDefined id name with
    | true => exact .refl machine
    | false => exact .modify machine id fun _ => rfl
  print _ machine := .refl machine
  note _ machine := .refl machine
  inScope id action inner machine := by
    have ended := inner { machine with current := id }
    unfold inScope
    cases outcome : action { machine with current := id } with
    | ok value after =>
      rw [outcome] at ended
      exact ended
    | error fault after =>
      rw [outcome] at ended
      exact ended

/-- What adds no names and keeps all links keeps the shape. -/
theorem shape_of_covers {action : Eval α} {result : Machine → α → Prop}
    (covers : ∀ known, namesAccount.Covers .evaluating known result action action)
    (links : Keeps KeepsLinks action) : Keeps KeepsShape action := by
  intro machine
  obtain ⟨_, adds, rfl⟩ := (covers machine machine rfl).2.final
  exact ⟨adds, links machine⟩

theorem quiet_shape (turns depth : Nat) (quiet : node.mayDeclare = false) :
    Keeps KeepsShape (executeWithin turns depth node) :=
  shape_of_covers (Account.quiet_covers turns depth quiet) ((within_keeps links_kept turns depth).2 node)

/-- In an empty scope, the action does what it does in the scope around it. -/
structure Passes (action : Eval α) : Prop where
  shape : Keeps KeepsShape action
  same : ∀ outer machine, Hollow outer machine → action machine = inScope outer action machine

variable {evaluate : Node → Eval Value} {execute : Node → Eval Flow}

theorem Passes.pure (value : α) : Passes (pure value) :=
  ⟨.refl, fun _ _ _ => rfl⟩

theorem Passes.throw (fault : Fault) : Passes (throw fault : Eval α) :=
  ⟨.refl, fun _ _ _ => rfl⟩

theorem Passes.ofExcept (computed : Except Fault α) : Passes (ofExcept computed) := by
  cases computed with
  | ok value => exact .pure value
  | error fault => exact .throw fault

theorem Passes.bind {first : Eval α} {rest : α → Eval β} (before : Passes first)
    (after : ∀ value, Passes (rest value)) : Passes (first >>= rest) := by
  refine ⟨Keeps.bind KeepsShape.trans before.shape fun value => (after value).shape, ?_⟩
  intro outer machine hollow
  have left := hollow.later (before.shape machine)
  have inside := before.shape { machine with current := outer }
  have same := before.same outer machine hollow
  unfold inScope at same ⊢
  dsimp only at same ⊢
  rw [bind_run, bind_run, same]
  rw [same] at left
  cases outcome : first { machine with current := outer } with
  | ok value middle =>
    rw [outcome] at left inside
    have current : middle.current = outer := inside.names.current
    have back : { middle with current := outer } = middle := by
      rw [← current]
    have further := (after value).same outer { middle with current := machine.current } left
    unfold inScope at further
    dsimp only at further ⊢
    rw [further, back]
  | error fault middle => rfl

theorem lookup_passes (name : String) : Passes (lookup name) := by
  refine ⟨shape_of_covers (fun known => Account.lookup_covers name) ?_, fun outer machine hollow => ?_⟩
  · exact links_kept.look fun _ => links_kept.ofExcept _
  · have run (machine : Machine) :
        lookup name machine = ofExcept (machine.forest.get machine.current name) machine := rfl
    rw [run, inScope, run, hollow.get]
    dsimp only
    cases machine.forest.get outer name <;> rfl

theorem assign_passes (name : String) (value : Value) : Passes (assign name value) := by
  refine ⟨shape_of_covers (fun known => Account.assign_covers name trivial) ?_, fun outer machine hollow => ?_⟩
  · exact links_kept.look fun _ => links_kept.assign _ _ _
  · rw [inScope, assign_run, assign_run, hollow.resolve]
    dsimp only
    cases machine.forest.resolve outer name <;> rfl

theorem call_passes (executed : namesAccount.Executes execute execute)
    (links : ∀ node, Keeps KeepsLinks (execute node)) (function : Function) (arguments : List Value) :
    Passes (call execute function arguments) where
  shape := shape_of_covers
    (fun known => Account.call_covers executed function arguments known trivial fun _ _ => trivial)
    (call_keeps links_kept links function arguments)
  same outer machine _ := call_moved execute function arguments outer machine

theorem evaluateAll_passes (evaluated : ∀ node, Passes (evaluate node)) (nodes : List Node)
    (found : Array Value) : Passes (evaluateAll evaluate found nodes) := by
  induction nodes generalizing found with
  | nil => exact .pure found
  | cons node rest ih => exact .bind (evaluated node) fun value => ih (found.push value)

theorem matchArms_passes (evaluated : ∀ node, Passes (evaluate node)) (subject : Value)
    (arms : List Node) : Passes (matchArms evaluate subject arms) := by
  induction arms with
  | nil => exact .throw _
  | cons arm rest ih =>
    cases arm with
    | matchArm line pattern body =>
      refine .bind (evaluated pattern) fun value => ?_
      split
      · exact evaluated body
      · exact ih
    | _ => exact .throw _

theorem evaluateNode_passes (evaluated : ∀ node, Passes (evaluate node))
    (called : ∀ function arguments, Passes (call execute function arguments)) (node : Node) :
    Passes (evaluateNode evaluate execute node) := by
  cases node with
  | literal line value => exact .pure _
  | binary line operator left right =>
    exact .bind (evaluated left) fun _ => .bind (evaluated right) fun _ => .ofExcept _
  | unary line operator operand => exact .bind (evaluated operand) fun _ => .ofExcept _
  | reference line name => exact lookup_passes name
  | assignment line name value => exact .bind (evaluated value) fun result => assign_passes name result
  | call line callee arguments =>
    refine .bind (evaluated callee) fun value => ?_
    cases value with
    | scalar other => exact .throw _
    | function function =>
      exact .bind (evaluateAll_passes evaluated arguments #[]) fun values => called function _
  | matching line subject arms =>
    exact .bind (evaluated subject) fun value => matchArms_passes evaluated value arms
  | _ => exact .throw _

/-- An expression does not show whether it is evaluated in a scope or in an empty one inside it. -/
theorem evaluateWithin_passes (turns depth : Nat) (node : Node) :
    Passes (evaluateWithin turns depth node) := by
  induction depth generalizing node with
  | zero => exact .throw _
  | succ depth ih =>
    refine evaluateNode_passes ih (fun function arguments => ?_) node
    exact call_passes (namesAccount.executeWithin_covers turns depth)
      (within_keeps links_kept turns depth).2 function arguments

end Eval

end Scriptlet
