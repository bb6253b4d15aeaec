import Mathlib
import Scriptlet.Proofs.Machine.Reach

/-! Isolation: what a run can do and what it can find out is bounded by what can be reached when it
starts. Expressions and statements start from the current scope; a call starts from the scopes of the
function and of the functions among its arguments, whoever calls it. So the locals of a caller are safe
from a function that does not close over them, and counters that are made by separate calls do not
disturb each other. -/
namespace Scriptlet

open Scriptlet.Action

/-- What holds of the scopes at any moment of a run in a territory. -/
structure Forest.Contained (territory : Territory) (start now : Forest) : Prop where
  grown : territory.old ≤ now.size
  /-- Scopes outside are as they were. -/
  untouched : ∀ id < territory.old, ¬ territory.reach id → now[id]? = start[id]?
  /-- No function that is bound in the territory leads out of it. -/
  leads : ∀ (id : ScopeId) scope, territory.Owns now.size id → now[id]? = some scope →
    scope.LeadsTo (territory.Owns now.size)

theorem Machine.Confined.contained {territory : Territory} {start : Forest} {size : Nat}
    {machine : Machine} (confined : machine.Confined territory start size) :
    start.Contained territory machine.forest where
  grown := by
    rw [confined.count]
    exact confined.grown
  untouched := confined.untouched
  leads := by
    rw [confined.count]
    exact confined.leads

/-- What is returned, if anything is, has the property. -/
def Flow.Returns (property : Value → Prop) : Flow → Prop
  | .normal => True
  | .returned value => property value

namespace Eval

/-- The value or the fault that an action ended with. -/
def answer : EStateM.Result Fault Machine α → Except Fault α
  | .ok value _ => .ok value
  | .error fault _ => .error fault

/-- Two runs, on two machines, that differ in nothing but what lies outside a territory. -/
structure Alike (territory : Territory) (machine other : Machine)
    (one two : EStateM.Result Fault Machine α) : Prop where
  answer : answer two = answer one
  size : (final two).forest.size = (final one).forest.size
  scopes : ∀ id, territory.Owns (final one).forest.size id →
    (final two).forest[id]? = (final one).forest[id]?
  untouched : ∀ id < territory.old, ¬ territory.reach id →
    (final two).forest[id]? = other.forest[id]?
  printed : ∃ lines, (final one).output = machine.output ++ lines ∧
    (final two).output = other.output ++ lines
  noted : ∃ events, (final one).events = machine.events ++ events ∧
    (final two).events = other.events ++ events

/-- An action stays within what can be reached from some scopes. `holds` lifts a property of values to
results of the action, and `checked` is the action with a check of the machine before and after each
expression and statement. -/
structure StaysWithin (roots : ScopeId → Prop) (holds : (Value → Prop) → α → Prop)
    (checked : (Machine → Bool) → Eval α) (action : Eval α) (machine : Machine) : Prop where
  /-- At every moment of the run the scopes are contained: checks that follow from it pass. -/
  throughout : ∀ check : Machine → Bool,
    (∀ now, machine.forest.Contained (.ofRoots machine.forest roots) now.forest → check now) →
    checked check machine = action machine
  afterwards : machine.forest.Contained (.ofRoots machine.forest roots) (final (action machine)).forest
  /-- The functions that are returned do not lead out of the territory either. -/
  given : ∀ result after, action machine = .ok result after →
    holds (·.LiesIn (Territory.Owns (.ofRoots machine.forest roots) after.forest.size)) result
  /-- What cannot be reached is not seen. -/
  unseen : ∀ other : Machine, other.current = machine.current →
    other.forest.size = machine.forest.size →
    (∀ id, machine.forest.Reaches roots id → other.forest[id]? = machine.forest[id]?) →
    Alike (.ofRoots machine.forest roots) machine other (action machine) (action other)

section

variable {roots : ScopeId → Prop} {holds : (Value → Prop) → α → Prop} {machine : Machine}
variable {checked : (Machine → Bool) → Eval α} {action : Eval α}

theorem Agrees.alike {territory : Territory} {other : Machine} {result : Nat → α → Prop}
    {one two : EStateM.Result Fault Machine α}
    (ends : (agreement territory machine other).Ends size result one two) :
    Alike territory machine other one two := by
  cases ends with
  | ok _ fits _ =>
    exact { answer := rfl, size := fits.second.count.trans fits.first.count.symm,
            scopes := fun id owns => fits.same id (fits.first.count ▸ owns),
            untouched := fits.second.untouched, printed := fits.printed, noted := fits.noted }
  | error _ fits =>
    exact { answer := rfl, size := fits.second.count.trans fits.first.count.symm,
            scopes := fun id owns => fits.same id (fits.first.count ▸ owns),
            untouched := fits.second.untouched, printed := fits.printed, noted := fits.noted }

/-- An action that starts in one of the scopes stays within reach if it keeps to the account of the
territory and cannot tell apart machines that agree on it. -/
theorem StaysWithin.of_runs (mode : Mode) (here : roots machine.current)
    (covers : ∀ check : Machine → Bool,
      (∀ size now, (confinement (.ofRoots machine.forest roots) machine.forest).fits size now → check now) →
      (confinement (.ofRoots machine.forest roots) machine.forest).Covers mode machine.forest.size
        (fun size => holds (·.LiesIn (Territory.Owns (.ofRoots machine.forest roots) size)))
        (checked check) action)
    (runs : ∀ other, (agreement (.ofRoots machine.forest roots) machine other).Runs machine.forest.size
      (fun size => holds (·.LiesIn (Territory.Owns (.ofRoots machine.forest roots) size))) action) :
    StaysWithin roots holds checked action machine := by
  have started : machine.Confined (.ofRoots machine.forest roots) machine.forest machine.forest.size :=
    .start_agreeing rfl (fun _ _ => rfl) here
  have ends := (covers (fun _ => true) fun _ _ _ => rfl).plain machine started
  constructor
  · intro check passes
    exact (covers check (fun size now confined => passes now confined.contained) machine started).1
  · obtain ⟨size, -, confined⟩ := ends.2.final
    exact confined.contained
  · intro result after ended
    have given := ends.2
    rw [ended] at given
    obtain ⟨size, -, confined, proper⟩ := given
    rwa [← confined.count] at proper
  · intro other sameCurrent sameSize same
    have startedToo : other.Confined (.ofRoots machine.forest roots) other.forest machine.forest.size :=
      .start_agreeing sameSize same (sameCurrent ▸ here)
    refine Agrees.alike (runs other machine other ⟨started, startedToo, ?_, sameCurrent, ?_, ?_⟩)
    · exact fun id owns => same id (Territory.Owns.reach_first owns)
    · exact ⟨#[], by simp, by simp⟩
    · exact ⟨#[], by simp, by simp⟩

/-- It does not matter where an action is started that goes to another scope at once. -/
theorem StaysWithin.moved (id : ScopeId)
    (within : StaysWithin roots holds checked action { machine with current := id })
    (moves : ∀ machine, action machine = inScope id action machine)
    (checkedMoves : ∀ check machine, checked check machine = inScope id (checked check) machine) :
    StaysWithin roots holds checked action machine := by
  constructor
  · intro check passes
    rw [checkedMoves, moves, inScope, inScope, within.throughout check passes]
  · have afterwards := within.afterwards
    rw [moves, inScope]
    generalize action { machine with current := id } = outcome at afterwards
    cases outcome <;> exact afterwards
  · intro result after ended
    have given := within.given
    rw [moves, inScope] at ended
    generalize action { machine with current := id } = outcome at given ended
    cases outcome with
    | ok value last =>
      cases ended
      exact given result last rfl
    | error fault last => cases ended
  · intro other _ sameSize same
    have alike := within.unseen { other with current := id } rfl sameSize same
    rw [moves, moves other, inScope, inScope]
    generalize action { machine with current := id } = one at alike
    generalize action { other with current := id } = two at alike
    obtain ⟨sameAnswer, size, scopes, untouched, printed, noted⟩ := alike
    cases one with
    | ok value after =>
      cases two with
      | ok => cases sameAnswer; exact ⟨rfl, size, scopes, untouched, printed, noted⟩
      | error => cases sameAnswer
    | error fault after =>
      cases two with
      | ok => cases sameAnswer
      | error => cases sameAnswer; exact ⟨rfl, size, scopes, untouched, printed, noted⟩

end

/-- A call comes back to where it was started, and does the same wherever this is. -/
theorem call_moved (execute : Node → Eval Flow) (function : Function) (arguments : List Value)
    (id : ScopeId) (machine : Machine) : call execute function arguments machine =
      inScope id (call execute function arguments) machine := by
  rw [call_eq]
  by_cases wrong : arguments.length ≠ function.arity
  · rw [if_pos wrong]
    rfl
  · rw [if_neg wrong]
    unfold inScope
    dsimp only
    rw [bind_run, bind_run, inside_run, inside_run, inScope, inScope]
    dsimp only
    cases callInside execute function arguments { machine with
        forest := machine.forest.push ⟨some function.closure, []⟩
        current := machine.forest.size } with
    | ok flow after => cases flow <;> rfl
    | error fault after => rfl

/-- The scopes that a call starts from: those of its function and of the functions among its
arguments. -/
def callRoots (function : Function) (arguments : List Value) (id : ScopeId) : Prop :=
  ∃ callee, .function callee ∈ Value.function function :: arguments ∧ callee.closure = id

/-- An expression or a statement stays within what can be reached from the current scope, and a call
within what can be reached from its function and its arguments, whoever calls. -/
theorem code_stays_within_reach (limits : Limits) (machine : Machine) :
    (∀ node, StaysWithin (· = machine.current) (fun property => property)
      (fun check => evaluateChecked check limits.turns limits.depth node) (evaluate limits node) machine) ∧
    (∀ node, StaysWithin (· = machine.current) Flow.Returns
      (fun check => executeChecked check limits.turns limits.depth node) (execute limits node) machine) ∧
    (∀ function arguments, StaysWithin (callRoots function arguments) (fun property => property)
      (fun check => call (executeChecked check limits.turns limits.depth) function arguments)
      (apply limits (.function function) arguments) machine) := by
  refine ⟨fun node => ?_, fun node => ?_, fun function arguments => ?_⟩
  · refine .of_runs .evaluating rfl (fun check passes => ?_) fun other => ?_
    · exact (Account.within_covers passes limits.turns limits.depth).1 node _
    · exact (agreement _ machine other).evaluate_runs limits node (fun _ _ => trivial) _
  · refine .of_runs .executing rfl (fun check passes => ?_) fun other => ?_
    · exact (Account.within_covers passes limits.turns limits.depth).2 node _
    · exact (agreement _ machine other).execute_runs limits node (fun _ _ => trivial) _
  · have given : ∀ value ∈ Value.function function :: arguments, value.LiesIn (Territory.Owns
        (.ofRoots machine.forest (callRoots function arguments)) machine.forest.size) := by
      rintro _ listed callee rfl
      exact .inl (.root ⟨callee, listed, rfl⟩)
    obtain ⟨proper, each⟩ := List.forall_mem_cons.mp given
    -- in the scope of the function, the call starts from a scope that it can reach
    refine .moved function.closure ?_ (call_moved _ function arguments _)
      fun check => call_moved _ function arguments _
    refine .of_runs .evaluating ⟨function, List.mem_cons_self, rfl⟩ (fun check passes => ?_)
      fun other => ?_
    · exact Account.call_covers (Account.within_covers passes limits.turns limits.depth).2 function
        arguments _ proper each
    · exact (agreement _ _ other).apply_runs limits _ given

set_option maxRecDepth 1024 in
/-- A function makes flags, each in a scope of its own with a function that switches it, and a block holds two
of them. To call the first function leaves the block and the second flag alone, and does the same whatever
the second flag is. -/
theorem code_stays_within_reach_twoFlags :
    let limits : Limits := ⟨50, 9⟩
    let body : Node := .block 1 [.returnStmt 1 (.assignment 1 "x" (.unary 1 "!" (.reference 1 "x")))]
    let make : Function :=
      ⟨"f", ["x"], .block 1 [.fnDecl 1 "g" [] body, .returnStmt 1 (.reference 1 "g")], 1⟩
    let first : Function := ⟨"g", [], body, 4⟩
    let second : Function := ⟨"g", [], body, 6⟩
    let holding (flag : Bool) : Machine := ⟨#[⟨none, [("f", .function make)]⟩, ⟨some 0, []⟩,
      ⟨some 0, [("b", .function second), ("a", .function first)]⟩,
      ⟨some 1, [("g", .function first), ("x", .bool false)]⟩, ⟨some 3, []⟩,
      ⟨some 1, [("g", .function second), ("x", .bool flag)]⟩, ⟨some 5, []⟩],
      0, #[], #[.called make 1, .called make 1]⟩
    let made := (Script.run limits "fn f(x)\x7bfn g()\x7breturn x=!x;\x7dreturn g;\x7d" .fresh).2
    let after := final (apply limits (.function first) [] (holding false))
    Script.run limits "\x7bvar a=f(false);var b=f(false);\x7d" made = (.ok (), holding false) ∧
      answer (apply limits (.function first) [] (holding false)) = .ok (.bool true) ∧
      (∀ id ∈ [2, 5, 6], after.forest[id]? = (holding false).forest[id]?) ∧
      answer (apply limits (.function first) [] (holding true)) =
        answer (apply limits (.function first) [] (holding false)) := by
  have parsed : Script.parse ⟨50, 9⟩ "\x7bvar a=f(false);var b=f(false);\x7d" =
      .ok [.block 1 [.varDecl 1 "a" (.call 1 (.reference 1 "f") [.literal 1 (.bool false)]),
        .varDecl 1 "b" (.call 1 (.reference 1 "f") [.literal 1 (.bool false)])]] := by
    cbv
  intro limits body make first second holding made after
  have declared : Script.parse limits "fn f(x)\x7bfn g()\x7breturn x=!x;\x7dreturn g;\x7d" =
      .ok [.fnDecl 1 "f" make.params make.body] := by cbv
  have ready : made = { Machine.fresh with
      forest := #[⟨none, [("f", .function make)]⟩, ⟨some 0, []⟩] } := by
    dsimp only [made]
    rw [Script.run, declared]
    rfl
  have reached : ∀ id, (holding false).forest.Reaches (callRoots first []) id → id ∈ [4, 3, 1, 0] := by
    intro id reached
    induction reached with
    | root starts =>
      obtain ⟨callee, listed, rfl⟩ := starts
      cases List.mem_singleton.mp listed
      exact List.mem_cons_self
    | around _ there inside ih =>
      simp only [List.mem_cons, List.not_mem_nil, or_false] at ih
      rcases ih with rfl | rfl | rfl | rfl <;> cases there <;> cases inside <;> simp
    | closure _ there bound ih =>
      simp only [List.mem_cons, List.not_mem_nil, or_false] at ih
      rcases ih with rfl | rfl | rfl | rfl <;> cases there
      · cases bound
      · rcases List.mem_cons.mp bound with held | held
        · cases held
          exact List.mem_cons_self
        · cases List.mem_singleton.mp held
      · cases bound
      · cases List.mem_singleton.mp bound
        simp [make]
  have within := (code_stays_within_reach limits (holding false)).2.2 first []
  refine ⟨?_, rfl, fun id listed => ?_, ?_⟩
  · rw [ready, Script.run, parsed]
    cbv
  · have outside : id < 7 ∧ id ∉ [4, 3, 1, 0] := by
      simp only [List.mem_cons, List.not_mem_nil, or_false] at listed
      rcases listed with rfl | rfl | rfl <;> decide
    exact within.afterwards.untouched id outside.1 fun inside => outside.2 (reached id inside)
  · refine (within.unseen (holding true) rfl rfl fun id inside => ?_).answer
    have near := reached id inside
    simp only [List.mem_cons, List.not_mem_nil, or_false] at near
    rcases near with rfl | rfl | rfl | rfl <;> rfl

end Eval

end Scriptlet
