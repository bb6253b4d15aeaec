import Scriptlet.Proofs.Machine.Account
import Scriptlet.Proofs.Script.Safety

/-! Functions are told apart by their scopes. A roster says of each scope for which function it was made.
A run only adds to the roster, and every function that can be met is the one that is on the roster for its
scope. -/
namespace Scriptlet

/-- Of each scope there has ever been, the function that it was made for, if there is one. -/
abbrev Roster := List (Option Function)

namespace Roster

/-- A function is listed if it is the one that its scope was made for. -/
def Lists (roster : Roster) : Value → Prop
  | .scalar _ => True
  | .function callee => roster[callee.closure]? = some (some callee)

variable {roster later : Roster} {callee other : Function}

theorem Lists.grow (listed : roster.Lists value) (grown : roster <+: later) : later.Lists value := by
  cases value with
  | scalar _ => trivial
  | function callee =>
    obtain ⟨more, rfl⟩ := grown
    have bounded := (List.getElem?_eq_some_iff.mp listed).1
    exact (List.getElem?_append_left bounded).trans listed

/-- What has the scope of a function is the function itself. -/
theorem Lists.unique (listed : roster.Lists (.function callee)) (another : roster.Lists (.function other))
    (same : other.closure = callee.closure) : other = callee := by
  rw [Lists, same, listed] at another
  cases another
  rfl

theorem lists_next (roster : Roster) (callee : Function) (latest : callee.closure = roster.length) :
    Lists (roster ++ [some callee]) (.function callee) := by
  rw [Lists, latest, List.getElem?_concat_length]

end Roster

/-- The functions that the scopes of a machine hold are all on the roster. -/
structure Machine.Enrolled (machine : Machine) (roster : Roster) : Prop where
  size : machine.forest.size = roster.length
  stored : ∀ scope ∈ machine.forest, ∀ binding ∈ scope.bindings, roster.Lists binding.2

namespace Machine.Enrolled

variable {machine : Machine} {roster : Roster}

theorem fresh : Machine.fresh.Enrolled [none] where
  size := rfl
  stored scope member binding listed := by
    cases Array.mem_singleton.mp member
    cases listed

theorem modify (enrolled : machine.Enrolled roster) (home : ScopeId) {change : Scope → Scope}
    (changed : ∀ scope : Scope, (∀ binding ∈ scope.bindings, roster.Lists binding.2) →
      ∀ binding ∈ (change scope).bindings, roster.Lists binding.2) :
    Enrolled { machine with forest := machine.forest.modify home change } roster where
  size := by
    rw [← enrolled.size]
    exact Array.size_modify
  stored := Eval.forall_modify enrolled.stored changed

theorem push (enrolled : machine.Enrolled roster) (enclosing : ScopeId) (owner : Option Function) :
    Enrolled { machine with forest := machine.forest.push ⟨some enclosing, []⟩ } (roster ++ [owner]) where
  size := by
    rw [List.length_append, List.length_singleton, ← enrolled.size]
    exact Array.size_push _
  stored scope member binding listed := by
    rcases Array.mem_push.mp member with old | rfl
    · exact (enrolled.stored scope old binding listed).grow (List.prefix_append _ _)
    · cases listed

theorem found (enrolled : machine.Enrolled roster)
    (got : machine.forest.get machine.current name = .ok value) : roster.Lists value := by
  obtain ⟨home, scope, -, there, bound⟩ := Forest.get_eq_ok got
  exact enrolled.stored scope (Array.mem_of_getElem? there) _ bound

end Machine.Enrolled

open Classical in
/-- Whether there is a roster for the machine. -/
noncomputable def Machine.isEnrolled (machine : Machine) : Bool :=
  decide (∃ roster, machine.Enrolled roster)

open Classical in
theorem Machine.Enrolled.isEnrolled {machine : Machine} (enrolled : machine.Enrolled roster) :
    machine.isEnrolled :=
  decide_eq_true ⟨roster, enrolled⟩

namespace Eval

/-- The account of rosters: what is known is for which functions the scopes were made. -/
def enrolment : Account Roster where
  fits roster machine := machine.Enrolled roster
  knows := Roster.Lists
  change _ roster later := roster <+: later
  refl := List.prefix_refl
  trans := List.IsPrefix.trans
  any grown := grown
  keeps grown listed := listed.grow grown
  scalar _ _ := trivial
  found := Machine.Enrolled.found
  reported _ _ enrolled := ⟨_, List.prefix_refl _, { enrolled with }⟩
  assigned {roster machine name home value} enrolled listed _ :=
    ⟨roster, List.prefix_refl _, enrolled.modify home fun scope each => scope.forall_rebind each listed⟩
  defined {roster machine name value} enrolled listed _ :=
    ⟨roster, List.prefix_refl _, enrolled.modify _ fun scope each => scope.forall_bind each listed⟩
  closed {roster machine} name params body enrolled := by
    let callee : Function := ⟨name, params, body, machine.forest.size⟩
    refine ⟨roster ++ [some callee], List.prefix_append _ _, enrolled.push _ _, ?_⟩
    exact roster.lists_next callee enrolled.size
  entered {roster machine enclosing} enrolled _ := by
    have opened := enrolled.push enclosing none
    have grown : roster <+: roster ++ [none] := List.prefix_append _ _
    refine ⟨_, fun _ listed => listed.grow grown, { opened with }, fun last after further finished => ?_⟩
    exact ⟨last, grown.trans further, { finished with }, fun _ listed => listed⟩

/-- To evaluate an expression adds to the roster, and its value is on it. -/
theorem evaluate_enrolled {machine : Machine} {roster : Roster} (enrolled : machine.Enrolled roster)
    (evaluated : evaluate limits node machine = .ok value after) :
    ∃ more, after.Enrolled (roster ++ more) ∧ Roster.Lists (roster ++ more) value := by
  have ends := enrolment.evaluate_ends limits node enrolled
  rw [evaluated] at ends
  obtain ⟨_, ⟨more, rfl⟩, enrolled, listed⟩ := ends
  exact ⟨more, enrolled, listed⟩

end Eval

namespace Script

variable {machine : Machine}

/-- However texts are run, there is a roster for the machine. -/
theorem Reached.enrolled (reached : Reached machine) : ∃ roster, machine.Enrolled roster := by
  induction reached with
  | fresh => exact ⟨_, .fresh⟩
  | run limits source _ ih =>
    obtain ⟨roster, enrolled⟩ := ih
    obtain ⟨later, -, enrolled⟩ := Eval.enrolment.run_ends limits source enrolled
    exact ⟨later, enrolled⟩

/-- At every moment of a run there is a roster. -/
theorem run_enrolled (reached : Reached machine) (limits : Limits) (source : String) :
    runChecked Machine.isEnrolled limits source machine = run limits source machine := by
  obtain ⟨roster, enrolled⟩ := reached.enrolled
  have fits : Eval.enrolment.fits roster machine := enrolled
  have passes : ∀ roster now, Eval.enrolment.fits roster now → now.isEnrolled :=
    fun _ _ => Machine.Enrolled.isEnrolled
  exact runChecked_eq fun program _ =>
    (Eval.Account.interpret_covers passes limits program roster machine fits).1

end Script

end Scriptlet
